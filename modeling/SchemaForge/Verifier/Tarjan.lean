import Mathlib

/-!
# Tarjan's algorithm

The algorithm as the verifier runs it, on tables numbered by their position in
the schema. The vectors of the source that are indexed by position are functions
on `Fin n`, and its stack is a list with the top first. The recursion of `visit`
is bounded by fuel; no visit is deeper than the number of tables.
-/

namespace SchemaForge.Verifier

variable {n : Nat}

structure Tarjan (n : Nat) where
  index : Fin n → Option Nat
  low : Fin n → Nat
  onStack : Fin n → Bool
  stack : List (Fin n)
  next : Nat
  components : List (List (Fin n))

namespace Tarjan

def new (n : Nat) : Tarjan n where
  index _ := none
  low _ := 0
  onStack _ := false
  stack := []
  next := 0
  components := []

/-- The first lines of a visit. -/
def enter (s : Tarjan n) (node : Fin n) : Tarjan n where
  index := Function.update s.index node (some s.next)
  low := Function.update s.low node s.next
  onStack := Function.update s.onStack node true
  stack := node :: s.stack
  next := s.next + 1
  components := s.components

def lower (s : Tarjan n) (node : Fin n) (bound : Nat) : Tarjan n :=
  { s with low := Function.update s.low node (min (s.low node) bound) }

/-- The members popped off the stack down to `node`, and what is left. -/
def popUntil (node : Fin n) : List (Fin n) → List (Fin n) × List (Fin n)
  | [] => ([], [])
  | member :: rest =>
      if member = node then ([member], rest)
      else
        let (component, left) := popUntil node rest
        (member :: component, left)

/-- The last lines of a visit, for a node that is the root of its component. -/
def close (s : Tarjan n) (node : Fin n) : Tarjan n :=
  let (component, left) := popUntil node s.stack
  { s with
    onStack := fun member => s.onStack member && !component.contains member
    stack := left
    components := s.components ++ [component] }

/-- One iteration over the neighbours of a node, with the visit of a new one as a parameter. -/
def follow (visit : Fin n → Tarjan n → Tarjan n) (node : Fin n) (s : Tarjan n)
    (neighbour : Fin n) : Tarjan n :=
  match s.index neighbour with
  | none =>
      let s := visit neighbour s
      s.lower node (s.low neighbour)
  | some index => if s.onStack neighbour then s.lower node index else s

/-- A visit of depth at most `fuel`. -/
def visit (adjacency : Fin n → List (Fin n)) : Nat → Fin n → Tarjan n → Tarjan n
  | 0, _, s => s
  | fuel + 1, node, s =>
      let s := (adjacency node).foldl (follow (visit adjacency fuel) node) (s.enter node)
      if some (s.low node) ≠ s.index node then s else s.close node

end Tarjan

def adjacency (edges : List (Fin n × Fin n)) (node : Fin n) : List (Fin n) :=
  (edges.filter fun edge => edge.1 = node).map Prod.snd

/-- The components of every table, in the order they are found. -/
def tarjan (edges : List (Fin n × Fin n)) : Tarjan n :=
  (List.finRange n).foldl (fun s node =>
    if s.index node = none then s.visit (adjacency edges) n node else s) (.new n)

/-- Groups of two or more tables that can each reach the others, sorted. -/
def stronglyConnected (n : Nat) (edges : List (Fin n × Fin n)) : List (List (Fin n)) :=
  (((tarjan edges).components.filter fun component => 1 < component.length).map fun component =>
    component.insertionSort (· ≤ ·)).insertionSort (· ≤ ·)

end SchemaForge.Verifier
