import Mathlib

/-!
# Reachability in directed graphs

A directed graph is a relation. This file collects what the analysis of a graph
algorithm needs: sets that no edge leaves, the edge by which a path leaves a set,
strong connection, and the order in which the nodes of a graph without cycles
can be listed.
-/

namespace SchemaForge

namespace Digraph

open Relation

variable {α : Type*} {r : α → α → Prop}

/-- Each of the two nodes can be reached from the other. -/
def Connected (r : α → α → Prop) (x y : α) : Prop := ReflTransGen r x y ∧ ReflTransGen r y x

namespace Connected

theorem refl (x : α) : Connected r x x := ⟨.refl, .refl⟩

theorem symm {x y : α} (connected : Connected r x y) : Connected r y x :=
  ⟨connected.2, connected.1⟩

theorem trans {x y z : α} (left : Connected r x y) (right : Connected r y z) : Connected r x z :=
  ⟨left.1.trans right.1, right.2.trans left.2⟩

theorem mono {q : α → α → Prop} (sub : ∀ x y, r x y → q x y) {x y : α}
    (connected : Connected r x y) : Connected q x y :=
  ⟨ReflTransGen.mono sub _ _ connected.1, ReflTransGen.mono sub _ _ connected.2⟩

end Connected

/-- No path leaves a set that no edge leaves. -/
theorem mem_of_reaches {s : Set α} (closed : ∀ x ∈ s, ∀ y, r x y → y ∈ s) {x y : α}
    (path : ReflTransGen r x y) (start : x ∈ s) : y ∈ s := by
  induction path with
  | refl => exact start
  | tail _ edge ih => exact closed _ ih _ edge

/-- A path between two connected nodes stays among the nodes that are connected with them. -/
theorem reaches_within {x y : α} (connected : Connected r x y) :
    ReflTransGen (fun u v => r u v ∧ Connected r x u ∧ Connected r x v) x y := by
  obtain ⟨path, back⟩ := connected
  induction path with
  | refl => exact .refl
  | @tail u v before edge ih =>
      have uConnected : Connected r x u := ⟨before, .head edge back⟩
      have vConnected : Connected r x v := ⟨before.tail edge, back⟩
      exact (ih uConnected.2).tail ⟨edge, uConnected, vConnected⟩

/--
The nodes of a finite graph can be listed so that every edge leads to an earlier node, when no two
different nodes are connected. Loops are ignored.
-/
theorem exists_order {nodes : List α}
    (acyclic : ∀ x y, Connected r x y → x = y) :
    ∃ order : List α, order.Perm nodes ∧
      ∀ before x after, order = before ++ x :: after → ∀ y ∈ nodes, r x y → y = x ∨ y ∈ before := by
  classical
  have partialOrder : IsPartialOrder α fun x y => ReflTransGen r y x :=
    { refl := fun _ => .refl
      trans := fun _ _ _ left right => right.trans left
      antisymm := fun _ _ left right => acyclic _ _ ⟨right, left⟩ }
  obtain ⟨le, linear, extends_⟩ := extend_partialOrder fun x y => ReflTransGen r y x
  refine ⟨nodes.insertionSort le, List.perm_insertionSort le nodes, ?_⟩
  intro before x after split y mem edge
  have sorted := List.pairwise_insertionSort le nodes
  have listed : y ∈ nodes.insertionSort le := (List.perm_insertionSort le nodes).mem_iff.mpr mem
  rw [split] at sorted listed
  rcases List.mem_append.mp listed with earlier | later
  · exact .inr earlier
  · rcases List.mem_cons.mp later with same | later
    · exact .inl same
    · -- A node listed later is above `x`, and the edge says that it is below.
      have above : le x y := (List.pairwise_cons.mp (List.pairwise_append.mp sorted).2.1).1 y later
      have below : le y x := extends_ _ _ (.single edge)
      exact .inl (antisymm below above)

/--
A list of the nodes in which every edge leads to an earlier one excludes cycles. Nodes are listed
under the names that `f` gives them.
-/
theorem eq_of_connected_of_order {β : Type*} {f : α → β} {order : List β} (distinct : order.Nodup)
    (backward : ∀ before b after, order = before ++ b :: after →
      ∀ x y, f x = b → r x y → f y = b ∨ f y ∈ before)
    {x y : α} (listed : f x ∈ order) (connected : Connected r x y) : f y = f x := by
  obtain ⟨before, after, split⟩ := List.append_of_mem listed
  -- What is listed before a node is closed, because its edges lead further to the front.
  have closed : ∀ u, f u ∈ before → ∀ v, r u v → f v ∈ before := by
    intro u mem v edge
    obtain ⟨front, middle, shape⟩ := List.append_of_mem mem
    rw [shape, List.append_assoc, List.cons_append] at split
    rcases backward front (f u) _ split u v rfl edge with same | earlier
    · rwa [same]
    · rw [shape]
      exact List.mem_append_left _ earlier
  have reached : f y = f x ∨ f y ∈ before := by
    refine mem_of_reaches (s := { v | f v = f x ∨ f v ∈ before }) ?_ connected.1 (.inl rfl)
    rintro u (same | earlier) v edge
    · rcases backward before (f x) after split u v same edge with again | mem
      · exact .inl again
      · exact .inr mem
    · exact .inr (closed u earlier v edge)
  rcases reached with same | earlier
  · exact same
  · have again : f x ∈ before :=
      mem_of_reaches (s := { v | f v ∈ before }) closed connected.2 earlier
    rw [split] at distinct
    exact absurd again (List.disjoint_of_nodup_append distinct · (by simp))

end Digraph

end SchemaForge
