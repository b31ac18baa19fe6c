import SchemaForge.Verifier.Components

/-!
# Tarjan's algorithm on vectors

The algorithm once more, on vectors of positions as the source has them. An index
out of range and a recursion that is too deep both give nothing. Neither happens:
the run on vectors is the run on functions, whose groups are the strongly connected
components with two members or more.
-/

namespace SchemaForge.Verifier

structure TarjanVectors where
  index : List (Option Nat)
  low : List Nat
  onStack : List Bool
  stack : List Nat
  next : Nat
  components : List (List Nat)

namespace TarjanVectors

/-- `vector[position] = value`. -/
def assign {α : Type} (vector : List α) (position : Nat) (value : α) : Option (List α) :=
  if position < vector.length then some (vector.set position value) else none

def new (count : Nat) : TarjanVectors where
  index := List.replicate count none
  low := List.replicate count 0
  onStack := List.replicate count false
  stack := []
  next := 0
  components := []

def enter (v : TarjanVectors) (node : Nat) : Option TarjanVectors := do
  let index ← assign v.index node (some v.next)
  let low ← assign v.low node v.next
  let onStack ← assign v.onStack node true
  return { v with index, low, onStack, stack := node :: v.stack, next := v.next + 1 }

def lower (v : TarjanVectors) (node bound : Nat) : Option TarjanVectors := do
  let low ← assign v.low node (min (← v.low[node]?) bound)
  return { v with low }

/-- The members popped off the stack down to `node`, what is left, and the marks without theirs. -/
def popUntil (node : Nat) : List Nat → List Bool → Option (List Nat × List Nat × List Bool)
  | [], onStack => some ([], [], onStack)
  | member :: rest, onStack => do
      let onStack ← assign onStack member false
      if member = node then return ([member], rest, onStack)
      else
        let (component, left, onStack) ← popUntil node rest onStack
        return (member :: component, left, onStack)

def close (v : TarjanVectors) (node : Nat) : Option TarjanVectors := do
  let (component, stack, onStack) ← popUntil node v.stack v.onStack
  return { v with stack, onStack, components := v.components ++ [component] }

/-- One iteration over the neighbours of a node, with the visit of a new one as a parameter. -/
def follow (visit : Nat → TarjanVectors → Option TarjanVectors) (node : Nat) (v : TarjanVectors)
    (neighbour : Nat) : Option TarjanVectors := do
  match ← v.index[neighbour]? with
  | none =>
      let v ← visit neighbour v
      v.lower node (← v.low[neighbour]?)
  | some index => if ← v.onStack[neighbour]? then v.lower node index else return v

/-- A visit of depth at most `fuel`. -/
def visit (adjacency : List (List Nat)) : Nat → Nat → TarjanVectors → Option TarjanVectors
  | 0, _, _ => none
  | fuel + 1, node, v => do
      let v ← v.enter node
      let v ← (← adjacency[node]?).foldlM (follow (visit adjacency fuel) node) v
      if some (← v.low[node]?) ≠ (← v.index[node]?) then return v else v.close node

/-- `adjacency[from].push(to)`, for every edge. -/
def adjacencyOf (count : Nat) (edges : List (Nat × Nat)) : Option (List (List Nat)) :=
  edges.foldlM (fun adjacency edge => do
    assign adjacency edge.1 ((← adjacency[edge.1]?) ++ [edge.2])) (List.replicate count [])

/-- `strongly_connected`, with visits of depth at most `fuel`. -/
def stronglyConnected (fuel count : Nat) (edges : List (Nat × Nat)) : Option (List (List Nat)) := do
  let adjacency ← adjacencyOf count edges
  let v ← (List.range count).foldlM (fun v node => do
    if (← v.index[node]?).isNone then visit adjacency fuel node v else return v) (new count)
  return ((v.components.filter fun component => 1 < component.length).map fun component =>
    component.insertionSort (· ≤ ·)).insertionSort (· ≤ ·)

end TarjanVectors

namespace Tarjan

variable {n : Nat}

/-- The vectors of a state. -/
def vectors (s : Tarjan n) : TarjanVectors where
  index := List.ofFn s.index
  low := List.ofFn s.low
  onStack := List.ofFn s.onStack
  stack := s.stack.map Fin.val
  next := s.next
  components := s.components.map (List.map Fin.val)

theorem getElem?_ofFn {α : Type} (f : Fin n → α) (x : Fin n) :
    (List.ofFn f)[x.val]? = some (f x) := by
  rw [List.getElem?_ofFn, dif_pos x.isLt]

theorem assign_ofFn {α : Type} (f : Fin n → α) (x : Fin n) (value : α) :
    TarjanVectors.assign (List.ofFn f) x value = some (List.ofFn (Function.update f x value)) := by
  unfold TarjanVectors.assign
  rw [List.length_ofFn, if_pos x.isLt]
  congr 1
  apply List.ext_getElem
  · simp
  · intro i bound bound'
    rw [List.length_set, List.length_ofFn] at bound
    by_cases same : x.val = i
    · subst same
      simp
    · have other : (⟨i, bound⟩ : Fin n) ≠ x := by
        rintro rfl
        exact same rfl
      simp [same, Function.update_of_ne other]

theorem vectors_new : (Tarjan.new n).vectors = TarjanVectors.new n := by
  simp [vectors, new, TarjanVectors.new, List.ofFn_const]

theorem vectors_enter (s : Tarjan n) (node : Fin n) :
    s.vectors.enter node = some (s.enter node).vectors := by
  simp [TarjanVectors.enter, vectors, assign_ofFn, enter]

theorem vectors_lower (s : Tarjan n) (node : Fin n) (bound : Nat) :
    s.vectors.lower node bound = some (s.lower node bound).vectors := by
  simp [TarjanVectors.lower, vectors, assign_ofFn, lower]

theorem vectors_popUntil (node : Fin n) (stack : List (Fin n)) (onStack : Fin n → Bool) :
    TarjanVectors.popUntil node (stack.map Fin.val) (List.ofFn onStack) =
      some ((popUntil node stack).1.map Fin.val, (popUntil node stack).2.map Fin.val,
        List.ofFn fun member => onStack member && !(popUntil node stack).1.contains member) := by
  induction stack generalizing onStack with
  | nil => simp [TarjanVectors.popUntil, popUntil]
  | cons member rest ih =>
      have cleared (component : List (Fin n)) :
          (fun other => Function.update onStack member false other && !component.contains other) =
            fun other => onStack other && !(member :: component).contains other := by
        funext other
        by_cases same : other = member
        · simp [same]
        · simp [same]
      rw [List.map_cons, TarjanVectors.popUntil, assign_ofFn, popUntil]
      by_cases here : member = node
      · rw [if_pos here]
        have last := cleared []
        simp only [List.contains_nil, Bool.not_false, Bool.and_true] at last
        change (if member.val = node.val then _ else _) = _
        rw [if_pos (congrArg Fin.val here)]
        change some _ = some ([member.val], _, List.ofFn fun other =>
          onStack other && !List.contains [member] other)
        rw [← last]
      · have apart : member.val ≠ node.val := fun same => here (Fin.ext same)
        rw [if_neg here]
        change (if member.val = node.val then _ else _) = _
        rw [if_neg apart, ih, cleared]
        rfl

theorem vectors_close (s : Tarjan n) (node : Fin n) :
    s.vectors.close node = some (s.close node).vectors := by
  simp [TarjanVectors.close, vectors, vectors_popUntil, close]

/-- The visits of new nodes from a gray path run alike on functions and on vectors. -/
def VisitMatches (adj : Fin n → List (Fin n)) (visit : Nat → TarjanVectors → Option TarjanVectors)
    (fuel : Nat) :
    Prop :=
  ∀ {gray : List (Fin n)} {node : Fin n} {s : Tarjan n}, Invariant adj gray s →
    s.index node = none → (∀ x ∈ gray, Reaches adj x node) → s.unvisited ≤ fuel →
      visit node s.vectors = some (s.visit adj fuel node).vectors

variable {adj : Fin n → List (Fin n)}
    {visit' : Nat → TarjanVectors → Option TarjanVectors} {fuel : Nat}

theorem vectors_follow (matches_ : VisitMatches adj visit' fuel) {gray : List (Fin n)}
    {node neighbour : Fin n} {t : Tarjan n} (reached : ∀ x ∈ gray, Reaches adj x node)
    (during : Invariant adj (node :: gray) t) (edge : neighbour ∈ adj node)
    (enough : t.unvisited ≤ fuel) :
    TarjanVectors.follow visit' node t.vectors neighbour =
      some (follow (visit adj fuel) node t neighbour).vectors := by
  have index : t.vectors.index[neighbour.val]? = some (t.index neighbour) := getElem?_ofFn _ _
  have onStack : t.vectors.onStack[neighbour.val]? = some (t.onStack neighbour) := getElem?_ofFn _ _
  unfold TarjanVectors.follow follow
  rw [index]
  cases found : t.index neighbour with
  | none =>
      have fromGray : ∀ x ∈ node :: gray, Reaches adj x neighbour := by
        intro x mem
        rcases List.mem_cons.mp mem with rfl | mem
        · exact .single edge
        · exact (reached x mem).tail edge
      have visited := matches_ during found fromGray enough
      have low : (t.visit adj fuel neighbour).vectors.low[neighbour.val]? =
          some ((t.visit adj fuel neighbour).low neighbour) := getElem?_ofFn _ _
      simp [visited, low, vectors_lower]
  | some number =>
      cases mark : t.onStack neighbour with
      | true => simp [onStack, mark, vectors_lower]
      | false => simp [onStack, mark]

theorem vectors_loop (matches_ : VisitMatches adj visit' fuel) {gray : List (Fin n)} {node : Fin n}
    {s t : Tarjan n} {done left : List (Fin n)} (before : Invariant adj gray s)
    (new : s.index node = none) (reached : ∀ x ∈ gray, Reaches adj x node)
    (during : Invariant adj (node :: gray) t) (explores : Explores adj node s t done)
    (edges : ∀ neighbour ∈ left, neighbour ∈ adj node) (enough : s.unvisited ≤ fuel + 1) :
    (left.map Fin.val).foldlM (TarjanVectors.follow visit' node) t.vectors =
      some (left.foldl (follow (visit adj fuel) node) t).vectors := by
  induction left generalizing t done with
  | nil => rfl
  | cons neighbour left ih =>
      have fewer := explores.extends_.unvisited_lt new (by simp [explores.entered])
      have edge := edges neighbour List.mem_cons_self
      obtain ⟨next, further⟩ :=
        explores.follow (visitCorrect adj fuel) before new reached during edge (by omega)
      rw [List.map_cons, List.foldlM_cons, vectors_follow matches_ reached during edge (by omega),
        List.foldl_cons]
      exact ih next further fun x mem => edges x (List.mem_cons_of_mem _ mem)

/-- A visit on vectors may be allowed to go deeper; it does not. -/
theorem visitMatches {adjacency : List (List Nat)}
    (listed : ∀ x : Fin n, adjacency[x.val]? = some ((adj x).map Fin.val)) (extra fuel : Nat) :
    VisitMatches adj (TarjanVectors.visit adjacency (extra + fuel)) fuel := by
  induction fuel with
  | zero =>
      intro gray node s _ new _ enough
      have : 0 < s.unvisited := Finset.card_pos.mpr ⟨node, by simpa using new⟩
      omega
  | succ fuel ih =>
      intro gray node s before new reached enough
      have loop := vectors_loop ih before new reached (before.enter new reached) (.start new)
        (fun _ mem => mem) enough
      rw [← Nat.add_assoc]
      unfold TarjanVectors.visit visit
      rw [vectors_enter, listed]
      generalize (adj node).foldl (follow (visit adj fuel) node) (s.enter node) = t at loop ⊢
      have low : t.vectors.low[node.val]? = some (t.low node) := getElem?_ofFn _ _
      have index : t.vectors.index[node.val]? = some (t.index node) := getElem?_ofFn _ _
      simp only [Option.bind_eq_bind, Option.bind_some, loop, low, index]
      split
      · rfl
      · exact vectors_close t node

/-- The loop over all nodes. -/
theorem vectors_visitAll {adjacency : List (List Nat)}
    (listed : ∀ x : Fin n, adjacency[x.val]? = some ((adj x).map Fin.val)) (extra : Nat)
    (nodes : List (Fin n)) {s : Tarjan n} (invariant : Invariant adj [] s) :
    (nodes.map Fin.val).foldlM (fun v node => do
        if (← v.index[node]?).isNone then TarjanVectors.visit adjacency (extra + n) node v
          else return v) s.vectors =
      some (nodes.foldl (fun s node => if s.index node = none then s.visit adj n node else s)
        s).vectors := by
  induction nodes generalizing s with
  | nil => rfl
  | cons node nodes ih =>
      have index : s.vectors.index[node.val]? = some (s.index node) := getElem?_ofFn _ _
      have few : s.unvisited ≤ n := by
        simpa [unvisited] using Finset.card_filter_le Finset.univ fun x => s.index x = none
      rw [List.map_cons, List.foldlM_cons, List.foldl_cons]
      simp only [index, Option.bind_eq_bind, Option.bind_some]
      cases new : s.index node with
      | none =>
          have noGray {p : Fin n → Prop} : ∀ x ∈ ([] : List (Fin n)), p x := by
            intro x mem
            cases mem
          rw [Option.isNone_none, if_pos rfl, if_pos rfl,
            visitMatches listed extra n invariant new noGray few]
          exact ih (visitCorrect adj n invariant new noGray few).1
      | some number =>
          rw [Option.isNone_some, if_neg Bool.false_ne_true, if_neg (Option.some_ne_none number)]
          exact ih invariant

end Tarjan

variable {n : Nat}

/-- The edges under the positions of their ends. -/
def numbered (edges : List (Fin n × Fin n)) : List (Nat × Nat) :=
  edges.map fun edge => (edge.1.val, edge.2.val)

theorem exists_numbered {edges : List (Nat × Nat)}
    (inRange : ∀ edge ∈ edges, edge.1 < n ∧ edge.2 < n) :
    ∃ edges' : List (Fin n × Fin n), numbered edges' = edges := by
  induction edges with
  | nil => exact ⟨[], rfl⟩
  | cons edge rest ih =>
      rcases List.forall_mem_cons.mp inRange with ⟨⟨start, stop⟩, later⟩
      rcases ih later with ⟨rest', rfl⟩
      exact ⟨(⟨edge.1, start⟩, ⟨edge.2, stop⟩) :: rest', rfl⟩

theorem adjacencyOf_numbered (edges : List (Fin n × Fin n)) :
    TarjanVectors.adjacencyOf n (numbered edges) =
      some (List.ofFn fun x => (adjacency edges x).map Fin.val) := by
  have pushed (lists : Fin n → List Nat) : (numbered edges).foldlM (fun adjacency edge => do
      TarjanVectors.assign adjacency edge.1 ((← adjacency[edge.1]?) ++ [edge.2]))
        (List.ofFn lists) =
        some (List.ofFn fun x => lists x ++ (adjacency edges x).map Fin.val) := by
    induction edges generalizing lists with
    | nil => simp [numbered, adjacency]
    | cons edge rest ih =>
        rw [numbered, List.map_cons, List.foldlM_cons]
        simp only [Tarjan.getElem?_ofFn, Option.bind_eq_bind, Option.bind_some, Tarjan.assign_ofFn]
        refine (ih _).trans ?_
        congr 2
        funext x
        by_cases same : edge.1 = x
        · subst same
          simp [adjacency]
        · simp [adjacency, same, Ne.symm same]
  have empty := pushed fun _ => []
  simpa [TarjanVectors.adjacencyOf, List.ofFn_const] using empty

theorem strictMono_map_val : StrictMono (List.map (Fin.val : Fin n → Nat)) :=
  fun _ _ => List.map_lt fun _ _ less => less

theorem vectors_stronglyConnected (extra : Nat) (edges : List (Fin n × Fin n)) :
    TarjanVectors.stronglyConnected (extra + n) n (numbered edges) =
      some ((stronglyConnected n edges).map (List.map Fin.val)) := by
  have listed (x : Fin n) : (List.ofFn fun x => (adjacency edges x).map Fin.val)[x.val]? =
      some ((adjacency edges x).map Fin.val) := Tarjan.getElem?_ofFn _ x
  have run :=
    Tarjan.vectors_visitAll listed extra (List.finRange n) (Tarjan.invariant_new (adjacency edges))
  rw [List.map_coe_finRange_eq_range, Tarjan.vectors_new] at run
  unfold TarjanVectors.stronglyConnected
  rw [adjacencyOf_numbered, Option.bind_eq_bind, Option.bind_some, run]
  have sorted (component : List (Fin n)) : (component.map Fin.val).insertionSort (· ≤ ·) =
      (component.insertionSort (· ≤ ·)).map Fin.val :=
    (List.map_insertionSort (· ≤ ·) (· ≤ ·) Fin.val component fun _ _ _ _ => Iff.rfl).symm
  change some (((((tarjan edges).components.map (List.map Fin.val)).filter fun component =>
    1 < component.length).map fun component =>
      component.insertionSort (· ≤ ·)).insertionSort (· ≤ ·)) = _
  rw [stronglyConnected, List.map_insertionSort (· ≤ ·) (· ≤ ·) (List.map Fin.val) _ fun _ _ _ _ =>
    strictMono_map_val.le_iff_le.symm, List.filter_map, List.map_map, List.map_map]
  congr 3
  · funext component
    exact sorted component
  · congr 1
    funext component
    simp

/-- The group is one strongly connected component, of two members or more and in ascending order. -/
structure IsComponent (count : Nat) (edges : List (Nat × Nat)) (group : List Nat) : Prop where
  ascending : group.Pairwise (· < ·)
  long : 2 ≤ group.length
  inRange : ∀ x ∈ group, x < count
  members : ∀ x ∈ group, ∀ y < count, y ∈ group ↔ Digraph.Connected (fun x y => (x, y) ∈ edges) x y

theorem nodup_component {edges : List (Fin n × Fin n)} {component : List (Fin n)}
    (found : component ∈ (tarjan edges).components) : component.Nodup :=
  (List.nodup_flatten.mp (invariant_tarjan edges).1.components_nodup).1 component found

theorem group_ascending {edges : List (Fin n × Fin n)} {group : List (Fin n)}
    (found : group ∈ stronglyConnected n edges) : group.SortedLT := by
  rcases mem_stronglyConnected.mp found with ⟨component, inside, -, rfl⟩
  refine (List.sortedLE_insertionSort).sortedLT_of_nodup ?_
  exact (List.perm_insertionSort _ component).nodup_iff.mpr (nodup_component inside)

theorem groups_disjoint (edges : List (Fin n × Fin n)) :
    (stronglyConnected n edges).Pairwise List.Disjoint := by
  have components := (List.nodup_flatten.mp (invariant_tarjan edges).1.components_nodup).2
  refine ((List.perm_insertionSort _ _).pairwise_iff fun apart => apart.symm).mpr ?_
  rw [List.pairwise_map]
  refine (components.filter _).imp ?_
  intro first second apart x inFirst inSecond
  rw [List.mem_insertionSort] at inFirst inSecond
  exact apart inFirst inSecond

theorem groups_ascending (edges : List (Fin n × Fin n)) :
    (stronglyConnected n edges).Pairwise (· < ·) := by
  have sorted : (stronglyConnected n edges).Pairwise (· ≤ ·) := List.pairwise_insertionSort _ _
  refine (sorted.and (groups_disjoint edges)).imp_of_mem ?_
  rintro first second found - ⟨le, apart⟩
  refine lt_of_le_of_ne le ?_
  rintro rfl
  rcases exists_two_of_group found with ⟨x, mem, -⟩
  exact apart mem mem

theorem mem_numbered {edges : List (Fin n × Fin n)} {x y : Nat} : (x, y) ∈ numbered edges ↔
    ∃ x' y' : Fin n, (x', y') ∈ edges ∧ x'.val = x ∧ y'.val = y := by
  constructor
  · intro mem
    rcases List.mem_map.mp mem with ⟨⟨x', y'⟩, inside, same⟩
    cases same
    exact ⟨x', y', inside, rfl, rfl⟩
  · rintro ⟨x', y', inside, rfl, rfl⟩
    exact List.mem_map.mpr ⟨(x', y'), inside, rfl⟩

theorem reaches_numbered_iff {edges : List (Fin n × Fin n)} {x y : Fin n} :
    Relation.ReflTransGen (fun x y => (x, y) ∈ numbered edges) x.val y.val ↔
      Relation.ReflTransGen (fun x y => (x, y) ∈ edges) x y := by
  constructor
  · intro path
    generalize same : y.val = stop at path
    induction path generalizing y with
    | refl => rw [Fin.ext same]
    | tail _ edge ih =>
        rcases mem_numbered.mp edge with ⟨middle, stop', inside, rfl, here⟩
        rw [Fin.ext (same.trans here.symm)]
        exact (ih rfl).tail inside
  · intro path
    exact path.lift Fin.val fun x y inside => mem_numbered.mpr ⟨x, y, inside, rfl, rfl⟩

theorem connected_numbered_iff {edges : List (Fin n × Fin n)} {x y : Fin n} :
    Digraph.Connected (fun x y => (x, y) ∈ numbered edges) x.val y.val ↔ Connected edges x y :=
  and_congr reaches_numbered_iff reaches_numbered_iff

theorem mem_map_val {group : List (Fin n)} {x : Fin n} : x.val ∈ group.map Fin.val ↔ x ∈ group :=
  List.mem_map_of_injective Fin.val_injective

theorem isComponent_of_group {edges : List (Fin n × Fin n)} {group : List (Fin n)}
    (found : group ∈ stronglyConnected n edges) :
    IsComponent n (numbered edges) (group.map Fin.val) where
  ascending := by
    rw [List.pairwise_map]
    exact (group_ascending found).pairwise
  long := by
    rcases mem_stronglyConnected.mp found with ⟨component, -, long, rfl⟩
    rwa [List.length_map, List.length_insertionSort]
  inRange := by
    intro x mem
    rcases List.mem_map.mp mem with ⟨x', -, rfl⟩
    exact x'.isLt
  members := by
    intro x mem y less
    rcases List.mem_map.mp mem with ⟨x', inside, rfl⟩
    have same := mem_group_iff found inside ⟨y, less⟩
    rw [← connected_numbered_iff] at same
    exact (mem_map_val (x := ⟨y, less⟩)).trans same

theorem group_of_isComponent {edges : List (Fin n × Fin n)} {group : List Nat}
    (component : IsComponent n (numbered edges) group) :
    group ∈ (stronglyConnected n edges).map (List.map Fin.val) := by
  rcases component with ⟨ascending, long, inRange, members⟩
  rcases group with _ | ⟨x, _ | ⟨y, rest⟩⟩
  · cases long
  · cases long
    contradiction
  · have xLess := inRange x List.mem_cons_self
    have yLess := inRange y (List.mem_cons_of_mem _ List.mem_cons_self)
    have less : x < y := (List.pairwise_cons.mp ascending).1 y List.mem_cons_self
    have connected :=
      (members x List.mem_cons_self y yLess).mp (List.mem_cons_of_mem _ List.mem_cons_self)
    have different : (⟨x, xLess⟩ : Fin n) ≠ ⟨y, yLess⟩ :=
      fun same => less.ne (congrArg Fin.val same)
    rcases exists_group different (connected_numbered_iff.mp connected) with ⟨found, mem, inside, -⟩
    have other := isComponent_of_group mem
    refine List.mem_map.mpr ⟨found, mem, other.ascending.eq_of_mem_iff ascending ?_⟩
    intro z
    constructor
    · intro zMem
      have zLess := other.inRange z zMem
      exact (members x List.mem_cons_self z zLess).mpr
        ((other.members x (mem_map_val.mpr inside) z zLess).mp zMem)
    · intro zMem
      have zLess := inRange z zMem
      exact (other.members x (mem_map_val.mpr inside) z zLess).mpr
        ((members x List.mem_cons_self z zLess).mp zMem)

/-- Whatever the graph, no index is out of range and no visit is deeper than the number of nodes;
the groups are the strongly connected components of two nodes or more, each in ascending order and
listed once, in ascending order, with no node in two of them. -/
theorem stronglyConnected_correct {count fuel : Nat} {edges : List (Nat × Nat)}
    (inRange : ∀ edge ∈ edges, edge.1 < count ∧ edge.2 < count) (enough : count ≤ fuel) :
    ∃ groups, TarjanVectors.stronglyConnected fuel count edges = some groups ∧
      (∀ group, group ∈ groups ↔ IsComponent count edges group) ∧
      groups.Pairwise (· < ·) ∧ groups.Pairwise List.Disjoint := by
  rcases exists_numbered inRange with ⟨edges, rfl⟩
  rcases Nat.exists_eq_add_of_le' enough with ⟨extra, rfl⟩
  refine ⟨_, vectors_stronglyConnected extra edges, ?_, ?_, ?_⟩
  · intro group
    refine ⟨?_, group_of_isComponent⟩
    intro mem
    rcases List.mem_map.mp mem with ⟨found, inside, rfl⟩
    exact isComponent_of_group inside
  · rw [List.pairwise_map]
    exact (groups_ascending edges).imp fun less => strictMono_map_val less
  · rw [List.pairwise_map]
    refine (groups_disjoint edges).imp ?_
    intro first second apart x inFirst inSecond
    rcases List.mem_map.mp inFirst with ⟨x', mem, rfl⟩
    exact apart mem (mem_map_val.mp inSecond)

/-- Two cycles that share a node, a loop and an edge given twice. -/
theorem stronglyConnected_correct_twoCycles : ∃ groups,
    TarjanVectors.stronglyConnected 5 5
      [(3, 1), (1, 3), (3, 4), (4, 3), (0, 0), (1, 3), (2, 0)] = some groups ∧
      (∀ group, group ∈ groups ↔
        IsComponent 5 [(3, 1), (1, 3), (3, 4), (4, 3), (0, 0), (1, 3), (2, 0)] group) ∧
      groups.Pairwise (· < ·) ∧ groups.Pairwise List.Disjoint :=
  stronglyConnected_correct (by decide) le_rfl

end SchemaForge.Verifier
