import SchemaForge.Foundation.Digraph
import SchemaForge.Verifier.Tarjan

/-!
# Tarjan's algorithm finds the strongly connected tables

The proof follows the nodes whose visit is in progress, the *gray* nodes. They
reach everything above them on the stack, and everything on the stack reaches one
of them (`Invariant`). What one visit changes is said by `Extends`, and what the
low link of a finished visit means is said by `Visits`. Every group that the
algorithm reports is then a class of connected tables (`mem_group_iff`), and no
class of two or more tables is missing (`exists_group`).
-/

namespace SchemaForge.Verifier

variable {n : Nat}

namespace Tarjan

open Relation

theorem popUntil_append {node : Fin n} {above : List (Fin n)} (fresh : node ∉ above)
    (below : List (Fin n)) : popUntil node (above ++ node :: below) = (above ++ [node], below) := by
  induction above with
  | nil => simp [popUntil]
  | cons member above ih =>
      simp only [List.mem_cons, not_or] at fresh
      simp [popUntil, Ne.symm fresh.1, ih fresh.2]

/-- A later state of the algorithm: it has visited more, and left what was there before alone. -/
structure Extends (s t : Tarjan n) : Prop where
  index : ∀ {x i}, s.index x = some i → t.index x = some i
  fresh : ∀ {x i}, s.index x = none → t.index x = some i → s.next ≤ i
  next : s.next ≤ t.next
  stack : ∃ above, t.stack = above ++ s.stack ∧ ∀ x ∈ above, s.index x = none
  low : ∀ {x}, s.index x ≠ none → t.low x = s.low x

namespace Extends

theorem refl (s : Tarjan n) : Extends s s where
  index found := found
  fresh unvisited visited := by simp [unvisited] at visited
  next := le_rfl
  stack := ⟨[], rfl, by simp⟩
  low _ := rfl

theorem visited {s t : Tarjan n} (grows : Extends s t) {x : Fin n} (visited : s.index x ≠ none) :
    t.index x ≠ none := by
  obtain ⟨i, found⟩ := Option.ne_none_iff_exists'.mp visited
  simp [grows.index found]

theorem trans {s t u : Tarjan n} (left : Extends s t) (right : Extends t u) : Extends s u where
  index found := right.index (left.index found)
  fresh {x i} unvisited visited := by
    cases before : t.index x with
    | none => exact left.next.trans (right.fresh before visited)
    | some j =>
        have same := right.index before
        rw [visited, Option.some.injEq] at same
        exact same ▸ left.fresh unvisited before
  next := left.next.trans right.next
  stack := by
    obtain ⟨first, firstShape, firstNew⟩ := left.stack
    obtain ⟨second, secondShape, secondNew⟩ := right.stack
    refine ⟨second ++ first, by rw [secondShape, firstShape, List.append_assoc], fun x mem => ?_⟩
    rcases List.mem_append.mp mem with mem | mem
    · by_contra visited
      exact left.visited visited (secondNew x mem)
    · exact firstNew x mem
  low visited := (right.low (left.visited visited)).trans (left.low visited)

theorem mem_stack {s t : Tarjan n} (grows : Extends s t) {x : Fin n} (mem : x ∈ s.stack) :
    x ∈ t.stack := by
  obtain ⟨above, shape, -⟩ := grows.stack
  rw [shape]
  exact List.mem_append_right _ mem

/-- What was visited before is on the stack only if it was there before. -/
theorem mem_stack_of_visited {s t : Tarjan n} (grows : Extends s t) {x : Fin n}
    (visited : s.index x ≠ none) (mem : x ∈ t.stack) : x ∈ s.stack := by
  obtain ⟨above, shape, new⟩ := grows.stack
  rw [shape] at mem
  rcases List.mem_append.mp mem with mem | mem
  · exact absurd (new x mem) visited
  · exact mem

/-- Lowering the link of a node that was new keeps the rest. -/
theorem lower {s t : Tarjan n} (grows : Extends s t) {node : Fin n} (new : s.index node = none)
    (bound : Nat) : Extends s (t.lower node bound) where
  index := grows.index
  fresh := grows.fresh
  next := grows.next
  stack := grows.stack
  low {x} visited := by
    have other : x ≠ node := by
      rintro rfl
      exact visited new
    simp [Tarjan.lower, other, grows.low visited]

theorem enter {s : Tarjan n} {node : Fin n} (new : s.index node = none) :
    Extends s (s.enter node) where
  index {x i} found := by
    have other : x ≠ node := by
      rintro rfl
      simp [new] at found
    simp [Tarjan.enter, other, found]
  fresh {x i} unvisited visited := by
    by_cases same : x = node
    · subst same
      simp only [Tarjan.enter, Function.update_self, Option.some.injEq] at visited
      omega
    · simp [Tarjan.enter, same, unvisited] at visited
  next := Nat.le_succ _
  stack := ⟨[node], rfl, by simpa using new⟩
  low {x} visited := by
    have other : x ≠ node := by
      rintro rfl
      exact visited new
    simp [Tarjan.enter, other]

end Extends

/-- The number given to a node when its visit began. -/
def depth (s : Tarjan n) (x : Fin n) : Nat := (s.index x).getD 0

theorem depth_of_index {s : Tarjan n} {x : Fin n} {i : Nat} (found : s.index x = some i) :
    s.depth x = i := by simp [depth, found]

theorem Extends.depth {s t : Tarjan n} (grows : Extends s t) {x : Fin n}
    (visited : s.index x ≠ none) : t.depth x = s.depth x := by
  obtain ⟨i, found⟩ := Option.ne_none_iff_exists'.mp visited
  rw [depth_of_index found, depth_of_index (grows.index found)]

theorem Extends.le_depth {s t : Tarjan n} (grows : Extends s t) {x : Fin n}
    (new : s.index x = none) (visited : t.index x ≠ none) : s.next ≤ t.depth x := by
  obtain ⟨i, found⟩ := Option.ne_none_iff_exists'.mp visited
  rw [depth_of_index found]
  exact grows.fresh new found

variable (adj : Fin n → List (Fin n))

/-- There is a path between two nodes. -/
abbrev Reaches (x y : Fin n) : Prop := ReflTransGen (fun x y => y ∈ adj x) x y

/-- The state of the algorithm while the nodes of `gray` are being visited. -/
structure Invariant (gray : List (Fin n)) (s : Tarjan n) : Prop where
  bound : ∀ {x}, s.index x ≠ none → s.depth x < s.next
  stack_visited : ∀ {x}, x ∈ s.stack → s.index x ≠ none
  stack_nodup : s.stack.Nodup
  onStack : ∀ x, s.onStack x = true ↔ x ∈ s.stack
  gray_stack : ∀ {x}, x ∈ gray → x ∈ s.stack
  /-- A gray node reaches what lies above it. -/
  gray_reaches : ∀ {x y}, x ∈ gray → y ∈ s.stack → s.depth x ≤ s.depth y → Reaches adj x y
  /-- What lies on the stack reaches a gray node below it. -/
  reaches_gray : ∀ {y}, y ∈ s.stack → ∃ x ∈ gray, s.depth x ≤ s.depth y ∧ Reaches adj y x
  /-- The neighbours of a node whose visit is over are visited. -/
  ended : ∀ {x}, s.index x ≠ none → x ∉ gray → ∀ y ∈ adj x, s.index y ≠ none
  /-- No edge leaves the nodes that are off the stack again. -/
  closed : ∀ {x}, s.index x ≠ none → x ∉ s.stack → ∀ y ∈ adj x, s.index y ≠ none ∧ y ∉ s.stack
  covered : ∀ {x}, s.index x ≠ none → x ∉ s.stack → ∃ component ∈ s.components, x ∈ component
  off_stack : ∀ {component x}, component ∈ s.components → x ∈ component →
    s.index x ≠ none ∧ x ∉ s.stack
  component : ∀ {component x}, component ∈ s.components → x ∈ component →
    ∀ y, y ∈ component ↔ Digraph.Connected (fun x y => y ∈ adj x) x y
  components_nodup : s.components.flatten.Nodup

/-- What the visit of a node has done when it is over. -/
structure Visits (node : Fin n) (s t : Tarjan n) : Prop where
  extends_ : Extends s t
  visited : t.index node ≠ none
  /-- A node left on the stack reaches the node that its low link numbers. -/
  low_reaches : node ∈ t.stack → ∃ w ∈ s.stack, s.depth w = t.low node ∧ Reaches adj node w
  /-- A node taken off the stack has its own number as its low link. -/
  low_own : node ∉ t.stack → s.next ≤ t.low node
  /-- No new node has an edge to the old stack below the low link. -/
  low_le : ∀ {u w}, s.index u = none → t.index u ≠ none → w ∈ s.stack → w ∈ adj u →
    t.low node ≤ s.depth w

variable {adj}

theorem depth_enter_self (s : Tarjan n) (node : Fin n) : (s.enter node).depth node = s.next := by
  simp [depth, enter]

theorem depth_enter_of_ne (s : Tarjan n) {node x : Fin n} (other : x ≠ node) :
    (s.enter node).depth x = s.depth x := by
  simp [depth, enter, other]

theorem index_enter_of_ne (s : Tarjan n) {node x : Fin n} (other : x ≠ node) :
    (s.enter node).index x = s.index x := by
  simp [enter, other]

theorem Invariant.enter {gray : List (Fin n)} {s : Tarjan n} (invariant : Invariant adj gray s)
    {node : Fin n} (new : s.index node = none) (reached : ∀ x ∈ gray, Reaches adj x node) :
    Invariant adj (node :: gray) (s.enter node) := by
  have ne_of_visited {x : Fin n} (visited : s.index x ≠ none) : x ≠ node := by
    rintro rfl
    exact visited new
  have ne_of_stack {x : Fin n} (mem : x ∈ s.stack) : x ≠ node :=
    ne_of_visited (invariant.stack_visited mem)
  have visited_of_ne {x : Fin n} (visited : (s.enter node).index x ≠ none) (other : x ≠ node) :
      s.index x ≠ none := by
    rwa [index_enter_of_ne s other] at visited
  have visited_enter {x : Fin n} (visited : s.index x ≠ none) : (s.enter node).index x ≠ none :=
    (Extends.enter new).visited visited
  constructor
  case bound =>
    intro x visited
    by_cases same : x = node
    · subst same
      rw [depth_enter_self]
      exact Nat.lt_succ_self _
    · rw [depth_enter_of_ne s same]
      exact Nat.lt_succ_of_lt (invariant.bound (visited_of_ne visited same))
  case stack_visited =>
    intro x mem
    rcases List.mem_cons.mp mem with rfl | mem
    · simp [Tarjan.enter]
    · exact visited_enter (invariant.stack_visited mem)
  case stack_nodup =>
    exact List.nodup_cons.mpr ⟨fun mem => ne_of_stack mem rfl, invariant.stack_nodup⟩
  case onStack =>
    intro x
    by_cases same : x = node
    · simp [Tarjan.enter, same]
    · simp [Tarjan.enter, same, invariant.onStack]
  case gray_stack =>
    intro x mem
    rcases List.mem_cons.mp mem with rfl | mem
    · exact List.mem_cons_self
    · exact List.mem_cons_of_mem _ (invariant.gray_stack mem)
  case gray_reaches =>
    intro x y isGray onStack le
    rcases List.mem_cons.mp isGray with rfl | wasGray
    · rcases List.mem_cons.mp onStack with rfl | wasOn
      · exact .refl
      · -- The new node has a greater number than everything below it.
        have smaller := invariant.bound (invariant.stack_visited wasOn)
        rw [depth_enter_self, depth_enter_of_ne s (ne_of_stack wasOn)] at le
        omega
    · rcases List.mem_cons.mp onStack with rfl | wasOn
      · exact reached x wasGray
      · rw [depth_enter_of_ne s (ne_of_stack (invariant.gray_stack wasGray)),
          depth_enter_of_ne s (ne_of_stack wasOn)] at le
        exact invariant.gray_reaches wasGray wasOn le
  case reaches_gray =>
    intro y mem
    rcases List.mem_cons.mp mem with rfl | mem
    · exact ⟨y, List.mem_cons_self, le_rfl, .refl⟩
    · obtain ⟨x, gray, le, path⟩ := invariant.reaches_gray mem
      refine ⟨x, List.mem_cons_of_mem _ gray, ?_, path⟩
      rwa [depth_enter_of_ne s (ne_of_stack (invariant.gray_stack gray)),
        depth_enter_of_ne s (ne_of_stack mem)]
  case ended =>
    intro x visited notGray y edge
    simp only [List.mem_cons, not_or] at notGray
    exact visited_enter (invariant.ended (visited_of_ne visited notGray.1) notGray.2 y edge)
  case closed =>
    intro x visited offStack y edge
    simp only [Tarjan.enter, List.mem_cons, not_or] at offStack
    obtain ⟨yVisited, yOff⟩ :=
      invariant.closed (visited_of_ne visited offStack.1) offStack.2 y edge
    refine ⟨visited_enter yVisited, ?_⟩
    simp only [Tarjan.enter, List.mem_cons, not_or]
    exact ⟨ne_of_visited yVisited, yOff⟩
  case covered =>
    intro x visited offStack
    simp only [Tarjan.enter, List.mem_cons, not_or] at offStack
    exact invariant.covered (visited_of_ne visited offStack.1) offStack.2
  case off_stack =>
    intro component x found mem
    obtain ⟨visited, offStack⟩ := invariant.off_stack found mem
    refine ⟨visited_enter visited, ?_⟩
    simp only [Tarjan.enter, List.mem_cons, not_or]
    exact ⟨ne_of_visited visited, offStack⟩
  case component => exact invariant.component
  case components_nodup => exact invariant.components_nodup

theorem Invariant.lower {gray : List (Fin n)} {s : Tarjan n} (invariant : Invariant adj gray s)
    (node : Fin n) (bound : Nat) : Invariant adj gray (s.lower node bound) :=
  ⟨invariant.bound, invariant.stack_visited, invariant.stack_nodup, invariant.onStack,
    invariant.gray_stack, invariant.gray_reaches, invariant.reaches_gray, invariant.ended,
    invariant.closed, invariant.covered, invariant.off_stack, invariant.component,
    invariant.components_nodup⟩

variable (adj) in
/-- The loop over the neighbours of `node`, begun in `s`, has reached `t` after those in `done`. -/
structure Explores (node : Fin n) (s t : Tarjan n) (done : List (Fin n)) : Prop where
  extends_ : Extends s t
  entered : t.index node = some s.next
  stack : ∃ above, t.stack = above ++ node :: s.stack
  low_own : t.low node ≤ s.next
  low_reaches : ∃ w ∈ t.stack, t.depth w = t.low node ∧ Reaches adj node w
  low_le : ∀ {u w}, s.index u = none → t.index u ≠ none → w ∈ s.stack → w ∈ adj u →
    (u = node → w ∈ done) → t.low node ≤ s.depth w
  done_visited : ∀ w ∈ done, t.index w ≠ none

theorem Explores.start {s : Tarjan n} {node : Fin n} (new : s.index node = none) :
    Explores adj node s (s.enter node) [] where
  extends_ := .enter new
  entered := by simp [enter]
  stack := ⟨[], rfl⟩
  low_own := by simp [enter]
  low_reaches := ⟨node, by simp [enter], by simp [depth, enter], .refl⟩
  low_le {u w} unvisited visited _ _ processed := by
    by_cases same : u = node
    · simpa using processed same
    · rw [index_enter_of_ne s same] at visited
      exact absurd unvisited visited
  done_visited := by simp

/-- The node itself stays on the stack while its neighbours are visited. -/
theorem Explores.mem_stack {node : Fin n} {s t : Tarjan n} {done : List (Fin n)}
    (explores : Explores adj node s t done) : node ∈ t.stack := by
  obtain ⟨above, shape⟩ := explores.stack
  simp [shape]

/-- A visited neighbour lowers the link by its number, when it is on the stack. -/
theorem Explores.lower_old {gray : List (Fin n)} {node neighbour : Fin n} {s t : Tarjan n}
    {done : List (Fin n)} {i : Nat} (before : Invariant adj gray s) (new : s.index node = none)
    (explores : Explores adj node s t done) (found : t.index neighbour = some i)
    (onStack : neighbour ∈ t.stack) (edge : neighbour ∈ adj node) :
    Explores adj node s (t.lower node i) (done ++ [neighbour]) where
  extends_ := explores.extends_.lower new i
  entered := explores.entered
  stack := explores.stack
  low_own := by
    have := explores.low_own
    simp only [lower, Function.update_self]
    omega
  low_reaches := by
    simp only [lower, Function.update_self]
    rcases Nat.le_total (t.low node) i with le | le
    · rw [Nat.min_eq_left le]
      exact explores.low_reaches
    · rw [Nat.min_eq_right le]
      exact ⟨neighbour, onStack, depth_of_index found, .single edge⟩
  low_le {u w} unvisited visited stack out processed := by
    simp only [lower, Function.update_self]
    by_cases same : w = neighbour
    · subst same
      rw [← explores.extends_.depth (before.stack_visited stack), depth_of_index found]
      exact Nat.min_le_right _ _
    · refine (Nat.min_le_left _ _).trans
        (explores.low_le unvisited visited stack out fun here => ?_)
      have := processed here
      simp only [List.mem_append, List.mem_singleton] at this
      exact this.resolve_right same
  done_visited w mem := by
    rcases List.mem_append.mp mem with mem | mem
    · exact explores.done_visited w mem
    · rw [List.mem_singleton] at mem
      simp [mem, lower, found]

/-- A visited neighbour that is off the stack belongs to a finished component. -/
theorem Explores.skip_old {node neighbour : Fin n} {s t : Tarjan n} {done : List (Fin n)}
    (explores : Explores adj node s t done) (visited : t.index neighbour ≠ none)
    (offStack : neighbour ∉ t.stack) : Explores adj node s t (done ++ [neighbour]) where
  extends_ := explores.extends_
  entered := explores.entered
  stack := explores.stack
  low_own := explores.low_own
  low_reaches := explores.low_reaches
  low_le {u w} unvisited isVisited stack out processed := by
    refine explores.low_le unvisited isVisited stack out fun here => ?_
    have := processed here
    simp only [List.mem_append, List.mem_singleton] at this
    refine this.resolve_right fun same => offStack ?_
    exact same ▸ explores.extends_.mem_stack stack
  done_visited w mem := by
    rcases List.mem_append.mp mem with mem | mem
    · exact explores.done_visited w mem
    · rw [List.mem_singleton] at mem
      exact mem ▸ visited

/-- A new neighbour is visited, and lowers the link by its own. -/
theorem Explores.visit_new {gray : List (Fin n)} {node neighbour : Fin n} {s t u : Tarjan n}
    {done : List (Fin n)} (before : Invariant adj gray s) (during : Invariant adj (node :: gray) t)
    (new : s.index node = none) (explores : Explores adj node s t done)
    (unvisited : t.index neighbour = none) (edge : neighbour ∈ adj node)
    (visits : Visits adj neighbour t u) :
    Explores adj node s (u.lower node (u.low neighbour)) (done ++ [neighbour]) := by
  have kept : u.low node = t.low node := visits.extends_.low (by simp [explores.entered])
  have own : t.low node < t.next := by
    have := during.bound (x := node) (by simp [explores.entered])
    rw [depth_of_index explores.entered] at this
    exact Nat.lt_of_le_of_lt explores.low_own this
  constructor
  case extends_ => exact (explores.extends_.trans visits.extends_).lower new _
  case entered => exact visits.extends_.index explores.entered
  case stack =>
    obtain ⟨above, shape⟩ := explores.stack
    obtain ⟨more, moreShape, -⟩ := visits.extends_.stack
    exact ⟨more ++ above, by simp [lower, moreShape, shape]⟩
  case low_own =>
    have := explores.low_own
    simp only [lower, Function.update_self]
    omega
  case low_reaches =>
    simp only [lower, Function.update_self, kept]
    rcases Nat.le_total (t.low node) (u.low neighbour) with le | le
    · rw [Nat.min_eq_left le]
      obtain ⟨w, stack, number, path⟩ := explores.low_reaches
      refine ⟨w, visits.extends_.mem_stack stack, ?_, path⟩
      rw [← number]
      exact visits.extends_.depth (during.stack_visited stack)
    · rw [Nat.min_eq_right le]
      by_cases onStack : neighbour ∈ u.stack
      · obtain ⟨w, stack, number, path⟩ := visits.low_reaches onStack
        refine ⟨w, visits.extends_.mem_stack stack, ?_, .head edge path⟩
        rw [← number]
        exact visits.extends_.depth (during.stack_visited stack)
      · have := visits.low_own onStack
        omega
  case low_le =>
    intro x w xUnvisited xVisited stack out processed
    simp only [lower, Function.update_self, kept]
    have onStack := explores.extends_.mem_stack stack
    cases earlier : t.index x with
    | none =>
        -- A node of this very visit: its edges are accounted for by the neighbour's link.
        refine (Nat.min_le_right _ _).trans ((visits.low_le earlier xVisited onStack out).trans ?_)
        exact (explores.extends_.depth (before.stack_visited stack)).le
    | some i =>
        refine (Nat.min_le_left _ _).trans (explores.low_le xUnvisited (by simp [earlier]) stack out
          fun here => ?_)
        have := processed here
        simp only [List.mem_append, List.mem_singleton] at this
        refine this.resolve_right fun same => ?_
        exact during.stack_visited onStack (same ▸ unvisited)
  case done_visited =>
    intro w mem
    rcases List.mem_append.mp mem with mem | mem
    · exact visits.extends_.visited (explores.done_visited w mem)
    · rw [List.mem_singleton] at mem
      exact mem ▸ visits.visited

section Finish

variable {gray : List (Fin n)} {node : Fin n} {s t : Tarjan n}

/-- The neighbours of everything that a visit has found are visited. -/
theorem Explores.visited_of_edge (before : Invariant adj gray s)
    (during : Invariant adj (node :: gray) t) (explores : Explores adj node s t (adj node))
    {u w : Fin n} (unvisited : s.index u = none) (visited : t.index u ≠ none) (edge : w ∈ adj u) :
    t.index w ≠ none := by
  by_cases same : u = node
  · exact explores.done_visited w (same ▸ edge)
  · refine during.ended visited ?_ w edge
    simp only [List.mem_cons, not_or]
    exact ⟨same, fun mem => before.stack_visited (before.gray_stack mem) unvisited⟩

/-- A visited node of a small number was on the stack before, if it is on it now. -/
theorem Explores.mem_old_stack (explores : Explores adj node s t (adj node)) {w : Fin n}
    (mem : w ∈ t.stack) (during : Invariant adj (node :: gray) t) (small : t.depth w < s.next) :
    w ∈ s.stack := by
  refine explores.extends_.mem_stack_of_visited (fun unvisited => ?_) mem
  have := explores.extends_.le_depth unvisited (during.stack_visited mem)
  omega

/-- A visit that found a way down leaves its nodes on the stack, for a gray node below. -/
theorem Invariant.keep (before : Invariant adj gray s) (during : Invariant adj (node :: gray) t)
    (explores : Explores adj node s t (adj node)) (smaller : t.low node < s.next) :
    Invariant adj gray t := by
  constructor
  case bound => exact during.bound
  case stack_visited => exact during.stack_visited
  case stack_nodup => exact during.stack_nodup
  case onStack => exact during.onStack
  case gray_stack => exact fun mem => during.gray_stack (List.mem_cons_of_mem _ mem)
  case gray_reaches => exact fun mem => during.gray_reaches (List.mem_cons_of_mem _ mem)
  case reaches_gray =>
    intro y onStack
    obtain ⟨x, isGray, le, path⟩ := during.reaches_gray onStack
    rcases List.mem_cons.mp isGray with rfl | wasGray
    · -- From the node itself the low link leads further down, to a gray node.
      obtain ⟨w, wStack, number, down⟩ := explores.low_reaches
      have old := explores.mem_old_stack wStack during (by omega)
      obtain ⟨g, wasGray, below, further⟩ := before.reaches_gray old
      refine ⟨g, wasGray, ?_, path.trans (down.trans further)⟩
      rw [depth_of_index explores.entered] at le
      rw [explores.extends_.depth (before.stack_visited (before.gray_stack wasGray))]
      rw [explores.extends_.depth (before.stack_visited old)] at number
      omega
    · exact ⟨x, wasGray, le, path⟩
  case ended =>
    intro x visited notGray y edge
    by_cases same : x = node
    · exact explores.done_visited y (same ▸ edge)
    · refine during.ended visited ?_ y edge
      simp only [List.mem_cons, not_or]
      exact ⟨same, notGray⟩
  case closed => exact during.closed
  case covered => exact during.covered
  case off_stack => exact during.off_stack
  case component => exact during.component
  case components_nodup => exact during.components_nodup

/-- When a visit found no way down, no edge leads from what it found to the old stack. -/
theorem Explores.closed_of_own (before : Invariant adj gray s)
    (during : Invariant adj (node :: gray) t) (explores : Explores adj node s t (adj node))
    (own : t.low node = s.next) :
    ∀ x ∈ { x | t.index x ≠ none ∧ x ∉ s.stack }, ∀ y, y ∈ adj x →
      y ∈ { x | t.index x ≠ none ∧ x ∉ s.stack } := by
  rintro x ⟨visited, offStack⟩ y edge
  by_cases unvisited : s.index x = none
  · refine ⟨explores.visited_of_edge before during unvisited visited edge, fun onStack => ?_⟩
    have le := explores.low_le unvisited visited onStack edge fun same => same ▸ edge
    have small := before.bound (before.stack_visited onStack)
    omega
  · obtain ⟨yVisited, yOff⟩ := before.closed unvisited offStack y edge
    exact ⟨explores.extends_.visited yVisited, yOff⟩

/-- The nodes above the root of a component, with the root, are what is connected with it. -/
theorem Explores.connected_iff (before : Invariant adj gray s)
    (during : Invariant adj (node :: gray) t) (explores : Explores adj node s t (adj node))
    (own : t.low node = s.next) (y : Fin n) :
    Digraph.Connected (fun x y => y ∈ adj x) node y ↔ y ∈ t.stack ∧ y ∉ s.stack := by
  have closed := explores.closed_of_own before during own
  have nodeVisited : t.index node ≠ none := by simp [explores.entered]
  have nodeOff : node ∉ s.stack := by
    intro mem
    obtain ⟨above, shape⟩ := explores.stack
    have nodup := during.stack_nodup
    rw [shape, List.nodup_append] at nodup
    exact (List.nodup_cons.mp nodup.2.1).1 mem
  constructor
  · rintro ⟨path, back⟩
    obtain ⟨visited, offOld⟩ := Digraph.mem_of_reaches closed path ⟨nodeVisited, nodeOff⟩
    refine ⟨by_contra fun offStack => ?_, offOld⟩
    -- Off the stack the node would be part of a finished component, and the root with it.
    have finished : ∀ x ∈ { x | t.index x ≠ none ∧ x ∉ t.stack }, ∀ y, y ∈ adj x →
        y ∈ { x | t.index x ≠ none ∧ x ∉ t.stack } :=
      fun x inside y edge => during.closed inside.1 inside.2 y edge
    exact (Digraph.mem_of_reaches finished back ⟨visited, offStack⟩).2 explores.mem_stack
  · rintro ⟨onStack, offOld⟩
    have visited := during.stack_visited onStack
    have unvisited : s.index y = none := by
      by_contra seen
      exact offOld (explores.extends_.mem_stack_of_visited seen onStack)
    constructor
    · refine during.gray_reaches List.mem_cons_self onStack ?_
      rw [depth_of_index explores.entered]
      exact explores.extends_.le_depth unvisited visited
    · obtain ⟨x, isGray, -, path⟩ := during.reaches_gray onStack
      rcases List.mem_cons.mp isGray with rfl | wasGray
      · exact path
      · have inside := Digraph.mem_of_reaches closed path ⟨visited, offOld⟩
        exact absurd (before.gray_stack wasGray) inside.2

/-- What is left when a component is taken off the stack. -/
structure Closes (node : Fin n) (s t u : Tarjan n) : Prop where
  index : u.index = t.index
  low : u.low = t.low
  next : u.next = t.next
  stack : u.stack = s.stack
  onStack : ∀ x, u.onStack x = true ↔ x ∈ s.stack
  components : ∃ component, u.components = t.components ++ [component] ∧ component.Nodup ∧
    ∀ x, x ∈ component ↔ x ∈ t.stack ∧ x ∉ s.stack

theorem Explores.closes (during : Invariant adj (node :: gray) t)
    (explores : Explores adj node s t (adj node)) : Closes node s t (t.close node) := by
  obtain ⟨above, shape⟩ := explores.stack
  have nodup := during.stack_nodup
  have shape' : t.stack = (above ++ [node]) ++ s.stack := by simp [shape]
  have disjoint : ∀ x ∈ above ++ [node], x ∉ s.stack := by
    rw [shape', List.nodup_append] at nodup
    exact fun x mem below => nodup.2.2 x mem x below rfl
  have fresh : node ∉ above := by
    rw [shape, List.nodup_append] at nodup
    exact fun mem => nodup.2.2 node mem node List.mem_cons_self rfl
  have popped : popUntil node t.stack = (above ++ [node], s.stack) := by
    rw [shape, popUntil_append fresh]
  have members (x : Fin n) : x ∈ above ++ [node] ↔ x ∈ t.stack ∧ x ∉ s.stack := by
    rw [shape', List.mem_append (s := above ++ [node])]
    exact ⟨fun mem => ⟨.inl mem, disjoint x mem⟩, fun mem => mem.1.resolve_right mem.2⟩
  constructor
  case index => simp [close]
  case low => simp [close]
  case next => simp [close]
  case stack => simp [close, popped]
  case onStack =>
    intro x
    have onStack := during.onStack x
    simp only [close, popped, Bool.and_eq_true, Bool.not_eq_true', List.contains_eq_mem,
      decide_eq_false_iff_not, onStack, members]
    constructor
    · rintro ⟨mem, notPopped⟩
      exact by_contra fun off => notPopped ⟨mem, off⟩
    · intro below
      exact ⟨by rw [shape']; exact List.mem_append_right _ below, fun popped => popped.2 below⟩
  case components =>
    refine ⟨above ++ [node], by simp [close, popped], ?_, members⟩
    rw [shape', List.nodup_append] at nodup
    exact nodup.1

/-- A visit that found no way down takes its component off the stack. -/
theorem Invariant.close {u : Tarjan n} (before : Invariant adj gray s)
    (during : Invariant adj (node :: gray) t) (explores : Explores adj node s t (adj node))
    (own : t.low node = s.next) (closes : Closes node s t u) : Invariant adj gray u := by
  obtain ⟨component, components, nodup, members⟩ := closes.components
  have closed := explores.closed_of_own before during own
  have connected := explores.connected_iff before during own
  have depth (x : Fin n) : u.depth x = t.depth x := by rw [Tarjan.depth, Tarjan.depth, closes.index]
  have sameDepth {x : Fin n} (mem : x ∈ s.stack) : u.depth x = s.depth x := by
    rw [depth, explores.extends_.depth (before.stack_visited mem)]
  constructor
  case bound =>
    intro x visited
    rw [closes.index] at visited
    rw [depth, closes.next]
    exact during.bound visited
  case stack_visited =>
    intro x mem
    rw [closes.stack] at mem
    rw [closes.index]
    exact explores.extends_.visited (before.stack_visited mem)
  case stack_nodup =>
    rw [closes.stack]
    exact before.stack_nodup
  case onStack =>
    intro x
    rw [closes.stack]
    exact closes.onStack x
  case gray_stack =>
    intro x mem
    rw [closes.stack]
    exact before.gray_stack mem
  case gray_reaches =>
    intro x y isGray mem le
    rw [closes.stack] at mem
    rw [sameDepth (before.gray_stack isGray), sameDepth mem] at le
    exact before.gray_reaches isGray mem le
  case reaches_gray =>
    intro y mem
    rw [closes.stack] at mem
    obtain ⟨x, isGray, le, path⟩ := before.reaches_gray mem
    refine ⟨x, isGray, ?_, path⟩
    rwa [sameDepth (before.gray_stack isGray), sameDepth mem]
  case ended =>
    intro x visited notGray y edge
    rw [closes.index] at visited ⊢
    by_cases same : x = node
    · exact explores.done_visited y (same ▸ edge)
    · refine during.ended visited ?_ y edge
      simp only [List.mem_cons, not_or]
      exact ⟨same, notGray⟩
  case closed =>
    intro x visited offStack y edge
    rw [closes.index] at visited ⊢
    rw [closes.stack] at offStack ⊢
    exact closed x ⟨visited, offStack⟩ y edge
  case covered =>
    intro x visited offStack
    rw [closes.index] at visited
    rw [closes.stack] at offStack
    rw [components]
    by_cases onStack : x ∈ t.stack
    · exact ⟨component, by simp, (members x).mpr ⟨onStack, offStack⟩⟩
    · obtain ⟨found, mem, inside⟩ := during.covered visited onStack
      exact ⟨found, List.mem_append_left _ mem, inside⟩
  case off_stack =>
    intro found x mem inside
    rw [components, List.mem_append, List.mem_singleton] at mem
    rw [closes.index, closes.stack]
    rcases mem with mem | rfl
    · obtain ⟨visited, offStack⟩ := during.off_stack mem inside
      exact ⟨visited, fun below => offStack (explores.extends_.mem_stack below)⟩
    · obtain ⟨onStack, offOld⟩ := (members x).mp inside
      exact ⟨during.stack_visited onStack, offOld⟩
  case component =>
    intro found x mem inside y
    rw [components, List.mem_append, List.mem_singleton] at mem
    rcases mem with mem | rfl
    · exact during.component mem inside y
    · have fromRoot := (connected x).mpr ((members x).mp inside)
      rw [members, ← connected]
      exact ⟨fun toY => fromRoot.symm.trans toY, fun toY => fromRoot.trans toY⟩
  case components_nodup =>
    rw [components, List.flatten_append, List.nodup_append]
    refine ⟨during.components_nodup, by simpa using nodup, fun x old y new => ?_⟩
    rintro rfl
    obtain ⟨found, mem, inside⟩ := List.mem_flatten.mp old
    simp only [List.flatten_cons, List.flatten_nil, List.append_nil] at new
    exact (during.off_stack mem inside).2 ((members x).mp new).1

theorem Explores.visits_of_keep (before : Invariant adj gray s)
    (during : Invariant adj (node :: gray) t) (explores : Explores adj node s t (adj node))
    (smaller : t.low node < s.next) : Visits adj node s t where
  extends_ := explores.extends_
  visited := by simp [explores.entered]
  low_reaches _ := by
    obtain ⟨w, onStack, number, path⟩ := explores.low_reaches
    have old := explores.mem_old_stack onStack during (by omega)
    refine ⟨w, old, ?_, path⟩
    rw [← number, explores.extends_.depth (before.stack_visited old)]
  low_own offStack := absurd explores.mem_stack offStack
  low_le unvisited visited stack edge :=
    explores.low_le unvisited visited stack edge fun same => same ▸ edge

theorem Explores.visits_of_close {u : Tarjan n} (explores : Explores adj node s t (adj node))
    (new : s.index node = none) (before : Invariant adj gray s) (own : t.low node = s.next)
    (closes : Closes node s t u) : Visits adj node s u where
  extends_ :=
    { index := fun found => by
        rw [closes.index]
        exact explores.extends_.index found
      fresh := fun unvisited visited => by
        rw [closes.index] at visited
        exact explores.extends_.fresh unvisited visited
      next := by
        rw [closes.next]
        exact explores.extends_.next
      stack := ⟨[], by simp [closes.stack], by simp⟩
      low := fun visited => by
        rw [closes.low]
        exact explores.extends_.low visited }
  visited := by simp [closes.index, explores.entered]
  low_reaches onStack := by
    rw [closes.stack] at onStack
    exact absurd new (before.stack_visited onStack)
  low_own _ := by rw [closes.low, own]
  low_le unvisited visited stack edge := by
    rw [closes.index] at visited
    rw [closes.low]
    exact explores.low_le unvisited visited stack edge fun same => same ▸ edge

end Finish

/-- How many nodes are not visited yet. -/
def unvisited (s : Tarjan n) : Nat := (Finset.univ.filter fun x => s.index x = none).card

theorem Extends.unvisited_lt {s t : Tarjan n} (grows : Extends s t) {node : Fin n}
    (new : s.index node = none) (visited : t.index node ≠ none) : t.unvisited < s.unvisited := by
  refine Finset.card_lt_card (Finset.ssubset_iff_of_subset ?_ |>.mpr ⟨node, ?_, ?_⟩)
  · intro x mem
    simp only [Finset.mem_filter, Finset.mem_univ, true_and] at mem ⊢
    by_contra seen
    exact grows.visited seen mem
  · simpa using new
  · simpa using visited

/-- What a visit of an unvisited node does, when every gray node reaches the node. -/
def VisitCorrect (adj : Fin n → List (Fin n)) (visit : Fin n → Tarjan n → Tarjan n) (fuel : Nat) :
    Prop :=
  ∀ {gray : List (Fin n)} {node : Fin n} {s : Tarjan n}, Invariant adj gray s →
    s.index node = none → (∀ x ∈ gray, Reaches adj x node) → s.unvisited ≤ fuel →
      Invariant adj gray (visit node s) ∧ Visits adj node s (visit node s)

theorem Explores.follow {visit : Fin n → Tarjan n → Tarjan n} {fuel : Nat}
    (correct : VisitCorrect adj visit fuel) {gray : List (Fin n)} {node neighbour : Fin n}
    {s t : Tarjan n} {done : List (Fin n)} (before : Invariant adj gray s)
    (new : s.index node = none) (reached : ∀ x ∈ gray, Reaches adj x node)
    (during : Invariant adj (node :: gray) t) (explores : Explores adj node s t done)
    (edge : neighbour ∈ adj node) (enough : t.unvisited ≤ fuel) :
    Invariant adj (node :: gray) (Tarjan.follow visit node t neighbour) ∧
      Explores adj node s (Tarjan.follow visit node t neighbour) (done ++ [neighbour]) := by
  unfold Tarjan.follow
  cases found : t.index neighbour with
  | none =>
      have fromGray : ∀ x ∈ node :: gray, Reaches adj x neighbour := by
        intro x mem
        rcases List.mem_cons.mp mem with rfl | mem
        · exact .single edge
        · exact (reached x mem).tail edge
      obtain ⟨after, visits⟩ := correct during found fromGray enough
      exact ⟨after.lower node _, explores.visit_new before during new found edge visits⟩
  | some i =>
      simp only
      split
      · rename_i marked
        have onStack := (during.onStack neighbour).mp marked
        exact ⟨during.lower node i, explores.lower_old before new found onStack edge⟩
      · rename_i unmarked
        have offStack : neighbour ∉ t.stack :=
          fun mem => unmarked ((during.onStack neighbour).mpr mem)
        exact ⟨during, explores.skip_old (by simp [found]) offStack⟩

/-- The loop over the neighbours of a node, from any of its iterations to its end. -/
theorem Explores.loop {visit : Fin n → Tarjan n → Tarjan n} {fuel : Nat}
    (correct : VisitCorrect adj visit fuel) {gray : List (Fin n)} {node : Fin n}
    {s t : Tarjan n} {done left : List (Fin n)} (before : Invariant adj gray s)
    (new : s.index node = none) (reached : ∀ x ∈ gray, Reaches adj x node)
    (during : Invariant adj (node :: gray) t) (explores : Explores adj node s t done)
    (edges : ∀ neighbour ∈ left, neighbour ∈ adj node) (enough : s.unvisited ≤ fuel + 1) :
    Invariant adj (node :: gray) (left.foldl (Tarjan.follow visit node) t) ∧
      Explores adj node s (left.foldl (Tarjan.follow visit node) t) (done ++ left) := by
  induction left generalizing t done with
  | nil => simpa using ⟨during, explores⟩
  | cons neighbour left ih =>
      have fewer := explores.extends_.unvisited_lt new (by simp [explores.entered])
      obtain ⟨next, further⟩ := explores.follow correct before new reached during
        (edges neighbour (by simp)) (by omega)
      have rest := ih next further fun x mem => edges x (List.mem_cons_of_mem _ mem)
      simpa using rest

/-- Every visit is correct, when its depth is at most the number of unvisited nodes. -/
theorem visitCorrect (adj : Fin n → List (Fin n)) (fuel : Nat) :
    VisitCorrect adj (visit adj fuel) fuel := by
  induction fuel with
  | zero =>
      intro gray node s _ new _ enough
      have : 0 < s.unvisited := Finset.card_pos.mpr ⟨node, by simpa using new⟩
      omega
  | succ fuel ih =>
      intro gray node s before new reached enough
      obtain ⟨during, explores⟩ := @Explores.loop _ _ _ _ ih _ _ _ _ _ (adj node) before new
        reached (before.enter new reached) (.start new) (fun _ mem => mem) enough
      rw [List.nil_append] at explores
      simp only [visit]
      generalize (adj node).foldl (follow (visit adj fuel) node) (s.enter node) = t at *
      rw [explores.entered]
      split
      · rename_i different
        have smaller : t.low node < s.next := by
          have := explores.low_own
          simp only [ne_eq, Option.some.injEq] at different
          omega
        exact ⟨before.keep during explores smaller,
          explores.visits_of_keep before during smaller⟩
      · rename_i same
        have own : t.low node = s.next := by simpa using same
        have closes := explores.closes during
        exact ⟨before.close during explores own closes,
          explores.visits_of_close new before own closes⟩

theorem invariant_new (adj : Fin n → List (Fin n)) : Invariant adj [] (.new n) := by
  constructor <;> simp [new]

/-- The loop over all nodes keeps the invariant and visits each of them. -/
theorem invariant_loop (adj : Fin n → List (Fin n)) {nodes : List (Fin n)} {s : Tarjan n}
    (invariant : Invariant adj [] s) :
    Invariant adj [] (nodes.foldl (fun s node =>
        if s.index node = none then s.visit adj n node else s) s) ∧
      Extends s (nodes.foldl (fun s node =>
        if s.index node = none then s.visit adj n node else s) s) ∧
      ∀ node ∈ nodes, (nodes.foldl (fun s node =>
        if s.index node = none then s.visit adj n node else s) s).index node ≠ none := by
  induction nodes generalizing s with
  | nil => exact ⟨invariant, .refl s, by simp⟩
  | cons node nodes ih =>
      rw [List.foldl_cons]
      by_cases new : s.index node = none
      · rw [if_pos new]
        have enough : s.unvisited ≤ n := by
          simpa [unvisited] using Finset.card_filter_le Finset.univ fun x => s.index x = none
        obtain ⟨after, visits⟩ := visitCorrect adj n invariant new (by simp) enough
        obtain ⟨final, grows, rest⟩ := ih after
        refine ⟨final, visits.extends_.trans grows, fun x mem => ?_⟩
        rcases List.mem_cons.mp mem with rfl | mem
        · exact grows.visited visits.visited
        · exact rest x mem
      · rw [if_neg new]
        obtain ⟨final, grows, rest⟩ := ih invariant
        refine ⟨final, grows, fun x mem => ?_⟩
        rcases List.mem_cons.mp mem with rfl | mem
        · exact grows.visited new
        · exact rest x mem

end Tarjan

theorem mem_adjacency {edges : List (Fin n × Fin n)} {x y : Fin n} :
    y ∈ adjacency edges x ↔ (x, y) ∈ edges := by
  simp only [adjacency, List.mem_map, List.mem_filter, decide_eq_true_eq]
  constructor
  · rintro ⟨⟨start, stop⟩, ⟨mem, rfl⟩, rfl⟩
    exact mem
  · intro mem
    exact ⟨(x, y), ⟨mem, rfl⟩, rfl⟩

/-- Two tables can each reach the other. -/
abbrev Connected (edges : List (Fin n × Fin n)) (x y : Fin n) : Prop :=
  Digraph.Connected (fun x y => (x, y) ∈ edges) x y

theorem invariant_tarjan (edges : List (Fin n × Fin n)) :
    Tarjan.Invariant (adjacency edges) [] (tarjan edges) ∧ (tarjan edges).stack = [] ∧
      ∀ x, (tarjan edges).index x ≠ none := by
  obtain ⟨invariant, -, visited⟩ := @Tarjan.invariant_loop n (adjacency edges) (List.finRange n) _
    (Tarjan.invariant_new (adjacency edges))
  refine ⟨invariant, ?_, fun x => visited x (List.mem_finRange x)⟩
  rw [List.eq_nil_iff_forall_not_mem]
  intro x mem
  obtain ⟨_, impossible, -⟩ := invariant.reaches_gray mem
  simp at impossible

theorem mem_stronglyConnected {edges : List (Fin n × Fin n)} {group : List (Fin n)} :
    group ∈ stronglyConnected n edges ↔ ∃ component ∈ (tarjan edges).components,
      1 < component.length ∧ component.insertionSort (· ≤ ·) = group := by
  simp [stronglyConnected, and_assoc]

/-- A group holds everything that is connected with any of its members. -/
theorem mem_group_iff {edges : List (Fin n × Fin n)} {group : List (Fin n)}
    (found : group ∈ stronglyConnected n edges) {x : Fin n} (mem : x ∈ group) (y : Fin n) :
    y ∈ group ↔ Connected edges x y := by
  obtain ⟨component, inside, -, rfl⟩ := mem_stronglyConnected.mp found
  rw [List.mem_insertionSort] at mem ⊢
  rw [(invariant_tarjan edges).1.component inside mem y]
  simp only [mem_adjacency]

theorem exists_two_of_group {edges : List (Fin n × Fin n)} {group : List (Fin n)}
    (found : group ∈ stronglyConnected n edges) : ∃ x ∈ group, ∃ y ∈ group, x ≠ y := by
  obtain ⟨component, inside, long, rfl⟩ := mem_stronglyConnected.mp found
  have nodup : component.Nodup :=
    (List.nodup_flatten.mp (invariant_tarjan edges).1.components_nodup).1 component inside
  simp only [List.mem_insertionSort]
  match component, long, nodup with
  | x :: y :: _, _, nodup =>
      refine ⟨x, by simp, y, by simp, ?_⟩
      rintro rfl
      simp at nodup

/-- Two different tables that can each reach the other are in one group. -/
theorem exists_group {edges : List (Fin n × Fin n)} {x y : Fin n} (different : x ≠ y)
    (connected : Connected edges x y) : ∃ group ∈ stronglyConnected n edges, x ∈ group ∧
      y ∈ group := by
  obtain ⟨invariant, empty, visited⟩ := invariant_tarjan edges
  obtain ⟨component, inside, xMem⟩ := invariant.covered (visited x) (by simp [empty])
  have yMem : y ∈ component := by
    rw [invariant.component inside xMem]
    simpa only [mem_adjacency] using connected
  refine ⟨component.insertionSort (· ≤ ·), mem_stronglyConnected.mpr ⟨component, inside, ?_, rfl⟩,
    by simpa using xMem, by simpa using yMem⟩
  match component, xMem, yMem with
  | [z], xMem, yMem =>
      simp only [List.mem_singleton] at xMem yMem
      exact absurd (xMem.trans yMem.symm) different
  | _ :: _ :: _, _, _ => simp

end SchemaForge.Verifier
