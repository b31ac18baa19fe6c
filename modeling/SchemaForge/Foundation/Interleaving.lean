import Mathlib.Logic.Relation
import Mathlib.Logic.Function.Basic

/-!
# Interleaved calls

Any number of calls run against one shared state. Each call goes from one place
to the next by atomic statements of its own, and the calls take turns in any order.
-/

namespace SchemaForge

universe u v w

/-- The shared state, and the place where each call stands. -/
structure World (Index : Type u) (Shared : Type v) (Place : Type w) where
  shared : Shared
  places : Index → Place

namespace World

variable {Index : Type u} {Shared : Type v} {Place : Type w} [DecidableEq Index]

/-- The statements of each call: from a place and a shared state to the next ones. -/
abbrev Statements (Index : Type u) (Shared : Type v) (Place : Type w) :=
  Index → Place → Shared → Place → Shared → Prop

/-- One statement of one call; every other call stays where it is. -/
inductive Moves (statements : Statements Index Shared Place) (world : World Index Shared Place)
    (index : Index) : World Index Shared Place → Prop
  | intro {place : Place} {shared : Shared}
      (statement : statements index (world.places index) world.shared place shared) :
      Moves statements world index ⟨shared, Function.update world.places index place⟩

/-- The runs in which every move is good. -/
def Runs (statements : Statements Index Shared Place)
    (good : World Index Shared Place → Index → World Index Shared Place → Prop) :
    World Index Shared Place → World Index Shared Place → Prop :=
  Relation.ReflTransGen fun world world' =>
    ∃ index, Moves statements world index world' ∧ good world index world'

/-- What holds of the call that moves only if it did before holds of no other call than before. -/
theorem holds_of_update (holds : Place → Prop) {places : Index → Place} {index other : Index}
    {place : Place} (before : holds place → holds (places index))
    (after : holds (Function.update places index place other)) :
    holds (places other) := by
  by_cases same : other = index
  · subst other
    rw [Function.update_self] at after
    exact before after
  · rwa [Function.update_of_ne same] at after

variable {statements : Statements Index Shared Place}
  {good good' : World Index Shared Place → Index → World Index Shared Place → Prop}
  {start world : World Index Shared Place}

/-- What holds at first and is kept by every good move holds after a run. -/
theorem Runs.invariant (holds : World Index Shared Place → Prop)
    (keeps : ∀ world index world', holds world → Moves statements world index world' →
      good world index world' → holds world')
    (first : holds start) (run : Runs statements good start world) : holds world := by
  induction run with
  | refl => exact first
  | tail _ move ih =>
      rcases move with ⟨index, moves, isGood⟩
      exact keeps _ _ _ ih moves isGood

/-- A run that goes on by one statement. -/
theorem Runs.step (run : Runs statements good start world) (index : Index) {place : Place}
    {shared : Shared} (statement : statements index (world.places index) world.shared place shared)
    (isGood : good world index ⟨shared, Function.update world.places index place⟩) :
    Runs statements good start ⟨shared, Function.update world.places index place⟩ :=
  run.tail ⟨index, .intro statement, isGood⟩

theorem Runs.mono
    (weaker : ∀ world index world', good world index world' → good' world index world')
    (run : Runs statements good start world) : Runs statements good' start world :=
  Relation.ReflTransGen.mono (fun _ _ ⟨index, moves, isGood⟩ =>
    ⟨index, moves, weaker _ _ _ isGood⟩) _ _ run

/-- Where a move keeps an invariant exactly if it is good, the runs through states of the invariant
are the runs of good moves. -/
theorem runs_invariant_iff (holds : World Index Shared Place → Prop)
    (keeps : ∀ world index world', holds world → Moves statements world index world' →
      (holds world' ↔ good world index world')) (first : holds start) :
    Runs statements (fun _ _ world' => holds world') start world ↔
      Runs statements good start world := by
  constructor
  · intro run
    suffices both : Runs statements good start world ∧ holds world from both.1
    induction run with
    | refl => exact ⟨.refl, first⟩
    | tail _ move ih =>
        rcases move with ⟨index, moves, kept⟩
        exact ⟨ih.1.tail ⟨index, moves, (keeps _ _ _ ih.2 moves).mp kept⟩, kept⟩
  · intro run
    suffices both : Runs statements (fun _ _ world' => holds world') start world ∧
        holds world from both.1
    induction run with
    | refl => exact ⟨.refl, first⟩
    | tail _ move ih =>
        rcases move with ⟨index, moves, isGood⟩
        have kept := (keeps _ _ _ ih.2 moves).mpr isGood
        exact ⟨ih.1.tail ⟨index, moves, kept⟩, kept⟩

end World

end SchemaForge
