import Mathlib.Data.List.Basic

/-!
# Machines that answer

A service as a deterministic machine: an operation moves the state and is
answered. Runs are lists of operations.
-/

namespace SchemaForge

universe u v w

structure Machine (State : Type u) (Op : Type v) (Answer : Type w) where
  step : State → Op → State × Answer

namespace Machine

variable {State : Type u} {Op : Type v} {Answer : Type w} (machine : Machine State Op Answer)

/-- The state after a run. -/
def final : State → List Op → State
  | state, [] => state
  | state, op :: rest => final (machine.step state op).1 rest

/-- The answers to all operations of a run. -/
def answers : State → List Op → List Answer
  | _, [] => []
  | state, op :: rest => (machine.step state op).2 :: answers (machine.step state op).1 rest

/-- The answers to those operations of a run that are `mine`. -/
def answersTo (mine : Op → Bool) : State → List Op → List Answer
  | _, [] => []
  | state, op :: rest =>
      if mine op then (machine.step state op).2 :: answersTo mine (machine.step state op).1 rest
      else answersTo mine (machine.step state op).1 rest

/-- Every operation of a run is `good` in the state that it meets. -/
def Along (good : State → Op → Prop) : State → List Op → Prop
  | _, [] => True
  | state, op :: rest => good state op ∧ Along good (machine.step state op).1 rest

variable {machine}

theorem along_of_forall {good : Op → Prop} {state : State} {ops : List Op}
    (all : ∀ op ∈ ops, good op) :
    machine.Along (fun _ op => good op) state ops := by
  induction ops generalizing state with
  | nil => trivial
  | cons op rest ih =>
      exact ⟨all op List.mem_cons_self, ih fun op mem => all op (List.mem_cons_of_mem _ mem)⟩

theorem Along.imp {good good' : State → Op → Prop}
    (weaker : ∀ state op, good state op → good' state op) {state : State} {ops : List Op}
    (along : machine.Along good state ops) :
    machine.Along good' state ops := by
  induction ops generalizing state with
  | nil => trivial
  | cons op rest ih => exact ⟨weaker state op along.1, ih along.2⟩

theorem along_congr {good good' : State → Op → Prop}
    (same : ∀ state op, good state op ↔ good' state op) {state : State} {ops : List Op} :
    machine.Along good state ops ↔ machine.Along good' state ops :=
  ⟨Along.imp fun state op => (same state op).mp, Along.imp fun state op => (same state op).mpr⟩

/-- A property that every good operation keeps holds after a run of good operations. -/
theorem Along.final {good : State → Op → Prop} (invariant : State → Prop)
    (keeps : ∀ state op, invariant state → good state op → invariant (machine.step state op).1)
    {state : State} {ops : List Op} (start : invariant state)
    (along : machine.Along good state ops) :
    invariant (machine.final state ops) := by
  induction ops generalizing state with
  | nil => exact start
  | cons op rest ih => exact ih (keeps state op start along.1) along.2

/-- What holds in every state of a run may be used of every operation of the run. -/
theorem Along.strengthen {good good' : State → Op → Prop} (invariant : State → Prop)
    (keeps : ∀ state op, invariant state → good state op → invariant (machine.step state op).1)
    (follows : ∀ state op, invariant state → good state op → good' state op)
    {state : State} {ops : List Op} (start : invariant state)
    (along : machine.Along good state ops) :
    machine.Along good' state ops := by
  induction ops generalizing state with
  | nil => trivial
  | cons op rest ih =>
      exact ⟨follows state op start along.1, ih (keeps state op start along.1) along.2⟩

/-- Along a run whose operations keep an invariant, what agrees under the invariant agrees. -/
theorem along_congr_of_invariant {allowed good good' : State → Op → Prop} (invariant : State → Prop)
    (keeps : ∀ state op, invariant state → allowed state op → invariant (machine.step state op).1)
    (same : ∀ state op, invariant state → (good state op ↔ good' state op))
    {state : State} {ops : List Op} (start : invariant state)
    (along : machine.Along allowed state ops) :
    machine.Along good state ops ↔ machine.Along good' state ops := by
  induction ops generalizing state with
  | nil => exact Iff.rfl
  | cons op rest ih =>
      exact and_congr (same state op start) (ih (keeps state op start along.1) along.2)

/-- Where an operation keeps an invariant exactly if it is good, the invariant holds all along a run
exactly if every operation of the run is good. -/
theorem along_invariant_iff {good : State → Op → Prop} (invariant : State → Prop)
    (keeps : ∀ state op, invariant state → (invariant (machine.step state op).1 ↔ good state op))
    {state : State} {ops : List Op} (start : invariant state) :
    machine.Along (fun state op => invariant (machine.step state op).1) state ops ↔
      machine.Along good state ops := by
  induction ops generalizing state with
  | nil => exact Iff.rfl
  | cons op rest ih =>
      rw [Along, Along, keeps state op start]
      exact and_congr_right fun isGood => ih ((keeps state op start).mpr isGood)

theorem final_append (machine : Machine State Op Answer) (state : State) (first second : List Op) :
    machine.final state (first ++ second) = machine.final (machine.final state first) second := by
  induction first generalizing state with
  | nil => rfl
  | cons op rest ih => exact ih _

theorem along_append {good : State → Op → Prop} {state : State} {first second : List Op} :
    machine.Along good state (first ++ second) ↔
      machine.Along good state first ∧ machine.Along good (machine.final state first) second := by
  induction first generalizing state with
  | nil => simp [Along, final]
  | cons op rest ih => rw [List.cons_append, Along, Along, ih, final, and_assoc]

variable (machine)

/--
Unwinding. `related rest` holds of the states of a run and of the same run without the operations
of others, both with `rest` ahead. If an operation of mine is answered alike in related states and
an operation of others leaves the states related, then my answers do not tell the runs apart.
-/
theorem unwinding (mine : Op → Bool) (related : List Op → State → State → Prop)
    (consistent : ∀ op rest left right, mine op = true → related (op :: rest) left right →
      (machine.step left op).2 = (machine.step right op).2 ∧
        related rest (machine.step left op).1 (machine.step right op).1)
    (respects : ∀ op rest left right, mine op = false → related (op :: rest) left right →
      related rest (machine.step left op).1 right)
    {ops : List Op} {left right : State} (start : related ops left right) :
    machine.answersTo mine left ops = machine.answers right (ops.filter mine) ∧
      related [] (machine.final left ops) (machine.final right (ops.filter mine)) := by
  induction ops generalizing left right with
  | nil => exact ⟨rfl, start⟩
  | cons op rest ih =>
      cases own : mine op with
      | true =>
          rcases consistent op rest left right own start with ⟨same, next⟩
          rcases ih next with ⟨answers, last⟩
          rw [List.filter_cons_of_pos own, answersTo, if_pos own, answers, same]
          exact ⟨rfl, last⟩
      | false =>
          rcases ih (respects op rest left right own start) with ⟨answers, last⟩
          rw [List.filter_cons_of_neg (by simp [own]), answersTo, if_neg (by simp [own])]
          exact ⟨answers, last⟩

end Machine

theorem exists_of_bind_eq_ok {ε α β : Type} {result : Except ε α}
    {next : α → Except ε β} {value : β} (ok : (result >>= next) = .ok value) :
    ∃ first, result = .ok first ∧ next first = .ok value := by
  cases result with
  | error error => cases ok
  | ok first => exact ⟨first, rfl, ok⟩

theorem exists_of_map_eq_ok {ε α β : Type} {f : α → β} {result : Except ε α} {value : β}
    (ok : result.map f = .ok value) : ∃ first, result = .ok first ∧ f first = value := by
  cases result with
  | error error => cases ok
  | ok first => exact ⟨first, rfl, Except.ok.inj ok⟩

theorem eq_ok_of_mapError_eq_ok {ε ε' α : Type} {f : ε → ε'} {result : Except ε α} {value : α}
    (ok : result.mapError f = .ok value) : result = .ok value := by
  cases result with
  | error error => cases ok
  | ok first =>
      cases ok
      rfl

end SchemaForge
