/-
Module: Chief.Foundation.Runs
Layer: Foundation
Purpose: Systems driven by events that either commit or are refused, and what holds along their runs.
Trusted boundary: none
Main exports: afterEvent, afterRun, Throughout, Throughout.invariant, Throughout.relates
-/
import Mathlib.Data.List.Basic
import Mathlib.Tactic.Common

namespace Chief.Foundation

variable {σ ε φ : Type} {attempt : ε → σ → Except φ σ}

/-- What one event leaves: the state it commits, or the state it found when it is refused. -/
def afterEvent (attempt : ε → σ → Except φ σ) (s : σ) (event : ε) : σ :=
  match attempt event s with
  | .ok s' => s'
  | .error _ => s

/-- Where a run of events leads. -/
def afterRun (attempt : ε → σ → Except φ σ) (events : List ε) (s : σ) : σ :=
  events.foldl (afterEvent attempt) s

/-- `condition` holds of every event of the run in the state it meets. -/
def Throughout (attempt : ε → σ → Except φ σ) (condition : ε → σ → Prop) : List ε → σ → Prop
  | [], _ => True
  | event :: events, s =>
      condition event s ∧ Throughout attempt condition events (afterEvent attempt s event)

theorem afterEvent_of_ok {event : ε} {s s' : σ} (ran : attempt event s = .ok s') :
    afterEvent attempt s event = s' := by
  rw [afterEvent, ran]

theorem afterEvent_of_error {event : ε} {s : σ} {failure : φ}
    (refused : attempt event s = .error failure) : afterEvent attempt s event = s := by
  rw [afterEvent, refused]

@[simp] theorem afterRun_nil (s : σ) : afterRun attempt [] s = s := rfl

@[simp] theorem afterRun_cons (event : ε) (events : List ε) (s : σ) :
    afterRun attempt (event :: events) s =
      afterRun attempt events (afterEvent attempt s event) := rfl

theorem afterRun_append (first later : List ε) (s : σ) :
    afterRun attempt (first ++ later) s = afterRun attempt later (afterRun attempt first s) :=
  List.foldl_append

theorem throughout_append {condition : ε → σ → Prop} {first later : List ε} {s : σ} :
    Throughout attempt condition (first ++ later) s ↔
      Throughout attempt condition first s ∧
        Throughout attempt condition later (afterRun attempt first s) := by
  induction first generalizing s with
  | nil => simp [Throughout]
  | cons event first inductionHypothesis =>
      simp only [List.cons_append, Throughout, inductionHypothesis, afterRun_cons, and_assoc]

namespace Throughout

variable {condition : ε → σ → Prop} {events : List ε} {s : σ}

/-- A condition on the events alone is checked event by event. -/
theorem of_forall (check : ε → Prop) (checked : ∀ event ∈ events, check event) :
    Throughout attempt (fun event _ => check event) events s := by
  induction events generalizing s with
  | nil => trivial
  | cons event events inductionHypothesis =>
      exact ⟨checked event List.mem_cons_self,
        inductionHypothesis fun later member => checked later (List.mem_cons_of_mem _ member)⟩

/-- Two conditions that hold throughout hold together. -/
theorem and {other : ε → σ → Prop} (one : Throughout attempt condition events s)
    (two : Throughout attempt other events s) :
    Throughout attempt (fun event s => condition event s ∧ other event s) events s := by
  induction events generalizing s with
  | nil => trivial
  | cons event events inductionHypothesis =>
      exact ⟨⟨one.1, two.1⟩, inductionHypothesis one.2 two.2⟩

/-- What holds at the start and survives every commit holds after the run. -/
theorem invariant (holds : σ → Prop) (met : Throughout attempt condition events s)
    (kept : ∀ event s s', condition event s → attempt event s = .ok s' → holds s → holds s')
    (start : holds s) : holds (afterRun attempt events s) := by
  induction events generalizing s with
  | nil => exact start
  | cons event events inductionHypothesis =>
      refine inductionHypothesis met.2 ?_
      cases ran : attempt event s with
      | ok s' =>
          rw [afterEvent_of_ok ran]
          exact kept event s s' met.1 ran start
      | error failure =>
          rw [afterEvent_of_error ran]
          exact start

/-- A reflexive and transitive relation that every commit keeps between the states around it, given an
invariant, holds between the ends of the run. -/
theorem relates (relation : σ → σ → Prop) (holds : σ → Prop) (refl : ∀ s, relation s s)
    (trans : ∀ {a b c}, relation a b → relation b c → relation a c)
    (met : Throughout attempt condition events s)
    (kept : ∀ event s s', condition event s → attempt event s = .ok s' → holds s →
      holds s' ∧ relation s s')
    (start : holds s) : relation s (afterRun attempt events s) := by
  induction events generalizing s with
  | nil => exact refl s
  | cons event events inductionHypothesis =>
      rw [afterRun_cons]
      cases ran : attempt event s with
      | ok s' =>
          have met' := met.2
          rw [afterEvent_of_ok ran] at met' ⊢
          obtain ⟨holds', related⟩ := kept event s s' met.1 ran start
          exact trans related (inductionHypothesis met' holds')
      | error failure =>
          have met' := met.2
          rw [afterEvent_of_error ran] at met' ⊢
          exact inductionHypothesis met' start

end Throughout

end Chief.Foundation
