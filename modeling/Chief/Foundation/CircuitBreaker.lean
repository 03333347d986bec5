/-
Module: Chief.Foundation.CircuitBreaker
Layer: Foundation
Purpose: A circuit breaker over any kind of mode: it counts failures in a row, trips at a limit, and
  only an operator resumes it.
Trusted boundary: none
Main exports: CircuitBreaker, Signal, CircuitBreaker.after, failuresSince, counting_run, tripped_run,
  inForce_run_of_safe
-/
import Mathlib.Data.List.Induction
import Mathlib.Tactic.Common

namespace Chief.Foundation

variable {μ : Type}

/-- A breaker that counts, with the failures in a row so far, or one that has tripped. Either keeps the
mode its operator chose. -/
inductive CircuitBreaker (μ : Type) where
  | counting (mode : μ) (failures : Nat)
  | tripped (mode : μ)
deriving DecidableEq

/-- What may happen to a breaker. Damage is the loss of its record to unreadable bytes. -/
inductive Signal (μ : Type) where
  | success
  | failure
  | resume
  | configure (mode : μ)
  | damage
  | drop
  | other
deriving DecidableEq

/-- Whether a signal is an operator's and lets a tripped breaker go on. -/
def Signal.resumes : Signal μ → Bool
  | .resume | .configure _ | .drop => true
  | _ => false

/-- The failures in a row after one more signal. -/
def countFailure (failures : Nat) : Signal μ → Nat
  | .failure => failures + 1
  | .damage | .other => failures
  | _ => 0

/-- The failures since the last success or operator action. -/
def failuresSince (signals : List (Signal μ)) : Nat := signals.foldl countFailure 0

namespace CircuitBreaker

section Steps

variable (safe : μ) (limit : Nat)

/-- One signal. A breaker whose record was damaged counts as tripped, under the safe mode. -/
def after (breaker : CircuitBreaker μ) (signal : Signal μ) : CircuitBreaker μ :=
  match signal, breaker with
  | .success, .counting mode _ => .counting mode 0
  | .success, .tripped mode => .tripped mode
  | .failure, .counting mode failures =>
      if limit ≤ failures + 1 then .tripped mode else .counting mode (failures + 1)
  | .failure, .tripped mode => .tripped mode
  | .resume, .counting mode _ => .counting mode 0
  | .resume, .tripped mode => .counting mode 0
  | .configure mode, _ => .counting mode 0
  | .damage, _ => .tripped safe
  | .drop, _ => .counting safe 0
  | .other, breaker => breaker

/-- The mode the operator chose. -/
def mode : CircuitBreaker μ → μ
  | .counting mode _ => mode
  | .tripped mode => mode

/-- The mode in force: the safe one while tripped. -/
def inForce : CircuitBreaker μ → μ
  | .counting mode _ => mode
  | .tripped _ => safe

/-- Whether the breaker has tripped. -/
def isTripped : CircuitBreaker μ → Bool
  | .counting _ _ => false
  | .tripped _ => true

/-- Whether a signal trips the breaker. -/
def trips (breaker : CircuitBreaker μ) (signal : Signal μ) : Prop :=
  signal = .failure ∧ breaker.isTripped = false ∧ (breaker.after safe limit signal).isTripped = true

end Steps

section Runs

variable {safe : μ} {limit : Nat}

/-- A breaker that counts has counted every failure of the run, and they are fewer than the limit. -/
theorem counting_run (positive : 0 < limit) (signals : List (Signal μ)) {mode : μ} {failures : Nat}
    (left : signals.foldl (after safe limit) (.counting safe 0) = .counting mode failures) :
    failures = failuresSince signals ∧ failures < limit := by
  induction signals using List.reverseRecOn generalizing mode failures with
  | nil =>
      cases left
      exact ⟨rfl, positive⟩
  | append_singleton past signal inductionHypothesis =>
      rw [List.foldl_append, List.foldl_cons, List.foldl_nil] at left
      rw [failuresSince, List.foldl_append, List.foldl_cons, List.foldl_nil, ← failuresSince]
      cases before : past.foldl (after safe limit) (.counting safe 0) with
      | tripped earlier => cases signal <;> simp_all [after, countFailure]
      | counting earlier counted =>
          obtain ⟨known, below⟩ := inductionHypothesis before
          rw [before] at left
          cases signal with
          | failure =>
              simp only [after] at left
              split at left
              · cases left
              · rename_i small
                cases left
                exact ⟨congrArg (· + 1) known, Nat.lt_of_not_le small⟩
          | success => cases left; exact ⟨rfl, positive⟩
          | resume => cases left; exact ⟨rfl, positive⟩
          | configure chosen => cases left; exact ⟨rfl, positive⟩
          | damage => cases left
          | drop => cases left; exact ⟨rfl, positive⟩
          | other => cases left; exact ⟨known, below⟩

/-- A tripped breaker stays tripped until an operator resumes it. -/
theorem tripped_run {signals : List (Signal μ)} {breaker : CircuitBreaker μ}
    (tripped : breaker.isTripped = true) (unresumed : ∀ signal ∈ signals, signal.resumes = false) :
    (signals.foldl (after safe limit) breaker).isTripped = true := by
  induction signals generalizing breaker with
  | nil => exact tripped
  | cons signal signals inductionHypothesis =>
      refine inductionHypothesis ?_ fun later member =>
        unresumed later (List.mem_cons_of_mem signal member)
      have idle := unresumed signal List.mem_cons_self
      cases breaker with
      | counting mode failures => cases tripped
      | tripped mode => cases signal <;> first | rfl | cases idle

/-- A signal that leaves the safe mode in force where it was chosen. -/
theorem mode_after_of_safe {breaker : CircuitBreaker μ} {signal : Signal μ}
    (chosen : breaker.mode = safe) (kept : ∀ mode, signal = .configure mode → mode = safe) :
    (breaker.after safe limit signal).mode = safe := by
  cases signal with
  | configure mode => exact kept mode rfl
  | failure =>
      cases breaker with
      | counting mode failures =>
          simp only [after]
          split <;> exact chosen
      | tripped mode => exact chosen
  | success => cases breaker <;> exact chosen
  | resume => cases breaker <;> exact chosen
  | damage => rfl
  | drop => rfl
  | other => exact chosen

theorem inForce_of_mode {breaker : CircuitBreaker μ} (chosen : breaker.mode = safe) :
    breaker.inForce safe = safe := by
  cases breaker with
  | counting mode failures => exact chosen
  | tripped mode => rfl

/-- A breaker under the safe mode stays there until an operator chooses another. -/
theorem inForce_run_of_safe {signals : List (Signal μ)} {breaker : CircuitBreaker μ}
    (chosen : breaker.mode = safe)
    (kept : ∀ signal ∈ signals, ∀ mode, signal = .configure mode → mode = safe) :
    (signals.foldl (after safe limit) breaker).inForce safe = safe := by
  induction signals generalizing breaker with
  | nil => exact inForce_of_mode chosen
  | cons signal signals inductionHypothesis =>
      exact inductionHypothesis
        (mode_after_of_safe chosen (kept signal List.mem_cons_self))
        fun later member => kept later (List.mem_cons_of_mem signal member)

end Runs

end CircuitBreaker

end Chief.Foundation
