/-
Module: Chief.Supervision.Retries
Layer: Proofs
Purpose: No effect is retried forever. Delivery is final, a failed effect is driven again only against
  its reopen budget, and the failures recorded for one effect are bounded along every run.
Trusted boundary: none
Main exports: retryBudget, retryBudget_step, failuresRecorded, failuresRecorded_le,
  delivery_final_and_bounded
-/
import Chief.Supervision.Runs

namespace Chief.Supervision

open Foundation

/-! ### The budget of one effect -/

/-- How many failures an effect can still take, counting every reopen it has left. -/
def retryBudget : Option Effect → Nat
  | none => (1 + supervisionEffectReopenLimit) * supervisionEffectDeliveryAttemptLimit
  | some effect =>
      (if effect.status = .pending then
        max 1 (supervisionEffectDeliveryAttemptLimit - effect.deliveryFailureCount.getD 0)
      else 0) +
      supervisionEffectDeliveryAttemptLimit *
        (supervisionEffectReopenLimit - effect.reopenCount.getD 0)

theorem retryBudget_le (stored : Option Effect) :
    retryBudget stored ≤
      (1 + supervisionEffectReopenLimit) * supervisionEffectDeliveryAttemptLimit := by
  cases stored with
  | none => exact Nat.le_refl _
  | some effect =>
      simp only [retryBudget, supervisionEffectReopenLimit, supervisionEffectDeliveryAttemptLimit]
      split <;> omega

/-- A failed dispatch costs one unit of the budget. -/
theorem retryBudget_failedOnce {effect : Effect} (stamp : String)
    (pending : effect.status = .pending) :
    retryBudget (some (failedOnce effect stamp)) + 1 ≤ retryBudget (some effect) := by
  unfold failedOnce
  simp only [retryBudget, pending, if_true, supervisionEffectDeliveryAttemptLimit,
    supervisionEffectReopenLimit]
  split
  · simp only [reduceCtorEq, if_false]
    omega
  · rename_i below
    have counted : saturatingCount (effect.deliveryFailureCount.getD 0) =
        effect.deliveryFailureCount.getD 0 + 1 := by
      simp only [saturatingCount, u32Max] at below ⊢
      omega
    simp only [if_true, Option.getD_some, counted] at below ⊢
    omega

/-- A reopen pays for the failures it allows. -/
theorem retryBudget_reopenEffect {effect : Effect} (stamp : String)
    (may : mayReopen effect = true) :
    retryBudget (some (reopenEffect effect stamp)) = retryBudget (some effect) := by
  simp only [mayReopen, decide_eq_true_eq] at may
  obtain ⟨failed, spare⟩ := may
  simp only [retryBudget, reopenEffect, failed, reduceCtorEq, if_true, if_false, Option.getD_some,
    saturatingCount, u32Max, supervisionEffectDeliveryAttemptLimit,
    supervisionEffectReopenLimit] at spare ⊢
  omega

/-- No step of an effect adds to its budget. -/
theorem retryBudget_step {before after : Option Effect} (step : EffectStep before after) :
    retryBudget after ≤ retryBudget before := by
  cases step with
  | same => exact Nat.le_refl _
  | enqueued => exact retryBudget_le _
  | delivered stamp pending =>
      simp only [retryBudget, reduceCtorEq, if_false]
      omega
  | failed stamp pending => exact Nat.le_of_succ_le (retryBudget_failedOnce stamp pending)
  | reopened stamp may => exact Nat.le_of_eq (retryBudget_reopenEffect stamp may)
  | rearmed stamp organization reason detail may =>
      exact Nat.le_of_eq (retryBudget_reopenEffect stamp may)

/-! ### Failures along a run -/

/-- The effect whose failed dispatch the operation records. -/
def Operation.failedEffect : Operation → Option String
  | .recordDeliveryFailure effectId => some effectId
  | _ => none

/-- Whether the call records a failed dispatch of the effect under `id`: it is committed, and the effect
was pending. -/
def recordsFailure (id : String) (call : Call) (ledgers : Ledgers) : Bool :=
  call.op.failedEffect = some id &&
    (effectAt ledgers id).any (fun effect => effect.status = .pending) &&
      (call.attempt ledgers).toOption.isSome

/-- How many failed dispatches a run records for one effect. -/
def failuresRecorded (id : String) : List Call → Ledgers → Nat
  | [], _ => 0
  | call :: calls, ledgers =>
      (if recordsFailure id call ledgers then 1 else 0) +
        failuresRecorded id calls (afterEvent Call.attempt ledgers call)

theorem Operation.failedEffect_eq_some {op : Operation} {id : String}
    (named : op.failedEffect = some id) : op = .recordDeliveryFailure id := by
  cases op with
  | recordDeliveryFailure effectId => exact congrArg _ (Option.some.inj named)
  | markDelivered | reopenFailedEffects | enqueueReconcileEscalation | evaluateReminders |
    armReminder | stopReminder | heal => cases named

/-- A recorded failure moves the pending effect one failure on. -/
theorem effectAt_recorded {id : String} {call : Call} {ledgers ledgers' : Ledgers} {effect : Effect}
    (named : call.op.failedEffect = some id) (ran : call.attempt ledgers = .ok ledgers')
    (found : effectAt ledgers id = some effect) (pending : effect.status = .pending) :
    ∃ stamp, effectAt ledgers' id = some (failedOnce effect stamp) := by
  obtain ⟨current, draft, leaves, committed⟩ := Operation.run_eq_ok (Call.attempt_eq_ok.mp ran).1
  rw [Operation.failedEffect_eq_some named] at leaves
  obtain ⟨status, done⟩ := leaves
  obtain ⟨outbox, recorded⟩ := recordDeliveryFailureBody_outbox done
  refine ⟨isoMillis call.now, ?_⟩
  rw [committed.effectAt outbox.untouched id]
  exact recorded effect ((committed.start.2 id).trans found) pending

/-- The failures a run records for an effect come out of its budget. -/
theorem failuresRecorded_le (id : String) (calls : List Call) (start : Ledgers) :
    failuresRecorded id calls start + retryBudget (effectAt (afterRun Call.attempt calls start) id) ≤
      retryBudget (effectAt start id) := by
  induction calls generalizing start with
  | nil => simp [failuresRecorded]
  | cons call calls inductionHypothesis =>
      have rest := inductionHypothesis (afterEvent Call.attempt start call)
      rw [failuresRecorded, afterRun_cons]
      cases ran : call.attempt start with
      | error failure =>
          rw [afterEvent_of_error ran] at rest ⊢
          have unrecorded : recordsFailure id call start = false := by
            simp [recordsFailure, ran, Except.toOption]
          simp only [unrecorded, Bool.false_eq_true, if_false]
          omega
      | ok ledgers' =>
          rw [afterEvent_of_ok ran] at rest ⊢
          have stepped := retryBudget_step (Call.effectStep ran id)
          by_cases recorded : recordsFailure id call start = true
          · rw [if_pos recorded]
            simp only [recordsFailure, Bool.and_eq_true, decide_eq_true_eq,
              Option.any_eq_true] at recorded
            obtain ⟨⟨named, effect, found, pending⟩, _⟩ := recorded
            obtain ⟨stamp, after⟩ := effectAt_recorded named ran found pending
            have spent := retryBudget_failedOnce stamp pending
            rw [after] at rest
            rw [found]
            omega
          · rw [if_neg recorded]
            omega

/-! ### Status along a run -/

/-- The effect under `id` is delivered. -/
def DeliveredAt (id : String) (ledgers : Ledgers) : Prop :=
  ∃ effect, effectAt ledgers id = some effect ∧ effect.status = .delivered

/-- A delivered effect takes no further step. -/
theorem EffectStep.of_delivered {effect : Effect} {after : Option Effect}
    (step : EffectStep (some effect) after) (delivered : effect.status = .delivered) :
    after = some effect := by
  cases step with
  | same => rfl
  | delivered stamp pending | failed stamp pending =>
      rw [delivered] at pending
      cases pending
  | reopened stamp may | rearmed stamp organization reason detail may =>
      simp [mayReopen, delivered] at may

theorem deliveredAt_afterRun {id : String} {start : Ledgers} (calls : List Call)
    (delivered : DeliveredAt id start) : DeliveredAt id (afterRun Call.attempt calls start) := by
  have met : Throughout Call.attempt (fun _ _ => True) calls start :=
    Throughout.of_forall (fun _ => True) fun _ _ => trivial
  refine met.invariant (DeliveredAt id) (fun call ledgers ledgers' _ ran held => ?_) delivered
  obtain ⟨effect, found, status⟩ := held
  have step := Call.effectStep ran id
  rw [found] at step
  exact ⟨effect, step.of_delivered status, status⟩

/-- A failed effect that is pending after a step has spent one reopen. -/
theorem EffectStep.of_failed {before after : Effect} (step : EffectStep (some before) (some after))
    (failed : before.status = .failed) (pending : after.status = .pending) :
    before.reopenCount.getD 0 < supervisionEffectReopenLimit ∧
      after.reopenCount = some (before.reopenCount.getD 0 + 1) := by
  have spent (may : mayReopen before = true) :
      before.reopenCount.getD 0 < supervisionEffectReopenLimit ∧
        some (saturatingCount (before.reopenCount.getD 0)) =
          some (before.reopenCount.getD 0 + 1) := by
    simp only [mayReopen, decide_eq_true_eq] at may
    refine ⟨may.2, congrArg some ?_⟩
    simp only [saturatingCount, u32Max, supervisionEffectReopenLimit] at may ⊢
    omega
  cases step with
  | same =>
      rw [failed] at pending
      cases pending
  | delivered stamp impossible | failed stamp impossible =>
      rw [failed] at impossible
      cases impossible
  | reopened stamp may | rearmed stamp organization reason detail may => exact spent may

/-- Along every run, with any ids and times: an effect that is delivered stays delivered, a failed one
comes back to pending only by spending one unit of its reopen budget, and the failed attempts recorded
for one effect never exceed one round of attempts and one more for each reopen. -/
theorem delivery_final_and_bounded (calls : List Call) (start : Ledgers) (id : String) :
    (∀ earlier later : List Call, calls = earlier ++ later →
      DeliveredAt id (afterRun Call.attempt earlier start) →
        DeliveredAt id (afterRun Call.attempt calls start)) ∧
    (∀ (earlier later : List Call) (call : Call) (before after : Effect),
      calls = earlier ++ call :: later →
      effectAt (afterRun Call.attempt earlier start) id = some before →
      before.status = .failed →
      effectAt (afterRun Call.attempt (earlier ++ [call]) start) id = some after →
      after.status = .pending →
        before.reopenCount.getD 0 < supervisionEffectReopenLimit ∧
          after.reopenCount = some (before.reopenCount.getD 0 + 1)) ∧
    failuresRecorded id calls start ≤
      (1 + supervisionEffectReopenLimit) * supervisionEffectDeliveryAttemptLimit := by
  refine ⟨?_, ?_, ?_⟩
  · rintro earlier later rfl delivered
    rw [afterRun_append]
    exact deliveredAt_afterRun later delivered
  · intro earlier later call before after _ found failed found' pending
    rw [afterRun_append, afterRun_cons, afterRun_nil] at found'
    cases ran : call.attempt (afterRun Call.attempt earlier start) with
    | error failure =>
        rw [afterEvent_of_error ran, found] at found'
        rw [← Option.some.inj found', failed] at pending
        cases pending
    | ok ledgers' =>
        rw [afterEvent_of_ok ran] at found'
        have step := Call.effectStep ran id
        rw [found, found'] at step
        exact step.of_failed failed pending
  · have spent := failuresRecorded_le id calls start
    have bound := retryBudget_le (effectAt start id)
    omega

end Chief.Supervision
