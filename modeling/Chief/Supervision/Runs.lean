/-
Module: Chief.Supervision.Runs
Layer: Model
Purpose: Runs of the supervision store: any sequence of calls, each with its own time and organization,
  committed only when the rules across stores accept what it leaves.
Trusted boundary: human-reviewed translation
Main exports: Operation, Operation.run, Call, Call.attempt, Operation.outbox
-/
import Chief.Foundation.Runs
import Chief.Supervision.Outbox

namespace Chief.Supervision

open Foundation

/-- The mutations of the supervision store. `heal` is one with an empty body. -/
inductive Operation where
  | markDelivered (effectIds : List String)
  | recordDeliveryFailure (effectId : String)
  | reopenFailedEffects
  | enqueueReconcileEscalation (id reason detail : String)
  | evaluateReminders
  | armReminder (request : ArmRequest)
  | stopReminder (actorPersonId personId reminderId : String)
  | heal

/-- What the operation leaves of the working set. -/
def Operation.run (op : Operation) (ledgers : Ledgers) (manifest : OrganizationManifest) :
    Except ChiefdError Ledgers :=
  match op with
  | .markDelivered effectIds => (Supervision.markDelivered ledgers manifest effectIds).map Prod.snd
  | .recordDeliveryFailure effectId =>
      (Supervision.recordDeliveryFailure ledgers manifest effectId).map Prod.snd
  | .reopenFailedEffects => (Supervision.reopenFailedEffects ledgers manifest).map Prod.snd
  | .enqueueReconcileEscalation id reason detail =>
      (mutate ledgers manifest (Supervision.enqueueReconcileEscalation id reason detail)).map
        Prod.snd
  | .evaluateReminders => (Supervision.evaluateReminders ledgers manifest).map Prod.snd
  | .armReminder request => (Supervision.armReminder ledgers manifest request).map Prod.snd
  | .stopReminder actor person id =>
      (Supervision.stopReminder ledgers manifest actor person id).map Prod.snd
  | .heal => (mutate ledgers manifest fun draft _ => .ok ((), draft)).map Prod.snd

/-- One call against the store. -/
structure Call where
  op : Operation
  now : Int
  manifest : OrganizationManifest

/-- The commit of a working set: the rules across stores have the last word. -/
def commit (ledgers : Ledgers) : Except ChiefdError Ledgers := do
  liftRefusal ledgers.validateNonDocuments
  .ok ledgers

/-- The call on a working set, whose clock is the time of the call. -/
def Call.attempt (call : Call) (ledgers : Ledgers) : Except ChiefdError Ledgers :=
  call.op.run { ledgers with now := call.now } call.manifest >>= commit

theorem commit_eq_ok {ledgers ledgers' : Ledgers} :
    commit ledgers = .ok ledgers' ↔ ledgers.validateNonDocuments = .ok () ∧ ledgers' = ledgers := by
  simp only [commit, bind_eq_ok, liftRefusal_eq_ok, Except.ok.injEq]
  constructor
  · rintro ⟨_, accepted, rfl⟩
    exact ⟨accepted, rfl⟩
  · rintro ⟨accepted, rfl⟩
    exact ⟨(), accepted, rfl⟩

theorem Call.attempt_eq_ok {call : Call} {ledgers ledgers' : Ledgers} :
    call.attempt ledgers = .ok ledgers' ↔
      call.op.run { ledgers with now := call.now } call.manifest = .ok ledgers' ∧
        ledgers'.validateNonDocuments = .ok () := by
  simp only [Call.attempt, bind_eq_ok, commit_eq_ok]
  constructor
  · rintro ⟨_, ran, accepted, rfl⟩
    exact ⟨ran, accepted⟩
  · rintro ⟨ran, accepted⟩
    exact ⟨ledgers', ran, accepted, rfl⟩

section Steps

variable {op : Operation} {ledgers ledgers' : Ledgers} {manifest : OrganizationManifest}
  {current : SupervisionLedger} {draft : SupervisionDraft}

/-- What the operation does to the draft. -/
def Operation.Leaves (op : Operation) (start draft : SupervisionDraft) (stamp : String) : Prop :=
  match op with
  | .markDelivered effectIds =>
      ∃ delivered, markDeliveredBody effectIds start stamp = .ok (delivered, draft)
  | .recordDeliveryFailure effectId =>
      ∃ status, recordDeliveryFailureBody effectId start stamp = .ok (status, draft)
  | .reopenFailedEffects =>
      ∃ reopened, reopenFailedEffectsBody start stamp = .ok (reopened, draft)
  | .enqueueReconcileEscalation id reason detail =>
      ∃ enqueued, Supervision.enqueueReconcileEscalation id reason detail start stamp =
        .ok (enqueued, draft)
  | .evaluateReminders => ∃ report, evaluateBody start stamp = .ok (report, draft)
  | .armReminder request => ∃ reminder, armReminderBody request start stamp = .ok (reminder, draft)
  | .stopReminder actor person id =>
      ∃ reminder, stopReminderBody actor person id start stamp = .ok (reminder, draft)
  | .heal => draft = start

theorem ok_map_snd {α β : Type} {outcome : Except ChiefdError (α × β)} {b : β}
    (ran : outcome.map Prod.snd = .ok b) : ∃ a, outcome = .ok (a, b) := by
  cases outcome with
  | error e => cases ran
  | ok pair =>
      cases ran
      exact ⟨pair.1, rfl⟩

/-- A successful operation read a ledger, and committed what its body left. -/
theorem Operation.run_eq_ok (ran : op.run ledgers manifest = .ok ledgers') :
    ∃ current draft, op.Leaves (draftOf ledgers manifest current) draft (isoMillis ledgers.now) ∧
      Committed ledgers manifest current draft ledgers' := by
  cases op with
  | heal =>
      obtain ⟨_, ran⟩ := ok_map_snd ran
      obtain ⟨current, draft, done, committed⟩ := mutate_eq_ok ran
      cases done
      exact ⟨current, _, rfl, committed⟩
  | markDelivered | recordDeliveryFailure | reopenFailedEffects | enqueueReconcileEscalation |
    evaluateReminders | armReminder | stopReminder =>
      obtain ⟨result, ran⟩ := ok_map_snd ran
      obtain ⟨current, draft, done, committed⟩ := mutate_eq_ok ran
      exact ⟨current, draft, ⟨result, done⟩, committed⟩

theorem Operation.Leaves.outbox {start : SupervisionDraft} {stamp : String}
    (leaves : op.Leaves start draft stamp) (nodup : start.ledger.effectOrder.Nodup) :
    Outbox EffectStep start draft := by
  cases op with
  | markDelivered ids =>
      obtain ⟨_, done⟩ := leaves
      exact markDeliveredBody_outbox done
  | recordDeliveryFailure id =>
      obtain ⟨_, done⟩ := leaves
      exact (recordDeliveryFailureBody_outbox done).1
  | reopenFailedEffects =>
      obtain ⟨_, done⟩ := leaves
      exact reopenFailedEffectsBody_outbox nodup done
  | enqueueReconcileEscalation id reason detail =>
      obtain ⟨_, done⟩ := leaves
      exact enqueueReconcileEscalation_outbox done
  | evaluateReminders =>
      obtain ⟨_, done⟩ := leaves
      exact evaluateBody_outbox done
  | armReminder request =>
      obtain ⟨_, done⟩ := leaves
      exact .of_same .same (armReminderBody_effects done).1
  | stopReminder actor person id =>
      obtain ⟨_, done⟩ := leaves
      exact .of_same .same (stopReminderBody_effects done).1
  | heal =>
      obtain rfl := leaves
      exact .of_same .same rfl

/-- What a mutation read, as its draft and as the store have it. -/
theorem Committed.start (committed : Committed ledgers manifest current draft ledgers') :
    (draftOf ledgers manifest current).ledger.effectOrder.Nodup ∧
      ∀ id : String, (draftOf ledgers manifest current).ledger.effects[id]? = effectAt ledgers id := by
  obtain ⟨document, _, hydrated⟩ := readForMutation_eq_ok committed.read
  have shed := shedDeparted_shed current manifest
  constructor
  · show (shedDeparted current manifest).1.effectOrder.Nodup
    rw [shed.effectOrder, hydrated.order]
    exact nodup_effectOrder ledgers
  · intro id
    show (shedDeparted current manifest).1.effects[id]? = _
    rw [shed.effects, hydrated.effects id]

/-- After a commit the store has every effect as the draft left it. -/
theorem Committed.effectAt (committed : Committed ledgers manifest current draft ledgers')
    (untouched : ∀ id : String, id ∉ draft.touchedEffects →
      draft.ledger.effects[id]? = (draftOf ledgers manifest current).ledger.effects[id]?)
    (id : String) : effectAt ledgers' id = draft.ledger.effects[id]? := by
  rcases committed.written with ⟨rfl, _, clean⟩ | published
  · rw [untouched id (clean id)]
    exact (committed.start.2 id).symm
  · rw [published.effectAt id]
    by_cases touched : id ∈ draft.touchedEffects
    · rw [if_pos (Std.ExtTreeSet.mem_toList.mpr touched)]
    · rw [if_neg fun member => touched (Std.ExtTreeSet.mem_toList.mp member), untouched id touched]
      exact (committed.start.2 id).symm

/-- Every operation takes every effect by at most one step. -/
theorem Operation.effectStep (ran : op.run ledgers manifest = .ok ledgers') (id : String) :
    EffectStep (effectAt ledgers id) (effectAt ledgers' id) := by
  obtain ⟨current, draft, leaves, committed⟩ := op.run_eq_ok ran
  have outbox := leaves.outbox committed.start.1
  rw [committed.effectAt outbox.untouched id, ← committed.start.2 id]
  exact outbox.effects id

/-- Every commit of a call takes every effect by at most one step. -/
theorem Call.effectStep {call : Call} (ran : call.attempt ledgers = .ok ledgers') (id : String) :
    EffectStep (effectAt ledgers id) (effectAt ledgers' id) :=
  Operation.effectStep (Call.attempt_eq_ok.mp ran).1 id

end Steps

end Chief.Supervision
