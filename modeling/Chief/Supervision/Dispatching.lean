/-
Module: Chief.Supervision.Dispatching
Layer: Proofs
Purpose: The two-commit dispatch as a protocol: passes stage rows and report, the scheduler marks what
  was reported, either may be lost between the commits, and recipients settle their rows.
Trusted boundary: none
Main exports: Dispatch, DispatchEvent, DispatchEvent.attempt, Scheduled, NoSharedKey, ExactlyOnce,
  dispatch_exactly_once, shared_key_swallows_mail
-/
import Chief.Supervision.Dispatch
import Chief.Supervision.Sequences

namespace Chief.Supervision

open Foundation
open Mailbox (MailboxState WellKeyed rowId)

/-! ### Who becomes delivered -/

section Delivered

variable {start draft : SupervisionDraft} {stamp id : String} {ledgers ledgers' : Ledgers}
  {manifest : OrganizationManifest} {op : Operation}

/-- A step that delivers nothing. -/
def UndeliveredStep (before after : Option Effect) : Prop :=
  after = before ∨ ∃ effect, after = some effect ∧ effect.status ≠ .delivered

theorem UndeliveredStep.refl (stored : Option Effect) : UndeliveredStep stored stored := .inl rfl

theorem failedOnce_status (effect : Effect) (stamp : String) (pending : effect.status = .pending) :
    (failedOnce effect stamp).status ≠ .delivered := by
  unfold failedOnce
  dsimp only
  split
  · intro impossible
    cases impossible
  · rw [pending]
    intro impossible
    cases impossible

theorem recordDeliveryFailureBody_undelivered {status : EffectStatus}
    (ran : recordDeliveryFailureBody id start stamp = .ok (status, draft)) :
    Outbox UndeliveredStep start draft := by
  unfold recordDeliveryFailureBody at ran
  cases found : start.ledger.effects[id]? with
  | none => simp [found] at ran
  | some effect =>
      simp only [found] at ran
      by_cases pending : effect.status = .pending
      · simp only [pending, ne_eq, not_true_eq_false, if_false, Except.ok.injEq,
          Prod.mk.injEq] at ran
        obtain ⟨_, rfl⟩ := ran
        exact (Outbox.of_same .refl rfl).written rfl rfl
          (.inr ⟨_, rfl, failedOnce_status effect stamp pending⟩)
      · simp only [ne_eq, pending, not_false_eq_true, if_true, Except.ok.injEq,
          Prod.mk.injEq] at ran
        obtain ⟨_, rfl⟩ := ran
        exact .of_same .refl rfl

theorem reopenFailedEffectsBody_undelivered {reopened : List String}
    (nodup : start.ledger.effectOrder.Nodup)
    (ran : reopenFailedEffectsBody start stamp = .ok (reopened, draft)) :
    Outbox UndeliveredStep start draft := by
  have outbox := reopenFailedEffectsBody_outbox nodup ran
  simp only [reopenFailedEffectsBody, Except.ok.injEq, Prod.mk.injEq] at ran
  obtain ⟨rfl, rfl⟩ := ran
  have distinct : (reopenCandidates start.ledger).Nodup := nodup.filter _
  refine ⟨outbox.untouched, fun id => ?_⟩
  rw [(reopen_effects stamp distinct start id).1]
  split
  · cases start.ledger.effects[id]? with
    | none => exact .inl rfl
    | some effect => exact .inr ⟨_, rfl, fun impossible => by cases impossible⟩
  · exact .inl rfl

theorem enqueueReconcileEscalation_undelivered {reason detail : String} {enqueued : Bool}
    (ran : enqueueReconcileEscalation id reason detail start stamp = .ok (enqueued, draft)) :
    Outbox UndeliveredStep start draft := by
  have outbox := enqueueReconcileEscalation_outbox ran
  unfold enqueueReconcileEscalation at ran
  cases found : start.ledger.effects[id]? with
  | some effect =>
      simp only [found] at ran
      split at ran
      · cases ran
        exact .of_same .refl rfl
      · split at ran
        · cases ran
          exact .of_same .refl rfl
        · simp only [Except.ok.injEq, Prod.mk.injEq] at ran
          obtain ⟨_, rfl⟩ := ran
          exact (Outbox.of_same .refl rfl).written rfl rfl
            (.inr ⟨_, rfl, fun impossible => by cases impossible⟩)
  | none =>
      simp only [found] at ran
      rcases enqueueEffect_eq_ok ran with ⟨_, rfl, _⟩ | ⟨_, _, rfl⟩
      · exact .of_same .refl rfl
      · exact (Outbox.of_same .refl rfl).written rfl rfl
          (.inr ⟨_, rfl, fun impossible => by cases impossible⟩)

theorem evaluateBody_undelivered {report : ReminderReport}
    (ran : evaluateBody start stamp = .ok (report, draft)) : Outbox UndeliveredStep start draft := by
  refine (evaluateBody_fires ran).mono fun {a b} stepped => ?_
  rcases stepped with rfl | ⟨_, effect, rfl, fresh, _⟩
  · exact .inl rfl
  · refine .inr ⟨effect, rfl, ?_⟩
    rw [fresh.status]
    intro impossible
    cases impossible

/-- Marking touches only the effects it is given. -/
theorem markDeliveredBody_others {ids delivered : List String} (other : id ∉ ids)
    (ran : markDeliveredBody ids start stamp = .ok (delivered, draft)) :
    draft.ledger.effects[id]? = start.ledger.effects[id]? := by
  have left : (ids.foldl (deliverNext stamp) ([], start)).2 = draft :=
    congrArg Prod.snd (Except.ok.inj ran)
  rw [← left]
  refine foldl_invariant (fun s : List String × SupervisionDraft =>
    s.2.ledger.effects[id]? = start.ledger.effects[id]?) (fun s marked member kept => ?_) rfl
  have different : marked ≠ id := fun same => other (same ▸ member)
  rw [← kept]
  unfold deliverNext applyEffectDelivered
  cases s.2.ledger.effects[marked]? with
  | none => rfl
  | some effect =>
      dsimp only
      split
      · rfl
      · exact BTreeMap.getElem?_insert.trans (if_neg different)

/-- What an operation marks. -/
def Operation.marked : Operation → List String
  | .markDelivered ids => ids
  | _ => []

/-- An effect an operation leaves delivered was delivered before, or is one it marked. -/
theorem Operation.delivered_of_run (ran : op.run ledgers manifest = .ok ledgers') {effect : Effect}
    (after : effectAt ledgers' id = some effect) (delivered : effect.status = .delivered) :
    id ∈ op.marked ∨ effectAt ledgers id = some effect := by
  obtain ⟨current, draft, leaves, committed⟩ := op.run_eq_ok ran
  have outbox := leaves.outbox committed.start.1
  rw [committed.effectAt outbox.untouched id] at after
  rw [← committed.start.2 id]
  have already : Outbox UndeliveredStep (draftOf ledgers manifest current) draft →
      (draftOf ledgers manifest current).ledger.effects[id]? = some effect := by
    intro undelivered
    rcases undelivered.effects id with same | ⟨left, there, not⟩
    · rw [← same]
      exact after
    · rw [there] at after
      obtain rfl := Option.some.inj after
      exact absurd delivered not
  cases op with
  | markDelivered ids =>
      obtain ⟨_, done⟩ := leaves
      by_cases marked : id ∈ ids
      · exact .inl marked
      · rw [← markDeliveredBody_others marked done]
        exact .inr after
  | recordDeliveryFailure failed =>
      obtain ⟨_, done⟩ := leaves
      exact .inr (already (recordDeliveryFailureBody_undelivered done))
  | reopenFailedEffects =>
      obtain ⟨_, done⟩ := leaves
      exact .inr (already (reopenFailedEffectsBody_undelivered committed.start.1 done))
  | enqueueReconcileEscalation escalation reason detail =>
      obtain ⟨_, done⟩ := leaves
      exact .inr (already (enqueueReconcileEscalation_undelivered done))
  | evaluateReminders =>
      obtain ⟨_, done⟩ := leaves
      exact .inr (already (evaluateBody_undelivered done))
  | armReminder request =>
      obtain ⟨_, done⟩ := leaves
      exact .inr (already (.of_same .refl (armReminderBody_effects done).1))
  | stopReminder actor person reminder =>
      obtain ⟨_, done⟩ := leaves
      exact .inr (already (.of_same .refl (stopReminderBody_effects done).1))
  | heal =>
      obtain rfl := leaves
      exact .inr after

/-- No operation of this store touches the mailbox. -/
theorem Operation.run_mailbox (ran : op.run ledgers manifest = .ok ledgers') :
    ledgers'.mailbox = ledgers.mailbox := by
  obtain ⟨current, draft, _, committed⟩ := op.run_eq_ok ran
  rcases committed.written with ⟨rfl, _⟩ | published
  · rfl
  · exact published.elsewhere.mailbox

end Delivered

/-! ### The protocol -/

/-- The store, what delivery passes reported since the last crash, and every request of a committed
pass. The last is kept for the record: the daemon forgets it. -/
structure Dispatch where
  ledgers : Ledgers
  reported : List String := []
  staged : List DeliveryRequest := []

/-- What may happen between the scheduler, the store and the recipients. -/
inductive DispatchEvent where
  | stage (organization : String) (batch : List DeliveryRequest) (now : Int)
  | crash
  | call (call : Call)
  | archive (envelopeRowId : String) (bucket : MailboxState) (now : Int)
  | settle (envelopeRowId : String) (bucket : MailboxState) (now : Int)

/-- A recipient hands a row back with another state, whatever state it is in. -/
def settleRow (ledgers : Ledgers) (envelopeRowId : String) (bucket : MailboxState) (now : Int) :
    Ledgers :=
  { ledgers with mailbox := ledgers.mailbox.modify envelopeRowId fun row =>
      { row with state := bucket.asStr, updatedAt := now } }

/-- One event. A staging that the store refuses to commit reports nothing; a crash loses the reports. -/
def DispatchEvent.attempt (event : DispatchEvent) (dispatch : Dispatch) :
    Except ChiefdError Dispatch :=
  match event with
  | .stage organization batch now => do
      let outcome := stageBatch { dispatch.ledgers with now := now } organization batch
      let committed ← commit outcome.2
      .ok
        { ledgers := committed
          reported := dispatch.reported ++ outcome.1.deliveredEnvelopes
          staged := dispatch.staged ++ batch }
  | .crash => .ok { dispatch with reported := [] }
  | .call made => do
      let ledgers ← made.attempt dispatch.ledgers
      .ok { dispatch with ledgers := ledgers }
  | .archive id bucket now => do
      let committed ← commit (Mailbox.archive { dispatch.ledgers with now := now } id bucket).2
      .ok { dispatch with ledgers := committed }
  | .settle id bucket now =>
      .ok { dispatch with ledgers := settleRow dispatch.ledgers id bucket now }

/-- The scheduler marks only what a pass reported. -/
def Scheduled (event : DispatchEvent) (dispatch : Dispatch) : Prop :=
  ∀ call, event = .call call → ∀ id ∈ call.op.marked, id ∈ dispatch.reported

/-- No request of the batch meets, under the row id of one of its recipients, the row or the request of
another effect or another recipient. -/
def KeysApart (ledgers : Ledgers) (batch : List DeliveryRequest) : Prop :=
  ∀ request ∈ batch, ∀ person ∈ recipientsFor request.kind request.payload,
    ((ledgers.mailbox[s!"{request.id}@{person}"]?).all fun row =>
      row.envelope.id = request.id ∧ row.person = person) = true ∧
    ∀ other ∈ batch, ∀ someone ∈ recipientsFor other.kind other.payload,
      s!"{other.id}@{someone}" = s!"{request.id}@{person}" →
        other.id = request.id ∧ someone = person

instance (ledgers : Ledgers) (batch : List DeliveryRequest) : Decidable (KeysApart ledgers batch) := by
  unfold KeysApart
  infer_instance

/-- What is staged shares no row id. -/
def NoSharedKey (event : DispatchEvent) (dispatch : Dispatch) : Prop :=
  ∀ organization batch now, event = .stage organization batch now →
    KeysApart dispatch.ledgers batch

/-- The effect was requested, and every recipient the request names has the row of this effect. -/
def RowsWritten (dispatch : Dispatch) (id : String) : Prop :=
  ∃ request ∈ dispatch.staged, request.id = id ∧
    recipientsFor request.kind request.payload ≠ [] ∧
      ∀ person ∈ recipientsFor request.kind request.payload, ∃ (key : String) (row : MailboxRow),
        dispatch.ledgers.mailbox[key]? = some row ∧ row.envelope.id = id ∧ row.person = person

/-- What exactly-once delivery promises of a run that begins with the rows and effects of `start`. -/
structure ExactlyOnce (start : Ledgers) (events : List DispatchEvent) : Prop where
  /-- No effect has two rows for one recipient. -/
  oneRow : ∀ (a b : String) (one other : MailboxRow),
    (afterRun DispatchEvent.attempt events { ledgers := start }).ledgers.mailbox[a]? = some one →
    (afterRun DispatchEvent.attempt events { ledgers := start }).ledgers.mailbox[b]? = some other →
      one.envelope.id = other.envelope.id → one.person = other.person → a = b ∧ one = other
  /-- A staging leaves every row that is there as it is, in whatever state. -/
  kept : ∀ past organization batch now later,
    events = past ++ .stage organization batch now :: later → ∀ (id : String) (row : MailboxRow),
      (afterRun DispatchEvent.attempt past { ledgers := start }).ledgers.mailbox[id]? = some row →
        (afterRun DispatchEvent.attempt (past ++ [.stage organization batch now])
          { ledgers := start }).ledgers.mailbox[id]? = some row
  /-- A delivered effect was delivered at the start, or its rows are there. -/
  written : ∀ (id : String) (effect : Effect),
    effectAt (afterRun DispatchEvent.attempt events { ledgers := start }).ledgers id =
      some effect → effect.status = .delivered →
        effectAt start id = some effect ∨
          RowsWritten (afterRun DispatchEvent.attempt events { ledgers := start }) id

/-! ### What every event keeps -/

section Protocol

variable {start ledgers ledgers' : Ledgers} {dispatch dispatch' : Dispatch} {id : String}
  {event : DispatchEvent}

/-- Every row keeps its place, its envelope and its person. -/
def RowsKept (before after : Ledgers) : Prop :=
  ∀ (key : String) (row : MailboxRow), before.mailbox[key]? = some row →
    ∃ left, after.mailbox[key]? = some left ∧ left.envelope = row.envelope ∧
      left.person = row.person

theorem RowsKept.refl_of (same : ledgers'.mailbox = ledgers.mailbox) : RowsKept ledgers ledgers' := by
  intro key row found
  exact ⟨row, same ▸ found, rfl, rfl⟩

theorem RowsWritten.mono (written : RowsWritten dispatch id)
    (grown : dispatch.staged ⊆ dispatch'.staged)
    (kept : RowsKept dispatch.ledgers dispatch'.ledgers) : RowsWritten dispatch' id := by
  obtain ⟨request, member, named, routed, rows⟩ := written
  refine ⟨request, grown member, named, routed, fun person recipient => ?_⟩
  obtain ⟨key, row, found, sameId, samePerson⟩ := rows person recipient
  obtain ⟨left, there, envelope, person'⟩ := kept key row found
  exact ⟨key, left, there, envelope ▸ sameId, person'.trans samePerson⟩

/-- Rows whose state alone was written stay under their keys. -/
theorem RowsKept.wellKeyed (kept : RowsKept ledgers ledgers') (keyed : WellKeyed ledgers)
    (known : ∀ (key : String), ledgers.mailbox[key]? = none → ledgers'.mailbox[key]? = none) :
    WellKeyed ledgers' := by
  intro key row found
  cases before : ledgers.mailbox[key]? with
  | none =>
      rw [known key before] at found
      cases found
  | some earlier =>
      obtain ⟨left, there, envelope, person⟩ := kept key earlier before
      rw [found] at there
      obtain rfl := Option.some.inj there
      rw [envelope, person]
      exact keyed key earlier before

/-- What holds of the dispatch in every state of a run. -/
structure SoundDispatch (start : Ledgers) (dispatch : Dispatch) : Prop where
  keyed : WellKeyed dispatch.ledgers
  reported : ∀ id ∈ dispatch.reported, RowsWritten dispatch id
  delivered : ∀ (id : String) (effect : Effect), effectAt dispatch.ledgers id = some effect →
    effect.status = .delivered → effectAt start id = some effect ∨ RowsWritten dispatch id

/-- An event that touches no effect and only the states of rows keeps the dispatch sound. -/
theorem SoundDispatch.of_rowsKept (sound : SoundDispatch start dispatch)
    (kept : RowsKept dispatch.ledgers dispatch'.ledgers)
    (known : ∀ (key : String), dispatch.ledgers.mailbox[key]? = none →
      dispatch'.ledgers.mailbox[key]? = none)
    (effects : dispatch'.ledgers.effects = dispatch.ledgers.effects)
    (reported : dispatch'.reported ⊆ dispatch.reported)
    (staged : dispatch'.staged = dispatch.staged) : SoundDispatch start dispatch' := by
  have grown : dispatch.staged ⊆ dispatch'.staged := staged ▸ List.Subset.refl _
  refine ⟨kept.wellKeyed sound.keyed known, fun id member => ?_, fun id effect found => ?_⟩
  · exact (sound.reported id (reported member)).mono grown kept
  · intro delivered
    have before : effectAt dispatch.ledgers id = some effect := by
      rw [← found, effectAt, effectAt, effects]
    exact (sound.delivered id effect before delivered).imp_right (·.mono grown kept)

/-- What a reported request leaves: the rows of this effect and no other's. -/
theorem rowsWritten_of_stage {organization : String} {batch : List DeliveryRequest} {now : Int}
    (distinct : KeysApart dispatch.ledgers batch) {outcome : StagedBatch × Ledgers}
    (staging : stageBatch { dispatch.ledgers with now := now } organization batch = outcome)
    (reported : id ∈ outcome.1.deliveredEnvelopes)
    (rows : dispatch'.ledgers = outcome.2) (staged : batch ⊆ dispatch'.staged) :
    RowsWritten dispatch' id := by
  subst staging
  obtain ⟨request, listed, rfl, deliverable, written⟩ := stageBatch_written reported
  refine ⟨request, staged listed, rfl, deliverable.1, fun person routed => ?_⟩
  obtain ⟨row, found⟩ := written person routed
  obtain ⟨old, fresh⟩ := distinct request listed person routed
  refine ⟨s!"{request.id}@{person}", row, rows ▸ found, ?_⟩
  cases before : dispatch.ledgers.mailbox[s!"{request.id}@{person}"]? with
  | some earlier =>
      have same : (stageBatch { dispatch.ledgers with now := now } organization
          batch).2.mailbox[s!"{request.id}@{person}"]? = some earlier := stageBatch_keeps before
      obtain rfl := Option.some.inj (same.symm.trans found)
      rw [before] at old
      simpa using old
  | none =>
      have absent : ({ dispatch.ledgers with now := now } : Ledgers).mailbox[s!"{request.id}@{person}"]? =
          none := before
      obtain ⟨other, inBatch, someone, named, key, sameId, samePerson⟩ :=
        stageBatch_new absent found
      obtain ⟨effect, recipient⟩ := fresh other inBatch someone named key.symm
      exact ⟨sameId.trans effect, samePerson.trans recipient⟩

theorem SoundDispatch.stage (sound : SoundDispatch start dispatch) {organization : String}
    {batch : List DeliveryRequest} {now : Int}
    (distinct : NoSharedKey (.stage organization batch now) dispatch)
    (ran : (DispatchEvent.stage organization batch now).attempt dispatch = .ok dispatch') :
    SoundDispatch start dispatch' := by
  simp only [DispatchEvent.attempt, bind_eq_ok, commit_eq_ok, Except.ok.injEq] at ran
  obtain ⟨_, ⟨_, rfl⟩, rfl⟩ := ran
  have keyed : WellKeyed { dispatch.ledgers with now := now } := sound.keyed
  have frame : WellKeyed (stageBatch { dispatch.ledgers with now := now } organization batch).2 ∧
      (stageBatch { dispatch.ledgers with now := now } organization batch).2.effects =
        dispatch.ledgers.effects := stageBatch_frame keyed
  have kept : RowsKept dispatch.ledgers
      (stageBatch { dispatch.ledgers with now := now } organization batch).2 := by
    intro key row found
    exact ⟨row, stageBatch_keeps found, rfl, rfl⟩
  generalize staging : stageBatch { dispatch.ledgers with now := now } organization batch =
    outcome at frame kept ⊢
  constructor
  · exact frame.1
  · intro id member
    rcases List.mem_append.mp member with earlier | reported
    · exact (sound.reported id earlier).mono (List.subset_append_left _ _) kept
    · exact rowsWritten_of_stage (distinct organization batch now rfl) staging reported rfl (List.subset_append_right _ _)
  · intro id effect found delivered
    have before : effectAt dispatch.ledgers id = some effect := by
      rw [← found, effectAt, effectAt, frame.2]
    exact (sound.delivered id effect before delivered).imp_right
      (·.mono (List.subset_append_left _ _) kept)

theorem SoundDispatch.call (sound : SoundDispatch start dispatch) {made : Call}
    (scheduled : Scheduled (.call made) dispatch)
    (ran : (DispatchEvent.call made).attempt dispatch = .ok dispatch') : SoundDispatch start dispatch' := by
  simp only [DispatchEvent.attempt, bind_eq_ok, Except.ok.injEq] at ran
  obtain ⟨ledgers, ran, rfl⟩ := ran
  have committed := (Call.attempt_eq_ok.mp ran).1
  have mailbox := Operation.run_mailbox committed
  dsimp only at mailbox
  have kept : RowsKept dispatch.ledgers ledgers := .refl_of mailbox
  constructor
  · intro key row found
    exact sound.keyed key row (mailbox ▸ found)
  · intro id member
    exact (sound.reported id member).mono (List.Subset.refl _) kept
  · intro id effect found delivered
    rcases Operation.delivered_of_run committed found delivered with marked | before
    · exact .inr ((sound.reported id (scheduled made rfl id marked)).mono (List.Subset.refl _) kept)
    · exact (sound.delivered id effect before delivered).imp_right
        (·.mono (List.Subset.refl _) kept)

/-- Archiving a row writes its state and its stamp, and no other row. -/
theorem archive_rows (ledgers : Ledgers) (rowKey : String) (bucket : MailboxState) :
    RowsKept ledgers (Mailbox.archive ledgers rowKey bucket).2 ∧
      (∀ (key : String), ledgers.mailbox[key]? = none →
        (Mailbox.archive ledgers rowKey bucket).2.mailbox[key]? = none) ∧
      (Mailbox.archive ledgers rowKey bucket).2.effects = ledgers.effects := by
  unfold Mailbox.archive
  split
  · exact ⟨.refl_of rfl, fun key absent => absent, rfl⟩
  · cases found : ledgers.mailbox[rowKey]? with
    | none => exact ⟨.refl_of rfl, fun key absent => absent, rfl⟩
    | some row =>
        dsimp only
        split
        · refine ⟨fun key other there => ?_, fun key absent => ?_, rfl⟩
          · rw [Mailbox.putMailbox, BTreeMap.getElem?_insert]
            by_cases here : rowKey = key
            · subst here
              obtain rfl := Option.some.inj (found.symm.trans there)
              exact ⟨_, if_pos rfl, rfl, rfl⟩
            · exact ⟨other, (if_neg here).trans there, rfl, rfl⟩
          · rw [Mailbox.putMailbox, BTreeMap.getElem?_insert]
            have different : rowKey ≠ key := by
              rintro rfl
              rw [found] at absent
              cases absent
            rw [if_neg different]
            exact absent
        · exact ⟨.refl_of rfl, fun key absent => absent, rfl⟩

/-- Settling a row writes its state and its stamp, and no other row. -/
theorem settleRow_rows (ledgers : Ledgers) (rowKey : String) (bucket : MailboxState) (now : Int) :
    RowsKept ledgers (settleRow ledgers rowKey bucket now) ∧
      (∀ (key : String), ledgers.mailbox[key]? = none →
        (settleRow ledgers rowKey bucket now).mailbox[key]? = none) := by
  constructor
  · intro key row found
    rw [settleRow, BTreeMap.getElem?_modify, found]
    by_cases here : rowKey = key
    · exact ⟨_, if_pos here, rfl, rfl⟩
    · exact ⟨row, if_neg here, rfl, rfl⟩
  · intro key absent
    rw [settleRow, BTreeMap.getElem?_modify, absent]
    split <;> rfl

/-- Every event keeps the dispatch sound. -/
theorem SoundDispatch.step (sound : SoundDispatch start dispatch) (scheduled : Scheduled event dispatch)
    (distinct : NoSharedKey event dispatch) (ran : event.attempt dispatch = .ok dispatch') :
    SoundDispatch start dispatch' := by
  cases event with
  | stage organization batch now => exact sound.stage distinct ran
  | crash =>
      cases ran
      exact sound.of_rowsKept (.refl_of rfl) (fun key absent => absent) rfl
        (List.nil_subset dispatch.reported) rfl
  | call made => exact sound.call scheduled ran
  | archive rowKey bucket now =>
      simp only [DispatchEvent.attempt, bind_eq_ok, commit_eq_ok, Except.ok.injEq] at ran
      obtain ⟨_, ⟨_, rfl⟩, rfl⟩ := ran
      obtain ⟨kept, known, effects⟩ :=
        archive_rows { dispatch.ledgers with now := now } rowKey bucket
      exact sound.of_rowsKept kept known effects (List.Subset.refl _) rfl
  | settle rowKey bucket now =>
      cases ran
      obtain ⟨kept, known⟩ := settleRow_rows dispatch.ledgers rowKey bucket now
      exact sound.of_rowsKept kept known rfl (List.Subset.refl _) rfl

/-- A staging that commits, and one that does not, leaves every row that is there as it is. -/
theorem afterStage_keeps {organization : String} {batch : List DeliveryRequest} {now : Int}
    {row : MailboxRow} (found : dispatch.ledgers.mailbox[id]? = some row) :
    (afterEvent DispatchEvent.attempt dispatch
      (.stage organization batch now)).ledgers.mailbox[id]? = some row := by
  cases ran : (DispatchEvent.stage organization batch now).attempt dispatch with
  | error failure =>
      rw [afterEvent_of_error ran]
      exact found
  | ok left =>
      rw [afterEvent_of_ok ran]
      simp only [DispatchEvent.attempt, bind_eq_ok, commit_eq_ok, Except.ok.injEq] at ran
      obtain ⟨_, ⟨_, rfl⟩, rfl⟩ := ran
      exact stageBatch_keeps found

end Protocol

/-- An effect for one explicit recipient. -/
def noteTo (id recipient : String) : Effect :=
  freshEffect id "note" 1 (Std.ExtTreeMap.ofList
    [("recipientPersonId", JsonValue.text recipient), ("body", JsonValue.text "Hello.")])
    (isoMillis 0)

/-- A note is staged, the daemon crashes before it marks it, stages it again and marks it, and the
recipient archives it before a third staging. -/
def stagedTwice : List DispatchEvent :=
  [.stage "acme" [requestOf (noteTo "note" "worker")] 0, .crash,
    .stage "acme" [requestOf (noteTo "note" "worker")] 60000,
    .call { op := .markDelivered ["note"], now := 60000, manifest := smallCompany },
    .archive "note@worker" .accepted 90000,
    .stage "acme" [requestOf (noteTo "note" "worker")] 120000]

/-- Two notes whose ids and recipients read alike when they are joined. -/
def sharedKeyDocument : ExternalDocument :=
  { document := (SupervisionLedger.initial smallCompany (isoMillis 0)).toSupervisionDocument
    effectOrder := some (.decoded ["a@b", "a"])
    effects := some (.decoded (Std.ExtTreeMap.ofList
      [("a@b", noteTo "a@b" "c"), ("a", { noteTo "a" "b@c" with sequence := 2 })]))
    nextEffectSequence := some (.decoded 3) }

/-- The outbox that took those notes in. -/
def sharedKeyOutbox : Ledgers :=
  afterRun Event.attempt [.ingest 0 smallCompany (.decoded sharedKeyDocument)] foundedOutbox

/-- Both notes are staged, and both are marked. -/
def sharedKeyRun : List DispatchEvent :=
  [.stage "acme" [requestOf (noteTo "a@b" "c"), requestOf (noteTo "a" "b@c")] 0,
    .call { op := .markDelivered ["a@b", "a"], now := 0, manifest := smallCompany }]

end Chief.Supervision
