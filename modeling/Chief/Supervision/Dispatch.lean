/-
Module: Chief.Supervision.Dispatch
Layer: Model
Purpose: The writer phase of a delivery pass: each effect is routed and rendered into an envelope and
  staged in the mailbox; the host phase wakes who has new mail.
Trusted boundary: human-reviewed translation
Main exports: recipientsFor, envelopeBody, render, stageBatch, actuateStaged, render_eq_ok,
  stageBatch_keeps, stageBatch_new, stageBatch_written
-/
import Chief.Mailbox.Store
import Chief.Supervision.Reminders

namespace Chief.Supervision

open Foundation

/-- The sender of every envelope the system issues. -/
def systemSender : String := "launcher"

/-- One pending effect handed to a delivery pass. -/
structure DeliveryRequest where
  id : String
  kind : String
  payload : BTreeMap JsonValue
deriving DecidableEq

/-- One failed dispatch, with the reason it failed. -/
structure DispatchFailure where
  effectId : String
  reason : String
deriving DecidableEq, Repr

/-- What a delivery pass achieved. -/
structure DeliveryReport where
  delivered : List String := []
  failed : List DispatchFailure := []
  woken : List String := []
deriving DecidableEq, Repr

/-- The text under a key of a payload. -/
def text (payload : BTreeMap JsonValue) (key : String) : Option String :=
  (payload[key]?).bind JsonValue.asStr

/-- The recipients an effect routes to. An explicit recipient wins; a reminder goes to the person it
names; anything else to an assignee or a manager. -/
def recipientsFor (kind : String) (payload : BTreeMap JsonValue) : List String :=
  match text payload "recipientPersonId" with
  | some explicit => [explicit]
  | none =>
      let pick :=
        if kind = "person_reminder" then text payload "personId"
        else (text payload "assigneePersonId").or (text payload "managerPersonId")
      pick.toList

/-- How urgent an envelope of this kind is. -/
def urgencyFor (kind : String) : Urgency :=
  if kind = "reconcile_escalation" then .interrupt else .normal

/-- The content an envelope carries: the first of the keys producers write, unless it is blank. -/
def envelopeBody (kind : String) (payload : BTreeMap JsonValue) : Except String String :=
  let content := ((text payload "body").or (text payload "message")).or (text payload "request")
  match content.filter fun value => isBlank value = false with
  | some value => .ok value
  | none =>
      .error s!"effect kind '{kind}' carries no body/message/request content; an envelope effect is deliverable only with non-empty body, message or request text"

/-- Render one effect into a durable envelope. -/
def render (effectId kind : String) (payload : BTreeMap JsonValue) (organization stamp : String) :
    Except String MailboxEnvelope :=
  match recipientsFor kind payload with
  | [] =>
      .error s!"effect kind '{kind}' names no recipient; an envelope effect is deliverable only when it carries recipientPersonId, or the routing key its own kind uses (assigneePersonId, managerPersonId or personId)"
  | primary :: others => do
      let body ← envelopeBody kind payload
      .ok
        { schemaVersion := Mailbox.mailboxEnvelopeSchemaVersion
          id := effectId
          organization := organization
          fromPersonId := systemSender
          toPersonId := primary
          recipients := primary :: others
          body := body
          urgency := urgencyFor kind
          replyTo := text payload "replyTo"
          healthIncident := none
          createdAt := stamp }

/-- The outcome of the writer phase. -/
structure StagedBatch where
  deliveredEnvelopes : List String := []
  failed : List DispatchFailure := []
  wakeRecipients : BTreeSet := ∅

/-- Stage one effect of a batch. -/
def stageRequest (organization stamp : String) (s : StagedBatch × Ledgers)
    (request : DeliveryRequest) : StagedBatch × Ledgers :=
  match render request.id request.kind request.payload organization stamp with
  | .ok envelope =>
      let (pending, ledgers) := Mailbox.enqueue s.2 envelope
      ({ s.1 with
          deliveredEnvelopes := s.1.deliveredEnvelopes ++ [request.id]
          wakeRecipients := s.1.wakeRecipients.insertMany pending }, ledgers)
  | .error detail =>
      ({ s.1 with failed := s.1.failed ++ [{
          effectId := request.id
          reason := s!"the effect could not be rendered: {detail}" }] }, s.2)

/-- The writer phase: render each effect and stage its rows. -/
def stageBatch (ledgers : Ledgers) (organization : String) (batch : List DeliveryRequest) :
    StagedBatch × Ledgers :=
  batch.foldl (stageRequest organization (isoMillis ledgers.now)) ({}, ledgers)

/-- The host phase: wake whoever has new mail. A wake that fails takes nothing back. -/
def actuateStaged (wake : List String → List String) (staged : StagedBatch) : DeliveryReport :=
  let recipients := staged.wakeRecipients.toList
  { delivered := staged.deliveredEnvelopes
    failed := staged.failed
    woken := if recipients = [] then [] else wake recipients }

/-- The request a delivery pass makes of an effect. -/
def requestOf (effect : Effect) : DeliveryRequest :=
  { id := effect.id, kind := effect.kind, payload := effect.payload }

/-! ### What rendering and staging do -/

section Staging

variable {organization stamp : String} {request : DeliveryRequest} {envelope : MailboxEnvelope}
  {ledgers : Ledgers} {batch : List DeliveryRequest} {id : String} {row : MailboxRow}

/-- What a rendered envelope carries. -/
theorem render_eq_ok (rendered : render request.id request.kind request.payload organization stamp =
      .ok envelope) :
    envelope.id = request.id ∧ envelope.recipients = recipientsFor request.kind request.payload ∧
      envelope.recipients ≠ [] ∧ envelopeBody request.kind request.payload = .ok envelope.body := by
  unfold render at rendered
  cases routed : recipientsFor request.kind request.payload with
  | nil =>
      rw [routed] at rendered
      cases rendered
  | cons primary others =>
      simp only [routed, bind_eq_ok, Except.ok.injEq] at rendered
      obtain ⟨body, content, rfl⟩ := rendered
      exact ⟨rfl, rfl, List.cons_ne_nil primary others, content⟩

/-- The pass could route and render the request. -/
def Deliverable (request : DeliveryRequest) : Prop :=
  recipientsFor request.kind request.payload ≠ [] ∧
    ∃ body, envelopeBody request.kind request.payload = .ok body

theorem render_of_deliverable (deliverable : Deliverable request) :
    ∃ envelope, render request.id request.kind request.payload organization stamp =
      .ok envelope := by
  obtain ⟨routed, body, content⟩ := deliverable
  unfold render
  cases recipients : recipientsFor request.kind request.payload with
  | nil => exact absurd recipients routed
  | cons primary others =>
      simp only [content]
      exact ⟨_, rfl⟩

theorem deliverable_of_render (rendered : render request.id request.kind request.payload
      organization stamp = .ok envelope) : Deliverable request := by
  obtain ⟨_, recipients, named, content⟩ := render_eq_ok rendered
  exact ⟨recipients ▸ named, _, content⟩

/-- One request of a batch either fails or stages its envelope. -/
theorem stageRequest_cases (s : StagedBatch × Ledgers) (request : DeliveryRequest) :
    (∃ envelope, render request.id request.kind request.payload organization stamp = .ok envelope ∧
      (stageRequest organization stamp s request).2 = (Mailbox.enqueue s.2 envelope).2 ∧
      (stageRequest organization stamp s request).1.deliveredEnvelopes =
        s.1.deliveredEnvelopes ++ [request.id]) ∨
    ((stageRequest organization stamp s request).2 = s.2 ∧
      (stageRequest organization stamp s request).1.deliveredEnvelopes =
        s.1.deliveredEnvelopes) := by
  unfold stageRequest
  cases rendered : render request.id request.kind request.payload organization stamp with
  | ok envelope => exact .inl ⟨envelope, rfl, rfl, rfl⟩
  | error detail => exact .inr ⟨rfl, rfl⟩

theorem stageRequest_keeps (s : StagedBatch × Ledgers) (found : s.2.mailbox[id]? = some row) :
    (stageRequest organization stamp s request).2.mailbox[id]? = some row := by
  rcases stageRequest_cases s request with ⟨envelope, _, staged, _⟩ | ⟨same, _⟩
  · rw [staged]
    exact Mailbox.enqueue_keeps envelope found
  · rw [same]
    exact found

/-- A row that is there survives the staging of any batch as it is. -/
theorem stageBatch_keeps (found : ledgers.mailbox[id]? = some row) :
    (stageBatch ledgers organization batch).2.mailbox[id]? = some row :=
  foldl_invariant (fun s : StagedBatch × Ledgers => s.2.mailbox[id]? = some row)
    (fun s _ _ kept => stageRequest_keeps s kept) found

/-- Staging keeps the rows under their keys, and touches no effect. -/
theorem stageBatch_frame (keyed : Mailbox.WellKeyed ledgers) :
    Mailbox.WellKeyed (stageBatch ledgers organization batch).2 ∧
      (stageBatch ledgers organization batch).2.effects = ledgers.effects := by
  refine foldl_invariant (fun s : StagedBatch × Ledgers =>
    Mailbox.WellKeyed s.2 ∧ s.2.effects = ledgers.effects) (fun s request _ held => ?_) ⟨keyed, rfl⟩
  rcases stageRequest_cases s request with ⟨envelope, _, staged, _⟩ | ⟨same, _⟩
  · rw [staged, (Mailbox.enqueue_effects s.2 envelope).1]
    exact ⟨Mailbox.enqueue_wellKeyed held.1 envelope, held.2⟩
  · rw [same]
    exact held

/-- A row a batch adds is the row of a recipient one of its requests names. -/
theorem stageBatch_new (absent : ledgers.mailbox[id]? = none)
    (found : (stageBatch ledgers organization batch).2.mailbox[id]? = some row) :
    ∃ request ∈ batch, ∃ person ∈ recipientsFor request.kind request.payload,
      id = s!"{request.id}@{person}" ∧ row.envelope.id = request.id ∧ row.person = person := by
  have passed : ∀ row, (stageBatch ledgers organization batch).2.mailbox[id]? = some row →
      ∃ request ∈ batch, ∃ person ∈ recipientsFor request.kind request.payload,
        id = s!"{request.id}@{person}" ∧ row.envelope.id = request.id ∧ row.person = person := by
    refine foldl_invariant (fun s : StagedBatch × Ledgers => ∀ row, s.2.mailbox[id]? = some row →
      ∃ request ∈ batch, ∃ person ∈ recipientsFor request.kind request.payload,
        id = s!"{request.id}@{person}" ∧ row.envelope.id = request.id ∧ row.person = person)
      (fun s request listed held row found => ?_) (fun row impossible => ?_)
    · rcases stageRequest_cases s request with ⟨envelope, rendered, staged, _⟩ | ⟨same, _⟩
      · obtain ⟨sameId, recipients, _, _⟩ := render_eq_ok rendered
        rw [staged] at found
        cases before : s.2.mailbox[id]? with
        | some earlier =>
            rw [Mailbox.enqueue_keeps envelope before] at found
            exact held row (before.trans found)
        | none =>
            obtain ⟨person, named, key, rfl⟩ := Mailbox.enqueue_new before found
            refine ⟨request, listed, person, recipients ▸ named, ?_, sameId, rfl⟩
            rw [key, Mailbox.rowId, sameId]
      · rw [same] at found
        exact held row found
    · rw [absent] at impossible
      cases impossible
  exact passed row found

/-- Whatever a batch reports as delivered was a deliverable request of it, and every recipient it names
has a row under the key of the request and the recipient. -/
theorem stageBatch_written
    (reported : id ∈ (stageBatch ledgers organization batch).1.deliveredEnvelopes) :
    ∃ request ∈ batch, request.id = id ∧ Deliverable request ∧
      ∀ person ∈ recipientsFor request.kind request.payload,
        ∃ row, (stageBatch ledgers organization batch).2.mailbox[s!"{id}@{person}"]? = some row := by
  have passed : ∀ id ∈ (stageBatch ledgers organization batch).1.deliveredEnvelopes,
      ∃ request ∈ batch, request.id = id ∧ Deliverable request ∧
        ∀ person ∈ recipientsFor request.kind request.payload, ∃ row,
          (stageBatch ledgers organization batch).2.mailbox[s!"{id}@{person}"]? = some row := by
    refine foldl_invariant (fun s : StagedBatch × Ledgers => ∀ id ∈ s.1.deliveredEnvelopes,
      ∃ request ∈ batch, request.id = id ∧ Deliverable request ∧
        ∀ person ∈ recipientsFor request.kind request.payload, ∃ row,
          s.2.mailbox[s!"{id}@{person}"]? = some row) (fun s request listed held => ?_)
      (fun id impossible => by cases impossible)
    intro id member
    have kept : id ∈ s.1.deliveredEnvelopes → ∃ other ∈ batch, other.id = id ∧
        Deliverable other ∧ ∀ person ∈ recipientsFor other.kind other.payload, ∃ row,
          (stageRequest organization (isoMillis ledgers.now) s request).2.mailbox[s!"{id}@{person}"]? =
            some row := by
      intro earlier
      obtain ⟨other, inBatch, named, deliverable, rows⟩ := held id earlier
      refine ⟨other, inBatch, named, deliverable, fun person routed => ?_⟩
      obtain ⟨row, found⟩ := rows person routed
      exact ⟨row, stageRequest_keeps s found⟩
    rcases stageRequest_cases s request with ⟨envelope, rendered, staged, noted⟩ | ⟨_, noted⟩
    · rw [noted, List.mem_append, List.mem_singleton] at member
      rcases member with earlier | rfl
      · exact kept earlier
      · obtain ⟨sameId, recipients, _, _⟩ := render_eq_ok rendered
        refine ⟨request, listed, rfl, deliverable_of_render rendered, fun person routed => ?_⟩
        rw [staged, ← sameId]
        exact Mailbox.enqueue_written (recipients ▸ routed)
    · rw [noted] at member
      exact kept member
  exact passed id reported

end Staging

end Chief.Supervision
