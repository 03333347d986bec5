/-
Module: Chief.Supervision.Routing
Layer: Proofs
Purpose: Which of the effects the store enqueues a delivery pass can deliver: what wrote their content
  decides.
Trusted boundary: none
Main exports: Authored, authored_run, Routed, enqueued_effect_routed_iff, escalation_is_unroutable
-/
import Chief.Supervision.Dispatch
import Chief.Supervision.Sequences

namespace Chief.Supervision

open Foundation

/-! ### What wrote an effect -/

/-- Who wrote the content of an effect: a reminder that fired, or an escalation. An escalation may
overwrite a failed effect of any kind. -/
inductive Authored (effect : Effect) : Prop where
  | reminder (reminder : Reminder) (kind : effect.kind = reminderEffectKind)
      (payload : effect.payload = reminderPayload reminder)
  | escalation (organization reason detail : String)
      (payload : effect.payload = reconcileEscalationPayload organization reason detail)

theorem Origin.authored {effect : Effect} (origin : Origin effect) : Authored effect := by
  cases origin with
  | reminder reminder kind payload => exact .reminder reminder kind payload
  | escalation organization reason detail _ payload =>
      exact .escalation organization reason detail payload

theorem Authored.of_same {effect other : Effect} (written : Authored effect)
    (kind : other.kind = effect.kind) (payload : other.payload = effect.payload) :
    Authored other := by
  cases written with
  | reminder reminder sameKind samePayload =>
      exact .reminder reminder (kind.trans sameKind) (payload.trans samePayload)
  | escalation organization reason detail samePayload =>
      exact .escalation organization reason detail (payload.trans samePayload)

/-- Every step keeps an effect written by one of the two. -/
theorem EffectStep.authored {before after : Option Effect} (step : EffectStep before after)
    (known : ∀ effect, before = some effect → Authored effect) :
    ∀ effect, after = some effect → Authored effect := by
  cases step with
  | same => exact known
  | enqueued fresh origin =>
      intro effect same
      obtain rfl := Option.some.inj same
      exact origin.authored
  | delivered stamp pending =>
      intro effect same
      obtain rfl := Option.some.inj same
      exact (known _ rfl).of_same rfl rfl
  | failed stamp pending =>
      intro effect same
      obtain rfl := Option.some.inj same
      refine (known _ rfl).of_same ?_ ?_ <;> (unfold failedOnce; dsimp only; split <;> rfl)
  | reopened stamp may =>
      intro effect same
      obtain rfl := Option.some.inj same
      exact (known _ rfl).of_same rfl rfl
  | rearmed stamp organization reason detail may =>
      intro effect same
      obtain rfl := Option.some.inj same
      exact .escalation organization reason detail rfl

/-- An effect that calls enqueued was written by one of the two, whatever was there before. -/
theorem authored_run {start : Ledgers} (calls : List Call) {id : String}
    (unknown : effectAt start id = none) :
    ∀ effect, effectAt (afterRun Call.attempt calls start) id = some effect → Authored effect := by
  refine (Throughout.of_forall (fun _ => True) fun _ _ => trivial).invariant
    (fun ledgers => ∀ effect, effectAt ledgers id = some effect → Authored effect)
    (fun call before after _ ran known => (Call.effectStep ran id).authored known) ?_
  intro effect impossible
  rw [unknown] at impossible
  cases impossible

/-! ### What a payload holds -/

section Payloads

variable {key : String}

theorem text_ofList_of_mem {entries : List (String × JsonValue)} {value : String}
    (distinct : (entries.map Prod.fst).Nodup) (entry : (key, JsonValue.text value) ∈ entries) :
    text (Std.ExtTreeMap.ofList entries) key = some value := by
  rw [text, BTreeMap.getElem?_ofList_of_mem distinct entry]
  rfl

theorem text_ofList_of_not_mem {entries : List (String × JsonValue)}
    (absent : key ∉ entries.map Prod.fst) : text (Std.ExtTreeMap.ofList entries) key = none := by
  rw [text]
  cases found : (Std.ExtTreeMap.ofList entries : BTreeMap JsonValue)[key]? with
  | none => rfl
  | some value =>
      exact absurd (List.mem_map.mpr ⟨_, BTreeMap.mem_of_getElem?_ofList found, rfl⟩) absent

/-- What routing and rendering read of a reminder's payload. -/
theorem text_reminderPayload (reminder : Reminder) :
    text (reminderPayload reminder) "recipientPersonId" = none ∧
      text (reminderPayload reminder) "personId" = some reminder.personId ∧
      text (reminderPayload reminder) "body" = none ∧
      text (reminderPayload reminder) "message" = some (reminderMessage reminder) := by
  refine ⟨text_ofList_of_not_mem (by simp), text_ofList_of_mem (by simp) (by simp),
    text_ofList_of_not_mem (by simp), text_ofList_of_mem (by simp) (by simp)⟩

/-- An escalation names nobody under any key that routing reads. -/
theorem recipientsFor_escalation (kind organization reason detail : String) :
    recipientsFor kind (reconcileEscalationPayload organization reason detail) = [] := by
  have silent : ∀ key ∈ ["recipientPersonId", "personId", "assigneePersonId", "managerPersonId"],
      text (reconcileEscalationPayload organization reason detail) key = none := by
    intro key member
    simp only [List.mem_cons, List.not_mem_nil, or_false] at member
    rcases member with rfl | rfl | rfl | rfl <;> exact text_ofList_of_not_mem (by simp)
  simp [recipientsFor, silent]

/-- The message of a reminder always says something. -/
theorem isBlank_reminderMessage (reminder : Reminder) : isBlank (reminderMessage reminder) = false := by
  rw [Bool.eq_false_iff, ne_eq, isBlank_iff]
  intro blank
  have bracket : isWhitespace '[' = true := by
    refine blank '[' ?_
    simp [reminderMessage, reminderMarker]
  exact absurd bracket (by decide)

end Payloads

/-! ### What a pass delivers -/

/-- The pass routes the request to one person of the organization, and has something to say. -/
def Routed (manifest : OrganizationManifest) (request : DeliveryRequest) : Prop :=
  ∃ person ∈ manifest.people, recipientsFor request.kind request.payload = [person] ∧
    ∃ body, envelopeBody request.kind request.payload = .ok body ∧ isBlank body = false

/-- A reminder that fired reaches the person it is for. -/
theorem routed_reminder {manifest : OrganizationManifest} {effect : Effect} {reminder : Reminder}
    (kind : effect.kind = reminderEffectKind) (payload : effect.payload = reminderPayload reminder)
    (present : reminder.personId ∈ manifest.people) : Routed manifest (requestOf effect) := by
  obtain ⟨recipient, owner, body, message⟩ := text_reminderPayload reminder
  refine ⟨reminder.personId, present, ?_, reminderMessage reminder, ?_,
    isBlank_reminderMessage reminder⟩
  · simp [requestOf, recipientsFor, kind, payload, recipient, owner, reminderEffectKind]
  · simp [requestOf, envelopeBody, payload, body, message, isBlank_reminderMessage, Option.filter]

/-- A pass delivers an effect the store enqueued exactly when its content is that of a reminder that
fired, given that the person it concerns is in the organization. -/
theorem enqueued_effect_routed_iff {start : Ledgers} {calls : List Call} {id : String}
    {effect : Effect} {manifest : OrganizationManifest} (unknown : effectAt start id = none)
    (there : effectAt (afterRun Call.attempt calls start) id = some effect)
    (present : ∀ person, text effect.payload "personId" = some person →
      person ∈ manifest.people) :
    Routed manifest (requestOf effect) ↔
      ∃ reminder, effect.payload = reminderPayload reminder := by
  have written := authored_run calls unknown effect there
  constructor
  · rintro ⟨person, _, routed, _⟩
    cases written with
    | reminder reminder _ payload => exact ⟨reminder, payload⟩
    | escalation organization reason detail payload =>
        rw [requestOf, payload, recipientsFor_escalation] at routed
        cases routed
  · rintro ⟨reminder, same⟩
    cases written with
    | reminder owner kind payload =>
        refine routed_reminder kind payload (present _ ?_)
        rw [payload]
        exact (text_reminderPayload owner).2.1
    | escalation organization reason detail payload =>
        have silent : text effect.payload "personId" = none := by
          rw [payload]
          exact text_ofList_of_not_mem (by simp)
        rw [same, (text_reminderPayload reminder).2.1] at silent
        cases silent

/-- Somebody arms a reminder on themselves, and it falls due. -/
def reminded : List Call :=
  [{ op := .armReminder {
       personId := "ceo"
       createdByPersonId := "ceo"
       prompt := "Read the report."
       intervalMs := 600000
       recurring := true }
     now := 0
     manifest := smallCompany },
    { op := .evaluateReminders, now := 600000, manifest := smallCompany }]

theorem enqueued_effect_routed_reminded :
    ∃ effect, effectAt (afterRun Call.attempt reminded foundedOutbox)
        "person-reminder:reminder:ceo:1:600000" = some effect ∧
      (Routed smallCompany (requestOf effect) ↔
        ∃ reminder, effect.payload = reminderPayload reminder) := by
  have fired : (effectAt (afterRun Call.attempt reminded foundedOutbox)
      "person-reminder:reminder:ceo:1:600000").any (fun effect =>
        text effect.payload "personId" = some "ceo") = true := by
    decide +kernel
  obtain ⟨effect, there, named⟩ := (Option.any_eq_true _ _).mp fired
  refine ⟨effect, there, enqueued_effect_routed_iff (by decide +kernel) there ?_⟩
  intro person owner
  rw [of_decide_eq_true named] at owner
  obtain rfl := Option.some.inj owner
  decide +kernel

/-- A call that escalates. -/
def alerted : Call :=
  { op := .enqueueReconcileEscalation "alert" "budget_exceeded" "Too much."
    now := 0
    manifest := smallCompany }

/-- An escalation names no recipient, so no pass ever delivers it. -/
theorem escalation_is_unroutable :
    ¬ ∀ (start : Ledgers) (calls : List Call) (id : String) (effect : Effect)
      (manifest : OrganizationManifest), effectAt start id = none →
      effectAt (afterRun Call.attempt calls start) id = some effect →
      (∀ person, text effect.payload "personId" = some person → person ∈ manifest.people) →
        Routed manifest (requestOf effect) := by
  intro always
  have enqueued : (effectAt (afterRun Call.attempt [alerted] foundedOutbox) "alert").any
      (fun effect => effect.payload =
        reconcileEscalationPayload "acme" "budget_exceeded" "Too much.") = true := by
    decide +kernel
  obtain ⟨effect, there, written⟩ := (Option.any_eq_true _ _).mp enqueued
  have payload := of_decide_eq_true written
  obtain ⟨person, _, routed, _⟩ := always foundedOutbox [alerted] "alert" effect smallCompany
    (by decide +kernel) there (by
      intro person named
      rw [payload, reconcileEscalationPayload, text_ofList_of_not_mem (by simp)] at named
      cases named)
  rw [requestOf, payload, recipientsFor_escalation] at routed
  cases routed

end Chief.Supervision
