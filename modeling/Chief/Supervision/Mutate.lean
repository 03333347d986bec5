/-
Module: Chief.Supervision.Mutate
Layer: Model
Purpose: The supervision store: reading the document with its effect rows projected in, the rules of a
  ledger, shedding who has departed, and the publish rule every mutation runs under.
Trusted boundary: human-reviewed translation
Main exports: validate, hydrate, readForMutation, shedDeparted, SupervisionDraft, Body, mutate,
  enqueueEffect, enqueueReconcileEscalation, clear, seed
-/
import Chief.Activity.Transitions
import Chief.Ledgers

namespace Chief.Supervision

open Foundation
open Activity (saturatingSucc u64Max i64Max)

/-! ### Constants -/

def storeName : String := "supervision"
def invalidInput : String := "invalid-input"
def effectContentConflict : String := "effect-content-conflict"

/-- The kind of an operator escalation of converge actuation. -/
def reconcileEscalationEffectKind : String := "reconcile_escalation"

/-- The shortest delay of any reminder. -/
def minReminderIntervalMs : Int := 60 * 1000

/-- An effect whose dispatch failed this often is given up. -/
def supervisionEffectDeliveryAttemptLimit : Nat := 3

/-- How often a failed effect may be driven again. -/
def supervisionEffectReopenLimit : Nat := 3

/-- The largest value of the source's `u32` counts. -/
def u32Max : Nat := 2 ^ 32 - 1

/-- `u32::saturating_add(1)`. -/
def saturatingCount (n : Nat) : Nat := min (n + 1) u32Max

/-- The source's `invalid` with the one code the validator uses. -/
def invalid (message : String) : Refusal := { code := invalidInput, message := message }

/-! ### The rules of a ledger -/

def uniqueOrder {α : Type} (order : List String) (records : BTreeMap α) (label : String) :
    Except Refusal Unit :=
  require (order.Nodup ∧ (∀ id ∈ order, id ∈ records) ∧ order.length = records.size)
    (invalid s!"Supervision {label} order is invalid")

/-- A reminder the ledger may hold under `id`. -/
def ReminderAllowed (manifest : OrganizationManifest) (id : String) (reminder : Reminder) : Prop :=
  reminder.id = id ∧ reminder.personId ∈ manifest.people ∧
    reminder.createdByPersonId ∈ manifest.people ∧ isBlank reminder.prompt = false ∧
    minReminderIntervalMs ≤ reminder.intervalMs ∧ reminder.status ∈ ["active", "stopped"] ∧
    Readable reminder.nextDueAt ∧ ∀ stamp ∈ reminder.expiresAt, Readable stamp

instance (manifest : OrganizationManifest) (id : String) (reminder : Reminder) :
    Decidable (ReminderAllowed manifest id reminder) := by
  unfold ReminderAllowed
  infer_instance

def validateReminder (ledger : SupervisionLedger) (manifest : OrganizationManifest) (id : String) :
    Except Refusal Unit :=
  match ledger.reminders[id]? with
  | none => .error (indexPanic s!"no reminder '{id}'")
  | some reminder =>
      require (ReminderAllowed manifest id reminder) (invalid s!"Reminder '{id}' is invalid")

/-- Check that an effect's sequence is above the one before it. -/
def validateEffect (ledger : SupervisionLedger) (previous : Nat) (id : String) :
    Except Refusal Nat :=
  match ledger.effects[id]? with
  | none => .error (indexPanic s!"no effect '{id}'")
  | some effect => do
      require (¬ (effect.id ≠ id ∨ effect.sequence ≤ previous))
        (invalid s!"Supervision effect '{id}' has an invalid sequence")
      .ok effect.sequence

/-- Every rule a supervision ledger obeys. -/
def validate (ledger : SupervisionLedger) (manifest : OrganizationManifest) :
    Except Refusal Unit := do
  require (ledger.schemaVersion = 1 ∨ ledger.schemaVersion = supervisionSchemaVersion)
    (invalid "Unsupported supervision ledger")
  require (ledger.organization = manifest.slug)
    (invalid s!"Supervision ledger belongs to '{ledger.organization}', not '{manifest.slug}'")
  uniqueOrder ledger.effectOrder ledger.effects "effect"
  uniqueOrder ledger.reminderOrder ledger.reminders "reminder"
  ledger.reminderOrder.forM (validateReminder ledger manifest)
  let previous ← ledger.effectOrder.foldlM (validateEffect ledger) 0
  require (previous < ledger.nextEffectSequence) (invalid "Supervision effect sequence is invalid")

/-! ### Who has departed -/

/-- The people supervision may still hold runtime state for. -/
def staffedPeople (manifest : OrganizationManifest) : List String :=
  manifest.peopleOrder.filter fun personId =>
    (manifest.people[personId]?).any fun person => person.employmentState ≠ .departed

/-- Whether the reminder under `id` is somebody's who is no longer staffed. -/
def isShed (ledger : SupervisionLedger) (manifest : OrganizationManifest) (id : String) : Bool :=
  (ledger.reminders[id]?).any fun reminder =>
    reminder.personId ∉ staffedPeople manifest ∨
      reminder.createdByPersonId ∉ staffedPeople manifest

/-- Take one reminder out of the ledger. -/
def removeReminder (ledger : SupervisionLedger) (id : String) : SupervisionLedger :=
  { ledger with
    reminders := ledger.reminders.erase id
    reminderOrder := ledger.reminderOrder.filter (· ≠ id) }

/-- Shed every reminder whose owner or author is no longer staffed. -/
def shedDeparted (ledger : SupervisionLedger) (manifest : OrganizationManifest) :
    SupervisionLedger × Bool :=
  let shed := ledger.reminderOrder.filter (isShed ledger manifest)
  (shed.foldl removeReminder ledger, !shed.isEmpty)

/-! ### Reading -/

/-- Project one effect row into the ledger. -/
def hydrateEffect (ledgers : Ledgers) (id : String) : Except ChiefdError (String × Effect) :=
  match ledgers.effects[id]? with
  | none => .error (.corrupt storeName s!"effect row '{id}' vanished")
  | some row =>
      match row.body with
      | .undecodable => .error (.corrupt storeName s!"effect '{id}' does not decode")
      | .decoded effect => .ok (id, effect)

/-- The counter as a sequence: a negative one reads as one, and it is never below one. -/
def nextSequenceOf (counter : Int) : Nat :=
  max (if 0 ≤ counter then counter.toNat else 1) 1

/-- Project the relational rows into a decoded document. -/
def hydrate (document : SupervisionDocument) (ledgers : Ledgers) :
    Except ChiefdError SupervisionLedger := do
  let entries ← ledgers.effectOrder.mapM (hydrateEffect ledgers)
  .ok
    { document with
      effects := Std.ExtTreeMap.ofList entries
      effectOrder := ledgers.effectOrder
      nextEffectSequence := nextSequenceOf (ledgers.counter nextEffectSequenceCounter) }

/-- Decode and hydrate, without validating. -/
def readForMutation (ledgers : Ledgers) : Except ChiefdError SupervisionLedger :=
  match ledgers.supervision with
  | none => .error (.absent storeName)
  | some .undecodable => .error (.corrupt storeName "the supervision body did not parse")
  | some (.decoded document) => hydrate document ledgers

/-- Read the ledger as stored, and refuse one that breaks a rule. -/
def read (ledgers : Ledgers) (manifest : OrganizationManifest) :
    Except ChiefdError SupervisionLedger := do
  let ledger ← readForMutation ledgers
  asStoreFailure storeName (validate ledger manifest)
  .ok ledger

/-! ### Writing -/

def put (ledgers : Ledgers) (ledger : SupervisionLedger) : Ledgers :=
  { ledgers with supervision := some (.decoded ledger.toSupervisionDocument) }

/-- The row an effect is stored as. -/
def effectRow (effect : Effect) : EffectRow :=
  { seq := effect.sequence
    kind := effect.kind
    body := .decoded effect
    deliveredAt := effect.deliveredAt.bind parseIsoMillis }

/-- Bring the row of one effect in line with the ledger. -/
def flushEffect (ledger : SupervisionLedger) (ledgers : Ledgers) (id : String) : Ledgers :=
  match ledger.effects[id]? with
  | none => ledgers.removeEffect id
  | some effect => ledgers.putEffect id (effectRow effect)

/-- A sequence as the counter stores it: clamped to the `i64` range. -/
def counterOf (sequence : Nat) : Int := min (sequence : Int) i64Max

/-- A supervision mutation in progress. -/
structure SupervisionDraft where
  ledger : SupervisionLedger
  now : Int
  manifest : OrganizationManifest
  touchedEffects : BTreeSet

/-- What a mutation runs on the draft. -/
abbrev Body (α : Type) := SupervisionDraft → String → Except ChiefdError (α × SupervisionDraft)

/-- Write a ledger out: its rows, its counter and, once it has passed the rules, its document. -/
def publish (ledgers : Ledgers) (manifest : OrganizationManifest) (ids : List String)
    (ledger : SupervisionLedger) : Except ChiefdError Ledgers := do
  let flushed := ids.foldl (flushEffect ledger) ledgers
  let counted := flushed.setCounter nextEffectSequenceCounter (counterOf ledger.nextEffectSequence)
  liftRefusal (validate ledger manifest)
  .ok (put counted ledger)

/-- Run one mutation: shed who has departed, run the body, then publish when anything changed. -/
def mutate {α : Type} (ledgers : Ledgers) (manifest : OrganizationManifest) (body : Body α) :
    Except ChiefdError (α × Ledgers) := do
  let stamp := isoMillis ledgers.now
  let current ← readForMutation ledgers
  let reconciled := shedDeparted current manifest
  let (result, draft) ← body
    { ledger := reconciled.1, now := ledgers.now, manifest := manifest, touchedEffects := ∅ } stamp
  if (reconciled.2 = true ∨ draft.ledger ≠ current) ∨ draft.touchedEffects.isEmpty = false then do
    let written ← publish ledgers manifest draft.touchedEffects.toList
      { draft.ledger with updatedAt := stamp }
    .ok (result, written)
  else .ok (result, ledgers)

/-- Seed the ledger of a freshly created company. -/
def seed (ledgers : Ledgers) (manifest : OrganizationManifest) :
    Except ChiefdError (SupervisionLedger × Ledgers) := do
  let ledger := SupervisionLedger.initial manifest (isoMillis ledgers.now)
  liftRefusal (validate ledger manifest)
  .ok (ledger, put (ledgers.setCounter nextEffectSequenceCounter 1) ledger)

/-- Remove the ledger and its rows, and say whether anything was there. -/
def clear (ledgers : Ledgers) (manifest : OrganizationManifest) :
    Except ChiefdError (Bool × Ledgers) := do
  if ledgers.supervision.isSome then let _ ← read ledgers manifest
  let cleared := ledgers.effectOrder.foldl Ledgers.removeEffect ledgers
  .ok (ledgers.supervision.isSome, { cleared with supervision := none })

/-! ### Enqueueing -/

/-- A fresh effect. -/
def freshEffect (id kind : String) (sequence : Nat) (payload : BTreeMap JsonValue) (stamp : String) :
    Effect :=
  { id := id
    sequence := sequence
    kind := kind
    status := .pending
    createdAt := stamp
    payload := payload }

/-- Note that the row of an effect is to be written. -/
def SupervisionDraft.touchEffect (draft : SupervisionDraft) (id : String) : SupervisionDraft :=
  { draft with touchedEffects := draft.touchedEffects.insert id }

/-- Change one effect and note it. -/
def SupervisionDraft.setEffect (draft : SupervisionDraft) (id : String) (effect : Effect) :
    SupervisionDraft :=
  { draft with
    ledger := { draft.ledger with effects := draft.ledger.effects.insert id effect }
    touchedEffects := draft.touchedEffects.insert id }

/-- Enqueue an effect unless one with this id is there. One with other content is refused. -/
def enqueueEffect (draft : SupervisionDraft) (id kind : String) (payload : BTreeMap JsonValue)
    (stamp : String) : Except ChiefdError (Bool × SupervisionDraft) :=
  match draft.ledger.effects[id]? with
  | some existing =>
      if existing.payload ≠ payload ∨ existing.kind ≠ kind then
        .error (refused effectContentConflict
          s!"Supervision effect id '{id}' has conflicting content")
      else .ok (false, draft)
  | none =>
      let sequence := draft.ledger.nextEffectSequence
      .ok (true,
        { draft with
          ledger := { draft.ledger with
            nextEffectSequence := saturatingSucc sequence
            effects := draft.ledger.effects.insert id (freshEffect id kind sequence payload stamp)
            effectOrder := draft.ledger.effectOrder ++ [id] }
          touchedEffects := draft.touchedEffects.insert id })

/-- The payload of an escalation. -/
def reconcileEscalationPayload (organization reason detail : String) : BTreeMap JsonValue :=
  Std.ExtTreeMap.ofList
    [("organization", JsonValue.text organization),
      ("reason", JsonValue.text reason),
      ("detail", JsonValue.text detail),
      ("message", JsonValue.text
        s!"Converge actuation escalation ({reason}) for '{organization}': {detail}")]

/-- A failed effect driven again: pending, one reopen spent, its failures forgotten. -/
def reopenEffect (effect : Effect) (stamp : String) : Effect :=
  { effect with
    status := .pending
    reopenCount := some (saturatingCount (effect.reopenCount.getD 0))
    lastReopenedAt := some stamp
    deliveryFailureCount := some 0
    failedAt := none
    lastDeliveryFailureAt := none }

/-- Whether a failed effect has a reopen left. -/
def mayReopen (effect : Effect) : Bool :=
  effect.status = .failed ∧ effect.reopenCount.getD 0 < supervisionEffectReopenLimit

/-- Enqueue an escalation, or drive the failed one in its slot again with fresh content. -/
def enqueueReconcileEscalation (id reason detail : String) (draft : SupervisionDraft)
    (stamp : String) : Except ChiefdError (Bool × SupervisionDraft) :=
  let payload := reconcileEscalationPayload draft.manifest.slug reason detail
  match draft.ledger.effects[id]? with
  | some existing =>
      if existing.status ≠ .failed then .ok (false, draft)
      else if supervisionEffectReopenLimit ≤ existing.reopenCount.getD 0 then .ok (false, draft)
      else .ok (true, draft.setEffect id { reopenEffect existing stamp with payload := payload })
  | none => enqueueEffect draft id reconcileEscalationEffectKind payload stamp

end Chief.Supervision
