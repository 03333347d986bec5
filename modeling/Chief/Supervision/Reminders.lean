/-
Module: Chief.Supervision.Reminders
Layer: Model
Purpose: Durable reminders: firing and re-arming the due ones in one commit, arming and stopping.
Trusted boundary: human-reviewed translation
Main exports: reminderMessage, reminderPayload, isArmed, advanceDue, fireIfDue, evaluateBody,
  armReminderBody, nextReminderId, stopReminderBody
-/
import Chief.Activity.Reconcile
import Chief.Organization.ControlAuthority
import Chief.Supervision.Mutate

namespace Chief.Supervision

open Foundation
open Activity (organizationSettledIdleStopLeaseMs saturatingAdd saturatingSucc u64Max)

/-! ### Constants -/

/-- The shortest cadence of a recurring reminder: twice the settle window. -/
def minRecurringReminderIntervalMs : Int := 2 * organizationSettledIdleStopLeaseMs

def reminderPromptLimit : Nat := 2000
def remindersPerPersonLimit : Nat := 16
def reminderEffectKind : String := "person_reminder"
def reminderMarker : String := "[reminder]"
def invalidReminder : String := "INVALID_REMINDER"
def reminderLimitReached : String := "REMINDER_LIMIT_REACHED"
def unknownReminder : String := "UNKNOWN_REMINDER"
def reminderNotInScope : String := "REMINDER_NOT_IN_SCOPE"

/-- Refuse an actor outside whose authority the target's reminders are. -/
def ensureReminderScope (manifest : OrganizationManifest) (actorPersonId targetPersonId : String) :
    Except ChiefdError Unit :=
  require (personIsInScope manifest (.person actorPersonId) targetPersonId = true)
    (refused reminderNotInScope
      s!"'{actorPersonId}' does not manage '{targetPersonId}' — a reminder may be armed, listed or stopped only for yourself or for someone you manage")

/-! ### What a reminder says -/

/-- A cadence for a human: `every 15m`, `every 2h`, `every 1d`. -/
def formatCadence (intervalMs : Int) : String :=
  let minutes := intervalMs.tdiv 60000
  if minutes.tmod (24 * 60) = 0 then s!"every {minutes.tdiv (24 * 60)}d"
  else if minutes.tmod 60 = 0 then s!"every {minutes.tdiv 60}h"
  else s!"every {minutes}m"

/-- How often a reminder comes, and how to stop it. -/
def reminderRecurrence (reminder : Reminder) : String :=
  if reminder.recurring then
    s!"Recurring {formatCadence reminder.intervalMs}. Stop it with `org_stop_reminder(\x7b id: \"{reminder.id}\" \x7d)`."
  else "One-shot; it will not fire again."

/-- The text delivered when a reminder fires. -/
def reminderMessage (reminder : Reminder) : String :=
  reminderMarker ++ "\n\n" ++ trim reminder.prompt ++ "\n\n" ++ reminderRecurrence reminder

/-- The payload of the effect a fire enqueues. -/
def reminderPayload (reminder : Reminder) : BTreeMap JsonValue :=
  Std.ExtTreeMap.ofList
    [("personId", JsonValue.text reminder.personId),
      ("reminderId", JsonValue.text reminder.id),
      ("dueAt", JsonValue.text reminder.nextDueAt),
      ("prompt", JsonValue.text reminder.prompt),
      ("recurring", JsonValue.bool reminder.recurring),
      ("intervalMs", JsonValue.number reminder.intervalMs),
      ("message", JsonValue.text (reminderMessage reminder))]

/-! ### Firing -/

/-- Whether a reminder is armed at `now`: active and not past its expiry. An expiry that cannot be read
disarms it. -/
def isArmed (reminder : Reminder) (now : Int) : Bool :=
  if reminder.status ≠ "active" then false
  else
    match reminder.expiresAt with
    | none => true
    | some stamp => (parseIsoMillis stamp).any fun expiry => now < expiry

/-- What one reminder pass did. -/
structure ReminderReport where
  fired : List String := []
  retired : List String := []
deriving DecidableEq, Repr

/-- Whole intervals on from `next` until the instant is past `now`. Every round gains a millisecond, so
as many rounds as there are milliseconds up to `now`, and one more, are never used up. -/
def advanceDue (interval now : Int) : Nat → Int → Int
  | 0, next => next
  | fuel + 1, next =>
      if next ≤ now then advanceDue interval now fuel (saturatingAdd next interval) else next

/-- When a recurring reminder due at `due` is due next. -/
def nextDue (intervalMs due now : Int) : Int :=
  advanceDue (max intervalMs minRecurringReminderIntervalMs) now ((now - due).toNat + 1) due

/-- A reminder due at `due` after it fired at `now`. -/
def rearmed (reminder : Reminder) (due now : Int) : Reminder :=
  let fired := { reminder with
    fireCount := saturatingSucc reminder.fireCount
    lastFiredAt := some (isoMillis now) }
  if reminder.recurring then
    let next := nextDue reminder.intervalMs due now
    let later := { fired with nextDueAt := isoMillis next }
    if (reminder.expiresAt.bind parseIsoMillis).any (fun expiry => expiry ≤ next) then
      { later with status := "stopped", stoppedReason := some "expired" }
    else later
  else { fired with status := "stopped", stoppedReason := some "fired" }

/-- Replace one reminder. -/
def SupervisionDraft.setReminder (draft : SupervisionDraft) (id : String) (reminder : Reminder) :
    SupervisionDraft :=
  { draft with ledger := { draft.ledger with
      reminders := draft.ledger.reminders.insert id reminder } }

/-- The id of the effect of one window of a reminder. -/
def reminderEffectId (reminder : Reminder) (due : Int) : String :=
  s!"person-reminder:{reminder.id}:{due}"

/-- Fire a due reminder and re-arm it. -/
def fire (id : String) (reminder : Reminder) (now : Int) (stamp : String)
    (s : ReminderReport × SupervisionDraft) :
    Except ChiefdError (ReminderReport × SupervisionDraft) := do
  let due := (parseIsoMillis reminder.nextDueAt).getD now
  let effectId := reminderEffectId reminder due
  let (enqueued, draft) ← enqueueEffect s.2 effectId reminderEffectKind (reminderPayload reminder) stamp
  let after := rearmed reminder due now
  .ok
    ({ fired := if enqueued then s.1.fired ++ [effectId] else s.1.fired
       retired := if after.status = "stopped" then s.1.retired ++ [id] else s.1.retired },
      draft.setReminder id after)

/-- One reminder's whole due, fire and re-arm, or nothing at all. -/
def fireIfDue (now : Int) (stamp : String) (s : ReminderReport × SupervisionDraft) (id : String) :
    Except ChiefdError (ReminderReport × SupervisionDraft) :=
  match s.2.ledger.reminders[id]? with
  | none => .ok s
  | some reminder =>
      if isArmed reminder now then
        if now < scheduleDueMillis reminder.nextDueAt then .ok s
        else fire id reminder now stamp s
      else if reminder.status = "active" then
        .ok ({ s.1 with retired := s.1.retired ++ [id] },
          s.2.setReminder id { reminder with status := "stopped", stoppedReason := some "expired" })
      else .ok s

/-- Fire every due reminder and re-arm it. -/
def evaluateBody : Body ReminderReport := fun draft stamp =>
  draft.ledger.reminderOrder.foldlM (fireIfDue ((parseIsoMillis stamp).getD 0) stamp) ({}, draft)

/-! ### Arming -/

/-- What to arm. -/
structure ArmRequest where
  personId : String
  createdByPersonId : String
  prompt : String
  intervalMs : Int
  recurring : Bool
  expiresAt : Option String := none
deriving DecidableEq, Repr

/-- The shortest interval the request may ask for. -/
def ArmRequest.floor (request : ArmRequest) : Int :=
  if request.recurring then minRecurringReminderIntervalMs else minReminderIntervalMs

/-- Why an interval below the floor is refused. -/
def belowFloor (recurring : Bool) : String :=
  if recurring then
    let floor := minRecurringReminderIntervalMs.tdiv 1000
    let lease := organizationSettledIdleStopLeaseMs.tdiv 1000
    s!"A recurring reminder must be at least {floor}s apart. A cadence inside the {lease}s settle window is a polling loop: every fire delivers a turn, every turn resets the settle countdown, so the person can never park and the fleet is held open for as long as the reminder is armed. Arm it at {floor}s or more; if the work genuinely needs a faster loop, it belongs inside one turn rather than in the scheduler."
  else
    s!"Reminder interval must be at least {minReminderIntervalMs.tdiv 1000}s — anything faster is a poll"

/-- An expiry must be readable and lie ahead. -/
def checkExpiry (expiresAt : Option String) (now : Int) : Except ChiefdError Unit :=
  match expiresAt with
  | none => .ok ()
  | some stamp =>
      match parseIsoMillis stamp with
      | none => .error (refused invalidReminder "Reminder expiry is not an ISO-8601 timestamp")
      | some expiry =>
          if expiry ≤ now then
            .error (refused invalidReminder "Reminder expiry is already in the past")
          else .ok ()

/-- The reminders of a ledger in creation order. -/
def remindersOf (ledger : SupervisionLedger) : List Reminder :=
  ledger.reminderOrder.filterMap fun id => ledger.reminders[id]?

/-- Whether an armed reminder is the one the request asks for. -/
def sameRequest (request : ArmRequest) (reminder : Reminder) : Bool :=
  reminder.status = "active" ∧ reminder.personId = request.personId ∧
    reminder.createdByPersonId = request.createdByPersonId ∧
    reminder.prompt = trim request.prompt ∧ reminder.intervalMs = request.intervalMs ∧
    reminder.recurring = request.recurring ∧ reminder.expiresAt = request.expiresAt

/-- The number a reminder id of `personId` ends in. -/
def reminderNumber (personId id : String) : Option Nat :=
  let start := s!"reminder:{personId}:".toList
  if start.isPrefixOf id.toList then parseUnsigned u64Max (id.toList.drop start.length) else none

/-- The next free reminder id of a person. -/
def nextReminderId (ledger : SupervisionLedger) (personId : String) : String :=
  let highest := (ledger.reminderOrder.filterMap (reminderNumber personId)).foldl max 0
  s!"reminder:{personId}:{saturatingSucc highest}"

/-- The reminder a request arms. -/
def armedReminder (request : ArmRequest) (id stamp : String) (now : Int) : Reminder :=
  { id := id
    personId := request.personId
    createdByPersonId := request.createdByPersonId
    prompt := trim request.prompt
    intervalMs := request.intervalMs
    nextDueAt := isoMillis (saturatingAdd now request.intervalMs)
    status := "active"
    recurring := request.recurring
    createdAt := stamp
    expiresAt := request.expiresAt }

/-- Arm a reminder. An identical armed one is the answer to a repeated request. -/
def armReminderBody (request : ArmRequest) : Body Reminder := fun draft stamp => do
  let now := (parseIsoMillis stamp).getD 0
  let prompt := trim request.prompt
  Foundation.require (¬ (prompt = "" ∨ reminderPromptLimit < prompt.utf8ByteSize))
    (refused invalidReminder s!"Reminder prompt must be 1..={reminderPromptLimit} characters")
  Foundation.require (request.floor ≤ request.intervalMs)
    (refused invalidReminder (belowFloor request.recurring))
  checkExpiry request.expiresAt now
  [request.personId, request.createdByPersonId].forM fun personId =>
    Foundation.require (personId ∈ draft.manifest.people)
      (refused invalidReminder s!"Unknown person '{personId}'")
  ensureReminderScope draft.manifest request.createdByPersonId request.personId
  match (remindersOf draft.ledger).find? (sameRequest request) with
  | some existing => .ok (existing, draft)
  | none => do
      let armed := (remindersOf draft.ledger).filter fun reminder =>
        reminder.personId = request.personId ∧ reminder.status = "active"
      Foundation.require (armed.length < remindersPerPersonLimit)
        (refused reminderLimitReached
          s!"'{request.personId}' already has {remindersPerPersonLimit} reminders armed")
      let id := nextReminderId draft.ledger request.personId
      let reminder := armedReminder request id stamp now
      .ok (reminder,
        { draft with ledger := { draft.ledger with
            reminderOrder := draft.ledger.reminderOrder ++ [id]
            reminders := draft.ledger.reminders.insert id reminder } })

/-- Stop a reminder. One that is stopped already stays as it is. -/
def stopReminderBody (actorPersonId personId reminderId : String) : Body Reminder :=
  fun draft stamp => do
    ensureReminderScope draft.manifest actorPersonId personId
    match (draft.ledger.reminders[reminderId]?).filter fun reminder =>
        reminder.personId = personId with
    | none =>
        .error (refused unknownReminder s!"No reminder '{reminderId}' for '{personId}'")
    | some reminder =>
        if reminder.status = "active" then
          let stopped := { reminder with
            status := "stopped", stoppedReason := some "stopped", stoppedAt := some stamp }
          .ok (stopped, draft.setReminder reminderId stopped)
        else .ok (reminder, draft)

section Operations

variable (ledgers : Ledgers) (manifest : OrganizationManifest)

def evaluateReminders : Except ChiefdError (ReminderReport × Ledgers) :=
  mutate ledgers manifest evaluateBody

def armReminder (request : ArmRequest) : Except ChiefdError (Reminder × Ledgers) :=
  mutate ledgers manifest (armReminderBody request)

def stopReminder (actorPersonId personId reminderId : String) :
    Except ChiefdError (Reminder × Ledgers) :=
  mutate ledgers manifest (stopReminderBody actorPersonId personId reminderId)

end Operations

end Chief.Supervision
