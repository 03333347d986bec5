/-
Module: Chief.Supervision.Windows
Layer: Proofs
Purpose: Reminders fire once for each window: what one evaluation leaves of every reminder and of the
  outbox, when it succeeds, and that a second one at the same instant does nothing.
Trusted boundary: none
Main exports: DueNow, windowEffect, FiredWindow, Evaluable, FiresOnce, reminders_fire_once
-/
import Chief.Supervision.Sequences

namespace Chief.Supervision

open Foundation
open Activity (saturatingAdd saturatingSucc u64Max i64Max)

/-! ### Catching up -/

/-- A recurring reminder is due next at the least whole number of intervals on that lies ahead, cut off
at the last instant there is. -/
theorem advanceDue_eq {interval now next : Int} {fuel : Nat} (positive : 0 < interval)
    (clocked : now < i64Max) (enough : now - next < fuel) (small : next ≤ i64Max) :
    ∃ k : Nat, advanceDue interval now fuel next = min (next + k * interval) i64Max ∧
      now < next + k * interval ∧ ∀ j : Nat, j < k → next + j * interval ≤ now := by
  induction fuel generalizing next with
  | zero =>
      refine ⟨0, ?_, ?_, ?_⟩
      · simpa [advanceDue] using small
      · simpa using enough
      · intro j earlier
        exact absurd earlier (Nat.not_lt_zero _)
  | succ fuel inductionHypothesis =>
      unfold advanceDue
      by_cases passed : next ≤ now
      · rw [if_pos passed]
        by_cases fits : next + interval ≤ i64Max
        · have step : saturatingAdd next interval = next + interval := min_eq_left fits
          have closer : now - (next + interval) < fuel := by omega
          obtain ⟨k, reached, ahead, least⟩ := inductionHypothesis closer fits
          have shift (j : Nat) : next + ((j + 1 : Nat) : Int) * interval =
              next + interval + j * interval := by
            rw [Nat.cast_succ, Int.add_mul, Int.one_mul]
            omega
          refine ⟨k + 1, ?_, ?_, ?_⟩
          · rw [step, reached, shift]
          · rw [shift]
            exact ahead
          · intro j earlier
            cases j with
            | zero => simpa using passed
            | succ j =>
                rw [shift]
                exact least j (Nat.lt_of_succ_lt_succ earlier)
        · have step : saturatingAdd next interval = i64Max := min_eq_right (by omega)
          have arrived : advanceDue interval now fuel i64Max = i64Max := by
            cases fuel with
            | zero => rfl
            | succ fuel => exact if_neg (by omega)
          refine ⟨1, ?_, ?_, ?_⟩
          · rw [step, arrived]
            have past : i64Max ≤ next + ((1 : Nat) : Int) * interval := by rw [Nat.cast_one]; omega
            exact (min_eq_right past).symm
          · rw [Nat.cast_one]
            omega
          · intro j earlier
            obtain rfl : j = 0 := by omega
            simpa using passed
      · rw [if_neg passed]
        refine ⟨0, ?_, ?_, ?_⟩
        · simpa using small
        · simpa using passed
        · intro j earlier
          exact absurd earlier (Nat.not_lt_zero _)

/-! ### Windows -/

/-- When a reminder is due. -/
def dueAt (reminder : Reminder) : Int := scheduleDueMillis reminder.nextDueAt

/-- Whether the window of a reminder has come while it is armed. -/
def DueNow (reminder : Reminder) (now : Int) : Prop :=
  isArmed reminder now = true ∧ dueAt reminder ≤ now

instance (reminder : Reminder) (now : Int) : Decidable (DueNow reminder now) :=
  inferInstanceAs (Decidable (_ ∧ _))

/-- The id of the effect of the window a reminder is at. -/
def windowEffect (reminder : Reminder) : String := reminderEffectId reminder (dueAt reminder)

/-- Every reminder and every window has an effect id of its own. -/
theorem windowEffect_inj {reminder other : Reminder}
    (same : windowEffect reminder = windowEffect other) :
    reminder.id = other.id ∧ dueAt reminder = dueAt other := by
  have rendered (id : String) (due : Int) : (s!"person-reminder:{id}:{due}").toList =
      "person-reminder:".toList ++ (id.toList ++ ':' :: (toString due).toList) := by
    have colon : (toString ":").toList = [':'] := by decide
    rw [String.toList_append, String.toList_append, String.toList_append, colon, List.append_assoc,
      List.append_assoc]
    rfl
  have texts := congrArg String.toList same
  dsimp only [windowEffect, reminderEffectId] at texts
  rw [rendered reminder.id, rendered other.id] at texts
  have tails := List.append_cancel_left texts
  have parts := prefixed_integer_inj tails
  exact ⟨String.toList_inj.mp parts.1, parts.2⟩

/-- What one evaluation at `now` leaves of a reminder. -/
def evaluated (now : Int) (reminder : Reminder) : Reminder :=
  if isArmed reminder now then
    if now < dueAt reminder then reminder else rearmed reminder (dueAt reminder) now
  else if reminder.status = "active" then
    { reminder with status := "stopped", stoppedReason := some "expired" }
  else reminder

theorem evaluated_of_due {reminder : Reminder} {now : Int} (due : DueNow reminder now) :
    evaluated now reminder = rearmed reminder (dueAt reminder) now := by
  rw [evaluated, if_pos due.1, if_neg (Int.not_lt.mpr due.2)]

/-- A reminder an evaluation has nothing to do for. -/
def Quiet (now : Int) (reminder : Reminder) : Prop :=
  (isArmed reminder now = true → now < dueAt reminder) ∧
    (isArmed reminder now = false → reminder.status ≠ "active")

theorem evaluated_of_quiet {reminder : Reminder} {now : Int} (quiet : Quiet now reminder) :
    evaluated now reminder = reminder := by
  unfold evaluated
  by_cases armed : isArmed reminder now = true
  · rw [if_pos armed, if_pos (quiet.1 armed)]
  · rw [if_neg armed, if_neg (quiet.2 (Bool.eq_false_iff.mpr armed))]

/-! ### Re-arming -/

/-- Where a window that fired at `now` leaves its reminder. -/
structure FiredWindow (now : Int) (before after : Reminder) : Prop where
  counted : after.fireCount = saturatingSucc before.fireCount
  stamped : after.lastFiredAt = some (isoMillis now)
  oneShot : before.recurring = false → after.nextDueAt = before.nextDueAt ∧
    after.status = "stopped" ∧ after.stoppedReason = some "fired"
  recurring : before.recurring = true → ∃ k : Nat,
    let next := dueAt before + k * max before.intervalMs 600000
    parseIsoMillis after.nextDueAt = some next ∧ now < next ∧
      (∀ j : Nat, j < k → dueAt before + j * max before.intervalMs 600000 ≤ now) ∧
      (if (before.expiresAt.bind parseIsoMillis).any (fun expiry => expiry ≤ next) then
        after.status = "stopped" ∧ after.stoppedReason = some "expired"
      else after.status = before.status ∧ after.stoppedReason = before.stoppedReason)
  frame : after = { before with
    fireCount := after.fireCount
    lastFiredAt := after.lastFiredAt
    nextDueAt := after.nextDueAt
    status := after.status
    stoppedReason := after.stoppedReason }

section Rearming

variable {reminder : Reminder} {now due : Int}

/-- A clock its own stamp gives back is well before the last instant. -/
theorem passClock_lt {clock : Int} : (parseIsoMillis (isoMillis clock)).getD 0 < i64Max := by
  have last : lastReadableMillis < i64Max := by decide
  cases parsed : parseIsoMillis (isoMillis clock) with
  | none => decide
  | some n =>
      have same := eq_of_parseIsoMillis_isoMillis parsed
      have readable := readable_isoMillis_iff.mp (readable_of_parse parsed)
      have small : clock ≤ lastReadableMillis := readable.2
      show n < i64Max
      omega

theorem nextDue_eq (intervalMs : Int) (clocked : now < i64Max) (small : due ≤ i64Max) :
    ∃ k : Nat, nextDue intervalMs due now = min (due + k * max intervalMs 600000) i64Max ∧
      now < due + k * max intervalMs 600000 ∧
      ∀ j : Nat, j < k → due + j * max intervalMs 600000 ≤ now := by
  have floor : minRecurringReminderIntervalMs = 600000 := by decide
  rw [nextDue, floor]
  exact advanceDue_eq (by omega) clocked (by omega) small

/-- A due time that can be read back was not cut off. -/
theorem nextDue_of_readable (intervalMs : Int) (clocked : now < i64Max) (small : due ≤ i64Max)
    (readable : Readable (isoMillis (nextDue intervalMs due now))) :
    ∃ k : Nat, nextDue intervalMs due now = due + k * max intervalMs 600000 ∧
      now < due + k * max intervalMs 600000 ∧
      ∀ j : Nat, j < k → due + j * max intervalMs 600000 ≤ now := by
  obtain ⟨k, next, ahead, least⟩ := nextDue_eq intervalMs clocked small
  refine ⟨k, ?_, ahead, least⟩
  have last : lastReadableMillis < i64Max := by decide
  have inRange : nextDue intervalMs due now ≤ lastReadableMillis :=
    (readable_isoMillis_iff.mp readable).2
  omega

theorem rearmed_fired (clocked : now < i64Max) (small : dueAt reminder ≤ i64Max)
    (readable : Readable (rearmed reminder (dueAt reminder) now).nextDueAt) :
    FiredWindow now reminder (rearmed reminder (dueAt reminder) now) := by
  unfold rearmed at readable ⊢
  by_cases recurs : reminder.recurring = true
  · simp only [if_pos recurs] at readable ⊢
    have rendered : Readable (isoMillis (nextDue reminder.intervalMs (dueAt reminder) now)) := by
      split at readable <;> exact readable
    obtain ⟨k, next, ahead, least⟩ := nextDue_of_readable reminder.intervalMs clocked small rendered
    have parsed := parseIsoMillis_of_readable (readable_isoMillis_iff.mp rendered)
    rw [next] at parsed
    rw [next]
    split
    · rename_i past
      exact ⟨rfl, rfl, fun oneShot => by simp [oneShot] at recurs,
        fun _ => ⟨k, parsed, ahead, least, by rw [if_pos past]; exact ⟨rfl, rfl⟩⟩, rfl⟩
    · rename_i alive
      exact ⟨rfl, rfl, fun oneShot => by simp [oneShot] at recurs,
        fun _ => ⟨k, parsed, ahead, least, by rw [if_neg alive]; exact ⟨rfl, rfl⟩⟩, rfl⟩
  · simp only [if_neg recurs]
    exact ⟨rfl, rfl, fun _ => ⟨rfl, rfl, rfl⟩, fun recurring => absurd recurring recurs, rfl⟩

theorem isArmed_eq_true :
    isArmed reminder now = true ↔ reminder.status = "active" ∧
      ∀ stamp ∈ reminder.expiresAt, ∃ expiry, parseIsoMillis stamp = some expiry ∧ now < expiry := by
  unfold isArmed
  by_cases active : reminder.status = "active"
  · rw [if_neg (not_not.mpr active)]
    cases expires : reminder.expiresAt with
    | none => simp [active]
    | some stamp => simp [active, Option.any_eq_true]
  · rw [if_pos active]
    simp [active]

theorem quiet_of_stopped (stopped : reminder.status = "stopped") : Quiet now reminder := by
  have inactive : reminder.status ≠ "active" := by
    rw [stopped]
    decide
  exact ⟨fun armed => absurd (isArmed_eq_true.mp armed).1 inactive, fun _ => inactive⟩

/-- Nothing is left to do for a reminder that was evaluated. -/
theorem evaluated_quiet (clocked : now < i64Max)
    (readable : Readable (evaluated now reminder).nextDueAt) :
    Quiet now (evaluated now reminder) := by
  by_cases armed : isArmed reminder now = true
  · by_cases ahead : now < dueAt reminder
    · have same : evaluated now reminder = reminder := by
        rw [evaluated, if_pos armed, if_pos ahead]
      rw [same]
      exact ⟨fun _ => ahead, fun impossible => by simp [armed] at impossible⟩
    · have due : DueNow reminder now := ⟨armed, Int.not_lt.mp ahead⟩
      rw [evaluated_of_due due] at readable ⊢
      have small : dueAt reminder ≤ i64Max := Int.le_trans due.2 (Int.le_of_lt clocked)
      have fired := rearmed_fired clocked small readable
      by_cases recurs : reminder.recurring = true
      · obtain ⟨k, parsed, later, _, ends⟩ := fired.recurring recurs
        by_cases past : (reminder.expiresAt.bind parseIsoMillis).any (fun expiry =>
            expiry ≤ dueAt reminder + k * max reminder.intervalMs 600000) = true
        · rw [if_pos past] at ends
          exact quiet_of_stopped ends.1
        · rw [if_neg past] at ends
          have expires : (rearmed reminder (dueAt reminder) now).expiresAt = reminder.expiresAt := by
            rw [fired.frame]
          obtain ⟨active, alive⟩ := isArmed_eq_true.mp armed
          constructor
          · intro _
            rw [dueAt, scheduleDueMillis, parsed]
            exact later
          · intro unarmed
            have rearms : isArmed (rearmed reminder (dueAt reminder) now) now = true := by
              refine isArmed_eq_true.mpr ⟨ends.1.trans active, ?_⟩
              rw [expires]
              exact alive
            simp [rearms] at unarmed
      · exact quiet_of_stopped (fired.oneShot (Bool.eq_false_iff.mpr recurs)).2.1
  · by_cases active : reminder.status = "active"
    · rw [evaluated, if_neg armed, if_pos active]
      exact quiet_of_stopped rfl
    · rw [evaluated, if_neg armed, if_neg active]
      exact ⟨fun impossible => absurd impossible armed, fun _ => active⟩

end Rearming

/-! ### The rules of a ledger, taken apart -/

section Rules

variable {ledger : SupervisionLedger} {manifest : OrganizationManifest} {id : String}

/-- What the rules of a ledger ask for. -/
structure Accepted (manifest : OrganizationManifest) (ledger : SupervisionLedger) : Prop where
  schema : ledger.schemaVersion = 1 ∨ ledger.schemaVersion = supervisionSchemaVersion
  organization : ledger.organization = manifest.slug
  effects : BTreeMap.Lists ledger.effectOrder ledger.effects
  reminders : BTreeMap.Lists ledger.reminderOrder ledger.reminders
  allowed : ∀ (id : String) (reminder : Reminder), ledger.reminders[id]? = some reminder →
    ReminderAllowed manifest id reminder
  sequenced : ∃ last, ledger.effectOrder.foldlM (validateEffect ledger) 0 = .ok last ∧
    last < ledger.nextEffectSequence

theorem validate_iff : validate ledger manifest = .ok () ↔ Accepted manifest ledger := by
  simp only [validate, uniqueOrder, bind_eq_ok, require_eq_ok]
  constructor
  · rintro ⟨_, schema, _, organization, _, effects, _, reminders, _, each, last, ordered, ahead⟩
    have lists := BTreeMap.lists_iff.mpr reminders
    refine ⟨schema, organization, BTreeMap.lists_iff.mpr effects, lists, ?_, last, ordered, ahead⟩
    intro id reminder found
    have passed := forM_eq_ok.mp each id ((lists.mem_iff id).mpr (BTreeMap.mem_of_getElem? found))
    simpa [validateReminder, found] using passed
  · intro accepted
    obtain ⟨last, ordered, ahead⟩ := accepted.sequenced
    refine ⟨(), accepted.schema, (), accepted.organization, (),
      BTreeMap.lists_iff.mp accepted.effects, (), BTreeMap.lists_iff.mp accepted.reminders, (), ?_,
      last, ordered, ahead⟩
    refine forM_eq_ok.mpr fun id listed => ?_
    obtain ⟨reminder, found⟩ :=
      BTreeMap.mem_iff_getElem?.mp ((accepted.reminders.mem_iff id).mp listed)
    simpa [validateReminder, found] using accepted.allowed id reminder found

theorem removeReminders (ids : List String) (ledger : SupervisionLedger) :
    (∀ id : String, (ids.foldl removeReminder ledger).reminders[id]? =
      if id ∈ ids then none else ledger.reminders[id]?) ∧
    (ids.foldl removeReminder ledger).reminderOrder =
      ledger.reminderOrder.filter (· ∉ ids) := by
  induction ids generalizing ledger with
  | nil => simp
  | cons first ids inductionHypothesis =>
      obtain ⟨reminders, order⟩ := inductionHypothesis (removeReminder ledger first)
      rw [List.foldl_cons]
      constructor
      · intro id
        rw [reminders id, removeReminder, BTreeMap.getElem?_erase]
        by_cases same : first = id
        · simp [same]
        · simp [same, Ne.symm same]
      · rw [order, removeReminder, List.filter_filter]
        refine List.filter_congr fun id _ => ?_
        by_cases same : id = first <;> simp [same]

/-- Shedding takes out the reminders of who has departed, and no others. -/
theorem shedDeparted_reminders (lists : BTreeMap.Lists ledger.reminderOrder ledger.reminders) :
    (shedDeparted ledger manifest).1.reminders[id]? =
      if isShed ledger manifest id then none else ledger.reminders[id]? := by
  rw [shedDeparted, (removeReminders _ ledger).1 id]
  by_cases shed : isShed ledger manifest id = true
  · have listed : id ∈ ledger.reminderOrder := by
      obtain ⟨reminder, found, _⟩ := (Option.any_eq_true _ _).mp shed
      exact (lists.mem_iff id).mpr (BTreeMap.mem_of_getElem? found)
    rw [if_pos (List.mem_filter.mpr ⟨listed, shed⟩), if_pos shed]
  · rw [if_neg fun member => shed (List.mem_filter.mp member).2, if_neg shed]

theorem shedDeparted_accepted (accepted : Accepted manifest ledger) :
    Accepted manifest (shedDeparted ledger manifest).1 := by
  have shed := shedDeparted_shed ledger manifest
  have kept (id : String) : (shedDeparted ledger manifest).1.reminders[id]? =
      if isShed ledger manifest id then none else ledger.reminders[id]? :=
    shedDeparted_reminders accepted.reminders
  have order : (shedDeparted ledger manifest).1.reminderOrder =
      ledger.reminderOrder.filter fun id => id ∉ ledger.reminderOrder.filter (isShed ledger manifest) :=
    (removeReminders _ ledger).2
  refine ⟨?_, ?_, ?_, ⟨?_, ?_⟩, ?_, ?_⟩
  · rw [shed.schemaVersion]
    exact accepted.schema
  · rw [shed.organization]
    exact accepted.organization
  · rw [shed.effectOrder, shed.effects]
    exact accepted.effects
  · rw [order]
    exact accepted.reminders.nodup.filter _
  · intro id
    rw [order, BTreeMap.mem_iff_getElem?, kept id]
    by_cases gone : isShed ledger manifest id = true
    · simp [gone]
    · simp [gone, accepted.reminders.mem_iff id, BTreeMap.mem_iff_getElem?]
  · intro id reminder found
    rw [kept id] at found
    split at found
    · cases found
    · exact accepted.allowed id reminder found
  · obtain ⟨last, ordered, ahead⟩ := accepted.sequenced
    refine ⟨last, ?_, ?_⟩
    · rw [shed.effectOrder]
      have same : validateEffect (shedDeparted ledger manifest).1 = validateEffect ledger := by
        funext previous id
        rw [validateEffect, validateEffect, shed.effects]
      rw [same]
      exact ordered
    · rw [shed.next]
      exact ahead

end Rules

/-! ### The pass -/

/-- Where a pass at `now` stands, from `start` on, with the reminders of `rest` still to come. -/
structure Passing (start : SupervisionDraft) (now : Int) (rest : List String)
    (s : ReminderReport × SupervisionDraft) : Prop where
  distinct : rest.Nodup
  reminders : ∀ id : String, s.2.ledger.reminders[id]? =
    if id ∈ rest then start.ledger.reminders[id]?
    else (start.ledger.reminders[id]?).map (evaluated now)
  kept : ∀ (id : String) (effect : Effect), start.ledger.effects[id]? = some effect →
    s.2.ledger.effects[id]? = some effect
  windows : ∀ (id : String) (reminder : Reminder), id ∉ rest →
    start.ledger.reminders[id]? = some reminder → DueNow reminder now →
    ∃ effect, s.2.ledger.effects[windowEffect reminder]? = some effect ∧
      effect.kind = reminderEffectKind ∧ effect.payload = reminderPayload reminder
  fired : ∀ effectId : String, effectId ∈ s.1.fired ↔ start.ledger.effects[effectId]? = none ∧
    ∃ id reminder, id ∉ rest ∧ start.ledger.reminders[id]? = some reminder ∧
      DueNow reminder now ∧ windowEffect reminder = effectId
  fresh : ∀ (id : String) (effect : Effect), s.2.ledger.effects[id]? = some effect →
    start.ledger.effects[id]? = none → id ∈ s.1.fired
  nodup : s.1.fired.Nodup
  reminderOrder : s.2.ledger.reminderOrder = start.ledger.reminderOrder
  schemaVersion : s.2.ledger.schemaVersion = start.ledger.schemaVersion
  organization : s.2.ledger.organization = start.ledger.organization

section Pass

variable {start : SupervisionDraft} {now : Int} {rest : List String} {id stamp : String}
  {s s' : ReminderReport × SupervisionDraft}

theorem getD_nextDueAt {reminder : Reminder} (now : Int) (readable : Readable reminder.nextDueAt) :
    (parseIsoMillis reminder.nextDueAt).getD now = dueAt reminder := by
  obtain ⟨n, parsed⟩ := Option.isSome_iff_exists.mp readable
  rw [dueAt, scheduleDueMillis, parsed]
  rfl

theorem passing_start (lists : BTreeMap.Lists start.ledger.reminderOrder start.ledger.reminders) :
    Passing start now start.ledger.reminderOrder ({}, start) := by
  have unlisted (id : String) (outside : id ∉ start.ledger.reminderOrder) :
      start.ledger.reminders[id]? = none :=
    Std.ExtTreeMap.getElem?_eq_none fun member => outside ((lists.mem_iff id).mpr member)
  refine ⟨lists.nodup, fun id => ?_, fun _ _ found => found, ?_, ?_, ?_, List.nodup_nil, rfl, rfl,
    rfl⟩
  · by_cases listed : id ∈ start.ledger.reminderOrder
    · rw [if_pos listed]
    · rw [if_neg listed, unlisted id listed]
      rfl
  · intro id reminder outside found
    simp [unlisted id outside] at found
  · intro effectId
    constructor
    · intro impossible
      simp at impossible
    · rintro ⟨_, id, reminder, outside, found, _⟩
      simp [unlisted id outside] at found
  · intro id effect found absent
    simp [absent] at found

/-- A reminder that is not due leaves the outbox alone. -/
theorem Passing.unfired (passing : Passing start now (id :: rest) s)
    (quiet : ∀ reminder, start.ledger.reminders[id]? = some reminder → ¬ DueNow reminder now)
    (reminders : ∀ other : String, s'.2.ledger.reminders[other]? =
      if id = other then (start.ledger.reminders[other]?).map (evaluated now)
      else s.2.ledger.reminders[other]?)
    (fired : s'.1.fired = s.1.fired) (effects : s'.2.ledger.effects = s.2.ledger.effects)
    (reminderOrder : s'.2.ledger.reminderOrder = s.2.ledger.reminderOrder)
    (schemaVersion : s'.2.ledger.schemaVersion = s.2.ledger.schemaVersion)
    (organization : s'.2.ledger.organization = s.2.ledger.organization) :
    Passing start now rest s' := by
  obtain ⟨unlisted, distinct⟩ := List.nodup_cons.mp passing.distinct
  have earlier {other : String} {reminder : Reminder} (outside : other ∉ rest)
      (found : start.ledger.reminders[other]? = some reminder) (due : DueNow reminder now) :
      other ∉ id :: rest := by
    intro member
    rcases List.mem_cons.mp member with rfl | later
    · exact quiet reminder found due
    · exact outside later
  refine ⟨distinct, ?_, ?_, ?_, ?_, ?_, ?_, ?_, ?_, ?_⟩
  · intro other
    rw [reminders other]
    by_cases here : id = other
    · subst here
      rw [if_pos rfl, if_neg unlisted]
    · rw [if_neg here, passing.reminders other]
      simp [Ne.symm here]
  · rw [effects]
    exact passing.kept
  · intro other reminder outside found due
    rw [effects]
    exact passing.windows other reminder (earlier outside found due) found due
  · intro effectId
    rw [fired, passing.fired effectId]
    refine and_congr_right fun _ => exists₂_congr fun other reminder => ?_
    constructor
    · rintro ⟨outside, described⟩
      exact ⟨fun member => outside (List.mem_cons_of_mem id member), described⟩
    · rintro ⟨outside, found, due, named⟩
      exact ⟨earlier outside found due, found, due, named⟩
  · rw [effects, fired]
    exact passing.fresh
  · rw [fired]
    exact passing.nodup
  · rw [reminderOrder, passing.reminderOrder]
  · rw [schemaVersion, passing.schemaVersion]
  · rw [organization, passing.organization]

/-- A due reminder brings the effect of its window into the outbox unless it is there. -/
theorem Passing.fires {reminder : Reminder} (passing : Passing start now (id :: rest) s)
    (found : start.ledger.reminders[id]? = some reminder) (due : DueNow reminder now)
    (readable : Readable reminder.nextDueAt) (ran : fire id reminder now stamp s = .ok s') :
    Passing start now rest s' := by
  obtain ⟨unlisted, distinct⟩ := List.nodup_cons.mp passing.distinct
  simp only [fire, getD_nextDueAt now readable, bind_eq_ok] at ran
  obtain ⟨⟨enqueued, middle⟩, ran, done⟩ := ran
  simp only [Except.ok.injEq] at done
  subst done
  have reminders (draft : SupervisionDraft)
      (same : draft.ledger.reminders = s.2.ledger.reminders) (other : String) :
      (draft.setReminder id (rearmed reminder (dueAt reminder) now)).ledger.reminders[other]? =
        if other ∈ rest then start.ledger.reminders[other]?
        else (start.ledger.reminders[other]?).map (evaluated now) := by
    rw [SupervisionDraft.setReminder, BTreeMap.getElem?_insert, same]
    by_cases here : id = other
    · subst here
      rw [if_pos rfl, if_neg unlisted, found, Option.map_some, evaluated_of_due due]
    · rw [if_neg here, passing.reminders other]
      simp [Ne.symm here]
  have wider {other : String} (outside : other ∉ id :: rest) : other ∉ rest :=
    fun member => outside (List.mem_cons_of_mem id member)
  have split {other : String} (outside : other ∉ rest) : other = id ∨ other ∉ id :: rest := by
    by_cases here : other = id
    · exact .inl here
    · exact .inr fun member => outside ((List.mem_cons.mp member).resolve_left here)
  -- Windows that were in the outbox stay, and the one of this reminder joins them.
  have windows {draft : SupervisionDraft}
      (grown : ∀ (a : String) (effect : Effect), s.2.ledger.effects[a]? = some effect →
        draft.ledger.effects[a]? = some effect)
      (here : ∃ effect, draft.ledger.effects[windowEffect reminder]? = some effect ∧
        effect.kind = reminderEffectKind ∧ effect.payload = reminderPayload reminder)
      (other : String) (another : Reminder) (outside : other ∉ rest)
      (stored : start.ledger.reminders[other]? = some another) (isDue : DueNow another now) :
      ∃ effect, draft.ledger.effects[windowEffect another]? = some effect ∧
        effect.kind = reminderEffectKind ∧ effect.payload = reminderPayload another := by
    rcases split outside with rfl | earlier
    · rw [found] at stored
      obtain rfl := Option.some.inj stored
      exact here
    · obtain ⟨effect, present, described⟩ := passing.windows other another earlier stored isDue
      exact ⟨effect, grown _ effect present, described⟩
  rcases enqueueEffect_eq_ok ran with
    ⟨rfl, rfl, effect, present, payload, kind⟩ | ⟨rfl, absent, rfl⟩
  · refine ⟨distinct, reminders s.2 rfl, passing.kept,
      windows (fun _ _ same => same) ⟨effect, present, kind, payload⟩, ?_, passing.fresh,
      passing.nodup, passing.reminderOrder, passing.schemaVersion, passing.organization⟩
    intro effectId
    show effectId ∈ s.1.fired ↔ _
    rw [passing.fired effectId]
    refine and_congr_right fun unstored => ⟨?_, ?_⟩
    · rintro ⟨other, another, outside, described⟩
      exact ⟨other, another, wider outside, described⟩
    · rintro ⟨other, another, outside, stored, isDue, named⟩
      rcases split outside with rfl | earlier
      · rw [found] at stored
        obtain rfl := Option.some.inj stored
        subst named
        exact ((passing.fired _).mp (passing.fresh (windowEffect reminder) effect present unstored)).2
      · exact ⟨other, another, earlier, stored, isDue, named⟩
  · have unstored : start.ledger.effects[windowEffect reminder]? = none := by
      by_contra stored
      obtain ⟨effect, stored⟩ := Option.ne_none_iff_exists'.mp stored
      have kept := passing.kept _ effect stored
      rw [windowEffect, absent] at kept
      cases kept
    have unfired : windowEffect reminder ∉ s.1.fired := by
      intro already
      obtain ⟨_, other, another, outside, stored, isDue, named⟩ := (passing.fired _).mp already
      obtain ⟨effect, present, _⟩ := passing.windows other another outside stored isDue
      rw [named, windowEffect, absent] at present
      cases present
    have grown (a : String) (effect : Effect) (same : s.2.ledger.effects[a]? = some effect) :
        (s.2.ledger.effects.insert (windowEffect reminder) (freshEffect (windowEffect reminder)
          reminderEffectKind s.2.ledger.nextEffectSequence (reminderPayload reminder) stamp))[a]? =
          some effect := by
      rw [BTreeMap.getElem?_insert, if_neg ?_]
      · exact same
      · rintro rfl
        rw [windowEffect, absent] at same
        cases same
    refine ⟨distinct, reminders _ rfl, fun a effect stored => grown a effect (passing.kept a effect stored),
      windows grown ⟨_, BTreeMap.getElem?_insert.trans (if_pos rfl), rfl, rfl⟩, ?_, ?_, ?_,
      passing.reminderOrder, passing.schemaVersion, passing.organization⟩
    · intro effectId
      show effectId ∈ s.1.fired ++ [windowEffect reminder] ↔ _
      rw [List.mem_append, List.mem_singleton, passing.fired effectId]
      constructor
      · rintro (⟨missing, other, another, outside, described⟩ | rfl)
        · exact ⟨missing, other, another, wider outside, described⟩
        · exact ⟨unstored, id, reminder, unlisted, found, due, rfl⟩
      · rintro ⟨missing, other, another, outside, stored, isDue, named⟩
        rcases split outside with rfl | earlier
        · rw [found] at stored
          obtain rfl := Option.some.inj stored
          exact .inr named.symm
        · exact .inl ⟨missing, other, another, earlier, stored, isDue, named⟩
    · intro a effect present missing
      show a ∈ s.1.fired ++ [windowEffect reminder]
      have inserted : (s.2.ledger.effects.insert (windowEffect reminder) (freshEffect
          (windowEffect reminder) reminderEffectKind s.2.ledger.nextEffectSequence
          (reminderPayload reminder) stamp))[a]? = some effect := present
      rw [BTreeMap.getElem?_insert] at inserted
      by_cases here : windowEffect reminder = a
      · exact List.mem_append_right _ (List.mem_singleton.mpr here.symm)
      · rw [if_neg here] at inserted
        exact List.mem_append_left _ (passing.fresh a effect inserted missing)
    · exact List.nodup_append.mpr ⟨passing.nodup, List.nodup_singleton _,
        fun a here b there => by
          rintro rfl
          have same : a = windowEffect reminder := List.mem_singleton.mp there
          exact unfired (same ▸ here)⟩

theorem Passing.step (passing : Passing start now (id :: rest) s)
    (readable : ∀ reminder, start.ledger.reminders[id]? = some reminder →
      Readable reminder.nextDueAt)
    (ran : fireIfDue now stamp s id = .ok s') : Passing start now rest s' := by
  have stored := passing.reminders id
  rw [if_pos List.mem_cons_self] at stored
  unfold fireIfDue at ran
  rw [stored] at ran
  cases found : start.ledger.reminders[id]? with
  | none =>
      rw [found] at ran
      cases ran
      refine passing.unfired (fun reminder same => by simp [found] at same) (fun other => ?_) rfl rfl
        rfl rfl rfl
      by_cases here : id = other
      · subst here
        rw [if_pos rfl, stored, found]
        rfl
      · rw [if_neg here]
  | some reminder =>
      simp only [found] at ran
      -- A reminder that stays as it is keeps the ledger.
      have unchanged (quiet : evaluated now reminder = reminder) (early : ¬ DueNow reminder now)
          (same : s' = s) : Passing start now rest s' := by
        subst same
        refine passing.unfired (fun other same => ?_) (fun other => ?_) rfl rfl rfl rfl rfl
        · rw [found] at same
          obtain rfl := Option.some.inj same
          exact early
        · by_cases here : id = other
          · subst here
            rw [if_pos rfl, stored, found, Option.map_some, quiet]
          · rw [if_neg here]
      by_cases armed : isArmed reminder now = true
      · rw [if_pos armed] at ran
        by_cases ahead : now < scheduleDueMillis reminder.nextDueAt
        · rw [if_pos ahead] at ran
          refine unchanged ?_ (fun due => absurd due.2 (Int.not_le.mpr ahead)) (Except.ok.inj ran).symm
          rw [evaluated, if_pos armed, dueAt, if_pos ahead]
        · rw [if_neg ahead] at ran
          exact passing.fires found ⟨armed, Int.not_lt.mp ahead⟩ (readable reminder found) ran
      · rw [if_neg armed] at ran
        by_cases active : reminder.status = "active"
        · rw [if_pos active] at ran
          obtain rfl := Except.ok.inj ran
          refine passing.unfired (fun other same due => ?_) (fun other => ?_) rfl rfl rfl rfl rfl
          · rw [found] at same
            obtain rfl := Option.some.inj same
            exact armed due.1
          · rw [SupervisionDraft.setReminder, BTreeMap.getElem?_insert]
            by_cases here : id = other
            · subst here
              rw [if_pos rfl, if_pos rfl, found, Option.map_some, evaluated, if_neg armed,
                if_pos active]
            · rw [if_neg here, if_neg here]
        · rw [if_neg active] at ran
          refine unchanged ?_ (fun due => armed due.1) (Except.ok.inj ran).symm
          rw [evaluated, if_neg armed, if_neg active]

/-- A pass that went through was at every reminder. -/
theorem evaluateBody_passed {report : ReminderReport} {draft : SupervisionDraft}
    (lists : BTreeMap.Lists start.ledger.reminderOrder start.ledger.reminders)
    (readable : ∀ (id : String) (reminder : Reminder),
      start.ledger.reminders[id]? = some reminder → Readable reminder.nextDueAt)
    (ran : evaluateBody start stamp = .ok (report, draft)) :
    Passing start ((parseIsoMillis stamp).getD 0) [] (report, draft) :=
  foldlM_rest (Passing start ((parseIsoMillis stamp).getD 0))
    (fun id _ _ _ step passing => passing.step (readable id) step) ran (passing_start lists)

/-! ### When a pass goes through -/

/-- The reminders of a ledger that are due. -/
def dueIds (ledger : SupervisionLedger) (now : Int) (ids : List String) : List String :=
  ids.filter fun id => (ledger.reminders[id]?).any fun reminder => DueNow reminder now

/-- What a pass at `now` asks of a ledger: an effect that stands under a window that is due is the one of
that window, every next window can be written down, and the sequence numbers do not run out. -/
structure Evaluable (ledger : SupervisionLedger) (now : Int) : Prop where
  agrees : ∀ (id : String) (reminder : Reminder) (effect : Effect),
    ledger.reminders[id]? = some reminder → DueNow reminder now →
    ledger.effects[windowEffect reminder]? = some effect →
    effect.kind = reminderEffectKind ∧ effect.payload = reminderPayload reminder
  rearmable : ∀ (id : String) (reminder : Reminder), ledger.reminders[id]? = some reminder →
    DueNow reminder now → reminder.recurring = true →
    nextDue reminder.intervalMs (dueAt reminder) now ≤ lastReadableMillis
  room : ledger.nextEffectSequence + (dueIds ledger now ledger.reminderOrder).length ≤ u64Max

/-- The effects of a ledger as its rules want them. -/
structure Sequenced (ledger : SupervisionLedger) : Prop where
  lists : BTreeMap.Lists ledger.effectOrder ledger.effects
  ordered : ∃ last, ledger.effectOrder.foldlM (validateEffect ledger) 0 = .ok last ∧
    last < ledger.nextEffectSequence

theorem validateEffects_congr {ledger ledger' : SupervisionLedger} {order : List String}
    (same : ∀ id ∈ order, ledger'.effects[id]? = ledger.effects[id]?) (previous : Nat) :
    order.foldlM (validateEffect ledger') previous = order.foldlM (validateEffect ledger) previous := by
  induction order generalizing previous with
  | nil => rfl
  | cons first order inductionHypothesis =>
      have here : validateEffect ledger' previous first = validateEffect ledger previous first := by
        rw [validateEffect, validateEffect, same first List.mem_cons_self]
      rw [List.foldlM_cons, List.foldlM_cons, here]
      refine bind_congr fun next => ?_
      exact inductionHypothesis (fun id member => same id (List.mem_cons_of_mem first member)) next

theorem Sequenced.congr {ledger ledger' : SupervisionLedger} (sequenced : Sequenced ledger)
    (effects : ledger'.effects = ledger.effects) (order : ledger'.effectOrder = ledger.effectOrder)
    (next : ledger'.nextEffectSequence = ledger.nextEffectSequence) : Sequenced ledger' := by
  obtain ⟨lists, last, ordered, ahead⟩ := sequenced
  refine ⟨?_, last, ?_, ?_⟩
  · rw [effects, order]
    exact lists
  · have same : ∀ id ∈ ledger.effectOrder, ledger'.effects[id]? = ledger.effects[id]? := by
      intro id _
      rw [effects]
    rw [order, validateEffects_congr same]
    exact ordered
  · rw [next]
    exact ahead

/-- A new effect goes to the end of the order, under the next sequence. -/
theorem Sequenced.enqueued {ledger : SupervisionLedger} {kind : String}
    {payload : BTreeMap JsonValue} (sequenced : Sequenced ledger)
    (absent : ledger.effects[id]? = none) (room : ledger.nextEffectSequence < u64Max) :
    Sequenced { ledger with
      nextEffectSequence := saturatingSucc ledger.nextEffectSequence
      effects := ledger.effects.insert id
        (freshEffect id kind ledger.nextEffectSequence payload stamp)
      effectOrder := ledger.effectOrder ++ [id] } := by
  obtain ⟨lists, last, ordered, ahead⟩ := sequenced
  have unlisted : id ∉ ledger.effectOrder := by
    intro listed
    obtain ⟨effect, stored⟩ := BTreeMap.mem_iff_getElem?.mp ((lists.mem_iff id).mp listed)
    simp [absent] at stored
  have next : saturatingSucc ledger.nextEffectSequence = ledger.nextEffectSequence + 1 :=
    Nat.min_eq_left room
  refine ⟨⟨?_, ?_⟩, ledger.nextEffectSequence, ?_, ?_⟩
  · exact List.nodup_append.mpr ⟨lists.nodup, List.nodup_singleton id, fun a here b there => by
      rintro rfl
      exact unlisted (List.mem_singleton.mp there ▸ here)⟩
  · intro a
    rw [List.mem_append, List.mem_singleton, lists.mem_iff a, Std.ExtTreeMap.mem_insert,
      Std.LawfulEqCmp.compare_eq_iff_eq, or_comm, eq_comm]
  · rw [List.foldlM_append, @validateEffects_congr ledger _ _ ?_, ordered]
    · have found : (ledger.effects.insert id
          (freshEffect id kind ledger.nextEffectSequence payload stamp))[id]? =
          some (freshEffect id kind ledger.nextEffectSequence payload stamp) :=
        BTreeMap.getElem?_insert.trans (if_pos rfl)
      simp [validateEffect, freshEffect, require, ahead]
    · intro a member
      refine BTreeMap.getElem?_insert.trans (if_neg ?_)
      rintro rfl
      exact unlisted member
  · show ledger.nextEffectSequence < saturatingSucc ledger.nextEffectSequence
    omega

/-- A pass under way that will go through. -/
structure Ready (start : SupervisionDraft) (now : Int) (rest : List String)
    (s : ReminderReport × SupervisionDraft) : Prop where
  passing : Passing start now rest s
  sequenced : Sequenced s.2.ledger
  room : s.2.ledger.nextEffectSequence + (dueIds start.ledger now rest).length ≤ u64Max

/-- An effect that stands under a window still to come is the one of that window. -/
theorem Ready.agrees {reminder : Reminder} {effect : Effect}
    (ready : Ready start now (id :: rest) s) (found : start.ledger.reminders[id]? = some reminder)
    (due : DueNow reminder now)
    (named : ∀ (id : String) (reminder : Reminder), start.ledger.reminders[id]? = some reminder →
      reminder.id = id ∧ Readable reminder.nextDueAt)
    (evaluable : Evaluable start.ledger now)
    (present : s.2.ledger.effects[windowEffect reminder]? = some effect) :
    effect.kind = reminderEffectKind ∧ effect.payload = reminderPayload reminder := by
  cases before : start.ledger.effects[windowEffect reminder]? with
  | some earlier =>
      have kept := ready.passing.kept _ earlier before
      rw [present] at kept
      obtain rfl := Option.some.inj kept
      exact evaluable.agrees id reminder effect found due before
  | none =>
      have fired := ready.passing.fresh _ effect present before
      obtain ⟨_, other, another, outside, stored, _, same⟩ := (ready.passing.fired _).mp fired
      have ids := (windowEffect_inj same).1
      rw [(named other another stored).1, (named id reminder found).1] at ids
      exact absurd (ids ▸ List.mem_cons_self) outside

theorem Ready.step (ready : Ready start now (id :: rest) s)
    (named : ∀ (id : String) (reminder : Reminder), start.ledger.reminders[id]? = some reminder →
      reminder.id = id ∧ Readable reminder.nextDueAt)
    (evaluable : Evaluable start.ledger now) :
    ∃ s', fireIfDue now stamp s id = .ok s' ∧ Ready start now rest s' := by
  have finishes {s' : ReminderReport × SupervisionDraft}
      (ran : fireIfDue now stamp s id = .ok s') (sequenced : Sequenced s'.2.ledger)
      (room : s'.2.ledger.nextEffectSequence + (dueIds start.ledger now rest).length ≤ u64Max) :
      ∃ s', fireIfDue now stamp s id = .ok s' ∧ Ready start now rest s' :=
    ⟨s', ran, ready.passing.step (fun reminder found => (named id reminder found).2) ran, sequenced,
      room⟩
  have shorter : (dueIds start.ledger now rest).length ≤
      (dueIds start.ledger now (id :: rest)).length :=
    ((List.sublist_cons_self id rest).filter _).length_le
  have roomy := ready.room
  have stored := ready.passing.reminders id
  rw [if_pos List.mem_cons_self] at stored
  cases found : start.ledger.reminders[id]? with
  | none =>
      have ran : fireIfDue now stamp s id = .ok s := by
        rw [fireIfDue, stored, found]
      exact finishes ran ready.sequenced (by omega)
  | some reminder =>
      by_cases armed : isArmed reminder now = true
      · by_cases ahead : now < scheduleDueMillis reminder.nextDueAt
        · have ran : fireIfDue now stamp s id = .ok s := by
            simp only [fireIfDue, stored, found, if_pos armed, if_pos ahead]
          exact finishes ran ready.sequenced (by omega)
        · have due : DueNow reminder now := ⟨armed, Int.not_lt.mp ahead⟩
          have counted : (dueIds start.ledger now (id :: rest)).length =
              (dueIds start.ledger now rest).length + 1 := by
            have isDue : (start.ledger.reminders[id]?).any (fun r => DueNow r now) = true := by
              simp [found, due]
            rw [dueIds, List.filter_cons, if_pos isDue]
            rfl
          have fires {enqueued : Bool} {draft : SupervisionDraft}
              (ran : enqueueEffect s.2 (windowEffect reminder) reminderEffectKind
                (reminderPayload reminder) stamp = .ok (enqueued, draft)) :
              ∃ report, fireIfDue now stamp s id =
                .ok (report, draft.setReminder id (rearmed reminder (dueAt reminder) now)) := by
            rw [windowEffect] at ran
            simp only [fireIfDue, stored, found, if_pos armed, if_neg ahead, fire,
              getD_nextDueAt now (named id reminder found).2, ran, ok_bind]
            exact ⟨_, rfl⟩
          cases present : s.2.ledger.effects[windowEffect reminder]? with
          | none =>
              obtain ⟨report, ran⟩ := fires (by rw [enqueueEffect, present])
              have small : s.2.ledger.nextEffectSequence < u64Max := by omega
              refine finishes ran ((ready.sequenced.enqueued present small).congr rfl rfl rfl) ?_
              have next : saturatingSucc s.2.ledger.nextEffectSequence ≤
                  s.2.ledger.nextEffectSequence + 1 := Nat.min_le_left _ _
              show saturatingSucc s.2.ledger.nextEffectSequence + _ ≤ u64Max
              omega
          | some effect =>
              have agrees := ready.agrees found due named evaluable present
              have same : ¬ (effect.payload ≠ reminderPayload reminder ∨
                  effect.kind ≠ reminderEffectKind) := by
                rw [agrees.1, agrees.2]
                simp
              obtain ⟨report, ran⟩ := fires (by rw [enqueueEffect, present]; exact if_neg same)
              refine finishes ran (ready.sequenced.congr rfl rfl rfl) ?_
              show s.2.ledger.nextEffectSequence + _ ≤ u64Max
              omega
      · by_cases active : reminder.status = "active"
        · have ran : fireIfDue now stamp s id = .ok
              ({ s.1 with retired := s.1.retired ++ [id] }, s.2.setReminder id
                { reminder with status := "stopped", stoppedReason := some "expired" }) := by
            simp only [fireIfDue, stored, found, if_neg armed, if_pos active]
          exact finishes ran (ready.sequenced.congr rfl rfl rfl) (Nat.le_trans (Nat.add_le_add_left shorter _) roomy)
        · have ran : fireIfDue now stamp s id = .ok s := by
            simp only [fireIfDue, stored, found, if_neg armed, if_neg active]
          exact finishes ran ready.sequenced (by omega)

theorem evaluateBody_ready
    (lists : BTreeMap.Lists start.ledger.reminderOrder start.ledger.reminders)
    (named : ∀ (id : String) (reminder : Reminder), start.ledger.reminders[id]? = some reminder →
      reminder.id = id ∧ Readable reminder.nextDueAt)
    (sequenced : Sequenced start.ledger)
    (evaluable : Evaluable start.ledger ((parseIsoMillis stamp).getD 0)) :
    ∃ s, evaluateBody start stamp = .ok s ∧ Ready start ((parseIsoMillis stamp).getD 0) [] s :=
  foldlM_ok (Ready start ((parseIsoMillis stamp).getD 0))
    (fun _ _ _ ready => ready.step named evaluable)
    ⟨passing_start lists, sequenced, evaluable.room⟩

end Pass

/-! ### What an evaluation leaves -/

section Evaluating

variable {ledgers ledgers' : Ledgers} {manifest : OrganizationManifest}
  {ledger ledger' : SupervisionLedger} {report : ReminderReport} {now : Int}

theorem evaluated_owners (reminder : Reminder) (now : Int) :
    (evaluated now reminder).id = reminder.id ∧
      (evaluated now reminder).personId = reminder.personId ∧
      (evaluated now reminder).createdByPersonId = reminder.createdByPersonId ∧
      (evaluated now reminder).prompt = reminder.prompt ∧
      (evaluated now reminder).intervalMs = reminder.intervalMs ∧
      (evaluated now reminder).expiresAt = reminder.expiresAt ∧
      ((evaluated now reminder).status = "stopped" ∨
        (evaluated now reminder).status = reminder.status) := by
  unfold evaluated rearmed
  dsimp only
  split_ifs <;> simp

theorem evaluated_allowed {id : String} {reminder : Reminder}
    (allowed : ReminderAllowed manifest id reminder)
    (readable : Readable (evaluated now reminder).nextDueAt) :
    ReminderAllowed manifest id (evaluated now reminder) := by
  obtain ⟨named, owner, author, prompt, interval, status, _, expiry⟩ := allowed
  obtain ⟨sameId, sameOwner, sameAuthor, samePrompt, sameInterval, sameExpiry, sameStatus⟩ :=
    evaluated_owners reminder now
  refine ⟨?_, ?_, ?_, ?_, ?_, ?_, readable, ?_⟩
  · rw [sameId, named]
  · rw [sameOwner]
    exact owner
  · rw [sameAuthor]
    exact author
  · rw [samePrompt]
    exact prompt
  · rw [sameInterval]
    exact interval
  · rcases sameStatus with stopped | same
    · rw [stopped]
      decide
    · rw [same]
      exact status
  · rw [sameExpiry]
    exact expiry

/-- A ledger whose reminders were all evaluated obeys the rules again. -/
theorem accepted_of_passed {start draft : SupervisionDraft} {stamp : String}
    (accepted : Accepted manifest start.ledger)
    (passing : Passing start now [] (report, draft)) (sequenced : Sequenced draft.ledger)
    (readable : ∀ (id : String) (reminder : Reminder), start.ledger.reminders[id]? = some reminder →
      Readable (evaluated now reminder).nextDueAt) :
    Accepted manifest { draft.ledger with updatedAt := stamp } := by
  have reminders (id : String) :
      draft.ledger.reminders[id]? = (start.ledger.reminders[id]?).map (evaluated now) := by
    rw [passing.reminders id, if_neg List.not_mem_nil]
  refine ⟨?_, ?_, sequenced.lists, ⟨?_, ?_⟩, ?_, (sequenced.congr rfl rfl rfl).ordered⟩
  · show draft.ledger.schemaVersion = 1 ∨ draft.ledger.schemaVersion = supervisionSchemaVersion
    rw [passing.schemaVersion]
    exact accepted.schema
  · show draft.ledger.organization = manifest.slug
    rw [passing.organization]
    exact accepted.organization
  · show draft.ledger.reminderOrder.Nodup
    rw [passing.reminderOrder]
    exact accepted.reminders.nodup
  · intro id
    show id ∈ draft.ledger.reminderOrder ↔ id ∈ draft.ledger.reminders
    rw [passing.reminderOrder, accepted.reminders.mem_iff id, BTreeMap.mem_iff_getElem?,
      BTreeMap.mem_iff_getElem?, reminders id]
    simp
  · intro id reminder found
    obtain ⟨before, stored, rfl⟩ := Option.map_eq_some_iff.mp ((reminders id).symm.trans found)
    exact evaluated_allowed (accepted.allowed id before stored) (readable id before stored)

/-- A window that can be written down leaves a due time that can be read back. -/
theorem evaluated_readable {clock : Int} {reminder : Reminder}
    (readable : Readable reminder.nextDueAt)
    (rearmable : DueNow reminder ((parseIsoMillis (isoMillis clock)).getD 0) →
      reminder.recurring = true → nextDue reminder.intervalMs (dueAt reminder)
        ((parseIsoMillis (isoMillis clock)).getD 0) ≤ lastReadableMillis) :
    Readable (evaluated ((parseIsoMillis (isoMillis clock)).getD 0) reminder).nextDueAt := by
  have clocked : (parseIsoMillis (isoMillis clock)).getD 0 < i64Max := passClock_lt
  have first : firstReadableMillis ≤ (parseIsoMillis (isoMillis clock)).getD 0 := by
    cases parsed : parseIsoMillis (isoMillis clock) with
    | none => decide
    | some n =>
        obtain rfl := eq_of_parseIsoMillis_isoMillis parsed
        exact (readable_isoMillis_iff.mp (readable_of_parse parsed)).1
  revert rearmable clocked first
  generalize (parseIsoMillis (isoMillis clock)).getD 0 = now
  intro rearmable clocked first
  by_cases due : DueNow reminder now
  · rw [evaluated_of_due due]
    by_cases recurs : reminder.recurring = true
    · have small : dueAt reminder ≤ i64Max := Int.le_trans due.2 (Int.le_of_lt clocked)
      obtain ⟨k, next, ahead, _⟩ := nextDue_eq reminder.intervalMs clocked small
      have inRange : ReadableInstant (nextDue reminder.intervalMs (dueAt reminder) now) :=
        ⟨by omega, rearmable due recurs⟩
      have rendered : (rearmed reminder (dueAt reminder) now).nextDueAt =
          isoMillis (nextDue reminder.intervalMs (dueAt reminder) now) := by
        unfold rearmed
        simp only [if_pos recurs]
        split <;> rfl
      rw [rendered]
      exact readable_isoMillis_iff.mpr inRange
    · unfold rearmed
      simp only [if_neg recurs]
      exact readable
  · unfold evaluated
    split_ifs with armed ahead
    · exact readable
    · exact absurd ⟨armed, Int.not_lt.mp ahead⟩ due
    · exact readable
    · exact readable

/-- The instant an evaluation runs at: the clock as its own stamp reads. -/
def passClock (ledgers : Ledgers) : Int := (parseIsoMillis (isoMillis ledgers.now)).getD 0

/-- Whether the owner and the author of a reminder are still staffed. -/
def OwnersPresent (manifest : OrganizationManifest) (reminder : Reminder) : Prop :=
  reminder.personId ∈ staffedPeople manifest ∧ reminder.createdByPersonId ∈ staffedPeople manifest

/-- One evaluation of `ledger`, as stored in `ledgers`, that left `ledger'` in `ledgers'`. -/
structure FiresOnce (manifest : OrganizationManifest) (ledgers ledgers' : Ledgers)
    (ledger ledger' : SupervisionLedger) (report : ReminderReport) : Prop where
  fires : ∀ (id : String) (reminder : Reminder), ledger.reminders[id]? = some reminder →
    OwnersPresent manifest reminder → DueNow reminder (passClock ledgers) →
    (∃ after, ledger'.reminders[id]? = some after ∧ FiredWindow (passClock ledgers) reminder after) ∧
      ∃ effect, effectAt ledgers' (windowEffect reminder) = some effect ∧
        effect.kind = reminderEffectKind ∧ effect.payload = reminderPayload reminder
  expires : ∀ (id : String) (reminder : Reminder), ledger.reminders[id]? = some reminder →
    OwnersPresent manifest reminder → isArmed reminder (passClock ledgers) = false →
    reminder.status = "active" → ledger'.reminders[id]? =
      some { reminder with status := "stopped", stoppedReason := some "expired" }
  leaves : ∀ (id : String) (reminder : Reminder), ledger.reminders[id]? = some reminder →
    OwnersPresent manifest reminder → Quiet (passClock ledgers) reminder →
    ledger'.reminders[id]? = some reminder
  sheds : ∀ (id : String) (reminder : Reminder), ledger.reminders[id]? = some reminder →
    ¬ OwnersPresent manifest reminder → ledger'.reminders[id]? = none
  arms : ∀ id : String, ledger.reminders[id]? = none → ledger'.reminders[id]? = none
  once : report.fired.Nodup
  enqueues : ∀ effectId : String, effectId ∈ report.fired ↔ effectAt ledgers effectId = none ∧
    ∃ (id : String) (reminder : Reminder), ledger.reminders[id]? = some reminder ∧
      OwnersPresent manifest reminder ∧ DueNow reminder (passClock ledgers) ∧ windowEffect reminder = effectId
  outbox : ∀ effectId : String, effectId ∉ report.fired →
    effectAt ledgers' effectId = effectAt ledgers effectId
  apart : ∀ (id other : String) (reminder another : Reminder),
    ledger.reminders[id]? = some reminder → ledger.reminders[other]? = some another →
    windowEffect reminder = windowEffect another → id = other
  again : evaluateReminders ledgers' manifest = .ok ({}, ledgers')

theorem hydrate_succeeds {document : SupervisionDocument}
    (decoded : ∀ id : String, id ∈ ledgers.effects → (effectAt ledgers id).isSome = true) :
    ∃ ledger, hydrate document ledgers = .ok ledger := by
  have each : ∀ id ∈ ledgers.effectOrder, ∃ entry, hydrateEffect ledgers id = .ok entry := by
    intro id listed
    obtain ⟨effect, stored⟩ := Option.isSome_iff_exists.mp (decoded id (mem_effectOrder.mp listed))
    exact ⟨(id, effect), hydrateEffect_eq_ok.mpr ⟨rfl, stored⟩⟩
  obtain ⟨entries, collected⟩ := mapM_succeeds each
  exact ⟨_, bind_eq_ok.mpr ⟨entries, collected, rfl⟩⟩

/-- What a mutation committed reads back. -/
theorem Committed.reads {current : SupervisionLedger} {draft : SupervisionDraft}
    (committed : Committed ledgers manifest current draft ledgers') :
    ∃ ledger', readForMutation ledgers' = .ok ledger' ∧
      ledger'.reminders = draft.ledger.reminders ∧
      ledger'.reminderOrder = draft.ledger.reminderOrder := by
  obtain ⟨document, stored, hydrated⟩ := readForMutation_eq_ok committed.read
  rcases committed.written with ⟨rfl, same, _⟩ | published
  · exact ⟨current, committed.read, by rw [same], by rw [same]⟩
  · have decoded : ∀ id : String, id ∈ ledgers'.effects →
        (Supervision.effectAt ledgers' id).isSome = true := by
      intro id member
      obtain ⟨row, found⟩ := BTreeMap.mem_iff_getElem?.mp member
      rw [published.effects id] at found
      rw [published.effectAt id]
      split at found
      · rename_i touched
        obtain ⟨effect, present, _⟩ := Option.map_eq_some_iff.mp found
        rw [if_pos touched, present]
        rfl
      · rename_i untouched
        rw [if_neg untouched]
        exact hydrated.decoded id (BTreeMap.mem_of_getElem? found)
    have reads : ∃ ledger', hydrate (SupervisionLedger.toSupervisionDocument
        { draft.ledger with updatedAt := isoMillis ledgers.now }) _ = .ok ledger' :=
      hydrate_succeeds decoded
    obtain ⟨ledger', read⟩ := reads
    have document := (hydrate_eq_ok read).document
    refine ⟨ledger', ?_, ?_, ?_⟩
    · rw [readForMutation, published.document]
      exact read
    · have same := congrArg SupervisionDocument.reminders document
      exact same
    · have same := congrArg SupervisionDocument.reminderOrder document
      exact same

/-- An evaluation with nothing to do does nothing. -/
theorem evaluate_quiet (read : readForMutation ledgers = .ok ledger)
    (staffed : ∀ (id : String) (reminder : Reminder), ledger.reminders[id]? = some reminder →
      OwnersPresent manifest reminder)
    (quiet : ∀ (id : String) (reminder : Reminder), ledger.reminders[id]? = some reminder →
      Quiet (passClock ledgers) reminder) :
    evaluateReminders ledgers manifest = .ok ({}, ledgers) := by
  have unshed : ledger.reminderOrder.filter (isShed ledger manifest) = [] := by
    refine List.filter_eq_nil_iff.mpr fun id _ shed => ?_
    obtain ⟨reminder, found, absent⟩ := (Option.any_eq_true _ _).mp shed
    have present := staffed id reminder found
    simp [present.1, present.2] at absent
  have reconciled : shedDeparted ledger manifest = (ledger, false) := by
    rw [shedDeparted, unshed]
    rfl
  have idle (draft : SupervisionDraft) (same : draft.ledger = ledger) (stamp : String)
      (clock : (parseIsoMillis stamp).getD 0 = passClock ledgers) :
      evaluateBody draft stamp = .ok ({}, draft) := by
    have still : ∀ ids : List String, ids.foldlM (fireIfDue ((parseIsoMillis stamp).getD 0) stamp)
        ({}, draft) = .ok ({}, draft) := by
      intro ids
      induction ids with
      | nil => rfl
      | cons id ids inductionHypothesis =>
          have here : fireIfDue ((parseIsoMillis stamp).getD 0) stamp ({}, draft) id =
              .ok ({}, draft) := by
            unfold fireIfDue
            dsimp only
            rw [same, clock]
            cases found : ledger.reminders[id]? with
            | none => rfl
            | some reminder =>
                obtain ⟨waits, stopped⟩ := quiet id reminder found
                by_cases armed : isArmed reminder (passClock ledgers) = true
                · simp only [if_pos armed]
                  exact if_pos (waits armed)
                · simp only [if_neg armed]
                  exact if_neg (stopped (Bool.eq_false_iff.mpr armed))
          rw [List.foldlM_cons, here]
          exact inductionHypothesis
    exact still draft.ledger.reminderOrder
  have ran := idle { ledger := ledger, now := ledgers.now, manifest := manifest, touchedEffects := ∅ }
    rfl (isoMillis ledgers.now) rfl
  simp only [evaluateReminders, mutate, read, ok_bind, reconciled, ran]
  simp

theorem isShed_eq_true {id : String} {reminder : Reminder}
    (found : ledger.reminders[id]? = some reminder) :
    isShed ledger manifest id = true ↔ ¬ OwnersPresent manifest reminder := by
  simp only [isShed, found, Option.any_some, OwnersPresent, decide_eq_true_eq]
  tauto

/-- No mutation moves the clock. -/
theorem mutate_now {α : Type} {body : Body α} {result : α}
    (ran : mutate ledgers manifest body = .ok (result, ledgers')) : ledgers'.now = ledgers.now := by
  simp only [mutate, bind_eq_ok] at ran
  obtain ⟨current, _, ⟨_, draft⟩, _, ran⟩ := ran
  dsimp only at ran
  split at ran
  · simp only [publish, bind_eq_ok, Except.ok.injEq, Prod.mk.injEq] at ran
    obtain ⟨written, ⟨_, _, rfl⟩, _, rfl⟩ := ran
    refine foldl_invariant (fun s : Ledgers => s.now = ledgers.now) (fun s id _ same => ?_) rfl
    unfold flushEffect
    split <;> exact same
  · simp only [Except.ok.injEq, Prod.mk.injEq] at ran
    obtain ⟨_, rfl⟩ := ran
    rfl

theorem read_eq_ok (read : Supervision.read ledgers manifest = .ok ledger) :
    readForMutation ledgers = .ok ledger ∧ Accepted manifest ledger := by
  simp only [Supervision.read, bind_eq_ok, asStoreFailure_eq_ok, Except.ok.injEq] at read
  obtain ⟨_, hydrated, _, valid, rfl⟩ := read
  exact ⟨hydrated, validate_iff.mp valid⟩

/-- The reminders of a committed evaluation: shed, evaluated, or both. -/
theorem evaluation_reminders (read : Supervision.read ledgers manifest = .ok ledger)
    (ran : evaluateReminders ledgers manifest = .ok (report, ledgers')) :
    ∃ draft, evaluateBody (draftOf ledgers manifest ledger) (isoMillis ledgers.now) =
        .ok (report, draft) ∧ Committed ledgers manifest ledger draft ledgers' ∧
      Accepted manifest (draftOf ledgers manifest ledger).ledger ∧
      Passing (draftOf ledgers manifest ledger) (passClock ledgers) [] (report, draft) := by
  obtain ⟨hydrated, valid⟩ := read_eq_ok read
  obtain ⟨current, draft, done, committed⟩ := mutate_eq_ok ran
  have same := committed.read
  rw [hydrated] at same
  obtain rfl := Except.ok.inj same
  have accepted := shedDeparted_accepted valid
  have passing := evaluateBody_passed accepted.reminders
    (fun id reminder found => (accepted.allowed id reminder found).2.2.2.2.2.2.1) done
  exact ⟨draft, done, committed, accepted, passing⟩

theorem evaluation_succeeds (read : Supervision.read ledgers manifest = .ok ledger)
    (evaluable : Evaluable (shedDeparted ledger manifest).1 (passClock ledgers)) :
    ∃ report ledgers', evaluateReminders ledgers manifest = .ok (report, ledgers') := by
  obtain ⟨hydrated, valid⟩ := read_eq_ok read
  have accepted : Accepted manifest (draftOf ledgers manifest ledger).ledger :=
    shedDeparted_accepted valid
  have stamps (id : String) (reminder : Reminder)
      (found : (draftOf ledgers manifest ledger).ledger.reminders[id]? = some reminder) :
      Readable reminder.nextDueAt :=
    (accepted.allowed id reminder found).2.2.2.2.2.2.1
  obtain ⟨⟨report, draft⟩, done, ready⟩ := evaluateBody_ready accepted.reminders
    (fun id reminder found => ⟨(accepted.allowed id reminder found).1, stamps id reminder found⟩)
    ⟨accepted.effects, accepted.sequenced⟩ evaluable
  have left : validate { draft.ledger with updatedAt := isoMillis ledgers.now } manifest = .ok () :=
    validate_iff.mpr (accepted_of_passed accepted ready.passing ready.sequenced
      fun id reminder found => evaluated_readable (stamps id reminder found)
        (evaluable.rearmable id reminder found))
  have published := liftRefusal_eq_ok.mpr left
  rw [draftOf] at done
  simp only [evaluateReminders, mutate, hydrated, ok_bind, done]
  split
  · simp only [publish, published, ok_bind]
    exact ⟨_, _, rfl⟩
  · exact ⟨_, _, rfl⟩

/-- Reminders fire once for each window. An evaluation of a ledger that obeys the rules goes through
when no strange effect stands under a window that is due, and whenever one goes through every reminder
that is due fires its window, once, and is re-armed past it. -/
theorem reminders_fire_once (read : Supervision.read ledgers manifest = .ok ledger) :
    (Evaluable (shedDeparted ledger manifest).1 (passClock ledgers) →
      ∃ report ledgers', evaluateReminders ledgers manifest = .ok (report, ledgers')) ∧
    ∀ report ledgers', evaluateReminders ledgers manifest = .ok (report, ledgers') →
      ∃ ledger', readForMutation ledgers' = .ok ledger' ∧
        FiresOnce manifest ledgers ledgers' ledger ledger' report := by
  refine ⟨evaluation_succeeds read, fun report ledgers' ran => ?_⟩
  obtain ⟨draft, done, committed, accepted, passing⟩ := evaluation_reminders read ran
  obtain ⟨ledger', reads, reminders, _⟩ := committed.reads
  have clocked : passClock ledgers < i64Max := passClock_lt
  have valid := (read_eq_ok read).2
  -- What the pass starts from, and what is stored after it.
  have begun (id : String) : (draftOf ledgers manifest ledger).ledger.reminders[id]? =
      if isShed ledger manifest id then none else ledger.reminders[id]? :=
    shedDeparted_reminders valid.reminders
  have left (id : String) : ledger'.reminders[id]? =
      (if isShed ledger manifest id then none else ledger.reminders[id]?).map
        (evaluated (passClock ledgers)) := by
    rw [reminders, ← begun id]
    exact (passing.reminders id).trans (if_neg List.not_mem_nil)
  have stays {id : String} {reminder : Reminder} (found : ledger.reminders[id]? = some reminder)
      (present : OwnersPresent manifest reminder) :
      (draftOf ledgers manifest ledger).ledger.reminders[id]? = some reminder ∧
        ledger'.reminders[id]? = some (evaluated (passClock ledgers) reminder) := by
    have unshed : ¬ isShed ledger manifest id = true :=
      fun shed => (isShed_eq_true found).mp shed present
    rw [begun id, left id, if_neg unshed, found]
    exact ⟨rfl, rfl⟩
  have readable (id : String) (after : Reminder) (found : ledger'.reminders[id]? = some after) :
      Readable after.nextDueAt := by
    rw [reminders] at found
    rcases committed.written with ⟨_, same, _⟩ | published
    · rw [same] at found
      exact (valid.allowed id after found).2.2.2.2.2.2.1
    · exact ((validate_iff.mp published.accepted).allowed id after found).2.2.2.2.2.2.1
  have effects (id : String) : effectAt ledgers' id = draft.ledger.effects[id]? :=
    committed.effectAt (evaluateBody_fires done).untouched id
  refine ⟨ledger', reads, ?_⟩
  constructor
  case fires =>
    intro id reminder found present due
    obtain ⟨started, after⟩ := stays found present
    have stamp := readable id _ after
    rw [evaluated_of_due due] at after stamp
    have small : dueAt reminder ≤ i64Max := Int.le_trans due.2 (Int.le_of_lt clocked)
    refine ⟨⟨_, after, rearmed_fired clocked small stamp⟩, ?_⟩
    rw [effects]
    exact passing.windows id reminder List.not_mem_nil started due
  case expires =>
    intro id reminder found present unarmed active
    rw [(stays found present).2, evaluated, if_neg (Bool.eq_false_iff.mp unarmed), if_pos active]
  case leaves =>
    intro id reminder found present quiet
    rw [(stays found present).2, evaluated_of_quiet quiet]
  case sheds =>
    intro id reminder found absent
    rw [left id, if_pos ((isShed_eq_true found).mpr absent)]
    rfl
  case arms =>
    intro id missing
    rw [left id, missing, ite_self]
    rfl
  case once => exact passing.nodup
  case enqueues =>
    intro effectId
    rw [passing.fired effectId, committed.start.2 effectId]
    refine and_congr_right fun _ => exists₂_congr fun id reminder => ?_
    rw [begun id]
    constructor
    · rintro ⟨_, found, due, named⟩
      split at found
      · cases found
      · rename_i unshed
        exact ⟨found, not_not.mp fun absent => unshed ((isShed_eq_true found).mpr absent), due, named⟩
    · rintro ⟨found, present, due, named⟩
      exact ⟨List.not_mem_nil, begun id ▸ (stays found present).1, due, named⟩
  case outbox =>
    intro effectId unfired
    rw [effects, ← committed.start.2 effectId]
    cases before : (draftOf ledgers manifest ledger).ledger.effects[effectId]? with
    | some effect => exact passing.kept effectId effect before
    | none =>
        by_contra stored
        obtain ⟨effect, stored⟩ := Option.ne_none_iff_exists'.mp stored
        exact unfired (passing.fresh effectId effect stored before)
  case apart =>
    intro id other reminder another found found' same
    rw [← (valid.allowed id reminder found).1, ← (valid.allowed other another found').1]
    exact (windowEffect_inj same).1
  case again =>
    have clock : passClock ledgers' = passClock ledgers := by
      rw [passClock, mutate_now ran, passClock]
    refine evaluate_quiet reads (fun id after found => ?_) (fun id after found => ?_)
    · have stored := (left id).symm.trans found
      obtain ⟨reminder, before, rfl⟩ := Option.map_eq_some_iff.mp stored
      split at before
      · cases before
      · rename_i unshed
        have same := evaluated_owners reminder (passClock ledgers)
        rw [OwnersPresent, same.2.1, same.2.2.1]
        exact not_not.mp fun absent => unshed ((isShed_eq_true before).mpr absent)
    · have stored := (left id).symm.trans found
      obtain ⟨reminder, _, rfl⟩ := Option.map_eq_some_iff.mp stored
      rw [clock]
      exact evaluated_quiet clocked (readable id _ found)

end Evaluating

/-! ### An overdue outbox -/

/-- A reminder of the worker of the small company. -/
def workerReminder (id : String) (due : Int) (recurring : Bool) : Reminder :=
  { id := id
    personId := "worker"
    createdByPersonId := "head"
    prompt := "Look again."
    intervalMs := 60000
    nextDueAt := isoMillis due
    status := "active"
    recurring := recurring
    createdAt := isoMillis 0 }

/-- A recurring reminder, a one-shot and one that has expired. -/
def overdueReminders : List Reminder :=
  [workerReminder "standup" 1000 true, workerReminder "call" 2000 false,
    { workerReminder "review" 9000000 true with expiresAt := some (isoMillis 3000) }]

/-- The outbox of the small company twenty minutes on, with the standup's window already enqueued. -/
def overdueOutbox : Ledgers :=
  let reminders := overdueReminders
  let standup := workerReminder "standup" 1000 true
  let effect := freshEffect (windowEffect standup) reminderEffectKind 1 (reminderPayload standup)
    (isoMillis 1000)
  put ((({ now := 1200000 : Ledgers }.putEffect effect.id (effectRow effect)).setCounter
      nextEffectSequenceCounter 2))
    { SupervisionLedger.initial smallCompany (isoMillis 0) with
      reminderOrder := reminders.map Reminder.id
      reminders := Std.ExtTreeMap.ofList (reminders.map fun reminder => (reminder.id, reminder)) }

theorem reminders_fire_once_overdue :
    ∃ ledger report ledgers' ledger', Supervision.read overdueOutbox smallCompany = .ok ledger ∧
      evaluateReminders overdueOutbox smallCompany = .ok (report, ledgers') ∧
      readForMutation ledgers' = .ok ledger' ∧
      FiresOnce smallCompany overdueOutbox ledgers' ledger ledger' report := by
  have reads : (Supervision.read overdueOutbox smallCompany).toOption.any (fun _ => true) = true := by
    decide +kernel
  have passes : (evaluateReminders overdueOutbox smallCompany).toOption.any (fun _ => true) = true := by
    decide +kernel
  obtain ⟨ledger, read, _⟩ := any_toOption.mp reads
  obtain ⟨⟨report, ledgers'⟩, ran, _⟩ := any_toOption.mp passes
  obtain ⟨ledger', left, fires⟩ := (reminders_fire_once read).2 report ledgers' ran
  exact ⟨ledger, report, ledgers', ledger', read, ran, left, fires⟩

/-- A window that was enqueued before is counted and enqueues nothing, a one-shot keeps its due time,
and a reminder that has expired is stopped although it is not due. -/
theorem enqueued_window_is_counted_again :
    ∃ ledger report ledgers' ledger', Supervision.read overdueOutbox smallCompany = .ok ledger ∧
      evaluateReminders overdueOutbox smallCompany = .ok (report, ledgers') ∧
      readForMutation ledgers' = .ok ledger' ∧
      (∃ before ∈ ledger.reminders["standup"]?, ∃ after ∈ ledger'.reminders["standup"]?,
        DueNow before (passClock overdueOutbox) ∧ windowEffect before ∉ report.fired ∧
          after.fireCount = before.fireCount + 1) ∧
      (∃ before ∈ ledger.reminders["call"]?, ∃ after ∈ ledger'.reminders["call"]?,
        DueNow before (passClock overdueOutbox) ∧ windowEffect before ∈ report.fired ∧
          dueAt after = dueAt before) ∧
      (∃ before ∈ ledger.reminders["review"]?, ∃ after ∈ ledger'.reminders["review"]?,
        ¬ DueNow before (passClock overdueOutbox) ∧ after ≠ before) := by
  have ran : (Supervision.read overdueOutbox smallCompany).toOption.any (fun ledger =>
      (evaluateReminders overdueOutbox smallCompany).toOption.any fun outcome =>
        (readForMutation outcome.2).toOption.any fun ledger' =>
          decide ((∃ before ∈ ledger.reminders["standup"]?, ∃ after ∈ ledger'.reminders["standup"]?,
            DueNow before (passClock overdueOutbox) ∧ windowEffect before ∉ outcome.1.fired ∧
              after.fireCount = before.fireCount + 1) ∧
          (∃ before ∈ ledger.reminders["call"]?, ∃ after ∈ ledger'.reminders["call"]?,
            DueNow before (passClock overdueOutbox) ∧ windowEffect before ∈ outcome.1.fired ∧
              dueAt after = dueAt before) ∧
          (∃ before ∈ ledger.reminders["review"]?, ∃ after ∈ ledger'.reminders["review"]?,
            ¬ DueNow before (passClock overdueOutbox) ∧ after ≠ before))) = true := by
    decide +kernel
  obtain ⟨ledger, read, ran⟩ := any_toOption.mp ran
  obtain ⟨⟨report, ledgers'⟩, evaluated, ran⟩ := any_toOption.mp ran
  obtain ⟨ledger', left, ran⟩ := any_toOption.mp ran
  exact ⟨ledger, report, ledgers', ledger', read, evaluated, left, of_decide_eq_true ran⟩

end Chief.Supervision
