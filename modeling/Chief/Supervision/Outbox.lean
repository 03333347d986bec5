/-
Module: Chief.Supervision.Outbox
Layer: Proofs
Purpose: The outbox as one sees it from outside: what is stored under an id, what reading and publishing
  do to it, and what one step of an effect is.
Trusted boundary: none
Main exports: effectAt, Hydrated, readForMutation_eq_ok, publish_eq_ok, mutate_eq_ok, EffectStep,
  Outbox
-/
import Chief.Supervision.Delivery
import Chief.Supervision.Reminders

namespace Chief.Supervision

open Foundation
open Activity (saturatingSucc u64Max i64Max)

/-! ### Reading -/

/-- The effect stored under `id`. -/
def effectAt (ledgers : Ledgers) (id : String) : Option Effect :=
  (ledgers.effects[id]?).bind fun row => row.body.value?

section Reading

variable {ledgers ledgers' : Ledgers} {document : SupervisionDocument} {ledger : SupervisionLedger}
  {id : String}

theorem nodup_effectOrder (ledgers : Ledgers) : ledgers.effectOrder.Nodup := by
  have keys : (ledgers.effects.toList.map Prod.fst).Nodup := by
    rw [Std.ExtTreeMap.map_fst_toList_eq_keys]
    exact Std.ExtTreeMap.nodup_keys
  have sorted := (List.perm_insertionSort Ledgers.rowBefore
    (ledgers.effects.toList.map fun entry => (entry.2.seq, entry.1))).map Prod.snd
  refine sorted.nodup_iff.mpr ?_
  rw [List.map_map]
  exact keys

theorem mem_effectOrder : id ∈ ledgers.effectOrder ↔ id ∈ ledgers.effects := by
  have sorted := (List.perm_insertionSort Ledgers.rowBefore
    (ledgers.effects.toList.map fun entry => (entry.2.seq, entry.1))).map Prod.snd
  rw [Ledgers.effectOrder, sorted.mem_iff, List.map_map, ← Std.ExtTreeMap.mem_keys,
    ← Std.ExtTreeMap.map_fst_toList_eq_keys]
  rfl

theorem hydrateEffect_eq_ok {entry : String × Effect} :
    hydrateEffect ledgers id = .ok entry ↔ entry.1 = id ∧ effectAt ledgers id = some entry.2 := by
  unfold hydrateEffect effectAt
  cases found : ledgers.effects[id]? with
  | none => simp
  | some row =>
      cases decoded : row.body with
      | undecodable => simp [decoded, DocumentBody.value?]
      | decoded effect =>
          simp only [decoded, DocumentBody.value?, Option.bind_some, Except.ok.injEq,
            Option.some.injEq]
          constructor
          · rintro rfl
            exact ⟨rfl, rfl⟩
          · rintro ⟨rfl, rfl⟩
            rfl

/-- What a ledger read from a working set holds. -/
structure Hydrated (document : SupervisionDocument) (ledgers : Ledgers)
    (ledger : SupervisionLedger) : Prop where
  document : ledger.toSupervisionDocument = document
  effects : ∀ id : String, ledger.effects[id]? = effectAt ledgers id
  decoded : ∀ id : String, id ∈ ledgers.effects → (effectAt ledgers id).isSome = true
  order : ledger.effectOrder = ledgers.effectOrder
  next : ledger.nextEffectSequence = nextSequenceOf (ledgers.counter nextEffectSequenceCounter)

theorem hydrate_eq_ok (read : hydrate document ledgers = .ok ledger) :
    Hydrated document ledgers ledger := by
  simp only [hydrate, bind_eq_ok, Except.ok.injEq] at read
  obtain ⟨entries, collected, rfl⟩ := read
  have keys : entries.map Prod.fst = ledgers.effectOrder := by
    have same := (mapM_eq_ok.mp collected).imp fun _ _ here => (hydrateEffect_eq_ok.mp here).1.symm
    rw [← List.forall₂_map_right_iff (f := Prod.fst)] at same
    exact (List.forall₂_eq_eq_eq ▸ same : ledgers.effectOrder = entries.map Prod.fst).symm
  have stored : ∀ entry ∈ entries, effectAt ledgers entry.1 = some entry.2 := by
    intro entry member
    obtain ⟨id, _, here⟩ := exists_of_mem_mapM collected member
    obtain ⟨rfl, found⟩ := hydrateEffect_eq_ok.mp here
    exact found
  have decoded : ∀ id : String, id ∈ ledgers.effects → ∃ effect, (id, effect) ∈ entries := by
    intro id member
    have listed : id ∈ entries.map Prod.fst := keys ▸ mem_effectOrder.mpr member
    obtain ⟨entry, here, rfl⟩ := List.mem_map.mp listed
    exact ⟨entry.2, here⟩
  refine ⟨rfl, fun id => ?_, fun id member => ?_, rfl, rfl⟩
  · by_cases member : id ∈ ledgers.effects
    · obtain ⟨effect, entry⟩ := decoded id member
      rw [stored _ entry]
      exact BTreeMap.getElem?_ofList_of_mem (keys ▸ nodup_effectOrder ledgers) entry
    · have absent : effectAt ledgers id = none := by
        rw [effectAt, Std.ExtTreeMap.getElem?_eq_none member]
        rfl
      rw [absent]
      by_contra found
      obtain ⟨effect, found⟩ := Option.ne_none_iff_exists'.mp found
      have entry := stored _ (BTreeMap.mem_of_getElem?_ofList found)
      rw [absent] at entry
      cases entry
  · obtain ⟨effect, entry⟩ := decoded id member
    rw [stored _ entry]
    rfl

theorem readForMutation_eq_ok (read : readForMutation ledgers = .ok ledger) :
    ∃ document, ledgers.supervision = some (.decoded document) ∧
      Hydrated document ledgers ledger := by
  unfold readForMutation at read
  split at read
  · cases read
  · cases read
  · rename_i document stored
    exact ⟨document, stored, hydrate_eq_ok read⟩

end Reading

/-! ### Publishing -/

section Publishing

variable {ledgers ledgers' : Ledgers} {manifest : OrganizationManifest} {ids : List String}
  {ledger : SupervisionLedger} {id : String}

theorem flushEffect_effects (ledger : SupervisionLedger) (ledgers : Ledgers) (id a : String) :
    (flushEffect ledger ledgers id).effects[a]? =
      if id = a then (ledger.effects[id]?).map effectRow else ledgers.effects[a]? := by
  unfold flushEffect
  cases ledger.effects[id]? with
  | none => exact BTreeMap.getElem?_erase
  | some effect => exact BTreeMap.getElem?_insert

/-- Flushing writes the rows it is asked for as the ledger has them, and no others. -/
theorem flush_effects (ids : List String) (ledgers : Ledgers) (id : String) :
    (ids.foldl (flushEffect ledger) ledgers).effects[id]? =
      if id ∈ ids then (ledger.effects[id]?).map effectRow else ledgers.effects[id]? := by
  induction ids generalizing ledgers with
  | nil => simp
  | cons first ids inductionHypothesis =>
      rw [List.foldl_cons, inductionHypothesis, flushEffect_effects]
      by_cases here : first = id
      · subst here
        simp
      · have other : id ∈ first :: ids ↔ id ∈ ids := by
          rw [List.mem_cons]
          exact or_iff_right (Ne.symm here)
        simp only [if_neg here, other]

/-- What no publication of this store writes. -/
structure SameElsewhere (before after : Ledgers) : Prop where
  mailbox : after.mailbox = before.mailbox
  hostActions : after.hostActions = before.hostActions
  activity : after.activity = before.activity

theorem SameElsewhere.refl (ledgers : Ledgers) : SameElsewhere ledgers ledgers := ⟨rfl, rfl, rfl⟩

theorem SameElsewhere.trans {first second third : Ledgers} (one : SameElsewhere first second)
    (two : SameElsewhere second third) : SameElsewhere first third :=
  ⟨two.mailbox.trans one.mailbox, two.hostActions.trans one.hostActions,
    two.activity.trans one.activity⟩

theorem flush_elsewhere (ids : List String) (ledgers : Ledgers) :
    SameElsewhere ledgers (ids.foldl (flushEffect ledger) ledgers) := by
  refine foldl_invariant (SameElsewhere ledgers) (fun s id _ same => same.trans ?_) (.refl ledgers)
  unfold flushEffect
  split <;> exact ⟨rfl, rfl, rfl⟩

/-- What a publication leaves. -/
structure Published (manifest : OrganizationManifest) (ids : List String)
    (ledger : SupervisionLedger) (before after : Ledgers) : Prop where
  accepted : validate ledger manifest = .ok ()
  document : after.supervision = some (.decoded ledger.toSupervisionDocument)
  effects : ∀ id : String, after.effects[id]? =
    if id ∈ ids then (ledger.effects[id]?).map effectRow else before.effects[id]?
  counter : ∀ name : String, after.counters[name]? =
    if nextEffectSequenceCounter = name then some (counterOf ledger.nextEffectSequence)
    else before.counters[name]?
  elsewhere : SameElsewhere before after

theorem publish_eq_ok (published : publish ledgers manifest ids ledger = .ok ledgers') :
    Published manifest ids ledger ledgers ledgers' := by
  simp only [publish, bind_eq_ok, liftRefusal_eq_ok, Except.ok.injEq] at published
  obtain ⟨_, accepted, rfl⟩ := published
  have elsewhere : SameElsewhere ledgers (ids.foldl (flushEffect ledger) ledgers) :=
    flush_elsewhere ids ledgers
  have counters : (ids.foldl (flushEffect ledger) ledgers).counters = ledgers.counters := by
    refine foldl_invariant (fun s : Ledgers => s.counters = ledgers.counters)
      (fun s id _ same => ?_) rfl
    unfold flushEffect
    split <;> exact same
  refine ⟨accepted, rfl, flush_effects ids ledgers, fun name => ?_,
    ⟨elsewhere.mailbox, elsewhere.hostActions, elsewhere.activity⟩⟩
  rw [← counters]
  exact BTreeMap.getElem?_insert

theorem Published.effectAt (published : Published manifest ids ledger ledgers ledgers')
    (id : String) : effectAt ledgers' id =
      if id ∈ ids then ledger.effects[id]? else effectAt ledgers id := by
  unfold Supervision.effectAt
  rw [published.effects id]
  by_cases touched : id ∈ ids
  · rw [if_pos touched, if_pos touched]
    cases ledger.effects[id]? <;> rfl
  · rw [if_neg touched, if_neg touched]

theorem Published.counterValue (published : Published manifest ids ledger ledgers ledgers') :
    ledgers'.counter nextEffectSequenceCounter = counterOf ledger.nextEffectSequence := by
  have here := published.counter nextEffectSequenceCounter
  rw [if_pos rfl] at here
  rw [Ledgers.counter, Std.ExtTreeMap.getD_eq_getD_getElem?, here]
  rfl

end Publishing

/-! ### Mutations -/

section Mutating

variable {ledgers ledgers' : Ledgers} {manifest : OrganizationManifest}
  {current ledger : SupervisionLedger}

/-- Shedding takes reminders out and touches nothing else. -/
structure Shed (manifest : OrganizationManifest) (before after : SupervisionLedger) : Prop where
  effects : after.effects = before.effects
  effectOrder : after.effectOrder = before.effectOrder
  next : after.nextEffectSequence = before.nextEffectSequence
  organization : after.organization = before.organization
  schemaVersion : after.schemaVersion = before.schemaVersion
  createdAt : after.createdAt = before.createdAt
  updatedAt : after.updatedAt = before.updatedAt

theorem shedDeparted_shed (ledger : SupervisionLedger) (manifest : OrganizationManifest) :
    Shed manifest ledger (shedDeparted ledger manifest).1 := by
  unfold shedDeparted
  refine foldl_invariant (Shed manifest ledger) (fun s id _ shed => ?_)
    ⟨rfl, rfl, rfl, rfl, rfl, rfl, rfl⟩
  exact ⟨shed.effects, shed.effectOrder, shed.next, shed.organization, shed.schemaVersion,
    shed.createdAt, shed.updatedAt⟩

/-- The draft a mutation hands to its body. -/
def draftOf (ledgers : Ledgers) (manifest : OrganizationManifest) (current : SupervisionLedger) :
    SupervisionDraft :=
  { ledger := (shedDeparted current manifest).1
    now := ledgers.now
    manifest := manifest
    touchedEffects := ∅ }

/-- A mutation that committed: the ledger it read, the draft its body left, and what was written. -/
structure Committed (ledgers : Ledgers) (manifest : OrganizationManifest)
    (current : SupervisionLedger) (draft : SupervisionDraft) (ledgers' : Ledgers) : Prop where
  read : readForMutation ledgers = .ok current
  written : (ledgers' = ledgers ∧ draft.ledger = current ∧ ∀ id : String, id ∉ draft.touchedEffects) ∨
    Published manifest draft.touchedEffects.toList
      { draft.ledger with updatedAt := isoMillis ledgers.now } ledgers ledgers'

theorem mutate_eq_ok {α : Type} {body : Body α} {result : α}
    (ran : mutate ledgers manifest body = .ok (result, ledgers')) :
    ∃ current draft, body (draftOf ledgers manifest current) (isoMillis ledgers.now) =
        .ok (result, draft) ∧ Committed ledgers manifest current draft ledgers' := by
  simp only [mutate, bind_eq_ok] at ran
  obtain ⟨current, read, ⟨result', draft⟩, done, ran⟩ := ran
  dsimp only at ran
  split at ran
  · simp only [bind_eq_ok, Except.ok.injEq, Prod.mk.injEq] at ran
    obtain ⟨written, published, rfl, rfl⟩ := ran
    exact ⟨current, draft, done, read, .inr (publish_eq_ok published)⟩
  · rename_i unchanged
    simp only [not_or, Bool.not_eq_true, ne_eq, not_not, Bool.not_eq_false] at unchanged
    simp only [Except.ok.injEq, Prod.mk.injEq] at ran
    obtain ⟨rfl, rfl⟩ := ran
    refine ⟨current, draft, done, read, .inl ⟨rfl, unchanged.1.2, fun id => ?_⟩⟩
    rw [Std.ExtTreeSet.isEmpty_iff.mp unchanged.2]
    exact Std.ExtTreeSet.not_mem_empty

end Mutating

/-! ### What a mutation may do to one effect -/

/-- An effect as it is enqueued: pending, with no failure and no reopen on record. -/
structure Fresh (effect : Effect) : Prop where
  status : effect.status = .pending
  failures : effect.deliveryFailureCount = none
  reopens : effect.reopenCount = none

/-- Who enqueued an effect, read off its kind and its payload. -/
inductive Origin (effect : Effect) : Prop where
  | reminder (reminder : Reminder) (kind : effect.kind = reminderEffectKind)
      (payload : effect.payload = reminderPayload reminder)
  | escalation (organization reason detail : String)
      (kind : effect.kind = reconcileEscalationEffectKind)
      (payload : effect.payload = reconcileEscalationPayload organization reason detail)

/-- What one mutation may do to one effect. -/
inductive EffectStep : Option Effect → Option Effect → Prop where
  | same (stored : Option Effect) : EffectStep stored stored
  | enqueued {effect : Effect} (fresh : Fresh effect) (origin : Origin effect) :
      EffectStep none (some effect)
  | delivered {effect : Effect} (stamp : String) (pending : effect.status = .pending) :
      EffectStep (some effect)
        (some { effect with status := .delivered, deliveredAt := some stamp })
  | failed {effect : Effect} (stamp : String) (pending : effect.status = .pending) :
      EffectStep (some effect) (some (failedOnce effect stamp))
  | reopened {effect : Effect} (stamp : String) (may : mayReopen effect = true) :
      EffectStep (some effect) (some (reopenEffect effect stamp))
  | rearmed {effect : Effect} (stamp organization reason detail : String)
      (may : mayReopen effect = true) :
      EffectStep (some effect) (some { reopenEffect effect stamp with
        payload := reconcileEscalationPayload organization reason detail })

/-- From `start` to `draft` every effect took a step, and the effects that changed are noted. -/
structure Outbox (step : Option Effect → Option Effect → Prop) (start draft : SupervisionDraft) :
    Prop where
  untouched : ∀ id : String, id ∉ draft.touchedEffects →
    draft.ledger.effects[id]? = start.ledger.effects[id]?
  effects : ∀ id : String, step start.ledger.effects[id]? draft.ledger.effects[id]?

section Bodies

variable {step : Option Effect → Option Effect → Prop} {start draft draft' : SupervisionDraft}
  {stamp id : String}

theorem Outbox.mono {step' : Option Effect → Option Effect → Prop}
    (outbox : Outbox step start draft) (weaker : ∀ {a b}, step a b → step' a b) :
    Outbox step' start draft :=
  ⟨outbox.untouched, fun id => weaker (outbox.effects id)⟩

/-- Effects nobody wrote took no step. -/
theorem Outbox.of_same (refl : ∀ stored, step stored stored)
    (same : draft.ledger.effects = start.ledger.effects) : Outbox step start draft := by
  refine ⟨fun id _ => by rw [same], fun id => ?_⟩
  rw [same]
  exact refl _

/-- Nothing has happened yet at the start. -/
theorem Outbox.untouchedStart (start : SupervisionDraft) : Outbox EffectStep start start :=
  Outbox.of_same .same rfl

theorem Outbox.congr (outbox : Outbox step start draft)
    (effects : draft'.ledger.effects = draft.ledger.effects)
    (touched : draft'.touchedEffects = draft.touchedEffects) : Outbox step start draft' := by
  refine ⟨fun id => ?_, fun id => ?_⟩
  · rw [effects, touched]
    exact outbox.untouched id
  · rw [effects]
    exact outbox.effects id

/-- Writing one effect is a step of that effect. -/
theorem Outbox.written {effect : Effect} (outbox : Outbox step start draft)
    (effects : draft'.ledger.effects = draft.ledger.effects.insert id effect)
    (touched : draft'.touchedEffects = draft.touchedEffects.insert id)
    (stepped : step start.ledger.effects[id]? (some effect)) : Outbox step start draft' := by
  constructor
  · intro other untouched
    rw [touched, Std.ExtTreeSet.mem_insert, not_or] at untouched
    have different : id ≠ other := by simpa using untouched.1
    rw [effects, BTreeMap.getElem?_insert, if_neg different]
    exact outbox.untouched other untouched.2
  · intro other
    rw [effects, BTreeMap.getElem?_insert]
    by_cases here : id = other
    · subst here
      rw [if_pos rfl]
      exact stepped
    · rw [if_neg here]
      exact outbox.effects other

/-- The only step of a delivery pass. -/
def DeliverStep (stamp : String) (before after : Option Effect) : Prop :=
  after = before ∨ ∃ effect, before = some effect ∧ effect.status = .pending ∧
    after = some { effect with status := .delivered, deliveredAt := some stamp }

theorem markDeliveredBody_outbox {ids delivered : List String}
    (ran : markDeliveredBody ids start stamp = .ok (delivered, draft)) :
    Outbox EffectStep start draft := by
  have passed : Outbox (DeliverStep stamp) start (ids.foldl (deliverNext stamp) ([], start)).2 := by
    refine foldl_invariant (fun s : List String × SupervisionDraft =>
      Outbox (DeliverStep stamp) start s.2) (fun s id _ outbox => ?_)
      (Outbox.of_same (fun _ => .inl rfl) rfl)
    unfold deliverNext applyEffectDelivered
    cases found : s.2.ledger.effects[id]? with
    | none => exact outbox
    | some effect =>
        by_cases pending : effect.status = .pending
        · simp only [pending, ne_eq, not_true_eq_false, if_false]
          refine outbox.written rfl rfl ?_
          have before := outbox.effects id
          rw [found] at before
          rcases before with same | ⟨_, _, _, delivered⟩
          · exact .inr ⟨effect, same.symm, pending, rfl⟩
          · rw [Option.some.inj delivered] at pending
            cases pending
        · simp only [ne_eq, pending, not_false_eq_true, if_true]
          exact outbox
  have left : (ids.foldl (deliverNext stamp) ([], start)).2 = draft :=
    congrArg Prod.snd (Except.ok.inj ran)
  rw [left] at passed
  refine passed.mono fun {a b} stepped => ?_
  rcases stepped with rfl | ⟨effect, rfl, pending, rfl⟩
  · exact .same _
  · exact .delivered stamp pending

theorem recordDeliveryFailureBody_outbox {status : EffectStatus}
    (ran : recordDeliveryFailureBody id start stamp = .ok (status, draft)) :
    Outbox EffectStep start draft ∧ ∀ effect, start.ledger.effects[id]? = some effect →
      effect.status = .pending → draft.ledger.effects[id]? = some (failedOnce effect stamp) := by
  unfold recordDeliveryFailureBody at ran
  cases found : start.ledger.effects[id]? with
  | none => simp [found] at ran
  | some effect =>
      simp only [found] at ran
      by_cases pending : effect.status = .pending
      · simp only [pending, ne_eq, not_true_eq_false, if_false, Except.ok.injEq,
          Prod.mk.injEq] at ran
        obtain ⟨_, rfl⟩ := ran
        constructor
        · refine (Outbox.untouchedStart start).written rfl rfl ?_
          rw [found]
          exact .failed stamp pending
        · intro stored same _
          obtain rfl := Option.some.inj same
          exact BTreeMap.getElem?_insert.trans (if_pos rfl)
      · simp only [ne_eq, pending, not_false_eq_true, if_true, Except.ok.injEq,
          Prod.mk.injEq] at ran
        obtain ⟨_, rfl⟩ := ran
        refine ⟨.of_same .same rfl, ?_⟩
        intro stored same impossible
        obtain rfl := Option.some.inj same
        exact absurd impossible pending

/-- Reopening distinct effects reopens each of them once. -/
theorem reopen_effects (stamp : String) {ids : List String} (nodup : ids.Nodup)
    (draft : SupervisionDraft) (id : String) :
    (ids.foldl (reopenNext stamp) draft).ledger.effects[id]? =
        (if id ∈ ids then (draft.ledger.effects[id]?).map (reopenEffect · stamp)
        else draft.ledger.effects[id]?) ∧
      (id ∈ (ids.foldl (reopenNext stamp) draft).touchedEffects ↔
        id ∈ ids ∨ id ∈ draft.touchedEffects) := by
  induction ids generalizing draft with
  | nil => simp
  | cons first ids inductionHypothesis =>
      obtain ⟨unlisted, nodup⟩ := List.nodup_cons.mp nodup
      have here : (reopenNext stamp draft first).ledger.effects[id]? =
          if first = id then (draft.ledger.effects[id]?).map (reopenEffect · stamp)
          else draft.ledger.effects[id]? := by
        unfold reopenNext
        by_cases same : first = id
        · subst same
          rw [if_pos rfl]
          cases found : draft.ledger.effects[first]? with
          | none => exact found
          | some effect => exact BTreeMap.getElem?_insert.trans (if_pos rfl)
        · rw [if_neg same]
          cases draft.ledger.effects[first]? with
          | none => rfl
          | some effect => exact BTreeMap.getElem?_insert.trans (if_neg same)
      have noted : id ∈ (reopenNext stamp draft first).touchedEffects ↔
          first = id ∨ id ∈ draft.touchedEffects := by
        unfold reopenNext
        cases draft.ledger.effects[first]? <;>
          simp [SupervisionDraft.touchEffect, SupervisionDraft.setEffect,
            Std.ExtTreeSet.mem_insert]
      obtain ⟨effects, touched⟩ := inductionHypothesis nodup (reopenNext stamp draft first)
      rw [List.foldl_cons, effects, touched, here, noted]
      simp only [List.mem_cons]
      constructor
      · by_cases same : first = id
        · subst same
          simp [unlisted]
        · simp [same, Ne.symm same]
      · tauto

theorem reopenFailedEffectsBody_outbox {reopened : List String}
    (nodup : start.ledger.effectOrder.Nodup)
    (ran : reopenFailedEffectsBody start stamp = .ok (reopened, draft)) :
    Outbox EffectStep start draft := by
  simp only [reopenFailedEffectsBody, Except.ok.injEq, Prod.mk.injEq] at ran
  obtain ⟨rfl, rfl⟩ := ran
  have distinct : (reopenCandidates start.ledger).Nodup := nodup.filter _
  have spec := reopen_effects stamp distinct start
  constructor
  · intro id untouched
    rw [(spec id).2, not_or] at untouched
    rw [(spec id).1, if_neg untouched.1]
  · intro id
    rw [(spec id).1]
    by_cases candidate : id ∈ reopenCandidates start.ledger
    · rw [if_pos candidate]
      obtain ⟨effect, found, may⟩ := (Option.any_eq_true _ _).mp (List.mem_filter.mp candidate).2
      rw [found]
      exact .reopened stamp may
    · rw [if_neg candidate]
      exact .same _

/-- Enqueueing leaves what is there and adds at most the one effect. -/
theorem enqueueEffect_eq_ok {kind : String} {payload : BTreeMap JsonValue} {enqueued : Bool}
    (ran : enqueueEffect draft id kind payload stamp = .ok (enqueued, draft')) :
    (enqueued = false ∧ draft' = draft ∧ ∃ effect, draft.ledger.effects[id]? = some effect ∧
      effect.payload = payload ∧ effect.kind = kind) ∨
    (enqueued = true ∧ draft.ledger.effects[id]? = none ∧ draft' = { draft with
      ledger := { draft.ledger with
        nextEffectSequence := saturatingSucc draft.ledger.nextEffectSequence
        effects := draft.ledger.effects.insert id
          (freshEffect id kind draft.ledger.nextEffectSequence payload stamp)
        effectOrder := draft.ledger.effectOrder ++ [id] }
      touchedEffects := draft.touchedEffects.insert id }) := by
  unfold enqueueEffect at ran
  cases found : draft.ledger.effects[id]? with
  | none =>
      simp only [found, Except.ok.injEq, Prod.mk.injEq] at ran
      exact .inr ⟨ran.1.symm, rfl, ran.2.symm⟩
  | some effect =>
      simp only [found] at ran
      split at ran
      · cases ran
      · rename_i agrees
        simp only [Except.ok.injEq, Prod.mk.injEq] at ran
        push Not at agrees
        exact .inl ⟨ran.1.symm, ran.2.symm, effect, rfl, agrees⟩

theorem enqueueReconcileEscalation_outbox {reason detail : String} {enqueued : Bool}
    (ran : enqueueReconcileEscalation id reason detail start stamp = .ok (enqueued, draft)) :
    Outbox EffectStep start draft := by
  unfold enqueueReconcileEscalation at ran
  cases found : start.ledger.effects[id]? with
  | some effect =>
      simp only [found] at ran
      split at ran
      · cases ran
        exact .of_same .same rfl
      · rename_i failed
        split at ran
        · cases ran
          exact .of_same .same rfl
        · rename_i spare
          simp only [Except.ok.injEq, Prod.mk.injEq] at ran
          obtain ⟨_, rfl⟩ := ran
          refine (Outbox.untouchedStart start).written rfl rfl ?_
          rw [found]
          refine .rearmed stamp _ _ _ ?_
          simp only [mayReopen, decide_eq_true_eq]
          exact ⟨not_not.mp failed, Nat.lt_of_not_le spare⟩
  | none =>
      simp only [found] at ran
      rcases enqueueEffect_eq_ok ran with ⟨_, rfl, effect, impossible, _⟩ | ⟨_, _, rfl⟩
      · rw [found] at impossible
        cases impossible
      · refine (Outbox.untouchedStart start).written rfl rfl ?_
        rw [found]
        exact .enqueued ⟨rfl, rfl, rfl⟩ (.escalation _ _ _ rfl rfl)

/-- The only step of a reminder pass. -/
def FireStep (before after : Option Effect) : Prop :=
  after = before ∨ before = none ∧ ∃ effect, after = some effect ∧ Fresh effect ∧ Origin effect

theorem fire_outbox {s s' : ReminderReport × SupervisionDraft} {reminder : Reminder} {now : Int}
    (outbox : Outbox FireStep start s.2) (ran : fire id reminder now stamp s = .ok s') :
    Outbox FireStep start s'.2 := by
  simp only [fire, bind_eq_ok] at ran
  obtain ⟨⟨enqueued, middle⟩, ran, done⟩ := ran
  simp only [Except.ok.injEq] at done
  subst done
  rcases enqueueEffect_eq_ok ran with ⟨_, rfl, _⟩ | ⟨_, absent, rfl⟩
  · exact outbox.congr rfl rfl
  · refine outbox.written rfl rfl ?_
    have before := outbox.effects (reminderEffectId reminder
      ((parseIsoMillis reminder.nextDueAt).getD now))
    rw [absent] at before
    rcases before with same | ⟨none, _⟩
    · rw [← same]
      exact .inr ⟨rfl, _, rfl, ⟨rfl, rfl, rfl⟩, .reminder reminder rfl rfl⟩
    · rw [none]
      exact .inr ⟨rfl, _, rfl, ⟨rfl, rfl, rfl⟩, .reminder reminder rfl rfl⟩

theorem evaluateBody_fires {report : ReminderReport}
    (ran : evaluateBody start stamp = .ok (report, draft)) : Outbox FireStep start draft := by
  refine foldlM_invariant (fun s : ReminderReport × SupervisionDraft =>
    Outbox FireStep start s.2) (fun s id _ s' ran outbox => ?_) ran
    (Outbox.of_same (fun _ => .inl rfl) rfl)
  unfold fireIfDue at ran
  split at ran
  · cases ran
    exact outbox
  · split at ran
    · split at ran
      · cases ran
        exact outbox
      · exact fire_outbox outbox ran
    · split at ran
      · cases ran
        exact outbox.congr rfl rfl
      · cases ran
        exact outbox

theorem evaluateBody_outbox {report : ReminderReport}
    (ran : evaluateBody start stamp = .ok (report, draft)) : Outbox EffectStep start draft := by
  refine (evaluateBody_fires ran).mono fun {a b} stepped => ?_
  rcases stepped with rfl | ⟨rfl, effect, rfl, fresh, origin⟩
  · exact .same _
  · exact .enqueued fresh origin

theorem armReminderBody_effects {request : ArmRequest} {reminder : Reminder}
    (ran : armReminderBody request start stamp = .ok (reminder, draft)) :
    draft.ledger.effects = start.ledger.effects ∧ draft.ledger.nextEffectSequence =
      start.ledger.nextEffectSequence := by
  simp only [armReminderBody, bind_eq_ok] at ran
  obtain ⟨_, _, _, _, _, _, _, _, _, _, ran⟩ := ran
  split at ran
  · cases ran
    exact ⟨rfl, rfl⟩
  · simp only [bind_eq_ok, Except.ok.injEq, Prod.mk.injEq] at ran
    obtain ⟨_, _, _, rfl⟩ := ran
    exact ⟨rfl, rfl⟩

theorem stopReminderBody_effects {actor person reminderId : String} {reminder : Reminder}
    (ran : stopReminderBody actor person reminderId start stamp = .ok (reminder, draft)) :
    draft.ledger.effects = start.ledger.effects ∧ draft.ledger.nextEffectSequence =
      start.ledger.nextEffectSequence := by
  simp only [stopReminderBody, bind_eq_ok] at ran
  obtain ⟨_, _, ran⟩ := ran
  split at ran
  · cases ran
  · split at ran <;> cases ran <;> exact ⟨rfl, rfl⟩

end Bodies

end Chief.Supervision
