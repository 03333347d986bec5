/-
Module: Chief.Supervision.Sequences
Layer: Proofs
Purpose: Effect sequences are never reused, across mutations, documents taken in and deletions, and the
  rules across stores refuse such a working set exactly when a sequence has left the counter's range.
Trusted boundary: none
Main exports: validateNonDocuments_iff, OrderedEffects, Grows, Event, sequences_never_reused
-/
import Chief.Supervision.Ingest
import Chief.Supervision.Runs

namespace Chief.Supervision

open Foundation
open Activity (saturatingSucc u64Max i64Max)

/-! ### The rules across stores -/

/-- The rules about host actions and mailbox rows, which this store never writes. -/
def ElsewhereValid (ledgers : Ledgers) : Prop :=
  (∀ entry ∈ ledgers.hostActions.toList,
    Ledgers.validateHostAction entry.1 entry.2 = .ok ()) ∧
  ∀ entry ∈ ledgers.mailbox.toList, Ledgers.validateMailboxRow entry.1 entry.2 = .ok ()

/-- The sequences of the stored rows. -/
def rowSequences (ledgers : Ledgers) : List Nat := ledgers.effects.toList.map fun entry => entry.2.seq

theorem countSequence_ok {entries : List (String × EffectRow)} {seen counted : List Nat} :
    entries.foldlM Ledgers.countSequence seen = .ok counted ↔
      ((entries.map fun entry => entry.2.seq).Nodup ∧
        ∀ n ∈ entries.map fun entry => entry.2.seq, n ∉ seen) ∧
      counted = (entries.map fun entry => entry.2.seq).reverse ++ seen := by
  induction entries generalizing seen with
  | nil =>
      simp only [List.foldlM_nil, List.map_nil, List.nodup_nil, List.not_mem_nil, false_imp_iff,
        implies_true, and_self, true_and, List.reverse_nil, List.nil_append]
      constructor
      · intro done
        cases done
        rfl
      · rintro rfl
        rfl
  | cons entry entries inductionHypothesis =>
      rw [List.foldlM_cons, bind_eq_ok]
      simp only [Ledgers.countSequence, bind_eq_ok, require_eq_ok, Except.ok.injEq,
        List.map_cons, List.nodup_cons, List.mem_cons, forall_eq_or_imp, List.reverse_cons,
        List.append_assoc, List.singleton_append]
      constructor
      · rintro ⟨_, ⟨_, fresh, rfl⟩, rest⟩
        obtain ⟨⟨nodup, unseen⟩, rfl⟩ := inductionHypothesis.mp rest
        refine ⟨⟨⟨fun again => (unseen _ again) List.mem_cons_self, nodup⟩, fresh, ?_⟩, rfl⟩
        intro n member seen
        exact unseen n member (List.mem_cons_of_mem _ seen)
      · rintro ⟨⟨⟨single, nodup⟩, fresh, unseen⟩, rfl⟩
        refine ⟨entry.2.seq :: seen, ⟨(), fresh, rfl⟩, inductionHypothesis.mpr ⟨⟨nodup, ?_⟩, rfl⟩⟩
        intro n member seen
        rcases List.mem_cons.mp seen with rfl | older
        · exact single member
        · exact unseen n member older

/-- The highest of some sequences is below a bound exactly when each of them is. -/
theorem highestSequence_lt {seen : List Nat} {bound : Nat} (positive : 0 < bound) :
    Ledgers.highestSequence seen < bound ↔ ∀ n ∈ seen, n < bound := by
  have folded (start : Nat) : seen.foldl max start < bound ↔ start < bound ∧ ∀ n ∈ seen, n < bound := by
    induction seen generalizing start with
    | nil => simp
    | cons n seen inductionHypothesis =>
        rw [List.foldl_cons, inductionHypothesis, List.forall_mem_cons, max_lt_iff, and_assoc]
  rw [Ledgers.highestSequence, folded]
  exact and_iff_right positive

/-- What the rules across stores ask for, with the counter in range. -/
theorem validateNonDocuments_iff {ledgers : Ledgers}
    (counted : nextEffectSequenceCounter ∈ ledgers.counters) :
    ledgers.validateNonDocuments = .ok () ↔ ElsewhereValid ledgers ∧ (rowSequences ledgers).Nodup ∧
      min (Ledgers.highestSequence (rowSequences ledgers).reverse : Int) i64Max <
        ledgers.counter nextEffectSequenceCounter := by
  simp only [Ledgers.validateNonDocuments, bind_eq_ok, require_eq_ok, countSequence_ok, counted,
    or_true, true_and, not_le, List.append_nil, List.not_mem_nil, not_false_eq_true, implies_true,
    and_true]
  constructor
  · rintro ⟨_, actions, _, ⟨nodup, rfl⟩, _, ahead, rows⟩
    exact ⟨⟨forM_eq_ok.mp actions, forM_eq_ok.mp rows⟩, nodup, ahead⟩
  · rintro ⟨⟨actions, rows⟩, nodup, ahead⟩
    exact ⟨(), forM_eq_ok.mpr actions, _, ⟨nodup, rfl⟩, (), ahead, forM_eq_ok.mpr rows⟩

theorem ElsewhereValid.of_same {before after : Ledgers} (valid : ElsewhereValid before)
    (same : SameElsewhere before after) : ElsewhereValid after := by
  unfold ElsewhereValid at *
  rw [same.hostActions, same.mailbox]
  exact valid

/-! ### The order of a valid ledger -/

/-- The effects of a ledger that obeys the rules: the order lists them, each under its own id, and their
sequences are distinct, positive and below the next one. -/
structure OrderedEffects (ledger : SupervisionLedger) : Prop where
  listed : ∀ id : String, id ∈ ledger.effectOrder ↔ id ∈ ledger.effects
  below : ∀ (id : String) (effect : Effect), ledger.effects[id]? = some effect →
    effect.sequence < ledger.nextEffectSequence
  distinct : ∀ (a b : String) (e f : Effect), ledger.effects[a]? = some e →
    ledger.effects[b]? = some f → e.sequence = f.sequence → a = b

section Ordered

variable {ledger : SupervisionLedger} {manifest : OrganizationManifest}

theorem validateEffect_eq_ok {previous last : Nat} {id : String}
    (ran : validateEffect ledger previous id = .ok last) :
    ∃ effect, ledger.effects[id]? = some effect ∧ effect.sequence = last ∧ previous < last := by
  unfold validateEffect at ran
  split at ran
  · cases ran
  · rename_i effect found
    simp only [bind_eq_ok, require_eq_ok, Except.ok.injEq, not_or, not_not, not_le] at ran
    obtain ⟨_, ⟨_, above⟩, rfl⟩ := ran
    exact ⟨effect, found, rfl, above⟩

theorem validateEffects_eq_ok {order : List String} {previous last : Nat}
    (ran : order.foldlM (validateEffect ledger) previous = .ok last) :
    previous ≤ last ∧
      (∀ id ∈ order, ∃ effect, ledger.effects[id]? = some effect ∧ previous < effect.sequence ∧
        effect.sequence ≤ last) ∧
      ∀ a ∈ order, ∀ b ∈ order, ∀ e f : Effect, ledger.effects[a]? = some e →
        ledger.effects[b]? = some f → e.sequence = f.sequence → a = b := by
  induction order generalizing previous with
  | nil =>
      cases ran
      exact ⟨Nat.le_refl _, fun _ member => absurd member List.not_mem_nil,
        fun _ member => absurd member List.not_mem_nil⟩
  | cons first order inductionHypothesis =>
      rw [List.foldlM_cons, bind_eq_ok] at ran
      obtain ⟨middle, here, rest⟩ := ran
      obtain ⟨effect, found, rfl, above⟩ := validateEffect_eq_ok here
      obtain ⟨grown, later, distinct⟩ := inductionHypothesis rest
      refine ⟨by omega, ?_, ?_⟩
      · intro id member
        rcases List.mem_cons.mp member with rfl | further
        · exact ⟨effect, found, above, grown⟩
        · obtain ⟨other, found', higher, lower⟩ := later id further
          exact ⟨other, found', by omega, lower⟩
      · have apart : ∀ b ∈ order, ∀ f : Effect, ledger.effects[b]? = some f →
            effect.sequence ≠ f.sequence := by
          intro b member f found' same
          obtain ⟨other, found'', higher, _⟩ := later b member
          rw [found'] at found''
          obtain rfl := Option.some.inj found''
          omega
        intro a memberA b memberB e f foundA foundB same
        rcases List.mem_cons.mp memberA with rfl | furtherA
        · rw [found] at foundA
          obtain rfl := Option.some.inj foundA
          rcases List.mem_cons.mp memberB with rfl | furtherB
          · rfl
          · exact absurd same (apart b furtherB f foundB)
        · rcases List.mem_cons.mp memberB with rfl | furtherB
          · rw [found] at foundB
            obtain rfl := Option.some.inj foundB
            exact absurd same.symm (apart a furtherA e foundA)
          · exact distinct a furtherA b furtherB e f foundA foundB same

theorem orderedEffects_of_validate (accepted : validate ledger manifest = .ok ()) :
    OrderedEffects ledger := by
  simp only [validate, uniqueOrder, bind_eq_ok, require_eq_ok] at accepted
  obtain ⟨_, _, _, _, _, unique, _, _, _, _, last, ordered, ahead⟩ := accepted
  have lists := BTreeMap.lists_iff.mpr unique
  obtain ⟨_, each, distinct⟩ := validateEffects_eq_ok ordered
  refine ⟨lists.mem_iff, ?_, ?_⟩
  · intro id effect found
    obtain ⟨other, found', _, lower⟩ := each id
      ((lists.mem_iff id).mpr (BTreeMap.mem_of_getElem? found))
    rw [found] at found'
    obtain rfl := Option.some.inj found'
    omega
  · intro a b e f foundA foundB
    exact distinct a ((lists.mem_iff a).mpr (BTreeMap.mem_of_getElem? foundA)) b
      ((lists.mem_iff b).mpr (BTreeMap.mem_of_getElem? foundB)) e f foundA foundB

end Ordered

/-! ### Growth -/

/-- From `start` to `ledger` the counter did not fall, what was there kept its sequence, and what is new
has one the counter of `start` had not reached. -/
structure Grows (start ledger : SupervisionLedger) : Prop where
  next : start.nextEffectSequence ≤ ledger.nextEffectSequence
  effects : ∀ (id : String) (effect : Effect), ledger.effects[id]? = some effect →
    (∃ old, start.effects[id]? = some old ∧ effect.sequence = old.sequence) ∨
      (start.effects[id]? = none ∧ start.nextEffectSequence ≤ effect.sequence)

theorem Grows.refl (ledger : SupervisionLedger) : Grows ledger ledger :=
  ⟨Nat.le_refl _, fun _ effect found => .inl ⟨effect, found, rfl⟩⟩

/-- Growth along a draft that loses no effect and whose counter stays a `u64`. -/
structure Issues (start : SupervisionLedger) (draft : SupervisionDraft) : Prop where
  grows : Grows start draft.ledger
  kept : ∀ id : String, id ∈ start.effects → id ∈ draft.ledger.effects
  small : draft.ledger.nextEffectSequence ≤ u64Max

section Issues

variable {start : SupervisionLedger} {draft draft' : SupervisionDraft} {id stamp : String}

theorem Issues.congr (issues : Issues start draft)
    (effects : draft'.ledger.effects = draft.ledger.effects)
    (next : draft'.ledger.nextEffectSequence = draft.ledger.nextEffectSequence) :
    Issues start draft' := by
  refine ⟨⟨?_, ?_⟩, ?_, ?_⟩
  · rw [next]
    exact issues.grows.next
  · rw [effects]
    exact issues.grows.effects
  · rw [effects]
    exact issues.kept
  · rw [next]
    exact issues.small

/-- Writing over an effect keeps its sequence. -/
theorem Issues.setEffect {old effect : Effect} (issues : Issues start draft)
    (found : draft.ledger.effects[id]? = some old) (same : effect.sequence = old.sequence) :
    Issues start (draft.setEffect id effect) := by
  refine ⟨⟨issues.grows.next, ?_⟩, ?_, issues.small⟩
  · intro other effect' found'
    rw [show (draft.setEffect id effect).ledger.effects = draft.ledger.effects.insert id effect
      from rfl, BTreeMap.getElem?_insert] at found'
    split at found'
    · rename_i here
      subst here
      obtain rfl := Option.some.inj found'
      rw [same]
      exact issues.grows.effects _ old found
    · exact issues.grows.effects other effect' found'
  · intro other member
    exact Std.ExtTreeMap.mem_insert.mpr (.inr (issues.kept other member))

/-- An enqueued effect takes the next sequence, and the counter moves on. -/
theorem Issues.enqueued {kind : String} {payload : BTreeMap JsonValue} {enqueued : Bool}
    (issues : Issues start draft)
    (ran : enqueueEffect draft id kind payload stamp = .ok (enqueued, draft')) :
    Issues start draft' := by
  rcases enqueueEffect_eq_ok ran with ⟨_, rfl, _⟩ | ⟨_, absent, rfl⟩
  · exact issues
  · have grown := issues.grows.next
    have small := issues.small
    refine ⟨⟨?_, ?_⟩, ?_, ?_⟩
    · simp only [saturatingSucc]
      omega
    · intro other effect found
      simp only [BTreeMap.getElem?_insert] at found
      split at found
      · rename_i here
        subst here
        obtain rfl := Option.some.inj found
        refine .inr ⟨?_, grown⟩
        by_contra known
        have lost := issues.kept id (Std.ExtTreeMap.isSome_getElem?_iff_mem.mp
          (Option.isSome_iff_ne_none.mpr known))
        rw [BTreeMap.mem_iff_getElem?, absent] at lost
        obtain ⟨_, impossible⟩ := lost
        cases impossible
      · exact issues.grows.effects other effect found
    · intro other member
      exact Std.ExtTreeMap.mem_insert.mpr (.inr (issues.kept other member))
    · simp only [saturatingSucc]
      omega

theorem failedOnce_sequence (effect : Effect) (stamp : String) :
    (failedOnce effect stamp).sequence = effect.sequence := by
  dsimp only [failedOnce]
  split <;> rfl

/-- Every operation issues sequences from the counter on. -/
theorem Operation.Leaves.issues {op : Operation} {begun : SupervisionDraft}
    (leaves : op.Leaves begun draft stamp)
    (small : begun.ledger.nextEffectSequence ≤ u64Max) : Issues begun.ledger draft := by
  have starts : Issues begun.ledger begun := ⟨.refl _, fun _ member => member, small⟩
  cases op with
  | markDelivered ids =>
      obtain ⟨delivered, done⟩ := leaves
      have left : (ids.foldl (deliverNext stamp) ([], begun)).2 = draft :=
        congrArg Prod.snd (Except.ok.inj done)
      rw [← left]
      refine foldl_invariant (fun s : List String × SupervisionDraft => Issues begun.ledger s.2)
        (fun s id _ issues => ?_) starts
      unfold deliverNext applyEffectDelivered
      cases found : s.2.ledger.effects[id]? with
      | none => exact issues
      | some effect =>
          by_cases pending : effect.status = .pending
          · simp only [pending, ne_eq, not_true_eq_false, if_false]
            exact issues.setEffect found rfl
          · simp only [ne_eq, pending, not_false_eq_true, if_true]
            exact issues
  | recordDeliveryFailure id =>
      obtain ⟨status, done⟩ := leaves
      unfold recordDeliveryFailureBody at done
      split at done
      · cases done
      · rename_i effect found
        split at done
        · cases done
          exact starts
        · cases done
          exact starts.setEffect found (failedOnce_sequence effect stamp)
  | reopenFailedEffects =>
      obtain ⟨reopened, done⟩ := leaves
      simp only [reopenFailedEffectsBody, Except.ok.injEq, Prod.mk.injEq] at done
      rw [← done.2]
      refine foldl_invariant (Issues begun.ledger) (fun s id _ issues => ?_) starts
      unfold reopenNext
      split
      · exact issues.congr rfl rfl
      · rename_i effect found
        exact issues.setEffect found rfl
  | enqueueReconcileEscalation id reason detail =>
      obtain ⟨enqueued, done⟩ := leaves
      unfold Supervision.enqueueReconcileEscalation at done
      dsimp only at done
      split at done
      · rename_i effect found
        split at done
        · cases done
          exact starts
        · split at done
          · cases done
            exact starts
          · cases done
            exact starts.setEffect found rfl
      · exact starts.enqueued done
  | evaluateReminders =>
      obtain ⟨report, done⟩ := leaves
      refine foldlM_invariant (fun s : ReminderReport × SupervisionDraft =>
        Issues begun.ledger s.2) (fun s id _ s' ran issues => ?_) done starts
      unfold fireIfDue at ran
      split at ran
      · cases ran
        exact issues
      · split at ran
        · split at ran
          · cases ran
            exact issues
          · simp only [fire, bind_eq_ok, Except.ok.injEq] at ran
            obtain ⟨⟨enqueued, middle⟩, ran, rfl⟩ := ran
            exact (issues.enqueued ran).congr rfl rfl
        · split at ran <;> cases ran
          · exact issues.congr rfl rfl
          · exact issues
  | armReminder request =>
      obtain ⟨_, done⟩ := leaves
      exact starts.congr (armReminderBody_effects done).1 (armReminderBody_effects done).2
  | stopReminder actor person id =>
      obtain ⟨_, done⟩ := leaves
      exact starts.congr (stopReminderBody_effects done).1 (stopReminderBody_effects done).2
  | heal =>
      obtain rfl := leaves
      exact starts

end Issues

/-! ### Documents taken in -/

section Ingest

variable {current incoming merged : SupervisionLedger} {race : Race}

/-- What a race that passed says about one incoming effect. -/
def Explained (current : SupervisionLedger) (race : Race) (id : String) (effect : Effect) : Prop :=
  (∃ old, current.effects[id]? = some old ∧ (effect.sequence = old.sequence ∨ id ∈ race.kept)) ∨
    (current.effects[id]? = none ∧
      (id ∈ race.resequenced ∨ current.nextEffectSequence ≤ effect.sequence))

/-- A race only grows while effects are looked at. -/
structure RaceGrows (before after : Race) : Prop where
  kept : ∀ id ∈ before.kept, id ∈ after.kept
  resequenced : ∀ id ∈ before.resequenced, id ∈ after.resequenced

theorem Explained.mono {race' : Race} {id : String} {effect : Effect}
    (explained : Explained current race id effect) (grows : RaceGrows race race') :
    Explained current race' id effect := by
  rcases explained with ⟨old, found, same | kept⟩ | ⟨absent, moved | ahead⟩
  · exact .inl ⟨old, found, .inl same⟩
  · exact .inl ⟨old, found, .inr (grows.kept id kept)⟩
  · exact .inr ⟨absent, .inl (grows.resequenced id moved)⟩
  · exact .inr ⟨absent, .inr ahead⟩

/-- A race whose resequenced effects are unknown to the store and come with something kept. -/
structure RaceSound (current : SupervisionLedger) (race : Race) : Prop where
  unknown : ∀ id ∈ race.resequenced, current.effects[id]? = none
  collided : race.kept = [] → race.resequenced = []

theorem classify_eq_ok {race' : Race} {entry : String × Effect}
    (ran : classify current race entry = .ok race') (sound : RaceSound current race) :
    RaceGrows race race' ∧ RaceSound current race' ∧
      Explained current race' entry.1 entry.2 := by
  unfold classify at ran
  dsimp only at ran
  split at ran
  · rename_i old found
    split at ran
    · cases ran
      refine ⟨⟨fun id member => List.mem_append_left _ member, fun id member => member⟩,
        ⟨sound.unknown, fun impossible => ?_⟩, .inl ⟨old, found, .inr ?_⟩⟩
      · simp at impossible
      · simp
    · rename_i agrees
      cases ran
      exact ⟨⟨fun _ member => member, fun _ member => member⟩, sound,
        .inl ⟨old, found, .inl (not_not.mp agrees).symm⟩⟩
  · rename_i absent
    split at ran
    · cases ran
      refine ⟨⟨fun id member => List.mem_append_left _ member,
        fun id member => List.mem_append_left _ member⟩, ⟨?_, fun impossible => ?_⟩,
        .inr ⟨absent, .inl (by simp)⟩⟩
      · intro id member
        rcases List.mem_append.mp member with older | here
        · exact sound.unknown id older
        · rw [List.mem_singleton.mp here]
          exact absent
      · simp at impossible
    · split at ran
      · cases ran
      · rename_i ahead
        cases ran
        exact ⟨⟨fun _ member => member, fun _ member => member⟩, sound,
          .inr ⟨absent, .inr (Nat.le_of_not_lt ahead)⟩⟩

/-- A race that looked at every effect explains each of them. -/
theorem classify_all {entries : List (String × Effect)} {start last : Race}
    (ran : entries.foldlM (classify current) start = .ok last) (sound : RaceSound current start) :
    RaceGrows start last ∧ RaceSound current last ∧
      ∀ entry ∈ entries, Explained current last entry.1 entry.2 := by
  induction entries generalizing start with
  | nil =>
      cases ran
      exact ⟨⟨fun _ member => member, fun _ member => member⟩, sound,
        fun _ member => absurd member List.not_mem_nil⟩
  | cons entry entries inductionHypothesis =>
      rw [List.foldlM_cons, bind_eq_ok] at ran
      obtain ⟨middle, here, rest⟩ := ran
      obtain ⟨grows, soundMiddle, explained⟩ := classify_eq_ok here sound
      obtain ⟨grows', soundLast, later⟩ := inductionHypothesis rest soundMiddle
      refine ⟨⟨fun id member => grows'.kept id (grows.kept id member),
        fun id member => grows'.resequenced id (grows.resequenced id member)⟩, soundLast, ?_⟩
      intro other member
      rcases List.mem_cons.mp member with rfl | further
      · exact explained.mono grows'
      · exact later other further

theorem checkedSucc_eq_ok {n m : Nat} (ran : checkedSucc n = .ok m) : m = n + 1 := by
  unfold checkedSucc at ran
  split at ran
  · exact (Except.ok.inj ran).symm
  · cases ran

theorem skipUsed_le {used : List Nat} {fuel next free : Nat}
    (ran : skipUsed used fuel next = .ok free) : next ≤ free := by
  induction fuel generalizing next with
  | zero => exact Nat.le_of_eq (Except.ok.inj ran)
  | succ fuel inductionHypothesis =>
      unfold skipUsed at ran
      split at ran
      · rw [bind_eq_ok] at ran
        obtain ⟨later, stepped, rest⟩ := ran
        have grown := inductionHypothesis rest
        rw [checkedSucc_eq_ok stepped] at grown
        omega
      · exact Nat.le_of_eq (Except.ok.inj ran)

/-- What the resequencing of some ids does: nothing to the others, and these end up at `base` or
above. -/
structure Resequenced (race : Race) (base : Nat) (ids : List String) (before after : Resequencing) :
    Prop where
  next : base ≤ after.next
  others : ∀ id : String, id ∉ race.resequenced → after.effects[id]? = before.effects[id]?
  moved : ∀ (id : String) (effect : Effect), after.effects[id]? = some effect →
    (before.effects[id]? = some effect ∧ (id ∈ ids → id ∉ race.resequenced)) ∨
      (id ∈ race.resequenced ∧ base ≤ effect.sequence)

theorem resequence_all {base : Nat} {ids : List String} {before after : Resequencing}
    (ran : ids.foldlM (resequence race) before = .ok after) (above : base ≤ before.next) :
    Resequenced race base ids before after := by
  induction ids generalizing before with
  | nil =>
      cases ran
      exact ⟨above, fun _ _ => rfl, fun id effect found =>
        .inl ⟨found, fun member => absurd member List.not_mem_nil⟩⟩
  | cons first ids inductionHypothesis =>
      rw [List.foldlM_cons, bind_eq_ok] at ran
      obtain ⟨middle, here, rest⟩ := ran
      unfold resequence at here
      split at here
      · rename_i lost
        rw [bind_eq_ok] at here
        obtain ⟨free, skipped, here⟩ := here
        have higher := skipUsed_le skipped
        split at here
        · rename_i absent
          cases here
          have later := inductionHypothesis rest (show base ≤ free by omega)
          refine ⟨later.next, later.others, fun id effect found => ?_⟩
          rcases later.moved id effect found with ⟨old, unmoved⟩ | moved
          · refine .inl ⟨old, fun member => ?_⟩
            rcases List.mem_cons.mp member with rfl | further
            · rw [absent] at old
              cases old
            · exact unmoved further
          · exact .inr moved
        · rename_i old found
          rw [bind_eq_ok] at here
          obtain ⟨succ, stepped, here⟩ := here
          cases here
          have later := inductionHypothesis rest
            (show base ≤ succ by rw [checkedSucc_eq_ok stepped]; omega)
          refine ⟨later.next, fun id kept => ?_, fun id effect found' => ?_⟩
          · rw [later.others id kept]
            exact BTreeMap.getElem?_insert.trans
              (if_neg fun same : first = id => kept (same ▸ lost))
          · rcases later.moved id effect found' with ⟨stored, unmoved⟩ | moved
            · rw [BTreeMap.getElem?_insert] at stored
              split at stored
              · rename_i same
                subst same
                obtain rfl := Option.some.inj stored
                exact .inr ⟨lost, show base ≤ free by omega⟩
              · rename_i different
                refine .inl ⟨stored, fun member => ?_⟩
                rcases List.mem_cons.mp member with rfl | further
                · exact absurd rfl different
                · exact unmoved further
            · exact .inr moved
      · rename_i kept
        cases here
        have later := inductionHypothesis rest above
        refine ⟨later.next, later.others, fun id effect found => ?_⟩
        rcases later.moved id effect found with ⟨old, unmoved⟩ | moved
        · refine .inl ⟨old, fun member => ?_⟩
          rcases List.mem_cons.mp member with rfl | further
          · exact kept
          · exact unmoved further
        · exact .inr moved

/-- Putting effects of the store back gives each of them its stored record and leaves the others. -/
theorem restore_effects (ids : List String) (incoming : SupervisionLedger) (id : String) :
    (ids.foldl (restoreEffect current) incoming).effects[id]? =
      (if id ∈ ids then (current.effects[id]?).or incoming.effects[id]?
      else incoming.effects[id]?) ∧
    (ids.foldl (restoreEffect current) incoming).nextEffectSequence =
      incoming.nextEffectSequence := by
  induction ids generalizing incoming with
  | nil => simp
  | cons first ids inductionHypothesis =>
      rw [List.foldl_cons, (inductionHypothesis _).1, (inductionHypothesis _).2]
      have here : (restoreEffect current incoming first).effects[id]? =
          if first = id then (current.effects[id]?).or incoming.effects[id]?
          else incoming.effects[id]? := by
        unfold restoreEffect
        by_cases same : first = id
        · subst same
          rw [if_pos rfl]
          cases current.effects[first]? with
          | none => rfl
          | some effect => exact BTreeMap.getElem?_insert.trans (if_pos rfl)
        · rw [if_neg same]
          cases current.effects[first]? with
          | none => rfl
          | some effect => exact BTreeMap.getElem?_insert.trans (if_neg same)
      have next : (restoreEffect current incoming first).nextEffectSequence =
          incoming.nextEffectSequence := by
        unfold restoreEffect
        split <;> rfl
      refine ⟨?_, next⟩
      rw [here]
      by_cases same : first = id
      · subst same
        by_cases later : first ∈ ids <;> cases current.effects[first]? <;> simp [later]
      · simp only [if_neg same, List.mem_cons, Ne.symm same, false_or]

theorem repairRace_grows (ran : repairRace current incoming race = .ok merged)
    (sound : RaceSound current race)
    (explained : ∀ (id : String) (effect : Effect), incoming.effects[id]? = some effect →
      Explained current race id effect)
    (above : current.nextEffectSequence ≤ incoming.nextEffectSequence)
    (listed : ∀ id : String, id ∈ merged.effects → id ∈ merged.effectOrder) :
    Grows current merged := by
  simp only [repairRace, bind_eq_ok, Except.ok.injEq] at ran
  obtain ⟨_, _, floor, _, last, moved, rfl⟩ := ran
  generalize restoring : (Std.ExtTreeSet.ofList race.kept compare).toList.foldl
    (restoreEffect current) incoming = restored at moved listed
  have next : restored.nextEffectSequence = incoming.nextEffectSequence := by
    rw [← restoring]
    exact (restore_effects _ incoming "").2
  have spec : Resequenced race restored.nextEffectSequence restored.effectOrder _ last :=
    resequence_all moved (le_max_left _ _)
  refine ⟨?_, fun id effect found => ?_⟩
  · simp only [next]
    omega
  · rcases spec.moved id effect found with ⟨old, unmoved⟩ | ⟨lost, higher⟩
    · have member : id ∈ restored.effectOrder := (List.perm_insertionSort _ _).mem_iff.mp
        (listed id (BTreeMap.mem_of_getElem? found))
      have settled := unmoved member
      rw [show restored.effects[id]? = _ from restoring ▸ (restore_effects _ incoming id).1] at old
      split at old
      · cases stored : current.effects[id]? with
        | some known =>
            rw [stored] at old
            obtain rfl := Option.some.inj old
            exact .inl ⟨known, rfl, rfl⟩
        | none =>
            rw [stored] at old
            rcases explained id effect old with ⟨_, known, _⟩ | ⟨_, moved | ahead⟩
            · rw [stored] at known
              cases known
            · exact absurd moved settled
            · exact .inr ⟨rfl, ahead⟩
      · rename_i unkept
        rcases explained id effect old with ⟨known, stored, same | kept⟩ | ⟨absent, moved | ahead⟩
        · exact .inl ⟨known, stored, same⟩
        · exact absurd (Std.ExtTreeSet.mem_toList.mpr (by simpa using kept)) unkept
        · exact absurd moved settled
        · exact .inr ⟨absent, ahead⟩
    · exact .inr ⟨sound.unknown id lost, by omega⟩

theorem mergeStale_grows (ran : mergeStale incoming current = .ok merged)
    (listed : ∀ id : String, id ∈ merged.effects → id ∈ merged.effectOrder) :
    Grows current merged := by
  simp only [mergeStale, bind_eq_ok] at ran
  obtain ⟨_, _, race, looked, ran⟩ := ran
  have begins : RaceSound current {} := ⟨fun _ member => absurd member List.not_mem_nil, fun _ => rfl⟩
  obtain ⟨_, sound, each⟩ := classify_all looked begins
  have explained : ∀ (id : String) (effect : Effect), incoming.effects[id]? = some effect →
      Explained current race id effect := by
    intro id effect found
    exact each (id, effect) (Std.ExtTreeMap.mem_toList_iff_getElem?_eq_some.mpr found)
  split at ran
  · rename_i nothing
    cases ran
    refine ⟨by dsimp only; omega, fun id effect found => ?_⟩
    rcases explained id effect found with ⟨known, stored, same | kept⟩ | ⟨absent, moved | ahead⟩
    · exact .inl ⟨known, stored, same⟩
    · rw [nothing] at kept
      cases kept
    · rw [sound.collided nothing] at moved
      cases moved
    · exact .inr ⟨absent, ahead⟩
  · exact repairRace_grows ran sound explained (by dsimp only; omega) listed

theorem adopt_grows {external : ExternalDocument} (ran : adopt external current = .ok merged)
    (listed : ∀ id : String, id ∈ merged.effects → id ∈ merged.effectOrder) :
    Grows current merged := by
  unfold adopt at ran
  split at ran
  · simp only [bind_eq_ok] at ran
    obtain ⟨_, _, _, _, _, _, merging⟩ := ran
    exact mergeStale_grows merging listed
  · cases ran
    exact ⟨Nat.le_refl _, fun id effect found => .inl ⟨effect, found, rfl⟩⟩

end Ingest

/-! ### Runs -/

/-- What happens to the supervision store: a mutation, a document taken in, or its deletion. -/
inductive Event where
  | call (call : Call)
  | ingest (now : Int) (manifest : OrganizationManifest) (body : DocumentBody ExternalDocument)
  | clear (now : Int) (manifest : OrganizationManifest)

/-- The working set an event leaves, before the rules across stores are asked. -/
def Event.apply (event : Event) (ledgers : Ledgers) : Except ChiefdError Ledgers :=
  match event with
  | .call made => made.op.run { ledgers with now := made.now } made.manifest
  | .ingest now manifest body => ingestExternalDocument { ledgers with now := now } manifest body
  | .clear now manifest => (Supervision.clear { ledgers with now := now } manifest).map Prod.snd

def Event.attempt (event : Event) (ledgers : Ledgers) : Except ChiefdError Ledgers :=
  event.apply ledgers >>= commit

theorem Event.attempt_eq_ok {event : Event} {ledgers ledgers' : Ledgers} :
    event.attempt ledgers = .ok ledgers' ↔
      event.apply ledgers = .ok ledgers' ∧ ledgers'.validateNonDocuments = .ok () := by
  simp only [Event.attempt, bind_eq_ok, commit_eq_ok]
  constructor
  · rintro ⟨_, ran, accepted, rfl⟩
    exact ⟨ran, accepted⟩
  · rintro ⟨ran, accepted⟩
    exact ⟨ledgers', ran, accepted, rfl⟩

/-- The sequence the store issues next. -/
def nextSequence (ledgers : Ledgers) : Nat :=
  nextSequenceOf (ledgers.counter nextEffectSequenceCounter)

/-- What every committed working set of a run has: its rows are renderings of effects, its counter is in
range, and the rules across stores hold. -/
structure Sound (ledgers : Ledgers) : Prop where
  rows : ∀ (id : String) (row : EffectRow), ledgers.effects[id]? = some row →
    ∃ effect, row = effectRow effect
  counted : nextEffectSequenceCounter ∈ ledgers.counters
  positive : 1 ≤ ledgers.counter nextEffectSequenceCounter
  bounded : ledgers.counter nextEffectSequenceCounter ≤ i64Max
  accepted : ledgers.validateNonDocuments = .ok ()

section Sound

variable {ledgers ledgers' : Ledgers} {manifest : OrganizationManifest}

theorem row_of_effectAt (rows : ∀ (id : String) (row : EffectRow), ledgers.effects[id]? = some row →
    ∃ effect, row = effectRow effect) {id : String} {effect : Effect} :
    effectAt ledgers id = some effect ↔ ledgers.effects[id]? = some (effectRow effect) := by
  unfold effectAt
  cases found : ledgers.effects[id]? with
  | none => simp
  | some row =>
      obtain ⟨stored, rfl⟩ := rows id row found
      simp only [Option.bind_some, effectRow, DocumentBody.value?, Option.some.injEq]
      constructor
      · rintro rfl
        rfl
      · intro same
        simpa using congrArg EffectRow.body same

theorem mem_rowSequences (rows : ∀ (id : String) (row : EffectRow),
    ledgers.effects[id]? = some row → ∃ effect, row = effectRow effect) {n : Nat} :
    n ∈ rowSequences ledgers ↔ ∃ id effect, effectAt ledgers id = some effect ∧
      effect.sequence = n := by
  simp only [rowSequences, List.mem_map, Prod.exists,
    Std.ExtTreeMap.mem_toList_iff_getElem?_eq_some]
  constructor
  · rintro ⟨id, row, found, rfl⟩
    obtain ⟨effect, rfl⟩ := rows id row found
    exact ⟨id, effect, (row_of_effectAt rows).mpr found, rfl⟩
  · rintro ⟨id, effect, found, rfl⟩
    exact ⟨id, _, (row_of_effectAt rows).mp found, rfl⟩

theorem Sound.nextSequence (sound : Sound ledgers) :
    (nextSequence ledgers : Int) = ledgers.counter nextEffectSequenceCounter := by
  have positive := sound.positive
  unfold Supervision.nextSequence nextSequenceOf
  rw [if_pos (by omega)]
  omega

theorem Sound.next_le (sound : Sound ledgers) : Supervision.nextSequence ledgers ≤ u64Max := by
  have same := sound.nextSequence
  have bounded := sound.bounded
  simp only [i64Max, u64Max] at *
  omega

/-- In a committed working set every sequence is below the next one. -/
theorem Sound.below (sound : Sound ledgers) {id : String} {effect : Effect}
    (found : effectAt ledgers id = some effect) :
    effect.sequence < Supervision.nextSequence ledgers := by
  obtain ⟨_, _, ahead⟩ := (validateNonDocuments_iff sound.counted).mp sound.accepted
  have positive := sound.positive
  have bounded := sound.bounded
  have next := sound.nextSequence
  have member := (mem_rowSequences sound.rows).mpr ⟨id, effect, found, rfl⟩
  have highest : Ledgers.highestSequence (rowSequences ledgers).reverse <
      Supervision.nextSequence ledgers := by
    omega
  exact (highestSequence_lt (by omega)).mp highest _ (List.mem_reverse.mpr member)

/-- What an event leaves: the working set as it was, or one whose effects are those of a ledger in order
that grew out of what the event found. -/
structure Written (before after : Ledgers) (ledger : SupervisionLedger) : Prop where
  ordered : OrderedEffects ledger
  next : nextSequence before ≤ ledger.nextEffectSequence
  grows : ∀ (id : String) (effect : Effect), ledger.effects[id]? = some effect →
    (∃ old, effectAt before id = some old ∧ effect.sequence = old.sequence) ∨
      (effectAt before id = none ∧ nextSequence before ≤ effect.sequence)
  rows : ∀ id : String, after.effects[id]? = (ledger.effects[id]?).map effectRow
  counter : ∀ name : String, after.counters[name]? =
    if nextEffectSequenceCounter = name then some (counterOf ledger.nextEffectSequence)
    else before.counters[name]?
  elsewhere : SameElsewhere before after

/-- A mutation leaves the working set as it was, or writes a ledger that grew. -/
theorem written_of_committed {op : Operation} (sound : Sound ledgers)
    (ran : op.run ledgers manifest = .ok ledgers') :
    ledgers' = ledgers ∨ ∃ ledger, Written ledgers ledgers' ledger := by
  obtain ⟨current, draft, leaves, committed⟩ := op.run_eq_ok ran
  obtain ⟨document, _, hydrated⟩ := readForMutation_eq_ok committed.read
  have shed := shedDeparted_shed current manifest
  have next : (draftOf ledgers manifest current).ledger.nextEffectSequence = nextSequence ledgers :=
    shed.next.trans hydrated.next
  have issues := leaves.issues (by rw [next]; exact sound.next_le)
  have outbox := leaves.outbox committed.start.1
  rcases committed.written with ⟨rfl, _, _⟩ | published
  · exact .inl rfl
  · refine .inr ⟨{ draft.ledger with updatedAt := isoMillis ledgers.now },
      orderedEffects_of_validate published.accepted, ?_, ?_, ?_, published.counter,
      published.elsewhere⟩
    · rw [← next]
      exact issues.grows.next
    · intro id effect found
      rw [← next, ← committed.start.2 id]
      exact issues.grows.effects id effect found
    · intro id
      rw [published.effects id]
      by_cases touched : id ∈ draft.touchedEffects
      · rw [if_pos (Std.ExtTreeSet.mem_toList.mpr touched)]
      · rw [if_neg fun member => touched (Std.ExtTreeSet.mem_toList.mp member)]
        show ledgers.effects[id]? = (draft.ledger.effects[id]?).map effectRow
        rw [outbox.untouched id touched, committed.start.2 id]
        cases found : ledgers.effects[id]? with
        | none =>
            rw [effectAt, found]
            rfl
        | some row =>
            obtain ⟨effect, rfl⟩ := sound.rows id row found
            rw [(row_of_effectAt sound.rows).mpr found]
            rfl

/-- A document taken in writes a ledger that grew. -/
theorem written_of_ingest {body : DocumentBody ExternalDocument}
    (ran : ingestExternalDocument ledgers manifest body = .ok ledgers') :
    ∃ ledger, Written ledgers ledgers' ledger := by
  unfold ingestExternalDocument at ran
  split at ran
  · cases ran
  · simp only [bind_eq_ok] at ran
    obtain ⟨current, read, incoming, adopted, ran⟩ := ran
    obtain ⟨document, _, hydrated⟩ := readForMutation_eq_ok read
    have published := publish_eq_ok ran
    have ordered := orderedEffects_of_validate published.accepted
    have grows : Grows current incoming :=
      adopt_grows adopted fun id member => (ordered.listed id).mpr member
    refine ⟨{ incoming with updatedAt := isoMillis ledgers.now }, ordered, ?_, ?_, ?_,
      published.counter, published.elsewhere⟩
    · show nextSequenceOf _ ≤ _
      rw [← hydrated.next]
      exact grows.next
    · intro id effect found
      have next : nextSequence ledgers = current.nextEffectSequence := hydrated.next.symm
      rw [next, ← hydrated.effects id]
      exact grows.effects id effect found
    · intro id
      rw [published.effects id]
      split
      · rfl
      · rename_i untouched
        have listed : id ∉ current.effectOrder ++ incoming.effectOrder := by
          intro member
          exact untouched (Std.ExtTreeSet.mem_toList.mpr (by simpa using member))
        rw [List.mem_append, not_or] at listed
        have absent : id ∉ ledgers.effects := by
          rw [← mem_effectOrder, ← hydrated.order]
          exact listed.1
        have unknown : id ∉ incoming.effects := fun member =>
          listed.2 ((ordered.listed id).mpr member)
        show ledgers.effects[id]? = (incoming.effects[id]?).map effectRow
        rw [Std.ExtTreeMap.getElem?_eq_none absent, Std.ExtTreeMap.getElem?_eq_none unknown]
        rfl

/-- A deletion leaves no effect, and the counter where it was. -/
theorem clear_eq_ok {present : Bool} (ran : clear ledgers manifest = .ok (present, ledgers')) :
    (∀ id : String, ledgers'.effects[id]? = none) ∧ ledgers'.counters = ledgers.counters ∧
      SameElsewhere ledgers ledgers' := by
  have left : ledgers' = { ledgers.effectOrder.foldl Ledgers.removeEffect ledgers with
      supervision := none } := by
    unfold clear at ran
    split at ran
    · rw [bind_eq_ok] at ran
      obtain ⟨_, _, done⟩ := ran
      exact (congrArg Prod.snd (Except.ok.inj done)).symm
    · exact (congrArg Prod.snd (Except.ok.inj ran)).symm
  subst left
  have removed (ids : List String) (s : Ledgers) (id : String) :
      (ids.foldl Ledgers.removeEffect s).effects[id]? =
        if id ∈ ids then none else s.effects[id]? := by
    induction ids generalizing s with
    | nil => simp
    | cons first ids inductionHypothesis =>
        rw [List.foldl_cons, inductionHypothesis,
          show (s.removeEffect first).effects = s.effects.erase first from rfl,
          BTreeMap.getElem?_erase]
        by_cases later : id ∈ ids
        · rw [if_pos later, if_pos (List.mem_cons_of_mem first later)]
        · by_cases here : first = id
          · simp [here]
          · simp [here, later, Ne.symm here]
  have frame : SameElsewhere ledgers (ledgers.effectOrder.foldl Ledgers.removeEffect ledgers) ∧
      (ledgers.effectOrder.foldl Ledgers.removeEffect ledgers).counters = ledgers.counters := by
    refine foldl_invariant (fun s : Ledgers => SameElsewhere ledgers s ∧
      s.counters = ledgers.counters) (fun s id _ same => ?_) ⟨.refl ledgers, rfl⟩
    exact ⟨same.1.trans ⟨rfl, rfl, rfl⟩, same.2⟩
  refine ⟨fun id => ?_, frame.2, frame.1.trans ⟨rfl, rfl, rfl⟩⟩
  show (ledgers.effectOrder.foldl Ledgers.removeEffect ledgers).effects[id]? = none
  rw [removed]
  split
  · rfl
  · rename_i unlisted
    rw [mem_effectOrder] at unlisted
    exact Std.ExtTreeMap.getElem?_eq_none unlisted

section Written

variable {before after : Ledgers} {ledger : SupervisionLedger}

theorem Written.renders (written : Written before after ledger) (id : String) (row : EffectRow)
    (found : after.effects[id]? = some row) : ∃ effect, row = effectRow effect := by
  rw [written.rows id, Option.map_eq_some_iff] at found
  obtain ⟨effect, _, rfl⟩ := found
  exact ⟨effect, rfl⟩

theorem Written.stored (written : Written before after ledger) (id : String) :
    effectAt after id = ledger.effects[id]? := by
  unfold effectAt
  rw [written.rows id]
  cases ledger.effects[id]? <;> rfl

theorem Written.counted (written : Written before after ledger) :
    nextEffectSequenceCounter ∈ after.counters ∧
      after.counter nextEffectSequenceCounter = counterOf ledger.nextEffectSequence := by
  have here := written.counter nextEffectSequenceCounter
  rw [if_pos rfl] at here
  refine ⟨BTreeMap.mem_of_getElem? here, ?_⟩
  rw [Ledgers.counter, Std.ExtTreeMap.getD_eq_getD_getElem?, here]
  rfl

/-- Rows of distinct effects repeat no sequence. -/
theorem Written.nodup (written : Written before after ledger) : (rowSequences after).Nodup := by
  have keys : (after.effects.toList.map Prod.fst).Nodup := by
    rw [Std.ExtTreeMap.map_fst_toList_eq_keys]
    exact Std.ExtTreeMap.nodup_keys
  rw [rowSequences]
  refine List.Nodup.map_on ?_ (List.Nodup.of_map Prod.fst keys)
  rintro ⟨a, row⟩ memberA ⟨b, row'⟩ memberB same
  have foundA := Std.ExtTreeMap.mem_toList_iff_getElem?_eq_some.mp memberA
  have foundB := Std.ExtTreeMap.mem_toList_iff_getElem?_eq_some.mp memberB
  rw [written.rows, Option.map_eq_some_iff] at foundA foundB
  obtain ⟨e, storedA, rfl⟩ := foundA
  obtain ⟨f, storedB, rfl⟩ := foundB
  obtain rfl := written.ordered.distinct a b e f storedA storedB same
  rw [storedA] at storedB
  rw [Option.some.inj storedB]

/-- The rules across stores accept what an event wrote exactly while its sequences fit the counter. -/
theorem Written.accepted_iff (written : Written before after ledger) (sound : Sound before) :
    after.validateNonDocuments = .ok () ↔
      ∀ (id : String) (effect : Effect), effectAt after id = some effect →
        (effect.sequence : Int) < i64Max := by
  obtain ⟨counted, counter⟩ := written.counted
  have elsewhere := ((validateNonDocuments_iff sound.counted).mp sound.accepted).1.of_same
    written.elsewhere
  have positive := sound.positive
  have begun := sound.nextSequence
  have grown := written.next
  have below : Ledgers.highestSequence (rowSequences after).reverse < ledger.nextEffectSequence := by
    rw [highestSequence_lt (by omega)]
    intro n member
    obtain ⟨id, effect, found, rfl⟩ :=
      (mem_rowSequences written.renders).mp (List.mem_reverse.mp member)
    rw [written.stored id] at found
    exact written.ordered.below id effect found
  have fits : (∀ (id : String) (effect : Effect), effectAt after id = some effect →
      (effect.sequence : Int) < i64Max) ↔
        Ledgers.highestSequence (rowSequences after).reverse < i64Max.toNat := by
    rw [highestSequence_lt (by decide)]
    constructor
    · intro all n member
      obtain ⟨id, effect, found, rfl⟩ :=
        (mem_rowSequences written.renders).mp (List.mem_reverse.mp member)
      have small := all id effect found
      simp only [i64Max] at *
      omega
    · intro all id effect found
      have small := all _ (List.mem_reverse.mpr
        ((mem_rowSequences written.renders).mpr ⟨id, effect, found, rfl⟩))
      simp only [i64Max] at *
      omega
  rw [validateNonDocuments_iff counted, fits, counter]
  simp only [counterOf, i64Max] at *
  constructor
  · rintro ⟨_, _, ahead⟩
    omega
  · intro small
    exact ⟨elsewhere, written.nodup, by omega⟩

/-- A committed write is sound again, and its next sequence did not fall. -/
theorem Written.sound (written : Written before after ledger) (sound : Sound before)
    (accepted : after.validateNonDocuments = .ok ()) :
    Sound after ∧ nextSequence before ≤ nextSequence after := by
  obtain ⟨counted, counter⟩ := written.counted
  have positive := sound.positive
  have bounded := sound.bounded
  have begun := sound.nextSequence
  have grown := written.next
  have later : Sound after := by
    refine ⟨written.renders, counted, ?_, ?_, accepted⟩
    · rw [counter]
      simp only [counterOf, i64Max] at *
      omega
    · rw [counter]
      exact min_le_right _ _
  have next := later.nextSequence
  refine ⟨later, ?_⟩
  rw [counter] at next
  simp only [counterOf, i64Max] at *
  omega

end Written

/-- What one event does to a sound working set: it leaves it, writes a ledger that grew, or deletes every
effect and keeps the counter. -/
theorem Event.apply_cases {event : Event} {ledgers applied : Ledgers} (sound : Sound ledgers)
    (ran : event.apply ledgers = .ok applied) :
    (∃ now, applied = { ledgers with now := now }) ∨
      (∃ ledger, Written ledgers applied ledger) ∨
      ((∀ id : String, applied.effects[id]? = none) ∧ applied.counters = ledgers.counters ∧
        SameElsewhere ledgers applied) := by
  have timed (now : Int) : Sound { ledgers with now := now } :=
    ⟨sound.rows, sound.counted, sound.positive, sound.bounded, sound.accepted⟩
  have back {now : Int} {ledger : SupervisionLedger}
      (written : Written { ledgers with now := now } applied ledger) :
      Written ledgers applied ledger :=
    ⟨written.ordered, written.next, written.grows, written.rows, written.counter,
      ⟨written.elsewhere.mailbox, written.elsewhere.hostActions, written.elsewhere.activity⟩⟩
  cases event with
  | call made =>
      rcases written_of_committed (timed made.now) ran with same | ⟨ledger, written⟩
      · exact .inl ⟨made.now, same⟩
      · exact .inr (.inl ⟨ledger, back written⟩)
  | ingest now manifest body =>
      obtain ⟨ledger, written⟩ := written_of_ingest ran
      exact .inr (.inl ⟨ledger, back written⟩)
  | clear now manifest =>
      obtain ⟨_, ran⟩ := ok_map_snd ran
      obtain ⟨removed, counters, elsewhere⟩ := clear_eq_ok ran
      exact .inr (.inr ⟨removed, counters,
        ⟨elsewhere.mailbox, elsewhere.hostActions, elsewhere.activity⟩⟩)

/-- What one event promises about sequences. -/
structure Promise (before applied : Ledgers) : Prop where
  accepted : applied.validateNonDocuments = .ok () ↔
    ∀ (id : String) (effect : Effect), effectAt applied id = some effect →
      (effect.sequence : Int) < i64Max
  sound : applied.validateNonDocuments = .ok () → Sound applied
  next : applied.validateNonDocuments = .ok () → nextSequence before ≤ nextSequence applied
  issued : ∀ (id : String) (effect : Effect), effectAt applied id = some effect →
    (∃ old, effectAt before id = some old ∧ effect.sequence = old.sequence) ∨
      nextSequence before ≤ effect.sequence

theorem Event.promise {event : Event} {ledgers applied : Ledgers} (sound : Sound ledgers)
    (ran : event.apply ledgers = .ok applied) : Promise ledgers applied := by
  have bounded := sound.bounded
  have next := sound.nextSequence
  rcases event.apply_cases sound ran with
    ⟨now, rfl⟩ | ⟨ledger, written⟩ | ⟨removed, counters, elsewhere⟩
  · have timed : Sound { ledgers with now := now } :=
      ⟨sound.rows, sound.counted, sound.positive, sound.bounded, sound.accepted⟩
    refine ⟨⟨fun _ id effect found => ?_, fun _ => timed.accepted⟩, fun _ => timed,
      fun _ => Nat.le_refl _, fun id effect found => .inl ⟨effect, found, rfl⟩⟩
    have below := sound.below found
    omega
  · refine ⟨written.accepted_iff sound, fun accepted => (written.sound sound accepted).1,
      fun accepted => (written.sound sound accepted).2, fun id effect found => ?_⟩
    rw [written.stored id] at found
    rcases written.grows id effect found with kept | ⟨_, higher⟩
    · exact .inl kept
    · exact .inr higher
  · have gone (id : String) : effectAt applied id = none := by
      rw [effectAt, removed]
      rfl
    have counted : nextEffectSequenceCounter ∈ applied.counters := counters ▸ sound.counted
    have counter : applied.counter nextEffectSequenceCounter =
        ledgers.counter nextEffectSequenceCounter := by
      rw [Ledgers.counter, Ledgers.counter, counters]
    have rows : ∀ (id : String) (row : EffectRow), applied.effects[id]? = some row →
        ∃ effect, row = effectRow effect := by
      intro id row found
      rw [removed] at found
      cases found
    have empty : rowSequences applied = [] := by
      rw [List.eq_nil_iff_forall_not_mem]
      intro n member
      obtain ⟨id, effect, found, _⟩ := (mem_rowSequences rows).mp member
      rw [gone] at found
      cases found
    have positive := sound.positive
    have accepted : applied.validateNonDocuments = .ok () := by
      rw [validateNonDocuments_iff counted, empty, counter]
      refine ⟨((validateNonDocuments_iff sound.counted).mp sound.accepted).1.of_same elsewhere,
        List.nodup_nil, ?_⟩
      have zero : Ledgers.highestSequence ([] : List Nat).reverse = 0 := rfl
      rw [zero]
      omega
    refine ⟨⟨fun _ id effect found => ?_, fun _ => accepted⟩,
      fun _ => ⟨rows, counted, counter ▸ positive, counter ▸ bounded, accepted⟩, fun _ => ?_,
      fun id effect found => ?_⟩
    · rw [gone] at found
      cases found
    · rw [nextSequence, nextSequence, counter]
    · rw [gone] at found
      cases found

/-- The working set of a company that is founded: no effect has been issued. -/
structure Founded (start : Ledgers) : Prop where
  empty : ∀ id : String, start.effects[id]? = none
  counter : start.counters[nextEffectSequenceCounter]? = some 1
  accepted : start.validateNonDocuments = .ok ()

theorem Founded.sound {start : Ledgers} (founded : Founded start) : Sound start := by
  have value : start.counter nextEffectSequenceCounter = 1 := by
    rw [Ledgers.counter, Std.ExtTreeMap.getD_eq_getD_getElem?, founded.counter]
    rfl
  refine ⟨fun id row found => ?_, BTreeMap.mem_of_getElem? founded.counter, ?_, ?_, founded.accepted⟩
  · rw [founded.empty] at found
    cases found
  · rw [value]
  · rw [value]
    decide

theorem run_sound {start : Ledgers} (founded : Founded start) (events : List Event) :
    Sound (afterRun Event.attempt events start) := by
  have met : Throughout Event.attempt (fun _ _ => True) events start :=
    Throughout.of_forall (fun _ => True) fun _ _ => trivial
  refine met.invariant Sound (fun event ledgers ledgers' _ ran sound => ?_) founded.sound
  obtain ⟨applied, accepted⟩ := Event.attempt_eq_ok.mp ran
  exact (Event.promise sound applied).sound accepted

/-- Along a run the next sequence never falls. -/
theorem run_next {start : Ledgers} (sound : Sound start) (events : List Event) :
    nextSequence start ≤ nextSequence (afterRun Event.attempt events start) := by
  have met : Throughout Event.attempt (fun _ _ => True) events start :=
    Throughout.of_forall (fun _ => True) fun _ _ => trivial
  refine met.relates (fun before after => nextSequence before ≤ nextSequence after) Sound
    (fun _ => Nat.le_refl _) (fun one two => Nat.le_trans one two)
    (fun event ledgers ledgers' _ ran sound => ?_) sound
  obtain ⟨applied, accepted⟩ := Event.attempt_eq_ok.mp ran
  have promise := Event.promise sound applied
  exact ⟨promise.sound accepted, promise.next accepted⟩

end Sound

/-- Seeding a company without effects founds its outbox. -/
theorem seed_founded {fresh start : Ledgers} {manifest : OrganizationManifest}
    {ledger : SupervisionLedger} (seeded : seed fresh manifest = .ok (ledger, start))
    (empty : ∀ id : String, fresh.effects[id]? = none)
    (accepted : start.validateNonDocuments = .ok ()) : Founded start := by
  simp only [seed, bind_eq_ok, Except.ok.injEq, Prod.mk.injEq] at seeded
  obtain ⟨_, _, _, rfl⟩ := seeded
  exact ⟨empty, BTreeMap.getElem?_insert.trans (if_pos rfl), accepted⟩

/-- What an event after the run `earlier` does to sequences: the rules across stores accept it exactly
while the sequences fit the counter, the next sequence does not fall, and what is newly enqueued gets a
sequence above that of every effect that was ever there. -/
structure FreshSequences (start : Ledgers) (earlier : List Event) (applied : Ledgers) : Prop where
  accepted : applied.validateNonDocuments = .ok () ↔
    ∀ (id : String) (effect : Effect), effectAt applied id = some effect →
      (effect.sequence : Int) < i64Max
  next : applied.validateNonDocuments = .ok () →
    nextSequence (afterRun Event.attempt earlier start) ≤ nextSequence applied
  above : ∀ past later : List Event, earlier = past ++ later →
    ∀ (id ever : String) (effect old : Effect), effectAt applied id = some effect →
      (¬ ∃ known, effectAt (afterRun Event.attempt earlier start) id = some known ∧
        effect.sequence = known.sequence) →
      effectAt (afterRun Event.attempt past start) ever = some old → old.sequence < effect.sequence

/-- The outbox of the small company as it is founded. -/
def foundedOutbox : Ledgers :=
  put ({ now := 0 : Ledgers }.setCounter nextEffectSequenceCounter 1)
    (SupervisionLedger.initial smallCompany (isoMillis 0))

theorem foundedOutbox_founded : Founded foundedOutbox where
  empty := fun id => by simp [foundedOutbox, put, Ledgers.setCounter]
  counter := BTreeMap.getElem?_insert.trans (if_pos rfl)
  accepted := by decide +kernel

/-- A call that escalates. -/
def escalates : Event :=
  .call
    { op := .enqueueReconcileEscalation "alert" "budget_exceeded" "Too much."
      now := 0
      manifest := smallCompany }

/-- A document whose one effect holds the last sequence the counter can name. -/
def lastSequenceDocument : ExternalDocument :=
  { document := (SupervisionLedger.initial smallCompany (isoMillis 0)).toSupervisionDocument
    effectOrder := some (.decoded ["last"])
    effects := some (.decoded (Std.ExtTreeMap.ofList
      [("last", freshEffect "last" "note" (2 ^ 63 - 1) ∅ (isoMillis 0))]))
    nextEffectSequence := some (.decoded (2 ^ 63)) }

end Chief.Supervision
