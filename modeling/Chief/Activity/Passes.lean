/-
Module: Chief.Activity.Passes
Layer: Proofs
Purpose: The loops of one reconcile pass as a whole. Each person is visited exactly once, finds the
  leases and the pointer the pass started with, and keeps what their own round left.
Trusted boundary: none
Main exports: passOf, reconcileBody_eq_ok, stampIdle_people, transitions_edits, transitions_visit,
  decisions_edits, decisions_visit
-/
import Chief.Activity.PassChains

namespace Chief.Activity

open Foundation ActivityLedger

variable {pass : Pass} {fits : Prop} {touches : String → Prop} {opens : GracefulTransition → Prop}
  {admitted : List String} {personId : String}

/-! ### The pass of one call -/

/-- The instant the node began watching its panes; never, when it cannot be read. -/
def ReconcileInput.watching (input : ReconcileInput) : Int :=
  (parseIsoMillis input.watchingSince).getD i64Max

/-- The pass one call makes. -/
def passOf (chief : String) (input : ReconcileInput) (ctx : ActivityContext) (stamp : String) :
    Pass :=
  { manifest := ctx.manifest
    now := ctx.now
    stamp := stamp
    fence := input.launchIntent
    chief := chief
    watchingSince := input.watching }

/-- The requested ids as a set. -/
def ReconcileInput.requested (input : ReconcileInput) : BTreeSet :=
  Std.ExtTreeSet.ofList input.requestedPersonIds

/-- The two loops of one pass over a prepared draft. -/
structure PassRun (pass : Pass) (prepared : ReconcileState × List String)
    (middle final : ReconcileState) (decisions : BTreeMap PersonActivityDecision) : Prop where
  transitions : prepared.1.draft.personOrder.foldlM (transitionStep pass prepared.2) prepared.1 =
    .ok middle
  decided : middle.draft.personOrder.foldlM (decisionStep pass) (middle, ∅) =
    .ok (final, decisions)

theorem reconcileBody_eq_ok {chief stamp : String} {input : ReconcileInput}
    {draft draft' : ActivityLedger} {ctx : ActivityContext} {snapshot : ActivitySnapshot} :
    reconcileBody chief input draft ctx stamp = .ok (snapshot, draft') ↔
      unknownRequested ctx.manifest input.requested = none ∧
        ∃ middle final, PassRun (passOf chief input ctx stamp)
          (prepare (passOf chief input ctx stamp) input.requested draft) middle final
          snapshot.people ∧ draft' = final.draft := by
  unfold reconcileBody
  cases unknown : unknownRequested ctx.manifest input.requested with
  | some personId =>
      have same : unknownRequested ctx.manifest
        (Std.ExtTreeSet.ofList input.requestedPersonIds) = some personId := unknown
      simp [same]
  | none =>
      have same : unknownRequested ctx.manifest
        (Std.ExtTreeSet.ofList input.requestedPersonIds) = none := unknown
      simp only [same, bind_eq_ok, Except.ok.injEq, Prod.mk.injEq, true_and]
      constructor
      · rintro ⟨middle, transitions, ⟨final, decisions⟩, decided, rfl, rfl⟩
        exact ⟨middle, final, ⟨transitions, decided⟩, rfl⟩
      · rintro ⟨middle, final, run, rfl⟩
        exact ⟨middle, run.transitions, (final, snapshot.people), run.decided, rfl, rfl⟩

/-! ### The transition loop -/

/-- The transition loop is a chain of edits that opens at most one transition a round. -/
theorem transitions_edits (touches : String → Prop) (opens : GracefulTransition → Prop)
    (sound : fits → RecordsFit pass.manifest pass.stamp) (opened : ∀ t, opens t) {l : List String}
    (touched : ∀ p ∈ l, touches p) :
    ∀ {s s' : ReconcileState}, Named s.draft →
      l.foldlM (transitionStep pass admitted) s = .ok s' →
      ∃ n ≤ l.length, Edits (roundScope pass fits touches opens) n s.draft s'.draft := by
  induction l with
  | nil =>
      intro s s' _ run
      cases run
      exact ⟨0, le_refl _, .refl⟩
  | cons p l inductionHypothesis =>
      intro s s' named run
      rw [List.foldlM_cons, bind_eq_ok] at run
      obtain ⟨middle, first, rest⟩ := run
      obtain ⟨k, atMostOne, here⟩ := transitionStep_edits touches opens sound named
        (touched p List.mem_cons_self) (fun t _ => opened t) first
      obtain ⟨n, bounded, later⟩ := inductionHypothesis
        (fun q member => touched q (List.mem_cons_of_mem p member)) (here.named named) rest
      refine ⟨k + n, ?_, here.trans later⟩
      rw [List.length_cons]
      omega

/-- What the transition loop reads and writes of one person. -/
def roundView (personId : String) (s : ReconcileState) :
    (Option PersonActivityState × Option GracefulTransition) ×
      (Finset ActivityReason × Bool × Bool) :=
  ((s.draft.people[personId]?, s.draft.activeTransition personId), leaseView personId s)

theorem roundView_eq {s s' : ReconcileState} (same : roundView personId s = roundView personId s') :
    s.draft.people[personId]? = s'.draft.people[personId]? ∧
      s.draft.activeTransition personId = s'.draft.activeTransition personId ∧
      reasonsOf s.reasons personId = reasonsOf s'.reasons personId ∧
      (personId ∈ s.abandoned ↔ personId ∈ s'.abandoned) ∧
      (personId ∈ s.directTransfers ↔ personId ∈ s'.directTransfers) := by
  simpa [roundView, leaseView, and_assoc] using same

theorem mayPark_congr {s s' : ReconcileState} (same : roundView personId s = roundView personId s')
    (may : MayPark admitted s personId) : MayPark admitted s' personId := by
  obtain ⟨people, owed, reasons, _, _⟩ := roundView_eq same
  unfold MayPark hasOwnPinningDemand at *
  rw [← people, ← owed, ← reasons]
  exact may

/-- The scope of a whole transition loop: it opens routine idle parks only for people who may park as
the loop finds them. -/
def loopScope (pass : Pass) (admitted : List String) (start : ReconcileState) : Scope :=
  roundScope pass False (fun _ => True) fun t =>
    isRoutineIdlePark t = true → MayPark admitted start t.personId

/-- Everybody the transition loop names is visited once, with the view they had before the loop, and
keeps the view their round left. -/
theorem transitions_visit {start s' : ReconcileState} {l : List String} (nodup : l.Nodup)
    (run : l.foldlM (transitionStep pass admitted) start = .ok s') (wiring : Wired start.draft)
    (spare : ¬ Exhausted s'.draft) :
    (∃ n, Edits (loopScope pass admitted start) n start.draft s'.draft) ∧ Wired s'.draft ∧
      ∀ p, (p ∉ l → roundView p s' = roundView p start) ∧
        (p ∈ l → ∃ s₁ s₂, transitionStep pass admitted s₁ p = .ok s₂ ∧ Wired s₁.draft ∧
          Wired s₂.draft ∧ roundView p s₁ = roundView p start ∧ roundView p s' = roundView p s₂) := by
  have edits {s s' : ReconcileState} {p : String} (named : Named s.draft)
      (ran : transitionStep pass admitted s p = .ok s') :
      ∃ n, Edits (roundScope pass False (· = p) (RoundOpens admitted s p)) n s.draft s'.draft := by
    obtain ⟨n, _, edits⟩ := transitionStep_edits (· = p) (RoundOpens admitted s p)
      (False.elim : False → RecordsFit pass.manifest pass.stamp) named rfl (fun _ opens => opens) ran
    exact ⟨n, edits⟩
  obtain ⟨⟨wiringEnd, chain⟩, visits⟩ := foldlM_visit
    (fun s : ReconcileState => Wired s.draft ∧
      ∃ n, Edits (loopScope pass admitted start) n start.draft s.draft)
    (fun s => Named s.draft → ¬ Exhausted s.draft) roundView
    (fun s p _ s' ran fine named => by
      obtain ⟨n, chain⟩ := edits named ran
      exact chain.spare (fine (chain.named named)))
    (fun s p _ s' ran fine holds fresh => by
      obtain ⟨wiring, m, before⟩ := holds
      obtain ⟨n, chain⟩ := edits wiring.named ran
      have room := chain.room wiring (fine (chain.named wiring.named))
      have within : (roundScope pass False (· = p) (RoundOpens admitted s p)).Within
          (loopScope pass admitted start) :=
        { manifest := rfl
          stamp := rfl
          fits := False.elim
          touches := fun _ _ => trivial
          rewrites := fun _ _ rewrites => rewrites
          moves := fun _ _ moves => moves
          opens := fun t opens routine => by
            rw [opens.1]
            exact mayPark_congr fresh (opens.2 routine) }
      refine ⟨⟨chain.wired wiring room, m + n, before.trans (chain.widen within)⟩,
        fun q other => ?_⟩
      · obtain ⟨people, owed⟩ := chain.untouched wiring room (show ¬ q = p from other)
        unfold roundView
        rw [people, owed, transitionStep_frame wiring.named ran other])
    nodup run ⟨wiring, 0, .refl⟩ (fun _ => spare) (fun _ _ => rfl)
  refine ⟨chain, wiringEnd, fun p => ⟨(visits p).1, fun member => ?_⟩⟩
  obtain ⟨s₁, s₂, ran, before, _, after, same, kept⟩ := (visits p).2 member
  exact ⟨s₁, s₂, ran, before.1, after.1, same, kept⟩

/-! ### The decision loop -/

section Decisions

variable {s : ReconcileState} {state : PersonActivityState} {person : PersonRecord}

@[simp] theorem decided_lastDesiredActive (state : PersonActivityState) (person : PersonRecord)
    (active advance : Bool) :
    (state.decided pass person active advance).lastDesiredActive = active := by
  unfold PersonActivityState.decided
  simp only
  split <;> split <;> rfl

@[simp] theorem decided_activeTransitionId (state : PersonActivityState) (person : PersonRecord)
    (active advance : Bool) :
    (state.decided pass person active advance).activeTransitionId = state.activeTransitionId := by
  unfold PersonActivityState.decided
  simp only
  split <;> split <;> rfl

/-- The match leaves the person's state alone, except that it may drop the pointer. -/
theorem settledVerdict_people (pass : Pass) (structural : Option StructuralTransition)
    (lease : Bool) (verdict : Verdict) (found : s.draft.people[personId]? = some state)
    (opening : verdict.draft = s.draft) :
    ∃ before, (before = state ∨ before = { state with activeTransitionId := none }) ∧
      (settledVerdict pass s personId structural lease verdict).draft.people[personId]? =
        some before := by
  unfold settledVerdict
  split
  · exact ⟨state, .inl rfl, by rw [opening]; exact found⟩
  · cases owed : s.draft.activeTransition personId with
    | none => exact ⟨state, .inl rfl, by rw [opening]; exact found⟩
    | some current =>
        cases structural with
        | some structural =>
            simp only
            split
            · unfold settleStructural
              simp only
              split
              · refine ⟨_, .inr rfl, ?_⟩
                rw [opening, people_modifyPerson, if_pos rfl, people_modifyTransition, found]
                rfl
              · exact ⟨state, .inl rfl, by rw [opening]; exact found⟩
            · exact ⟨state, .inl rfl, by rw [opening]; exact found⟩
        | none =>
            simp only [settlePointer]
            split
            · exact ⟨state, .inl rfl, by rw [opening]; exact found⟩
            · split
              · exact ⟨state, .inl rfl, by rw [opening]; exact found⟩
              · exact ⟨state, .inl rfl, by rw [opening]; exact found⟩

/-- The state a decision leaves for its person. -/
theorem decidedDraft_people (pass : Pass) (person : PersonRecord)
    (found : s.draft.people[personId]? = some state) :
    ∃ before, (before = state ∨ before = { state with activeTransitionId := none }) ∧
      (decidedDraft pass s personId state person).people[personId]? =
        some (before.decided pass person (decisionOn pass s personId state person).active
          (verdictOn pass s personId state).advancePlacement) := by
  obtain ⟨before, shape, here⟩ := settledVerdict_people pass
    (structuralTransition state pass.manifest personId) (hasEffectiveDemand s.reasons personId)
    (openVerdict s personId state (structuralTransition state pass.manifest personId)) found rfl
  have verdict : (verdictOn pass s personId state).draft.people[personId]? = some before := here
  refine ⟨before, shape, ?_⟩
  unfold decidedDraft
  rw [people_modifyPerson, if_pos rfl, verdict]
  rfl

/-- The match only adds reasons of its own person. -/
theorem settledVerdict_reasons {structural : Option StructuralTransition} {lease : Bool}
    {verdict : Verdict} {q : String} (other : q ≠ personId) :
    reasonsOf (settledVerdict pass s personId structural lease verdict).reasons q =
      reasonsOf verdict.reasons q := by
  unfold settledVerdict
  split
  · rfl
  · cases owed : s.draft.activeTransition personId with
    | none => rfl
    | some current =>
        cases structural with
        | some structural =>
            simp only
            split
            · unfold settleStructural
              simp only
              split <;> rfl
            · rfl
        | none =>
            simp only [settlePointer]
            split
            · rfl
            · split
              · simp [other.symm]
              · rfl

end Decisions

/-- The decision loop opens nothing. -/
theorem decisions_edits (touches : String → Prop) (opens : GracefulTransition → Prop)
    (sound : fits → RecordsFit pass.manifest pass.stamp) {l : List String} (touched : ∀ p ∈ l, touches p) :
    ∀ {s s' : ReconcileState} {decisions decisions' : BTreeMap PersonActivityDecision},
      Named s.draft → l.foldlM (decisionStep pass) (s, decisions) = .ok (s', decisions') →
      Edits (passScope pass fits touches opens) 0 s.draft s'.draft := by
  induction l with
  | nil =>
      intro s s' decisions decisions' _ run
      cases run
      exact .refl
  | cons p l inductionHypothesis =>
      intro s s' decisions decisions' named run
      rw [List.foldlM_cons, bind_eq_ok] at run
      obtain ⟨middle, first, rest⟩ := run
      obtain ⟨person, state, known, found, rfl⟩ := (decisionStep_eq_ok named).mp first
      have here := decidedDraft_edits touches opens sound named (touched p List.mem_cons_self) state
        known
      exact here.trans (inductionHypothesis
        (fun q member => touched q (List.mem_cons_of_mem p member)) (here.named named) rest)

/-- What the decision loop reads and writes of one person. -/
def decisionView (personId : String)
    (s : ReconcileState × BTreeMap PersonActivityDecision) :
    ((Option PersonActivityState × Option GracefulTransition) ×
      (Finset ActivityReason × Bool × Bool)) × Option PersonActivityDecision :=
  (roundView personId s.1, s.2[personId]?)

/-- Everybody the decision loop names is decided once, with the view the transition loop left. -/
theorem decisions_visit {start s' : ReconcileState} {l : List String}
    {decisions : BTreeMap PersonActivityDecision} (nodup : l.Nodup)
    (run : l.foldlM (decisionStep pass) (start, ∅) = .ok (s', decisions))
    (wiring : Wired start.draft) :
    Wired s'.draft ∧ ∀ p, (p ∉ l → decisions[p]? = none) ∧
      (p ∈ l → ∃ s person state, Wired s.draft ∧ pass.manifest.people[p]? = some person ∧
        s.draft.people[p]? = some state ∧ roundView p s = roundView p start ∧
        decisions[p]? = some (decisionOn pass s p state person) ∧
        s'.draft.people[p]? = (decidedDraft pass s p state person).people[p]? ∧
        s'.draft.activeTransition p =
          (decidedDraft pass s p state person).activeTransition p) := by
  obtain ⟨wiringEnd, visits⟩ := foldlM_visit
    (fun s : ReconcileState × BTreeMap PersonActivityDecision => Wired s.1.draft) (fun _ => True)
    decisionView (fun _ _ _ _ _ _ => trivial)
    (fun s p _ s' ran _ wiring _ => by
      obtain ⟨person, state, known, found, rfl⟩ :=
        (decisionStep_eq_ok wiring.named).mp ran
      have chain := decidedDraft_edits (· = p) (fun _ => True) (False.elim : False → RecordsFit pass.manifest pass.stamp)
        wiring.named rfl state known
      refine ⟨chain.wired wiring wiring.small, fun q other => ?_⟩
      obtain ⟨people, owed⟩ := chain.untouched wiring wiring.small (show ¬ q = p from other)
      have reasons : reasonsOf (verdictOn pass s.1 p state).reasons q = reasonsOf s.1.reasons q :=
        settledVerdict_reasons other
      simp only [decisionView, roundView, leaseView, people, owed, reasons,
        BTreeMap.getElem?_insert, if_neg other.symm])
    nodup run wiring trivial (fun _ _ => rfl)
  refine ⟨wiringEnd, fun p => ⟨fun outside => ?_, fun member => ?_⟩⟩
  · have same := congrArg Prod.snd ((visits p).1 outside)
    exact same.trans (by simp [decisionView])
  · obtain ⟨s₁, s₂, ran, wiring₁, _, _, same, kept⟩ := (visits p).2 member
    obtain ⟨person, state, known, found, rfl⟩ :=
      (decisionStep_eq_ok wiring₁.named).mp ran
    have view := congrArg Prod.fst kept
    refine ⟨s₁.1, person, state, wiring₁, known, found, congrArg Prod.fst same,
      (congrArg Prod.snd kept).trans ?_, (roundView_eq view).1, (roundView_eq view).2.1⟩
    simp [decisionView]

/-! ### The preparation -/

section Preparation

variable {reasons : Reasons} {draft : ActivityLedger}

/-- The state after its idle clock is recomputed. -/
def PersonActivityState.clocked (state : PersonActivityState) (pass : Pass) (reasons : Reasons)
    (personId : String) : PersonActivityState :=
  { state with
    idleSince :=
      if personId = pass.chief ∨ hasEffectiveDemand reasons personId = true ∨
          state.lastDesiredActive = false then none
      else agentQuietSince state pass.watchingSince pass.now }

/-- Recomputing a clock twice is recomputing it once. -/
theorem clocked_clocked (state : PersonActivityState) :
    (state.clocked pass reasons personId).clocked pass reasons personId =
      state.clocked pass reasons personId := rfl

theorem stampIdle_people {l : List String} {draft : ActivityLedger} {p : String} :
    (l.foldl (stampIdle pass reasons) draft).people[p]? =
      if p ∈ l then (draft.people[p]?).map fun state => state.clocked pass reasons p
      else draft.people[p]? := by
  induction l generalizing draft with
  | nil => rfl
  | cons q l inductionHypothesis =>
      have here : (stampIdle pass reasons draft q).people[p]? =
          if q = p then (draft.people[p]?).map fun state => state.clocked pass reasons q
          else draft.people[p]? := people_modifyPerson draft q _
      rw [List.foldl_cons, inductionHypothesis, here]
      by_cases same : q = p
      · subst same
        by_cases again : q ∈ l
        · cases draft.people[q]? with
          | none => simp
          | some state => simp [again, clocked_clocked]
        · simp [again]
      · have other : p ≠ q := fun h => same h.symm
        simp [same, other]

/-- The idle loop leaves everything but the people alone. -/
theorem stampIdle_frame {l : List String} {draft : ActivityLedger} :
    (l.foldl (stampIdle pass reasons) draft).personOrder = draft.personOrder ∧
      (l.foldl (stampIdle pass reasons) draft).transitions = draft.transitions ∧
      (l.foldl (stampIdle pass reasons) draft).automaticParkCursor =
        draft.automaticParkCursor := by
  refine foldl_invariant (fun ledger : ActivityLedger =>
    ledger.personOrder = draft.personOrder ∧ ledger.transitions = draft.transitions ∧
      ledger.automaticParkCursor = draft.automaticParkCursor) (fun ledger p _ same => ?_)
    ⟨rfl, rfl, rfl⟩
  exact same

/-- The quiet instants a pass would copy can be read back. -/
def QuietReadable (watchingSince now : Int) (ledger : ActivityLedger) : Prop :=
  ∀ ⦃personId : String⦄ ⦃state : PersonActivityState⦄, ledger.people[personId]? = some state →
    ∀ value ∈ agentQuietSince state watchingSince now, Readable value

theorem quietReadable_iff {watchingSince now : Int} {ledger : ActivityLedger} :
    QuietReadable watchingSince now ledger ↔ ∀ entry ∈ ledger.people.toList,
      ∀ value ∈ agentQuietSince entry.2 watchingSince now, Readable value :=
  ⟨fun quiet _ member =>
    quiet (Std.ExtTreeMap.mem_toList_iff_getElem?_eq_some.mp member),
    fun quiet personId state found =>
      quiet (personId, state) (Std.ExtTreeMap.mem_toList_iff_getElem?_eq_some.mpr found)⟩

instance (watchingSince now : Int) (ledger : ActivityLedger) :
    Decidable (QuietReadable watchingSince now ledger) :=
  decidable_of_iff _ quietReadable_iff.symm

/-- The scope of a whole pass, idle clocks included. -/
def wideScope (pass : Pass) (fits : Prop) (touches : String → Prop)
    (opens : GracefulTransition → Prop) : Scope :=
  { passScope pass fits touches opens with rewrites := fun _ _ => True }

theorem passScope_within : (passScope pass fits touches opens).Within
    (wideScope pass fits touches opens) where
  manifest := rfl
  stamp := rfl
  fits holds := holds
  touches _ touched := touched
  moves _ _ moved := moved
  opens _ opened := opened
  rewrites _ _ _ := trivial

theorem stampIdle_edits (opens : GracefulTransition → Prop) (quiet : fits → QuietReadable pass.watchingSince pass.now draft) {l : List String}
    (touched : ∀ p ∈ l, touches p) :
    Edits (wideScope pass fits touches opens) 0 draft (l.foldl (stampIdle pass reasons) draft) := by
  have kept : ∀ ledger : ActivityLedger, ∀ p ∈ l,
      ((fits → QuietReadable pass.watchingSince pass.now ledger) ∧
        Edits (wideScope pass fits touches opens) 0 draft ledger) →
      ((fits → QuietReadable pass.watchingSince pass.now (stampIdle pass reasons ledger p)) ∧
        Edits (wideScope pass fits touches opens) 0 draft (stampIdle pass reasons ledger p)) := by
    rintro ledger p member ⟨quiet, chain⟩
    refine ⟨fun holds q state found value given => ?_, chain.trans (.single (.person
      (f := fun state => state.clocked pass reasons p) (touched p member) fun state found => ?_))⟩
    · have here : (stampIdle pass reasons ledger p).people[q]? =
          if p = q then (ledger.people[q]?).map fun state => state.clocked pass reasons p
          else ledger.people[q]? := people_modifyPerson ledger p _
      rw [here] at found
      split at found
      · obtain ⟨before, stored, rfl⟩ := Option.map_eq_some_iff.mp found
        exact quiet holds stored value given
      · exact quiet holds found value given
    · refine ⟨rfl, .inl rfl, trivial, fun holds rules =>
        { rules with idle := fun value member => ?_ }⟩
      unfold PersonActivityState.clocked at member
      simp only at member
      split at member
      · cases member
      · exact quiet holds found value member
  exact (foldl_invariant (fun ledger => (fits → QuietReadable pass.watchingSince pass.now ledger) ∧
    Edits (wideScope pass fits touches opens) 0 draft ledger) kept ⟨quiet, .refl⟩).2

theorem advanceCursor_frame {ledger : ActivityLedger} {admitted : List String} :
    (advanceCursor ledger admitted).personOrder = ledger.personOrder ∧
      (advanceCursor ledger admitted).people = ledger.people ∧
      (advanceCursor ledger admitted).transitions = ledger.transitions := by
  unfold advanceCursor
  split
  · exact ⟨rfl, rfl, rfl⟩
  · split <;> exact ⟨rfl, rfl, rfl⟩

/-- Where the loops of a pass start from. -/
theorem prepare_people {requested : BTreeSet} {p : String} (listed : p ∈ draft.personOrder) :
    (prepare pass requested draft).1.draft.people[p]? = (draft.people[p]?).map fun state =>
      state.clocked pass (demandReasons pass.manifest pass.chief requested) p := by
  simp only [prepare, advanceCursor_frame.2.1, stampIdle_people, if_pos listed]

theorem prepare_people_unlisted {requested : BTreeSet} {p : String}
    (unlisted : p ∉ draft.personOrder) :
    (prepare pass requested draft).1.draft.people[p]? = draft.people[p]? := by
  simp only [prepare, advanceCursor_frame.2.1, stampIdle_people, if_neg unlisted]

theorem prepare_transitions {requested : BTreeSet} :
    (prepare pass requested draft).1.draft.transitions = draft.transitions := by
  simp only [prepare, advanceCursor_frame.2.2, stampIdle_frame.2.1]

/-- The idle clocks and the cursor change nothing anybody owes. -/
theorem prepare_activeTransition {requested : BTreeSet} {p : String} :
    (prepare pass requested draft).1.draft.activeTransition p = draft.activeTransition p := by
  unfold ActivityLedger.activeTransition
  rw [prepare_transitions]
  by_cases listed : p ∈ draft.personOrder
  · rw [prepare_people listed]
    cases draft.people[p]? <;> rfl
  · rw [prepare_people_unlisted listed]

theorem prepare_edits (touches : String → Prop) (opens : GracefulTransition → Prop)
    (quiet : fits → QuietReadable pass.watchingSince pass.now draft) (requested : BTreeSet)
    (touched : ∀ p ∈ draft.personOrder, touches p) :
    Edits (wideScope pass fits touches opens) 0 draft (prepare pass requested draft).1.draft := by
  have turned (ledger : ActivityLedger) (admitted : List String) :
      Edits (wideScope pass fits touches opens) 0 ledger (advanceCursor ledger admitted) := by
    unfold advanceCursor
    split
    · exact .refl
    · split
      · exact .single .cursor
      · exact .refl
  exact (stampIdle_edits opens quiet touched).trans (turned _ _)

/-- Everything one pass does to the repaired draft, opening at most one transition a person. -/
theorem pass_edits (sound : fits → RecordsFit pass.manifest pass.stamp) (quiet : fits → QuietReadable pass.watchingSince pass.now draft)
    {requested : BTreeSet} {middle final : ReconcileState}
    {decisions : BTreeMap PersonActivityDecision} (named : Named draft)
    (run : PassRun pass (prepare pass requested draft) middle final decisions) :
    ∃ n ≤ draft.personOrder.length,
      Edits (wideScope pass fits (fun _ => True) fun _ => True) n draft final.draft := by
  have prepared := prepare_edits (fun _ => True) (fun _ => True) quiet requested
    (fun _ _ => trivial)
  obtain ⟨n, bounded, looped⟩ := transitions_edits (fun _ => True) (fun _ => True) sound
    (fun _ => trivial) (fun _ _ => trivial) (prepared.named named) run.transitions
  have namedMiddle := looped.named (prepared.named named)
  have decided := decisions_edits (fun _ => True) (fun _ => True) sound
    (fun _ _ => trivial) namedMiddle run.decided
  rw [prepared.personOrder] at bounded
  refine ⟨0 + (n + 0), by omega, prepared.trans ?_⟩
  exact ((looped.widen roundScope_within).widen passScope_within).trans (decided.widen passScope_within)

/-- What the two loops of a pass leave of the roster they started from. -/
structure PassFrame (draft : ActivityLedger) (prepared middle final : ReconcileState) : Prop where
  preparedNamed : Named prepared.draft
  preparedOrder : prepared.draft.personOrder = draft.personOrder
  middleNamed : Named middle.draft
  middleOrder : middle.draft.personOrder = draft.personOrder
  people : ∀ p, p ∈ final.draft.people ↔ p ∈ draft.people
  order : final.draft.personOrder = draft.personOrder

theorem PassRun.frame {requested : BTreeSet} {middle final : ReconcileState}
    {decisions : BTreeMap PersonActivityDecision} (named : Named draft)
    (run : PassRun pass (prepare pass requested draft) middle final decisions) :
    PassFrame draft (prepare pass requested draft).1 middle final := by
  have nothing : False → RecordsFit pass.manifest pass.stamp := False.elim
  have unread : False → QuietReadable pass.watchingSince pass.now draft := False.elim
  have prepared := prepare_edits (fun _ => True) (fun _ => True) unread requested
    (fun _ _ => trivial)
  have namedPrepared := prepared.named named
  obtain ⟨n, _, looped⟩ := transitions_edits (fun _ => True) (fun _ => True) nothing
    (fun _ => trivial) (fun _ _ => trivial) namedPrepared run.transitions
  have namedMiddle := looped.named namedPrepared
  have decided := decisions_edits (fun _ => True) (fun _ => True) nothing (fun _ _ => trivial)
    namedMiddle run.decided
  exact ⟨namedPrepared, prepared.personOrder, namedMiddle,
    looped.personOrder.trans prepared.personOrder, fun p =>
      decided.mem_people.trans (looped.mem_people.trans prepared.mem_people),
    decided.personOrder.trans (looped.personOrder.trans prepared.personOrder)⟩

/-! ### One person through a pass -/

/-- A round keeps the substance of its person's state. -/
theorem transitionStep_substance {s s' : ReconcileState} {state : PersonActivityState}
    (named : Named s.draft) (ran : transitionStep pass admitted s personId = .ok s')
    (found : s.draft.people[personId]? = some state) :
    ∃ state', s'.draft.people[personId]? = some state' ∧ state'.substance = state.substance := by
  obtain ⟨n, _, edits⟩ := transitionStep_edits (fun _ => True) (fun _ => True)
    (False.elim : False → RecordsFit pass.manifest pass.stamp) named trivial (fun _ _ => trivial) ran
  have member : personId ∈ s'.draft.people :=
    edits.mem_people.mpr (BTreeMap.mem_of_getElem? found)
  obtain ⟨state', left⟩ := BTreeMap.mem_iff_getElem?.mp member
  refine ⟨state', left, edits.state (fun s => s.substance = state.substance)
    (fun _ _ same rewrite => rewrite.allowed.trans same) (fun _ _ same => same)
    (fun other here => ?_) left⟩
  rw [found] at here
  obtain rfl := Option.some.inj here
  rfl

/-- What is structurally due is read from the substance of a state. -/
theorem structuralTransition_of_substance {state other : PersonActivityState}
    (same : other.substance = state.substance) (manifest : OrganizationManifest) (p : String) :
    structuralTransition other manifest p = structuralTransition state manifest p := by
  have read (state : PersonActivityState) : structuralTransition state.substance manifest p =
    structuralTransition state manifest p := rfl
  rw [← read other, same, read state]

/-- What one pass does with one person: `opening` and `closing` are around the person's round of the
transition loop, `deciding` is what their decision reads. -/
structure PersonPass (pass : Pass) (prepared : ReconcileState × List String) (personId : String)
    (opening closing deciding final : ReconcileState)
    (decisions : BTreeMap PersonActivityDecision) (state : PersonActivityState)
    (person : PersonRecord) : Prop where
  round : transitionStep pass prepared.2 opening personId = .ok closing
  openingWired : Wired opening.draft
  closingWired : Wired closing.draft
  decidingWired : Wired deciding.draft
  opens : roundView personId opening = roundView personId prepared.1
  closes : roundView personId deciding = roundView personId closing
  known : pass.manifest.people[personId]? = some person
  found : deciding.draft.people[personId]? = some state
  decision : decisions[personId]? = some (decisionOn pass deciding personId state person)
  people : final.draft.people[personId]? =
    (decidedDraft pass deciding personId state person).people[personId]?
  owed : final.draft.activeTransition personId =
    (decidedDraft pass deciding personId state person).activeTransition personId

section People

variable {requested : BTreeSet} {middle final : ReconcileState}
  {decisions : BTreeMap PersonActivityDecision}

/-- Every person of the roster goes through a pass that left a number to spare. -/
theorem PassRun.person (wiring : Wired draft) (spare : ¬ Exhausted final.draft)
    (run : PassRun pass (prepare pass requested draft) middle final decisions)
    (listed : personId ∈ draft.personOrder) :
    ∃ opening closing deciding state person, PersonPass pass (prepare pass requested draft) personId
      opening closing deciding final decisions state person := by
  have unread : False → QuietReadable pass.watchingSince pass.now draft := False.elim
  have prepared := prepare_edits (fun _ => True) (fun _ => True) unread requested
    (fun _ _ => trivial)
  have wiredPrepared := prepared.wired_unopened wiring
  have frame := run.frame wiring.named
  have spareMiddle : ¬ Exhausted middle.draft := by
    have decided := decisions_edits (fun _ => True) (fun _ => True)
      (False.elim : False → RecordsFit pass.manifest pass.stamp) (fun _ _ => trivial)
      frame.middleNamed run.decided
    exact decided.spare spare
  have nodup := wiring.people.nodup
  have transitions := run.transitions
  rw [frame.preparedOrder] at transitions
  obtain ⟨_, wiredMiddle, rounds⟩ := transitions_visit nodup transitions wiredPrepared spareMiddle
  have decided := run.decided
  rw [frame.middleOrder] at decided
  obtain ⟨_, verdicts⟩ := decisions_visit nodup decided wiredMiddle
  obtain ⟨opening, closing, round, openingWired, closingWired, opens, kept⟩ :=
    (rounds personId).2 listed
  obtain ⟨deciding, person, state, decidingWired, known, found, same, decision, people, owed⟩ :=
    (verdicts personId).2 listed
  exact ⟨opening, closing, deciding, state, person, round, openingWired, closingWired,
    decidingWired, opens, same.trans kept, known, found, decision, people, owed⟩

/-- A routine idle park the draft did not have is one its owner could be put into. -/
def ParkedInPass (draft : ActivityLedger) (prepared : ReconcileState × List String) (id : String)
    (t : GracefulTransition) : Prop :=
  id ∉ draft.transitions → isRoutineIdlePark t = true → MayPark prepared.2 prepared.1 t.personId

theorem ParkedInPass.moved {prepared : ReconcileState × List String} {id : String}
    {scope : Scope} {t t' : GracefulTransition} (holds : ParkedInPass draft prepared id t)
    (move : Move scope t t') (order : Orderly t t') : ParkedInPass draft prepared id t' := by
  intro new routine
  have same : isRoutineIdlePark t' = isRoutineIdlePark t := by
    simp only [isRoutineIdlePark, move.action, move.intentId, order.reason]
  rw [same] at routine
  exact move.personId ▸ holds new routine

/-- A routine idle park a pass opened is one its owner could be put into as the pass began. -/
theorem PassRun.opened (wiring : Wired draft) (spare : ¬ Exhausted final.draft)
    (run : PassRun pass (prepare pass requested draft) middle final decisions) {id : String}
    {t : GracefulTransition} (stored : final.draft.transitions[id]? = some t)
    (fresh : id ∉ draft.transitions) (routine : isRoutineIdlePark t = true) :
    MayPark (prepare pass requested draft).2 (prepare pass requested draft).1 t.personId := by
  have unread : False → QuietReadable pass.watchingSince pass.now draft := False.elim
  have prepared := prepare_edits (fun _ => True) (fun _ => True) unread requested
    (fun _ _ => trivial)
  have wiredPrepared := prepared.wired_unopened wiring
  have frame := run.frame wiring.named
  have decided := decisions_edits (fun _ => True) (fun _ => False)
    (False.elim : False → RecordsFit pass.manifest pass.stamp) (fun _ _ => trivial)
    frame.middleNamed run.decided
  have transitions := run.transitions
  rw [frame.preparedOrder] at transitions
  obtain ⟨⟨n, looped⟩, wiredMiddle, _⟩ := transitions_visit wiring.people.nodup transitions
    wiredPrepared (decided.spare spare)
  have middleParked : ∀ id t, middle.draft.transitions[id]? = some t →
      ParkedInPass draft (prepare pass requested draft) id t := by
    intro id t found
    refine looped.origin wiredPrepared.small _
      (fun _ _ _ holds move => holds.moved move move.allowed)
      (fun _ t opening _ _ _ routine => opening.allowed routine) (fun id t old new => ?_) found
    rw [prepare_transitions] at old
    exact absurd (BTreeMap.mem_of_getElem? old) new
  exact decided.origin wiredMiddle.small _ (fun _ _ _ holds move => holds.moved move move.allowed)
    (fun _ t opening _ _ _ _ => opening.allowed.elim) middleParked stored fresh routine

end People

end Preparation

end Chief.Activity
