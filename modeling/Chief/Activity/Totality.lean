/-
Module: Chief.Activity.Totality
Layer: Proofs
Purpose: When one reconcile of the whole company goes through: the clock, the counter and the quiet
  instants in reach, it succeeds exactly when nobody holds a live handoff on other terms than the
  structural change the manifest asks of them.
Trusted boundary: none
Main exports: Conflicted, transitionStep_eq_ok_iff, transitions_succeed, reconcile_succeeds_iff
-/
import Chief.Activity.Validity

namespace Chief.Activity

open Foundation ActivityLedger

/-! ### The conflict -/

/-- The person's live handoff is not the one the manifest asks for, and the pass cannot abandon it:
the fence admits its owner, or it was released already. -/
def Conflicted (pass : Pass) (draft : ActivityLedger) (personId : String) : Prop :=
  ∃ state structural current, draft.people[personId]? = some state ∧
    structuralTransition state pass.manifest personId = some structural ∧
    draft.activeTransition personId = some current ∧ current.status.isTerminal = false ∧
    (current.action ≠ structural.action ∨ current.toDepartmentId ≠ structural.toDepartmentId) ∧
    (pass.admits personId = true ∨ current.status.isPending = false)

section Round

variable {pass : Pass} {s : ReconcileState} {personId : String} {admitted : List String}
  {draft : ActivityLedger} {spec : TransitionSpec} {state : PersonActivityState}

theorem newTransition_succeeds (parses : (parseIsoMillis pass.stamp).isSome = true)
    (member : spec.personId ∈ draft.people) :
    ∃ t draft', newTransition draft spec pass.stamp = .ok (t, draft') := by
  obtain ⟨requested, parsed⟩ := Option.isSome_iff_exists.mp parses
  obtain ⟨state, found⟩ := BTreeMap.mem_iff_getElem?.mp member
  exact ⟨_, _, newTransition_eq_ok.mpr ⟨requested, state, parsed, found, rfl, rfl⟩⟩

/-- Terms without an intent are served unless a live handoff stands on other ones. -/
theorem ensure_succeeds_iff (spec : TransitionSpec) (named : Named draft)
    (parses : (parseIsoMillis pass.stamp).isSome = true) (member : spec.personId ∈ draft.people)
    (unowned : spec.intentId = none) :
    (∃ t draft', ensureMatchingTransition draft spec pass.stamp = .ok (t, draft')) ↔
      ∀ current, draft.activeTransition spec.personId = some current →
        current.status.isTerminal = false →
          current.action = spec.action ∧ current.toDepartmentId = spec.toDepartmentId := by
  rw [ensureMatchingTransition_eq named]
  cases owed : draft.activeTransition spec.personId with
  | none => simpa using newTransition_succeeds parses member
  | some current =>
      simp only [supersedes_unowned unowned, Bool.false_eq_true, if_false, Option.some.injEq,
        forall_eq']
      cases terminal : current.status.isTerminal with
      | false =>
          have live : startsFresh spec current = false := by simp [startsFresh, terminal]
          simp [live, matchExisting, unowned]
      | true =>
          simp only [Bool.true_eq_false, false_implies, iff_true]
          split
          · exact newTransition_succeeds parses member
          · rename_i retry
            have own : ownStructuralRetry spec current = true := by
              simpa [startsFresh, terminal] using retry
            simp only [ownStructuralRetry, decide_eq_true_eq] at own
            simp [matchExisting, unowned, own.2.1, own.2.2.1]

/-- Aging changes none of what makes a conflict. -/
theorem aged_isTerminal (current : GracefulTransition) :
    (pass.aged current).status.isTerminal = current.status.isTerminal := by
  rcases aged_cases pass current with same | ⟨awaiting, overdue⟩
  · rw [same]
  · rw [overdue, awaiting]
    rfl

theorem noteHandoff_succeeds (named : Named s.draft) : ∃ s', noteHandoff s personId = .ok s' :=
  ⟨_, noteHandoff_eq named⟩

/-- The structural arm fails only over a live handoff on other terms it cannot abandon. -/
theorem structuralStep_succeeds_iff {transition : Option String}
    {structural : StructuralTransition} (named : Named s.draft)
    (parses : (parseIsoMillis pass.stamp).isSome = true) (member : personId ∈ s.draft.people)
    (same : transition = none ↔ s.draft.activeTransition personId = none) :
    (∃ s', structuralStep pass s personId transition structural = .ok s') ↔
      ∀ current, s.draft.activeTransition personId = some current →
        current.status.isTerminal = false →
        (pass.admits personId = true ∨ current.status.isPending = false) →
          current.action = structural.action ∧
            current.toDepartmentId = structural.toDepartmentId := by
  unfold structuralStep
  split
  · rename_i direct
    have free := same.mp direct.2.1
    simp [free]
  · split
    · rename_i fenced
      refine iff_of_true ⟨_, rfl⟩ fun current owed _ unabandoned => ?_
      have pending : current.status.isPending = true := by simpa [owed] using fenced.1
      simp [fenced.2, pending] at unabandoned
    · rename_i waits
      have ensures := ensure_succeeds_iff (structural.spec personId) named parses member rfl
      have noted : ∀ pair : GracefulTransition × ActivityLedger,
          ensureMatchingTransition s.draft (structural.spec personId) pass.stamp = .ok pair →
            ∀ reasons, ∃ s', noteHandoff { s with draft := pair.2, reasons := reasons } personId =
              .ok s' := by
        intro pair ensured reasons
        exact noteHandoff_succeeds (s := { s with draft := pair.2, reasons := reasons })
          (named_ensured named rfl ensured)
      have served := bind_succeeds_iff fun pair ensured => noted pair ensured (addReason s.reasons
        personId (if pair.1.status.isPending then .handoffRequired else .transitionReady))
      refine served.trans (Prod.exists.trans (ensures.trans ?_))
      refine forall_congr' fun current => imp_congr_right fun owed => imp_congr_right fun _ => ?_
      have unabandoned : pass.admits personId = true ∨ current.status.isPending = false := by
        have owed : s.draft.activeTransition personId = some current := owed
        by_contra stuck
        simp only [not_or, Bool.not_eq_true, Bool.not_eq_false] at stuck
        exact waits ⟨by simpa [owed] using stuck.2, stuck.1⟩
      simp only [unabandoned, true_implies]
      rfl

/-- The idle arm never fails: a park it meets is on the terms of a park. -/
theorem idleStep_succeeds (admitted : List String) (named : Named s.draft)
    (parses : (parseIsoMillis pass.stamp).isSome = true) (member : personId ∈ s.draft.people)
    (parks : ∀ current, s.draft.activeTransition personId = some current →
      current.action = .park → current.toDepartmentId = none) :
    ∃ s', idleStep pass admitted s personId = .ok s' ∧ Named s'.draft := by
  unfold idleStep
  split
  · rename_i allParks
    split
    · have clear : ∀ current, s.draft.activeTransition (idleParkSpec personId).personId =
          some current → current.status.isTerminal = false →
            current.action = (idleParkSpec personId).action ∧
              current.toDepartmentId = (idleParkSpec personId).toDepartmentId := by
        intro current owed _
        have owed : s.draft.activeTransition personId = some current := owed
        have park : current.action = .park := by simpa [owed] using allParks
        exact ⟨park, parks current owed park⟩
      obtain ⟨t, draft, ensured⟩ := (ensure_succeeds_iff (idleParkSpec personId) named parses member rfl).mpr
        clear
      rw [ensured, ok_bind]
      exact ⟨_, rfl, named_ensured named rfl ensured⟩
    · exact ⟨_, rfl, named⟩
  · exact ⟨_, rfl, named⟩

/-- A round succeeds unless its person is in conflict. -/
theorem transitionStep_succeeds_iff (admitted : List String) (named : Named s.draft)
    (parses : (parseIsoMillis pass.stamp).isSome = true)
    (found : s.draft.people[personId]? = some state)
    (parks : ∀ current, s.draft.activeTransition personId = some current →
      current.action = .park → current.toDepartmentId = none) :
    (∃ s', transitionStep pass admitted s personId = .ok s') ↔
      ¬ Conflicted pass s.draft personId := by
  have namedAged := agedDraft_named pass personId named
  have owedAged : (agedDraft pass s.draft personId).activeTransition personId =
      (s.draft.activeTransition personId).map pass.aged := agedDraft_owed named
  have foundAged : (agedDraft pass s.draft personId).people[personId]? = some state := by
    rw [agedDraft_people]
    exact found
  have member : personId ∈ (agedDraft pass s.draft personId).people :=
    BTreeMap.mem_of_getElem? foundAged
  unfold transitionStep
  simp only [markOverdue_eq pass personId named, ok_bind, foundAged]
  cases gap : structuralTransition state pass.manifest personId with
  | none =>
      have clear : ¬ Conflicted pass s.draft personId := by
        rintro ⟨state', structural, _, found', gap', _⟩
        rw [found] at found'
        obtain rfl := Option.some.inj found'
        rw [gap] at gap'
        cases gap'
      refine iff_of_true ?_ clear
      simp only
      split
      · obtain ⟨s', stepped, namedAfter⟩ := idleStep_succeeds admitted
          (s := { s with draft := agedDraft pass s.draft personId })
          namedAged parses member fun current owed park => by
            rw [owedAged] at owed
            obtain ⟨before, owedBefore, rfl⟩ := Option.map_eq_some_iff.mp owed
            rw [aged_toDepartmentId]
            exact parks before owedBefore (by simpa using park)
        rw [stepped, ok_bind]
        exact noteHandoff_succeeds namedAfter
      · split
        · rw [yieldStep_eq namedAged, ok_bind]
          have yielded : Edits (roundScope pass False (fun _ => True) fun _ => True) 0
              (agedDraft pass s.draft personId)
              (yieldedDraft pass (agedDraft pass s.draft personId) personId) :=
            yieldedDraft_edits _ _ False.elim namedAged trivial
          exact noteHandoff_succeeds (yielded.named namedAged)
        · exact noteHandoff_succeeds namedAged
  | some structural =>
      have sameAged : s.draft.activeTransitionIdOf personId = none ↔
          (agedDraft pass s.draft personId).activeTransition personId = none := by
        rw [owedAged, Option.map_eq_none_iff, activeTransitionIdOf, Option.map_eq_none_iff]
      refine (structuralStep_succeeds_iff
        (s := { s with draft := agedDraft pass s.draft personId }) namedAged parses member
        sameAged).trans ?_
      simp only [owedAged, Option.map_eq_some_iff, forall_exists_index, and_imp,
        forall_apply_eq_imp_iff₂, aged_action, aged_toDepartmentId, aged_isPending,
        aged_isTerminal]
      constructor
      · rintro clear ⟨state', structural', current, found', gap', owed, live, other, unabandoned⟩
        rw [found] at found'
        obtain rfl := Option.some.inj found'
        rw [gap] at gap'
        obtain rfl := Option.some.inj gap'
        have same := clear current owed live unabandoned
        rcases other with other | other
        · exact other same.1
        · exact other same.2
      · intro free current owed live unabandoned
        by_contra other
        exact free ⟨state, structural, current, found, gap, owed, live,
          not_and_or.mp other, unabandoned⟩

end Round

/-! ### The loops -/

section Loops

variable {pass : Pass} {admitted : List String} {personId : String}
  {draft draft' : ActivityLedger}

theorem conflicted_congr (people : draft.people[personId]? = draft'.people[personId]?)
    (owed : draft.activeTransition personId = draft'.activeTransition personId) :
    Conflicted pass draft personId ↔ Conflicted pass draft' personId := by
  unfold Conflicted
  rw [people, owed]

/-- What the transition loop needs of the rounds still to come. -/
structure RoundsAhead (pass : Pass) (rest : List String) (s : ReconcileState) : Prop where
  wired : Wired s.draft
  ruled : Ruled pass.manifest s.draft
  room : s.draft.nextTransitionSequence + rest.length ≤ u64Max
  nodup : rest.Nodup
  listed : ∀ p ∈ rest, p ∈ s.draft.people
  clear : ∀ p ∈ rest, ¬ Conflicted pass s.draft p

/-- A round with nobody ahead in conflict goes through and leaves nobody ahead in conflict. -/
theorem RoundsAhead.step {rest : List String} {s : ReconcileState}
    (records : RecordsFit pass.manifest pass.stamp) (ahead : RoundsAhead pass (personId :: rest) s) :
    ∃ s', transitionStep pass admitted s personId = .ok s' ∧ RoundsAhead pass rest s' := by
  obtain ⟨unlisted, nodup⟩ := List.nodup_cons.mp ahead.nodup
  obtain ⟨state, found⟩ :=
    BTreeMap.mem_iff_getElem?.mp (ahead.listed personId List.mem_cons_self)
  have parses : (parseIsoMillis pass.stamp).isSome = true := by
    obtain ⟨now, parsed, _⟩ := records.clock
    rw [parsed]
    rfl
  obtain ⟨s', ran⟩ := (transitionStep_succeeds_iff admitted ahead.wired.named parses found
    (fun _ owed park => ahead.ruled.park_untargeted ahead.wired.named owed park)).mpr
      (ahead.clear personId List.mem_cons_self)
  obtain ⟨n, atMostOne, edits⟩ := transitionStep_edits (· = personId) (fun _ => True)
    (fun _ : True => records) ahead.wired.named rfl (fun _ _ => trivial) ran
  have room := ahead.room
  rw [List.length_cons] at room
  have fits : s.draft.nextTransitionSequence + n ≤ u64Max := by omega
  have grown := edits.next ahead.wired.small
  have others {p : String} (member : p ∈ rest) : ¬ p = personId :=
    fun same => unlisted (same ▸ member)
  refine ⟨s', ran,
    { wired := edits.wired ahead.wired fits
      ruled := edits.ruled ahead.ruled trivial
      room := by omega
      nodup := nodup
      listed := fun p member =>
        edits.mem_people.mpr (ahead.listed p (List.mem_cons_of_mem _ member))
      clear := fun p member => ?_ }⟩
  obtain ⟨people, owed⟩ := edits.untouched ahead.wired fits (others member)
  rw [conflicted_congr people owed]
  exact ahead.clear p (List.mem_cons_of_mem _ member)

theorem transitions_succeed {start : ReconcileState} {l : List String} (admitted : List String)
    (records : RecordsFit pass.manifest pass.stamp) (ahead : RoundsAhead pass l start) :
    ∃ s', l.foldlM (transitionStep pass admitted) start = .ok s' := by
  obtain ⟨s', run, _⟩ := foldlM_ok (RoundsAhead pass) (fun _ _ _ ahead => ahead.step records) ahead
  exact ⟨s', run⟩

/-- The decision loop succeeds over people the manifest and the ledger know. -/
theorem decisions_succeed (pass : Pass) {start : ReconcileState} {l : List String}
    (named : Named start.draft) (known : ∀ p ∈ l, p ∈ pass.manifest.people)
    (listed : ∀ p ∈ l, p ∈ start.draft.people) :
    ∃ s', l.foldlM (decisionStep pass) (start, ∅) = .ok s' := by
  obtain ⟨s', run, _⟩ := foldlM_ok
    (fun rest (s : ReconcileState × BTreeMap PersonActivityDecision) => Named s.1.draft ∧
      (∀ p ∈ rest, p ∈ pass.manifest.people) ∧ ∀ p ∈ rest, p ∈ s.1.draft.people)
    (fun p rest s holds => by
      obtain ⟨s, decisions⟩ := s
      obtain ⟨named, known, listed⟩ := holds
      obtain ⟨person, isPerson⟩ := BTreeMap.mem_iff_getElem?.mp (known p List.mem_cons_self)
      obtain ⟨state, found⟩ := BTreeMap.mem_iff_getElem?.mp (listed p List.mem_cons_self)
      have edits := decidedDraft_edits (fun _ => True) (fun _ => True)
        (False.elim : False → RecordsFit pass.manifest pass.stamp) named trivial state isPerson
      refine ⟨_, (decisionStep_eq_ok named).mpr ⟨person, state, isPerson, found, rfl⟩,
        edits.named named, fun q member => known q (List.mem_cons_of_mem _ member),
        fun q member => ?_⟩
      exact edits.mem_people.mpr (listed q (List.mem_cons_of_mem _ member)))
    (s := (start, ∅)) ⟨named, known, listed⟩
  exact ⟨s', run⟩

end Loops

/-! ### The whole pass -/

section Whole

variable {pass : Pass} {requested : BTreeSet} {personId : String} {draft : ActivityLedger}

/-- The preparation of a pass touches nothing a conflict is made of. -/
theorem conflicted_prepare :
    Conflicted pass (prepare pass requested draft).1.draft personId ↔
      Conflicted pass draft personId := by
  unfold Conflicted
  rw [prepare_activeTransition]
  by_cases listed : personId ∈ draft.personOrder
  · rw [prepare_people listed]
    cases draft.people[personId]? with
    | none => simp
    | some state =>
        have same : ∀ reasons : Reasons,
            structuralTransition (state.clocked pass reasons personId) pass.manifest personId =
              structuralTransition state pass.manifest personId := fun _ => rfl
        simp [same]
  · rw [prepare_people_unlisted listed]

theorem unknownRequested_eq_none {manifest : OrganizationManifest} {ids : List String}
    (known : ∀ p ∈ ids, p ∈ manifest.people) :
    unknownRequested manifest (Std.ExtTreeSet.ofList ids) = none := by
  unfold unknownRequested
  rw [List.find?_eq_none]
  intro p member
  have asked : p ∈ ids := by simpa using member
  simpa using known p asked

/-- Both loops of a pass go through over a draft that is valid, has room and readable quiet instants,
exactly when nobody is in conflict. -/
theorem passRun_exists_iff (requested : BTreeSet) (records : RecordsFit pass.manifest pass.stamp)
    (valid : Valid pass.manifest draft) (order : draft.personOrder = pass.manifest.peopleOrder)
    (quiet : QuietReadable pass.watchingSince pass.now draft)
    (room : draft.nextTransitionSequence + pass.manifest.peopleOrder.length ≤ u64Max) :
    (∃ middle final decisions, PassRun pass (prepare pass requested draft) middle final decisions) ↔
      ∀ p, ¬ Conflicted pass draft p := by
  have wellFormed := records.wellFormed
  have parses : (parseIsoMillis pass.stamp).isSome = true := by
    obtain ⟨now, parsed, _⟩ := records.clock
    rw [parsed]
    rfl
  have wiring := valid.wired (by omega)
  have prepared := prepare_edits (fun _ => True) (fun _ => True) (fun _ : True => quiet) requested
    (fun _ _ => trivial)
  have wiredPrepared := prepared.wired_unopened wiring
  have orderPrepared : (prepare pass requested draft).1.draft.personOrder =
      pass.manifest.peopleOrder := prepared.personOrder.trans order
  have next := prepared.next wiring.small
  have listedIff (p : String) : p ∈ pass.manifest.peopleOrder ↔
      p ∈ (prepare pass requested draft).1.draft.people := by
    rw [← orderPrepared]
    exact wiredPrepared.people.mem_iff p
  constructor
  · rintro ⟨middle, final, decisions, run⟩ p conflicted
    obtain ⟨state, _, _, found, _⟩ := id conflicted
    have transitions := run.transitions
    rw [orderPrepared] at transitions
    obtain ⟨n, bounded, looped⟩ := transitions_edits (fun _ => True) (fun _ => True)
      (fun _ : True => records) (fun _ => trivial) (fun _ _ => trivial) wiredPrepared.named
      transitions
    have spare := (looped.wired wiredPrepared (by omega)).spare
    have listed : p ∈ pass.manifest.peopleOrder := by
      rw [← order]
      exact (wiring.people.mem_iff p).mpr (BTreeMap.mem_of_getElem? found)
    obtain ⟨_, _, visits⟩ := transitions_visit
      (order ▸ wiring.people.nodup) transitions wiredPrepared spare
    obtain ⟨s₁, s₂, ran, wired₁, _, same, _⟩ := (visits p).2 listed
    obtain ⟨people, owed, _⟩ := roundView_eq same
    have here := (conflicted_congr people owed).mpr (conflicted_prepare.mpr conflicted)
    obtain ⟨state₁, _, _, found₁, _⟩ := id here
    refine (transitionStep_succeeds_iff _ wired₁.named parses found₁ ?_).mp ⟨s₂, ran⟩ here
    rw [owed, prepare_activeTransition]
    exact fun _ owed park => valid.ruled.park_untargeted wiring.named owed park
  · intro clear
    have ahead : RoundsAhead pass pass.manifest.peopleOrder (prepare pass requested draft).1 :=
      { wired := wiredPrepared
        ruled := prepared.ruled valid.ruled trivial
        room := by omega
        nodup := order ▸ wiring.people.nodup
        listed := fun p member => (listedIff p).mp member
        clear := fun p _ conflicted => clear p (conflicted_prepare.mp conflicted) }
    obtain ⟨middle, transitions⟩ := transitions_succeed
      (prepare pass requested draft).2 records ahead
    obtain ⟨n, _, looped⟩ := transitions_edits (fun _ => True) (fun _ => True)
      (fun _ : True => records) (fun _ => trivial) (fun _ _ => trivial) wiredPrepared.named
      transitions
    have orderMiddle : middle.draft.personOrder = pass.manifest.peopleOrder :=
      looped.personOrder.trans orderPrepared
    obtain ⟨⟨final, decisions⟩, decided⟩ := decisions_succeed pass
      (looped.named wiredPrepared.named)
      (fun p member => (wellFormed.peopleListed.mem_iff p).mp member)
      (fun p member => looped.mem_people.mpr ((listedIff p).mp member))
    refine ⟨middle, final, decisions, ?_, ?_⟩
    · rw [orderPrepared]
      exact transitions
    · rw [orderMiddle]
      exact decided

end Whole

/-! ### The reconcile -/

section Reconcile

variable {ledgers : Ledgers} {manifest : OrganizationManifest} {supervision : SupervisionLedger}
  {input : ReconcileInput} {current : ActivityLedger} {chief : String}

/-- A mutation goes through when the repaired draft is valid, its body succeeds and what it leaves is
valid. -/
theorem mutate_succeeds {α : Type} {body : Body α} {result : α} {draft : ActivityLedger}
    (stored : Holds ledgers current)
    (repaired : Valid manifest (repairedDraft manifest ledgers.now current))
    (ran : body (repairedDraft manifest ledgers.now current)
      (contextOf manifest supervision ledgers.now) (isoMillis ledgers.now) = .ok (result, draft))
    (valid : Valid manifest { draft with updatedAt := isoMillis ledgers.now }) :
    ∃ ledgers', mutate ledgers manifest supervision body = .ok (result, ledgers') := by
  have published : liftRefusal
      (validate { draft with updatedAt := isoMillis ledgers.now } manifest) = .ok () :=
    liftRefusal_eq_ok.mpr (validate_eq_ok_iff.mpr valid)
  have accepted : asStoreFailure storeName
      (validate (reconcilePeople current manifest (isoMillis ledgers.now)).1 manifest) = .ok () :=
    asStoreFailure_eq_ok.mpr (validate_eq_ok_iff.mpr repaired)
  have done : body (reconcilePeople current manifest (isoMillis ledgers.now)).1
      { manifest := manifest, supervision := supervision, now := ledgers.now }
      (isoMillis ledgers.now) = .ok (result, draft) := ran
  unfold mutate
  simp only [readForMutation_eq_ok.mpr stored, ok_bind, accepted, done]
  split
  · rw [published, ok_bind]
    exact ⟨_, rfl⟩
  · exact ⟨_, rfl⟩

/-- A stop of the worker a lifecycle command asked for. -/
def stopWorker : TransitionSpec :=
  { personId := "worker"
    action := .park
    reason := "Stop for the night."
    toDepartmentId := none
    intentId := some "stop" }

/-- The worker still sat with the executive when the stop was opened; the manifest has moved them
since. -/
def stoppedThenMoved : ActivityLedger :=
  storeMinted
    ((firstDay none).modifyPerson "worker" fun state => { state with lastDepartmentId := "executive" })
    (mintedTransition stopWorker (transitionId 1 "worker" .park) "executive" (isoMillis noon) noon)
    (isoMillis noon)

end Reconcile

end Chief.Activity
