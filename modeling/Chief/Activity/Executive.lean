/-
Module: Chief.Activity.Executive
Layer: Proofs
Purpose: What every reconcile of every run does with the executive: no idle clock, no routine park, and
  active unless a lifecycle command's own released park puts them to sleep.
Trusted boundary: none
Main exports: PutToSleep, leased_active, NeverSleeps, executive_never_sleeps
-/
import Chief.Activity.Validity

namespace Chief.Activity

open Foundation ActivityLedger

/-! ### A person with work -/

section Leased

variable {pass : Pass} {s s' : ReconcileState} {personId : String} {state : PersonActivityState}
  {admitted : List String}

/-- Nothing structural is due, and the person owes a released park a lifecycle command asked for. -/
def PutToSleep (manifest : OrganizationManifest) (personId : String) (state : PersonActivityState)
    (owed : Option GracefulTransition) : Prop :=
  structuralTransition state manifest personId = none ∧
    ∃ current, owed = some current ∧ current.action = .park ∧ current.intentId.isSome = true ∧
      current.status.isReleased = true

/-- Somebody with demand is decided active unless they are put to sleep. -/
theorem leased_active (lease : hasEffectiveDemand s.reasons personId = true)
    (unabandoned : personId ∉ s.abandoned)
    (unforced : ∀ structural, structuralTransition state pass.manifest personId = some structural →
      structural.forceRemoval = false) :
    (verdictOn pass s personId state).active = true ↔
      ¬ PutToSleep pass.manifest personId state (s.draft.activeTransition personId) := by
  have demanded : demandedActive s personId state = true := by simp [demandedActive, lease]
  unfold verdictOn settledVerdict PutToSleep
  simp only [unabandoned, and_false, if_false]
  cases owed : s.draft.activeTransition personId with
  | none => simp [openVerdict, demanded]
  | some current =>
      cases gap : structuralTransition state pass.manifest personId with
      | some structural =>
          simp only
          split
          · cases removal : current.action.isRemoval <;>
              simp [settleStructural, lease, unforced structural gap, removal]
          · simp [openVerdict, demanded]
      | none =>
          by_cases sleeps : current.action = .park ∧ current.status.isReleased = true ∧
              current.intentId.isSome = true
          · simp [settlePointer, sleeps.1, sleeps.2.1, sleeps.2.2]
          · have awake : ¬ (current.action = .park ∧ current.status.isReleased = true ∧
                (hasEffectiveDemand s.reasons personId = false ∨
                  current.intentId.isSome = true)) := by
              simpa [lease] using sleeps
            have open' : ¬ (current.action = .park ∧ current.intentId.isSome = true ∧
                current.status.isReleased = true) := fun h => sleeps ⟨h.1, h.2.2, h.2.1⟩
            simp only [settlePointer, if_neg awake]
            split
            · simp [open']
            · simp [open', openVerdict, demanded]

/-- What is demanded of a person as the pass begins is demanded after their round. -/
theorem transitionStep_leases (named : Named s.draft)
    (ran : transitionStep pass admitted s personId = .ok s')
    (found : s.draft.people[personId]? = some state) :
    reasonsOf s.reasons personId ⊆ reasonsOf s'.reasons personId := by
  have noted {a b : ReconcileState} (ran : noteHandoff a personId = .ok b) :
      reasonsOf a.reasons personId ⊆ reasonsOf b.reasons personId := by
    rcases noteHandoff_cases ran with rfl | rfl
    · exact subset_rfl
    · simp
  cases transitionStep_outcome named found ran with
  | gap _ outcome => cases outcome <;> simp
  | idle _ _ _ outcome note =>
      refine subset_trans ?_ (noted note)
      cases outcome with
      | other => exact subset_rfl
      | waiting => simp
      | parked =>
          simp only
          split <;> simp
  | pinned _ _ note =>
      have grown := noted note
      exact grown
  | resting _ _ _ note =>
      have grown := noted note
      exact grown

/-- Nobody the fence admits is abandoned in their round. -/
theorem transitionStep_abandoned (named : Named s.draft)
    (ran : transitionStep pass admitted s personId = .ok s')
    (found : s.draft.people[personId]? = some state) (admits : pass.admits personId = true) :
    s'.abandoned = s.abandoned := by
  have noted {a b : ReconcileState} (ran : noteHandoff a personId = .ok b) :
      b.abandoned = a.abandoned := by
    rcases noteHandoff_cases ran with rfl | rfl <;> rfl
  cases transitionStep_outcome named found ran with
  | gap _ outcome =>
      cases outcome with
      | abandoned _ fenced =>
          rw [admits] at fenced
          cases fenced
      | direct | ensured => rfl
  | idle _ _ _ outcome note =>
      rw [noted note]
      cases outcome <;> rfl
  | pinned _ _ note => exact (noted note).trans rfl
  | resting _ _ _ note => exact (noted note).trans rfl

/-- An overdue handoff is no more released than a pending one. -/
theorem released_aged (current : GracefulTransition) :
    (pass.aged current).status.isReleased = current.status.isReleased := by
  rcases aged_cases pass current with same | ⟨awaiting, overdue⟩
  · rw [same]
  · rw [overdue, awaiting]
    rfl

/-- A round with nothing structural due, of somebody pinned, keeps them asleep or awake. -/
theorem putToSleep_round (wiring : Wired s.draft)
    (ran : transitionStep pass admitted s personId = .ok s')
    (found : s.draft.people[personId]? = some state)
    (pinning : hasOwnPinningDemand s.reasons personId = true) :
    PutToSleep pass.manifest personId state (s'.draft.activeTransition personId) ↔
      PutToSleep pass.manifest personId state (s.draft.activeTransition personId) := by
  cases transitionStep_outcome wiring.named found ran with
  | gap due => simp [PutToSleep, due]
  | idle _ unpinned => simp [pinning] at unpinned
  | resting _ unpinned => simp [pinning] at unpinned
  | pinned settled _ note =>
      have owed : s'.draft.activeTransition personId =
          ((s.draft.activeTransition personId).map pass.aged).filter
            fun t => ¬ (t.action = .park ∧ t.intentId = none) := by
        rw [noteHandoff_draft note, yieldedDraft_owed (agedDraft_wired pass personId wiring),
          agedDraft_owed wiring.named]
      rw [owed]
      cases s.draft.activeTransition personId with
      | none => simp [PutToSleep]
      | some current =>
          by_cases unowned : current.action = .park ∧ current.intentId = none
          · simp [PutToSleep, unowned.1, unowned.2]
          · have owned := not_and_or.mp unowned
            simp [PutToSleep, released_aged, owned]

end Leased

/-! ### The executive through a pass -/

section Chief

variable {pass : Pass} {requested : BTreeSet} {draft : ActivityLedger}
  {middle final : ReconcileState} {decisions : BTreeMap PersonActivityDecision}

/-- The executive always has demand: the root unit itself. -/
theorem demandReasons_root (manifest : OrganizationManifest) (chief : String)
    (requested : BTreeSet) :
    .organizationRoot ∈ reasonsOf (demandReasons manifest chief requested) chief := by
  have seeded : .organizationRoot ∈ reasonsOf (addReason ∅ chief .organizationRoot) chief := by
    rw [reasonsOf_addReason, if_pos rfl]
    exact Finset.mem_insert_self _ _
  refine foldl_invariant (fun reasons : Reasons => .organizationRoot ∈ reasonsOf reasons chief)
    (fun reasons p _ member => ?_) seeded
  unfold addRequested
  split
  · rw [reasonsOf_addReason]
    split
    · exact Finset.mem_insert_of_mem member
    · exact member
  · exact member

theorem effective_of_root {reasons : Reasons} {p : String}
    (member : .organizationRoot ∈ reasonsOf reasons p) :
    hasEffectiveDemand reasons p = true ∧ hasOwnPinningDemand reasons p = true := by
  simp only [hasEffectiveDemand, hasOwnPinningDemand, decide_eq_true_eq]
  exact ⟨⟨_, member, rfl⟩, ⟨_, member, by decide⟩⟩

/-- What a pass leaves the executive with. -/
structure ChiefThroughPass (pass : Pass) (draft : ActivityLedger) (final : ReconcileState)
    (decisions : BTreeMap PersonActivityDecision) (before after : PersonActivityState)
    (decision : PersonActivityDecision) : Prop where
  found : draft.people[pass.chief]? = some before
  decided : decisions[pass.chief]? = some decision
  left : final.draft.people[pass.chief]? = some after
  active : decision.active = true ↔
    ¬ PutToSleep pass.manifest pass.chief before (draft.activeTransition pass.chief)
  awake : after.idleSince = none

theorem decided_idleSince {state : PersonActivityState} {person : PersonRecord}
    {active advance : Bool} (idle : state.idleSince = none) :
    (state.decided pass person active advance).idleSince = none := by
  unfold PersonActivityState.decided
  simp only
  split <;> split <;> first | rfl | exact idle

/-- The executive is admitted by every fence. -/
theorem admits_chief (pass : Pass) : pass.admits pass.chief = true := by
  unfold Pass.admits LaunchFence.admits
  cases pass.fence <;> simp

/-- A pass over an active root unit decides the executive active unless they are put to sleep, and
leaves them no idle clock. -/
theorem PassRun.chief (wiring : Wired draft) (spare : ¬ Exhausted final.draft)
    (run : PassRun pass (prepare pass requested draft) middle final decisions)
    (listed : pass.chief ∈ draft.personOrder)
    (rootActive : ∀ state structural,
      structuralTransition state pass.manifest pass.chief = some structural →
        structural.forceRemoval = false) :
    ∃ before after decision, ChiefThroughPass pass draft final decisions before after decision := by
  obtain ⟨opening, closing, deciding, state, person, through⟩ := run.person wiring spare listed
  obtain ⟨before, found⟩ := BTreeMap.mem_iff_getElem?.mp ((wiring.people.mem_iff _).mp listed)
  obtain ⟨people, owed, reasons, abandoned, _⟩ := roundView_eq through.opens
  obtain ⟨people', owed', reasons', abandoned', _⟩ := roundView_eq through.closes
  -- the round starts from the clocked state, with the demand of the root unit
  have opened : opening.draft.people[pass.chief]? = some (before.clocked pass
      (demandReasons pass.manifest pass.chief requested) pass.chief) := by
    rw [people, prepare_people listed, found]
    rfl
  have root : .organizationRoot ∈ reasonsOf opening.reasons pass.chief := by
    rw [reasons]
    exact demandReasons_root _ _ _
  have pinning := (effective_of_root root).2
  -- and leaves that demand and the state's substance to the decision
  obtain ⟨left, closed, substance⟩ :=
    transitionStep_substance through.openingWired.named through.round opened
  have deciding : state = left := by
    have same := through.found
    rw [people', closed] at same
    exact (Option.some.inj same).symm
  subst deciding
  have lease : hasEffectiveDemand deciding.reasons pass.chief = true := by
    have kept := transitionStep_leases through.openingWired.named through.round opened root
    rw [← reasons'] at kept
    exact (effective_of_root kept).1
  have unabandoned : pass.chief ∉ deciding.abandoned := by
    rw [abandoned', transitionStep_abandoned through.openingWired.named through.round opened
      (admits_chief pass), abandoned]
    exact List.not_mem_nil
  have due : structuralTransition state pass.manifest pass.chief =
      structuralTransition before pass.manifest pass.chief :=
    structuralTransition_of_substance substance _ _
  have slept (current : Option GracefulTransition) :
      PutToSleep pass.manifest pass.chief state current ↔
        PutToSleep pass.manifest pass.chief before current := by
    unfold PutToSleep
    rw [due]
  have idle : state.idleSince = none := by
    have clocks := congrArg PersonActivityState.idleSince substance
    exact clocks.trans (if_pos (.inl rfl))
  obtain ⟨unlinked, shape, here⟩ := decidedDraft_people pass person through.found
  refine ⟨before, _, _, found, through.decision, through.people.trans here, ?_, ?_⟩
  · have verdict := leased_active lease unabandoned (rootActive state)
    have round := putToSleep_round through.openingWired through.round opened pinning
    rw [owed, prepare_activeTransition, ← owed'] at round
    simp only [decisionOn, admits_chief, Bool.and_true, verdict, slept]
    exact not_congr round
  · refine decided_idleSince ?_
    rcases shape with rfl | rfl <;> exact idle

end Chief

/-! ### The executive through every run -/

/-- Only a paused unit forces a removal. -/
theorem forceRemoval_paused {state : PersonActivityState} {manifest : OrganizationManifest}
    {p : String} {structural : StructuralTransition}
    (due : structuralTransition state manifest p = some structural)
    (forced : structural.forceRemoval = true) : ∃ person, manifest.people[p]? = some person ∧
      organizationUnitIsActive manifest person.departmentId = false := by
  unfold structuralTransition at due
  cases known : manifest.people[p]? with
  | none => simp [known] at due
  | some person =>
      refine ⟨person, rfl, ?_⟩
      simp only [known] at due
      split at due
      · obtain rfl := Option.some.inj due
        cases forced
      · split at due
        · obtain rfl := Option.some.inj due
          cases forced
        · split at due
          · rename_i paused
            exact paused.2
          · split at due
            · obtain rfl := Option.some.inj due
              cases forced
            · cases due

/-- What a reconcile promises about the executive. -/
structure NeverSleeps (manifest : OrganizationManifest) (now : Int) (chief : String)
    (current published : ActivityLedger) (snapshot : ActivitySnapshot) : Prop where
  active : ∃ state decision, (repairedDraft manifest now current).people[chief]? = some state ∧
    snapshot.people[chief]? = some decision ∧
    (decision.active = true ↔ ¬ PutToSleep manifest chief state
      ((repairedDraft manifest now current).activeTransition chief))
  awake : ∃ state, published.people[chief]? = some state ∧ state.idleSince = none
  unparked : ∀ (id : String) (t : GracefulTransition), published.transitions[id]? = some t →
    t.personId = chief → isRoutineIdlePark t = true → id ∈ current.transitions

/-- In every run of calls from a fresh ledger, every reconcile of an organization whose root unit is
active leaves the executive without an idle clock and opens no routine idle park for them, and decides
them active exactly when they are not put to sleep. -/
theorem executive_never_sleeps {founded manifest : OrganizationManifest} {stamp : String}
    {start ledgers' : Ledgers} {calls : List Call} {now : Int} {supervision : SupervisionLedger}
    {input : ReconcileInput} {snapshot : ActivitySnapshot}
    (started : Holds start (ActivityLedger.initial founded stamp))
    (manifestValid : validateOrganizationManifest manifest = .ok ())
    (rootActive : organizationUnitIsActive manifest manifest.rootDepartmentId = true)
    (ran : reconcile { afterRun Call.attempt calls start with now := now } manifest supervision
      input = .ok (snapshot, ledgers')) :
    ∃ chief current published, manifest.chiefPersonId = .ok chief ∧
      Holds (afterRun Call.attempt calls start) current ∧ Holds ledgers' published ∧
      NeverSleeps manifest now chief current published snapshot := by
  have wellFormed := wellFormed_of_validate manifestValid
  obtain ⟨chief, current, middle, final, published, commit⟩ := reconcile_eq_ok ran
  obtain ⟨ledger, stored, range⟩ := runs_inRange calls started
  have before : Holds (afterRun Call.attempt calls start) current := commit.before
  obtain rfl := stored.unique before
  have ranges := commit.committed.inRange range
  refine ⟨chief, ledger, published, commit.isChief, stored, commit.after, ?_⟩
  obtain ⟨people, transitions⟩ := commit.committed.records
  obtain ⟨chief', head, isChief, known, placed, _⟩ := wellFormed.chief
  have same : chief' = chief := by
    have again := commit.isChief
    rw [isChief] at again
    exact Except.ok.inj again
  subst same
  have listed : chief' ∈ (repairedDraft manifest now ledger).personOrder := by
    rw [show (repairedDraft manifest now ledger).personOrder = manifest.peopleOrder from
      reconcilePeople_order _ _ _]
    exact (wellFormed.peopleListed.mem_iff _).mpr (BTreeMap.mem_of_getElem? known)
  have unforced : ∀ state structural, structuralTransition state manifest chief' =
      some structural → structural.forceRemoval = false := by
    intro state structural due
    by_contra forced
    obtain ⟨person, isPerson, paused⟩ := forceRemoval_paused due (by simpa using forced)
    rw [known] at isPerson
    obtain rfl := Option.some.inj isPerson
    rw [placed, rootActive] at paused
    cases paused
  obtain ⟨before, after, decision, through⟩ :=
    commit.run.chief ranges.wired ranges.spare listed unforced
  refine
    { active := ⟨before, decision, through.found, through.decided, through.active⟩
      awake := ⟨after, by rw [people]; exact through.left, through.awake⟩
      unparked := fun id t found owner routine => ?_ }
  by_contra fresh
  have new : id ∉ (repairedDraft manifest now ledger).transitions := by
    intro member
    obtain ⟨t', here⟩ := BTreeMap.mem_iff_getElem?.mp member
    obtain ⟨t₀, there, _⟩ := (reconcilePeople_repaired _ _ _).transition here
    exact fresh (BTreeMap.mem_of_getElem? there)
  rw [transitions] at found
  have parks := commit.run.opened ranges.wired ranges.spare found new routine
  have pinned := (effective_of_root (demandReasons_root manifest chief' input.requested)).2
  rw [owner] at parks
  have unpinned := parks.1
  rw [show (prepare (passOf chief' input (contextOf manifest supervision now) (isoMillis now))
    input.requested (repairedDraft manifest now ledger)).1.reasons =
      demandReasons manifest chief' input.requested from rfl, pinned] at unpinned
  cases unpinned

/-- The second reconcile of the small company keeps its executive up. -/
theorem executive_never_sleeps_second_reconcile : ∃ snapshot ledgers' chief current published,
    reconcile
        { afterRun Call.attempt [atNoon (.reconcile plainReconcile)] foundedLedgers with now := noon }
        smallCompany (SupervisionLedger.initial smallCompany "") plainReconcile =
      .ok (snapshot, ledgers') ∧ smallCompany.chiefPersonId = .ok chief ∧
      Holds (afterRun Call.attempt [atNoon (.reconcile plainReconcile)] foundedLedgers) current ∧
      Holds ledgers' published ∧ NeverSleeps smallCompany noon chief current published snapshot := by
  have ran : (reconcile
      { afterRun Call.attempt [atNoon (.reconcile plainReconcile)] foundedLedgers with now := noon }
      smallCompany (SupervisionLedger.initial smallCompany "")
      plainReconcile).toOption.isSome = true := by
    decide +kernel
  cases left : reconcile
      { afterRun Call.attempt [atNoon (.reconcile plainReconcile)] foundedLedgers with now := noon }
      smallCompany (SupervisionLedger.initial smallCompany "") plainReconcile with
  | error e =>
      rw [left] at ran
      cases ran
  | ok done =>
      have started : Holds foundedLedgers (ActivityLedger.initial smallCompany (isoMillis noon)) := rfl
      obtain ⟨chief, current, published, isChief, before, after, never⟩ :=
        executive_never_sleeps started smallCompany_valid (by decide +kernel) left
      exact ⟨done.1, done.2, chief, current, published, rfl, isChief, before, after, never⟩

/-- A lifecycle command opens a park for the executive, and they release it. -/
def sleepyCalls : List Call :=
  [atNoon (.beginTransition
      { personId := "ceo", action := .park, reason := "Stop the executive.", intentId := some "stop" }),
    atNoon (.release { transitionId := "transition:1:ceo:park", personId := "ceo" })]

/-- After those two calls the next reconcile decides the executive inactive. -/
theorem executive_put_to_sleep :
    ¬ ∀ (founded manifest : OrganizationManifest) (stamp : String) (start ledgers' : Ledgers)
      (calls : List Call) (now : Int) (supervision : SupervisionLedger) (input : ReconcileInput)
      (snapshot : ActivitySnapshot),
      validateOrganizationManifest founded = .ok () →
      Holds start (ActivityLedger.initial founded stamp) →
      (∀ call ∈ calls, validateOrganizationManifest call.manifest = .ok () ∧
        organizationUnitIsActive call.manifest call.manifest.rootDepartmentId = true) →
      validateOrganizationManifest manifest = .ok () →
      organizationUnitIsActive manifest manifest.rootDepartmentId = true →
      reconcile { afterRun Call.attempt calls start with now := now } manifest supervision input =
        .ok (snapshot, ledgers') →
      ∃ chief decision, manifest.chiefPersonId = .ok chief ∧
        snapshot.people[chief]? = some decision ∧ decision.active = true := by
  intro awake
  have asleep : (reconcile { afterRun Call.attempt sleepyCalls foundedLedgers with now := noon }
      smallCompany (SupervisionLedger.initial smallCompany "") plainReconcile).toOption.any
        (fun done => (done.1.people["ceo"]?).any fun decision => !decision.active) = true := by
    decide +kernel
  cases left : reconcile { afterRun Call.attempt sleepyCalls foundedLedgers with now := noon }
      smallCompany (SupervisionLedger.initial smallCompany "") plainReconcile with
  | error e =>
      rw [left] at asleep
      cases asleep
  | ok done =>
      rw [left] at asleep
      have started : Holds foundedLedgers (ActivityLedger.initial smallCompany (isoMillis noon)) := rfl
      have steady : ∀ call ∈ sleepyCalls, validateOrganizationManifest call.manifest = .ok () ∧
          organizationUnitIsActive call.manifest call.manifest.rootDepartmentId = true := by
        decide +kernel
      obtain ⟨chief, decision, isChief, found, active⟩ := awake smallCompany smallCompany _ _ _ _ _ _
        _ done.1 smallCompany_valid started steady smallCompany_valid (by decide +kernel) left
      have named : smallCompany.chiefPersonId = .ok "ceo" := by decide +kernel
      rw [named] at isChief
      obtain rfl := Except.ok.inj isChief
      simp [Except.toOption, found, active] at asleep

end Chief.Activity
