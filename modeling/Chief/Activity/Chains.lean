/-
Module: Chief.Activity.Chains
Layer: Proofs
Purpose: Every operation of the activity store is a chain of elementary edits of the repaired draft.
  One lemma per source function states the scope its edits keep to.
Trusted boundary: none
Main exports: ClockFits, ensureMatchingTransition_eq, ensureMatchingTransition_edits
-/
import Chief.Activity.Edits
import Chief.Activity.Reconcile

namespace Chief.Activity

open Foundation ActivityLedger

/-! ### What records need -/

/-- The stamp of an operation and the deadline of a handoff opened at it can both be read back. -/
def ClockFits (stamp : String) : Prop :=
  ∃ now, parseIsoMillis stamp = some now ∧ ReadableInstant (now + handoffGraceMs)

theorem ClockFits.readable {stamp : String} (clock : ClockFits stamp) : Readable stamp :=
  let ⟨_, parsed, _⟩ := clock
  readable_of_parse parsed

/-- What the records an operation writes need to keep their rules. -/
structure RecordsFit (manifest : OrganizationManifest) (stamp : String) : Prop where
  clock : ClockFits stamp
  wellFormed : ManifestWellFormed manifest

/-- A scope that lets every operation do what all of them do: read back its stamp, trust the manifest
and drop a pointer. -/
structure Scope.Sound (scope : Scope) : Prop where
  records : scope.fits → RecordsFit scope.manifest scope.stamp
  same : ∀ state, scope.rewrites state state
  unlinks : ∀ state updatedAt,
    scope.rewrites state { state with activeTransitionId := none, updatedAt := updatedAt }

/-- What the terms of a transition must satisfy for its record to be valid. -/
structure SpecRules (manifest : OrganizationManifest) (spec : TransitionSpec) : Prop where
  reasonGiven : isBlank spec.reason = false
  reasonShort : spec.reason.length ≤ transitionMaxReasonCharacters
  targetKind : spec.action.needsTarget = spec.toDepartmentId.isSome
  targetKnown : ∀ unit ∈ spec.toDepartmentId, unit ∈ manifest.departments

section Search

variable {scope : Scope} {ledger ledger' : ActivityLedger} {personId : String}
  {current t : GracefulTransition} {spec : TransitionSpec}

/-! ### Cancelling -/

theorem cancelTransition_eq_retire {id stamp : String}
    (found : ledger.transitions[id]? = some current) :
    cancelTransition ledger id stamp = retire ledger id current.personId
      (fun t => t.cancelledAs stamp) fun state => state.releasedFrom id stamp := by
  rw [cancelTransition, found]
  rfl

theorem Rewrite.refl (sound : scope.Sound) (state : PersonActivityState) :
    Rewrite scope state state :=
  ⟨rfl, .inl rfl, sound.same state, fun _ rules => rules⟩

/-- Dropping a pointer, with the stamp of the operation. -/
theorem unlinked_rewrite (sound : scope.Sound) (state : PersonActivityState) :
    Rewrite scope state { state with activeTransitionId := none, updatedAt := scope.stamp } :=
  ⟨rfl, .inr rfl, sound.unlinks state _, fun fits rules =>
    { rules with updated := (sound.records fits).clock.readable }⟩

theorem releasedFrom_rewrite (sound : scope.Sound) (id : String) (state : PersonActivityState) :
    Rewrite scope state (state.releasedFrom id scope.stamp) := by
  unfold PersonActivityState.releasedFrom
  split
  · exact unlinked_rewrite sound state
  · exact .refl sound state

theorem cancelledAs_move (sound : scope.Sound)
    (allowed : scope.moves current (current.cancelledAs scope.stamp)) :
    Move scope current (current.cancelledAs scope.stamp) where
  id := rfl
  personId := rfl
  action := rfl
  intentId := rfl
  allowed := allowed
  stamps wasApplied agree := by
    have notApplied := wasApplied rfl
    refine ⟨?_, by simp [GracefulTransition.cancelledAs], by simp [GracefulTransition.cancelledAs]⟩
    have noStamp := (not_congr agree.applied).mpr notApplied
    simpa [GracefulTransition.cancelledAs] using noStamp
  rules fits rules :=
    { rules with
      applied := by simp [GracefulTransition.cancelledAs]
      cancelled := fun _ => (sound.records fits).clock.readable
      forcedPark := by simp [GracefulTransition.cancelledAs]
      forced := by simp [GracefulTransition.cancelledAs]
      abandoned := fun value member => ⟨rfl, (rules.abandoned value member).2⟩ }

/-- Cancelling a stored transition is one edit. -/
theorem cancelStored_edit (sound : scope.Sound) {id : String}
    (found : ledger.transitions[id]? = some current)
    (touched : Wired ledger → scope.touches current.personId)
    (allowed : scope.moves current (current.cancelledAs scope.stamp)) :
    Edit scope 0 ledger (cancelTransition ledger id scope.stamp) := by
  rw [cancelTransition_eq_retire found]
  refine .retired found touched (cancelledAs_move sound allowed) fun state _ =>
    ⟨releasedFrom_rewrite sound _ state, ?_⟩
  unfold PersonActivityState.releasedFrom
  split
  · simp
  · assumption

/-- Cancelling the transition somebody owes is one edit. -/
theorem cancelTransition_edit (sound : scope.Sound) (named : Named ledger)
    (owed : ledger.activeTransition personId = some current) (touched : scope.touches personId)
    (allowed : scope.moves current (current.cancelledAs scope.stamp)) :
    Edit scope 0 ledger (cancelTransition ledger current.id scope.stamp) :=
  cancelStored_edit sound (named.stored owed) (fun wiring => (wiring.owner owed).symm ▸ touched)
    allowed

/-! ### Opening -/

theorem newTransition_eq_ok {stamp : String} :
    newTransition ledger spec stamp = .ok (t, ledger') ↔
      ∃ requested state, parseIsoMillis stamp = some requested ∧
        ledger.people[spec.personId]? = some state ∧
        t = mintedTransition spec
          (transitionId ledger.nextTransitionSequence spec.personId spec.action)
          state.lastDepartmentId stamp requested ∧
        ledger' = storeMinted ledger t stamp := by
  unfold newTransition
  cases parseIsoMillis stamp with
  | none => simp
  | some requested =>
      cases ledger.people[spec.personId]? with
      | none => simp
      | some state =>
          simp only [Except.ok.injEq, Prod.mk.injEq, Option.some.injEq, exists_and_left,
            exists_eq_left', eq_comm (b := t), eq_comm (b := ledger')]
          constructor
          · rintro ⟨rfl, rfl⟩
            exact ⟨rfl, rfl⟩
          · rintro ⟨rfl, rfl⟩
            exact ⟨rfl, rfl⟩

theorem routineIdlePark_park (routine : spec.routineIdlePark = true) : spec.action = .park := by
  simp only [TransitionSpec.routineIdlePark, decide_eq_true_eq] at routine
  exact routine.1

theorem mintedTransition_rules {manifest : OrganizationManifest} {state : PersonActivityState}
    {stamp : String} {requested : Int} (id : String) (clock : ClockFits stamp)
    (parsed : parseIsoMillis stamp = some requested) (rules : SpecRules manifest spec)
    (ruled : Ruled manifest ledger) (found : ledger.people[spec.personId]? = some state) :
    TransitionRules manifest (mintedTransition spec id state.lastDepartmentId stamp requested) where
  known := ruled.known found
  reasonGiven := rules.reasonGiven
  reasonShort := rules.reasonShort
  placed := (ruled.state found).placed
  targetKind := rules.targetKind
  targetKnown := rules.targetKnown
  deadline := by
    obtain ⟨now, isNow, inRange⟩ := clock
    rw [parsed] at isNow
    obtain rfl := Option.some.inj isNow
    by_cases routine : spec.routineIdlePark = true
    · exact ⟨requested, requested, parsed, by simp [mintedTransition, routine, parsed], le_refl _⟩
    · refine ⟨requested, requested + handoffGraceMs, parsed, ?_, by simp [handoffGraceMs]⟩
      simp only [mintedTransition, routine, Bool.false_eq_true, if_false]
      exact parseIsoMillis_of_readable inRange
  applied := by
    simp only [mintedTransition]
    split <;> simp
  cancelled := by
    simp only [mintedTransition]
    split <;> simp
  forcedPark := by
    simp only [mintedTransition]
    split
    · rename_i routine
      exact fun _ => routineIdlePark_park routine
    · simp
  forced := by
    simp only [mintedTransition]
    split
    · exact fun _ => clock.readable
    · simp
  abandoned value member := by cases member

theorem mintedTransition_stamps {id placement stamp : String} {requested : Int} :
    StampsAgree (mintedTransition spec id placement stamp requested) := by
  constructor <;> simp only [mintedTransition] <;> split <;> simp

/-- Only a routine idle park is born forced, and it has no intent. -/
theorem mintedTransition_forced {id placement stamp : String} {requested : Int}
    (forced : (mintedTransition spec id placement stamp requested).status = .forced) :
    (mintedTransition spec id placement stamp requested).intentId = none := by
  simp only [mintedTransition] at forced ⊢
  split at forced
  · rename_i routine
    simp only [TransitionSpec.routineIdlePark, decide_eq_true_eq] at routine
    exact routine.2.1
  · cases forced

/-- Opening a transition is one edit. -/
theorem newTransition_edit (sound : scope.Sound)
    (minted : newTransition ledger spec scope.stamp = .ok (t, ledger')) (touched : scope.touches spec.personId)
    (rules : scope.fits → SpecRules scope.manifest spec)
    (opens : ∀ id placement requested,
      scope.opens (mintedTransition spec id placement scope.stamp requested)) :
    Edit scope 1 ledger ledger' := by
  obtain ⟨requested, state, parsed, found, rfl, rfl⟩ := newTransition_eq_ok.mp minted
  refine .opened
    { id := rfl
      touched := touched
      person := BTreeMap.mem_of_getElem? found
      allowed := opens _ _ _
      status := ?_
      forced := mintedTransition_forced
      stamps := mintedTransition_stamps
      rules := fun fits ruled =>
        mintedTransition_rules _ (sound.records fits).clock parsed (rules fits) ruled found
      stamp := fun fits => (sound.records fits).clock.readable }
  simp only [mintedTransition]
  split <;> simp

/-! ### Finding or opening -/

/-- The request takes the place of the transition in its way. -/
def supersedes (spec : TransitionSpec) (current : GracefulTransition) : Bool :=
  supersededByPark spec current || supersededByIntent spec current

theorem activeTransitionIdOf_none (owed : ledger.activeTransition personId = none) :
    ledger.activeTransitionIdOf personId = none := by
  rw [activeTransitionIdOf, owed]
  rfl

theorem activeTransitionIdOf_some (owed : ledger.activeTransition personId = some current) :
    ledger.activeTransitionIdOf personId = some current.id := by
  rw [activeTransitionIdOf, owed]
  rfl

/-- The search in one equation: what is owed is superseded, history, or has to match. -/
theorem ensureMatchingTransition_eq (named : Named ledger) (stamp : String) :
    ensureMatchingTransition ledger spec stamp =
      match ledger.activeTransition spec.personId with
      | none => newTransition ledger spec stamp
      | some current =>
          if supersedes spec current then
            newTransition (cancelTransition ledger current.id stamp) spec stamp
          else if startsFresh spec current then newTransition ledger spec stamp
          else
            matchExisting spec current.id current >>= fun current => .ok (current, ledger) := by
  unfold ensureMatchingTransition
  cases owed : ledger.activeTransition spec.personId with
  | none =>
      rw [activeTransitionIdOf_none owed]
      rfl
  | some current =>
      have stored := named.stored owed
      rw [activeTransitionIdOf_some owed]
      by_cases park : supersededByPark spec current = true
      · simp [supersede, stored, park, supersedes]
      · by_cases intent : supersededByIntent spec current = true
        · simp [supersede, stored, park, intent, supersedes]
        · simp [supersede, stored, park, intent, supersedes]

/-- Finding or opening is at most one cancellation and one opening. -/
theorem ensureMatchingTransition_edits (sound : scope.Sound) (named : Named ledger)
    (ensured : ensureMatchingTransition ledger spec scope.stamp = .ok (t, ledger')) (touched : scope.touches spec.personId)
    (rules : scope.fits → SpecRules scope.manifest spec)
    (cancels : ∀ current, ledger.activeTransition spec.personId = some current →
      supersedes spec current = true → scope.moves current (current.cancelledAs scope.stamp))
    (opens : (∀ current, ledger.activeTransition spec.personId = some current →
        supersedes spec current = true ∨ startsFresh spec current = true) →
      ∀ id placement requested,
        scope.opens (mintedTransition spec id placement scope.stamp requested)) :
    ∃ n ≤ 1, Edits scope n ledger ledger' := by
  rw [ensureMatchingTransition_eq named] at ensured
  cases owed : ledger.activeTransition spec.personId with
  | none =>
      rw [owed] at ensured
      exact ⟨1, le_refl _, .single (newTransition_edit sound ensured touched rules
        (opens fun current found => by rw [owed] at found; cases found))⟩
  | some current =>
      have only {other : GracefulTransition}
          (found : ledger.activeTransition spec.personId = some other) : current = other := by
        rw [owed] at found
        exact Option.some.inj found
      simp only [owed] at ensured
      split at ensured
      · rename_i superseded
        have minted := newTransition_edit sound ensured touched rules
          (opens fun other found => only found ▸ .inl superseded)
        exact ⟨0 + 1, le_refl _, .step (cancelTransition_edit sound named owed touched
          (cancels current owed superseded)) (.single minted)⟩
      · split at ensured
        · rename_i fresh
          exact ⟨1, le_refl _, .single (newTransition_edit sound ensured touched rules
            (opens fun other found => only found ▸ .inr fresh))⟩
        · simp only [bind_eq_ok, Except.ok.injEq, Prod.mk.injEq] at ensured
          obtain ⟨_, _, _, rfl⟩ := ensured
          exact ⟨0, by omega, .refl⟩

end Search

/-! ### The commands -/

section Commands

variable {scope : Scope} {draft draft' : ActivityLedger} {personId : String}
  {current t : GracefulTransition} {ctx : ActivityContext}

/-- The terms a begin asks for. -/
def BeginTransitionInput.spec (input : BeginTransitionInput) : TransitionSpec :=
  { personId := input.personId
    action := input.action
    reason := trim input.reason
    toDepartmentId := input.target
    intentId := input.intentId.map trim }

theorem required_eq_ok {value label result : String} {maximum : Nat} :
    required value label maximum = .ok result ↔
      trim value ≠ "" ∧ (trim value).length ≤ maximum ∧ result = trim value := by
  simp only [required, bind_eq_ok, require_eq_ok, Except.ok.injEq]
  constructor
  · rintro ⟨_, given, _, short, rfl⟩
    exact ⟨given, short, rfl⟩
  · rintro ⟨given, short, rfl⟩
    exact ⟨(), given, (), short, rfl⟩

theorem requiredIntent_eq_ok {intentId result : Option String}
    (ok : requiredIntent intentId = .ok result) : result = intentId.map trim := by
  cases intentId with
  | none =>
      cases ok
      rfl
  | some value =>
      cases given : required value "transition.intentId" 300 with
      | error e =>
          rw [requiredIntent, given] at ok
          cases ok
      | ok text =>
          rw [requiredIntent, given] at ok
          cases ok
          rw [(required_eq_ok.mp given).2.2]
          rfl

/-- A begin that succeeds has acceptable terms and found or opened their transition. -/
theorem beginTransitionBody_eq_ok {input : BeginTransitionInput} {stamp : String}
    (ran : beginTransitionBody input draft ctx stamp = .ok (t, draft')) :
    SpecRules ctx.manifest input.spec ∧
      ensureMatchingTransition draft input.spec stamp = .ok (t, draft') := by
  unfold beginTransitionBody at ran
  cases person : ctx.manifest.people[input.personId]? with
  | none => simp [person] at ran
  | some record =>
      cases found : draft.people[input.personId]? with
      | none => simp [person, found] at ran
      | some state =>
          simp only [person, found, bind_eq_ok, require_eq_ok] at ran
          obtain ⟨_, targeted, _, untargeted, _, _, intentId, intent, reason, given, ran⟩ := ran
          obtain ⟨nonempty, short, rfl⟩ := required_eq_ok.mp given
          obtain rfl := requiredIntent_eq_ok intent
          refine ⟨⟨?_, short, ?_, ?_⟩, ran⟩
          · show isBlank (trim input.reason) = false
            rw [isBlank, trim_trim]
            simpa using nonempty
          · show input.action.needsTarget = input.target.isSome
            cases needs : input.action.needsTarget with
            | true =>
                cases target : input.target with
                | none => simp [needs, target] at targeted
                | some unit => rfl
            | false =>
                cases target : input.target with
                | none => rfl
                | some unit => simp [needs, target] at untargeted
          · intro unit member
            have target : input.target = some unit := member
            cases needs : input.action.needsTarget with
            | true => simpa [needs, target] using targeted
            | false => simp [needs, target] at untargeted

theorem ready_of_released {status : TransitionStatus} (released : status.isReleased = true)
    (unapplied : status ≠ .applied) : status = .ready := by
  cases status with
  | ready => rfl
  | applied => exact absurd rfl unapplied
  | awaitingHandoff | overdue | cancelled | forced => cases released

/-- What settling, releasing and abandoning do to the transition they name is one move. -/
theorem appliedAs_move (sound : scope.Sound) (released : current.status.isReleased = true)
    (allowed : scope.moves current (current.appliedAs scope.stamp)) :
    Move scope current (current.appliedAs scope.stamp) := by
  by_cases applied : current.status = .applied
  · have same : current.appliedAs scope.stamp = current := if_neg (by simp [applied])
    rw [same] at allowed ⊢
    exact ⟨rfl, rfl, rfl, rfl, allowed, fun _ agree => agree, fun _ rules => rules⟩
  · have stampedNow : current.appliedAs scope.stamp =
        { current with status := .applied, appliedAt := some scope.stamp } := if_pos applied
    rw [stampedNow] at allowed ⊢
    have ready := ready_of_released released applied
    refine ⟨rfl, rfl, rfl, rfl, allowed, fun _ agree => ⟨by simp, ?_, by simp⟩, fun fits rules =>
      { rules with
        applied := fun _ => (sound.records fits).clock.readable
        cancelled := by simp
        forcedPark := by simp
        forced := by simp
        abandoned := fun value member => ?_ }⟩
    · have noStamp := (not_congr agree.cancelled).mpr (by simp [ready])
      simpa using noStamp
    · have cancelled := (rules.abandoned value member).1
      rw [ready] at cancelled
      cases cancelled

theorem appliedAs_status (stamp : String) :
    (current.appliedAs stamp).status = .applied := by
  unfold GracefulTransition.appliedAs
  split
  · rfl
  · rename_i applied
    simpa using applied

/-- Bringing the placement of a state up to the manifest keeps its rules. -/
theorem placedAs_rules {manifest : OrganizationManifest} {state : PersonActivityState}
    {person : PersonRecord} (wellFormed : ManifestWellFormed manifest)
    (known : manifest.people[personId]? = some person) (rules : StateRules manifest state) :
    StateRules manifest (state.placedAs manifest person) :=
  ⟨wellFormed.personPlaced known, rules.updated, rules.idle, rules.agentActive⟩

theorem settleAppliedMoveBody_edits {settled : Bool} (sound : scope.Sound) (named : Named draft)
    (ran : settleAppliedMoveBody personId draft ctx scope.stamp = .ok (settled, draft'))
    (manifest : ctx.manifest = scope.manifest)
    (touched : scope.touches personId)
    (moves : ∀ current, draft.activeTransition personId = some current →
      current.action.isRemoval = false → current.status.isReleased = true →
      scope.moves current (current.appliedAs scope.stamp))
    (rewrites : ∀ state person, scope.rewrites state
      { state.placedAs scope.manifest person with
        activeTransitionId := none
        updatedAt := scope.stamp }) :
    Edits scope 0 draft draft' := by
  unfold settleAppliedMoveBody at ran
  cases known : ctx.manifest.people[personId]? with
  | none => simp [known] at ran
  | some person =>
      simp only [known, bind_eq_ok] at ran
      obtain ⟨_, _, ran⟩ := ran
      cases owed : draft.activeTransition personId with
      | none =>
          simp only [activeTransitionIdOf_none owed, Except.ok.injEq, Prod.mk.injEq] at ran
          obtain ⟨_, rfl⟩ := ran
          exact .refl
      | some current =>
          have stored := named.stored owed
          simp only [activeTransitionIdOf_some owed, stored] at ran
          split at ran
          · cases ran
            exact .refl
          · rename_i settles
            cases ran
            push Not at settles
            have removal : current.action.isRemoval = false := by simpa using settles.1
            have released : current.status.isReleased = true := by simpa using settles.2
            refine .step (.progressed (g := fun t => t.appliedAs scope.stamp) stored
              (fun wiring => (wiring.owner owed).symm ▸ touched)
              (appliedAs_move sound released (moves current owed removal released)) ?_)
              (.single (.person touched fun state _ => ?_))
            · rw [appliedAs_status]
              exact fun impossible => by cases impossible
            · refine ⟨rfl, .inr rfl, ?_, fun fits rules => ?_⟩
              · rw [manifest]
                exact rewrites state person
              · rw [manifest] at known ⊢
                have placed := placedAs_rules (sound.records fits).wellFormed known rules
                exact { placed with updated := (sound.records fits).clock.readable }

theorem ownTransition_eq_ok {id : String} :
    ownTransition draft id personId = .ok current ↔
      draft.transitions[id]? = some current ∧ current.personId = personId := by
  unfold ownTransition
  cases draft.transitions[id]? with
  | none => simp
  | some t =>
      by_cases own : t.personId = personId
      · simp only [Option.filter_some, own, decide_true, if_true, Except.ok.injEq, Option.some.injEq]
        exact ⟨fun same => ⟨same, same ▸ own⟩, fun same => same.1⟩
      · simp only [Option.filter_some, own, decide_false, Bool.false_eq_true, if_false]
        constructor
        · intro failed
          cases failed
        · rintro ⟨same, owner⟩
          obtain rfl := Option.some.inj same
          exact absurd owner own

theorem mergedReason_rules (given : isBlank current.reason = false) (reason : String) :
    isBlank (mergedReason current reason) = false ∧
      (mergedReason current reason).length ≤ transitionMaxReasonCharacters := by
  unfold mergedReason
  constructor
  · refine not_isBlank_take_trim (by decide) ?_
    rw [Bool.eq_false_iff, ne_eq, isBlank_iff] at given ⊢
    intro blank
    refine given fun c member => blank c ?_
    simp [toString, member]
  · rw [String.length_ofList]
    exact List.length_take_le _ _

theorem abandonedAs_move (sound : scope.Sound) {reason : String}
    (pending : current.status.isPending = true)
    (allowed : scope.moves current (current.abandonedAs reason scope.stamp)) :
    Move scope current (current.abandonedAs reason scope.stamp) where
  id := rfl
  personId := rfl
  action := rfl
  intentId := rfl
  allowed := allowed
  stamps _ agree := by
    refine ⟨?_, by simp [GracefulTransition.abandonedAs],
      by simp [GracefulTransition.abandonedAs]⟩
    have notApplied : current.status ≠ .applied := by
      rintro applied
      rw [applied] at pending
      cases pending
    have noStamp := (not_congr agree.applied).mpr notApplied
    simpa [GracefulTransition.abandonedAs] using noStamp
  rules fits rules :=
    have merged := mergedReason_rules rules.reasonGiven reason
    { known := rules.known
      reasonGiven := merged.1
      reasonShort := merged.2
      placed := rules.placed
      targetKind := rules.targetKind
      targetKnown := rules.targetKnown
      deadline := rules.deadline
      applied := by simp [GracefulTransition.abandonedAs]
      cancelled := fun _ => (sound.records fits).clock.readable
      forcedPark := by simp [GracefulTransition.abandonedAs]
      forced := by simp [GracefulTransition.abandonedAs]
      abandoned := by
        intro value member
        obtain rfl := Option.some.inj member
        exact ⟨rfl, (sound.records fits).clock.readable⟩ }

theorem abandonTransitionBody_edits {id reason : String} (sound : scope.Sound)
    (ran : abandonTransitionBody id personId reason draft ctx scope.stamp = .ok (t, draft'))
    (touched : scope.touches personId)
    (moves : ∀ current, draft.transitions[id]? = some current → current.status.isPending = true →
      scope.moves current (current.abandonedAs reason scope.stamp)) :
    Edits scope 0 draft draft' := by
  simp only [abandonTransitionBody, bind_eq_ok, require_eq_ok] at ran
  obtain ⟨current, own, _, unreleased, _, unforced, _, uncancelled, ran⟩ := ran
  obtain ⟨stored, rfl⟩ := ownTransition_eq_ok.mp own
  have pending : current.status.isPending = true := by
    cases status : current.status <;> simp_all [TransitionStatus.isReleased,
      TransitionStatus.isPending]
  simp only [Except.ok.injEq, Prod.mk.injEq] at ran
  obtain ⟨_, rfl⟩ := ran
  refine .single (.retired stored (fun _ => touched)
    (abandonedAs_move sound pending (moves current stored pending)) fun state _ => ?_)
  split
  · exact ⟨⟨rfl, .inr rfl, sound.unlinks state _, fun _ rules => { rules with }⟩, by simp⟩
  · rename_i elsewhere
    exact ⟨.refl sound state, elsewhere⟩

theorem releaseBody_edits {input : ReleaseInput} 
    (ran : releaseBody input draft ctx scope.stamp = .ok (t, draft'))
    (touched : scope.touches input.personId)
    (moves : ∀ current, draft.transitions[input.transitionId]? = some current →
      current.status.isTerminal = false → scope.moves current { current with status := .ready }) :
    Edits scope 0 draft draft' := by
  simp only [releaseBody, bind_eq_ok, require_eq_ok, Except.ok.injEq, Prod.mk.injEq] at ran
  obtain ⟨current, own, _, live, _, rfl⟩ := ran
  obtain ⟨stored, owner⟩ := ownTransition_eq_ok.mp own
  have pendingOrReady : current.status ≠ .applied ∧ current.status ≠ .cancelled := by
    cases status : current.status <;> simp_all [TransitionStatus.isTerminal]
  refine .single (.progressed (g := fun t => { t with status := .ready }) stored
    (fun _ => owner.symm ▸ touched) ?_ fun impossible => by cases impossible)
  refine ⟨rfl, rfl, rfl, rfl, moves current stored live, fun _ agree => ?_, fun _ rules => ?_⟩
  · have notApplied := (not_congr agree.applied).mpr pendingOrReady.1
    have notCancelled := (not_congr agree.cancelled).mpr pendingOrReady.2
    exact ⟨by simpa using notApplied, by simpa using notCancelled, by simp⟩
  · refine
      { rules with
        applied := by simp
        cancelled := by simp
        forcedPark := by simp
        forced := by simp
        abandoned := fun value member => absurd (rules.abandoned value member).1 pendingOrReady.2 }

/-! ### Reports and clears -/

theorem cancelOnBeat_edits (working : Bool) (sound : scope.Sound) (named : Named draft)
    (touched : scope.touches personId)
    (moves : ∀ current, draft.activeTransition personId = some current →
      current.status.isPending = true → scope.moves current (current.cancelledAs scope.stamp)) :
    Edits scope 0 draft (cancelOnBeat draft personId working scope.stamp) := by
  unfold cancelOnBeat
  split
  · rename_i cancels
    cases owed : draft.activeTransition personId with
    | none =>
        rw [activeTransitionIdOf_none owed]
        exact .refl
    | some current =>
        rw [activeTransitionIdOf_some owed]
        have pending : current.status.isPending = true := by
          simp only [beatCancels, owed, Option.any_some, Bool.and_eq_true] at cancels
          exact cancels.2.2
        exact .single (cancelTransition_edit sound named owed touched (moves current owed pending))
  · exact .refl

/-- What one report does to the rules of a state. -/
theorem reported_rules {manifest : OrganizationManifest} {state : PersonActivityState}
    {working : Bool} {stamp : String} (readable : Readable stamp)
    (rules : StateRules manifest state) : StateRules manifest (state.reported working stamp) := by
  unfold PersonActivityState.reported
  split
  · exact
      { rules with
        idle := fun value member => by cases member
        agentActive := fun value member => by
          obtain rfl := Option.some.inj member
          exact readable }
  · exact { rules with agentActive := fun value member => by cases member }

theorem reported_frame (state : PersonActivityState) (working : Bool) (stamp : String) :
    (state.reported working stamp).personId = state.personId ∧
      (state.reported working stamp).activeTransitionId = state.activeTransitionId := by
  unfold PersonActivityState.reported
  split <;> exact ⟨rfl, rfl⟩

theorem noteAgentActivityBody_edits {working noted : Bool} (sound : scope.Sound)
    (named : Named draft)
    (ran : noteAgentActivityBody personId working draft ctx scope.stamp = .ok (noted, draft'))
    (touched : scope.touches personId)
    (moves : ∀ current, draft.activeTransition personId = some current →
      current.status.isPending = true → scope.moves current (current.cancelledAs scope.stamp))
    (rewrites : ∀ state updatedAt, scope.rewrites state
      { state.reported working scope.stamp with updatedAt := updatedAt }) :
    Edits scope 0 draft draft' := by
  unfold noteAgentActivityBody at ran
  simp only [bind_eq_ok] at ran
  obtain ⟨_, _, ran⟩ := ran
  have cancelled := cancelOnBeat_edits working sound named touched moves
  cases found : (cancelOnBeat draft personId working scope.stamp).people[personId]? with
  | none => simp [found] at ran
  | some state =>
      simp only [found, Except.ok.injEq, Prod.mk.injEq] at ran
      obtain ⟨_, rfl⟩ := ran
      refine cancelled.trans (.single (.person touched fun other here => ?_))
      rw [found] at here
      obtain rfl := Option.some.inj here
      have frame := reported_frame state working scope.stamp
      split
      · exact ⟨frame.1, .inl frame.2, rewrites state _, fun fits rules =>
          { reported_rules (sound.records fits).clock.readable rules with
            updated := (sound.records fits).clock.readable }⟩
      · exact ⟨frame.1, .inl frame.2, rewrites state _, fun fits rules =>
          reported_rules (sound.records fits).clock.readable rules⟩

/-- The clears drop pointers and nothing else. -/
theorem applyPointerClearsBody_edits {actions applied : List ClearPointerAction}
    (sound : scope.Sound)
    (ran : applyPointerClearsBody actions draft ctx scope.stamp = .ok (applied, draft'))
    (touched : ∀ action ∈ actions, scope.touches action.personId) :
    Edits scope 0 draft draft' := by
  have swept : Edits scope 0 draft
      (actions.foldl (applyPointerClear scope.stamp) ([], draft)).2 := by
    refine foldl_invariant 
      (fun step : List ClearPointerAction × ActivityLedger => Edits scope 0 draft step.2)
      (fun step action member so => ?_) .refl
    unfold applyPointerClear
    split
    · exact so
    · cases found : step.2.people[action.personId]? with
      | none => exact so
      | some state =>
          exact so.trans (.single (.person (touched action member) fun state _ =>
            unlinked_rewrite sound state))
  simp only [applyPointerClearsBody, Except.ok.injEq] at ran
  rw [ran] at swept
  exact swept

end Commands

end Chief.Activity
