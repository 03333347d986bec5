/-
Module: Chief.Activity.PassChains
Layer: Proofs
Purpose: One reconcile pass as chains of edits: what each round of its loops may change, and what it
  leaves the person of that round owing.
Trusted boundary: none
Main exports: StatusFollows, Orderly, passScope, transitionStep_edits, decisionStep_edits,
  transitionStep_frame, decisionStep_frame
-/
import Chief.Activity.Chains

namespace Chief.Activity

open Foundation ActivityLedger

/-! ### What a pass may do -/

/-- How a status may follow another: a live one moves on, a forced one may still be cancelled. -/
def StatusFollows (before after : TransitionStatus) : Prop :=
  after = before ∨ (before.isTerminal = false ∧ after ≠ .forced) ∨
    (before = .forced ∧ after = .cancelled)

theorem StatusFollows.refl (status : TransitionStatus) : StatusFollows status status := .inl rfl

theorem StatusFollows.trans {first second third : TransitionStatus}
    (one : StatusFollows first second) (two : StatusFollows second third) :
    StatusFollows first third := by
  rcases one with rfl | ⟨live, unforced⟩ | ⟨rfl, rfl⟩
  · exact two
  · rcases two with rfl | ⟨_, unforced'⟩ | ⟨rfl, rfl⟩
    · exact .inr (.inl ⟨live, unforced⟩)
    · exact .inr (.inl ⟨live, unforced'⟩)
    · exact absurd rfl unforced
  · rcases two with rfl | ⟨live, _⟩ | ⟨impossible, _⟩
    · exact .inr (.inr ⟨rfl, rfl⟩)
    · cases live
    · cases impossible

/-- A transition moves on without new terms. -/
structure Orderly (before after : GracefulTransition) : Prop where
  reason : after.reason = before.reason
  status : StatusFollows before.status after.status

/-- A state without its pointer and its last stamp: what a round of the transition loop leaves alone. -/
def PersonActivityState.substance (state : PersonActivityState) : PersonActivityState :=
  { state with activeTransitionId := none, updatedAt := "" }

/-- The scope of one round of the transition loop: states keep their substance, transitions move on in
order. -/
def roundScope (pass : Pass) (fits : Prop) (touches : String → Prop)
    (opens : GracefulTransition → Prop) : Scope where
  manifest := pass.manifest
  stamp := pass.stamp
  fits := fits
  touches := touches
  rewrites before after := after.substance = before.substance
  moves := Orderly
  opens := opens

/-- The scope of one pass: idle clocks only stop, transitions move on in order. -/
def passScope (pass : Pass) (fits : Prop) (touches : String → Prop)
    (opens : GracefulTransition → Prop) : Scope :=
  { roundScope pass fits touches opens with
    rewrites := fun before after => before.idleSince = none → after.idleSince = none }

variable {pass : Pass} {fits : Prop} {touches : String → Prop} {opens : GracefulTransition → Prop}

theorem roundScope_sound (touches : String → Prop) (opens : GracefulTransition → Prop)
    (sound : fits → RecordsFit pass.manifest pass.stamp) :
    (roundScope pass fits touches opens).Sound where
  records := sound
  same _ := rfl
  unlinks _ _ := rfl

theorem passScope_sound (touches : String → Prop) (opens : GracefulTransition → Prop)
    (sound : fits → RecordsFit pass.manifest pass.stamp) :
    (passScope pass fits touches opens).Sound where
  records := sound
  same _ idle := idle
  unlinks _ _ idle := idle

/-- A state that keeps its substance keeps its idle clock. -/
theorem roundScope_within : (roundScope pass fits touches opens).Within
    (passScope pass fits touches opens) where
  manifest := rfl
  stamp := rfl
  fits holds := holds
  touches _ touched := touched
  moves _ _ moved := moved
  opens _ opened := opened
  rewrites before after same idle := by
    have clocks := congrArg PersonActivityState.idleSince same
    exact clocks.trans idle

/-- Anything but an applied transition may be cancelled. -/
theorem orderly_cancelledAs {current : GracefulTransition} (stamp : String)
    (unapplied : current.status ≠ .applied) : Orderly current (current.cancelledAs stamp) := by
  refine ⟨rfl, ?_⟩
  cases status : current.status with
  | applied => exact absurd status unapplied
  | cancelled => exact .inl rfl
  | forced => exact .inr (.inr ⟨rfl, rfl⟩)
  | awaitingHandoff | overdue | ready => exact .inr (.inl ⟨rfl, by simp [GracefulTransition.cancelledAs]⟩)

theorem orderly_appliedAs {current : GracefulTransition} (stamp : String)
    (released : current.status.isReleased = true) : Orderly current (current.appliedAs stamp) := by
  by_cases applied : current.status = .applied
  · have same : current.appliedAs stamp = current := if_neg (by simp [applied])
    rw [same]
    exact ⟨rfl, .refl _⟩
  · have ready := ready_of_released released applied
    have stampedNow : current.appliedAs stamp =
        { current with status := .applied, appliedAt := some stamp } := if_pos applied
    rw [stampedNow]
    exact ⟨rfl, .inr (.inl ⟨by rw [ready]; rfl, by simp⟩)⟩

/-! ### What a person owes after an edit -/

section Owed

variable {ledger ledger' : ActivityLedger} {personId : String} {current t : GracefulTransition}

/-- After its owner's transition is rewritten in place, the owner owes the rewritten one. -/
theorem activeTransition_modifyTransition {g : GracefulTransition → GracefulTransition}
    (named : Named ledger) (owed : ledger.activeTransition personId = some current)
    (live : (g current).status ≠ .cancelled) :
    (ledger.modifyTransition current.id g).activeTransition personId = some (g current) := by
  obtain ⟨state, id, found, points, stored, _⟩ := activeTransition_eq_some.mp owed
  have same := named stored
  refine activeTransition_eq_some.mpr ⟨state, id, found, points, ?_, live⟩
  rw [transitions_modifyTransition, if_pos same, stored]
  rfl

/-- A pointer that is dropped leaves nothing owed. -/
theorem activeTransition_unlinked {f : PersonActivityState → PersonActivityState}
    (dropped : ∀ state, ledger.people[personId]? = some state →
      (f state).activeTransitionId = none) :
    (ledger.modifyPerson personId f).activeTransition personId = none := by
  unfold ActivityLedger.activeTransition
  rw [people_modifyPerson, if_pos rfl]
  cases found : ledger.people[personId]? with
  | none => rfl
  | some state => simp [dropped state found]

/-- A person whose pointer is kept by a rewrite of the state owes what was owed. -/
theorem activeTransition_modifyPerson {f : PersonActivityState → PersonActivityState}
    (kept : ∀ state, ledger.people[personId]? = some state →
      (f state).activeTransitionId = state.activeTransitionId) :
    (ledger.modifyPerson personId f).activeTransition personId =
      ledger.activeTransition personId := by
  unfold ActivityLedger.activeTransition
  rw [people_modifyPerson, if_pos rfl]
  cases found : ledger.people[personId]? with
  | none => rfl
  | some state => simp [kept state found]

/-- Cancelling what a person owes leaves nothing owed. -/
theorem activeTransition_cancelTransition (wiring : Wired ledger) (stamp : String)
    (owed : ledger.activeTransition personId = some current) :
    (cancelTransition ledger current.id stamp).activeTransition personId = none := by
  obtain ⟨state, id, found, points, stored, _⟩ := activeTransition_eq_some.mp owed
  have owner := wiring.owner owed
  have same : current.id = id := wiring.named stored
  subst same
  rw [cancelTransition_eq_retire stored, retire, owner]
  refine activeTransition_unlinked fun state' found' => ?_
  have here : ledger.people[personId]? = some state' := found'
  rw [found] at here
  obtain rfl := Option.some.inj here
  simp [PersonActivityState.releasedFrom, points]

/-- A person who just had a transition opened owes it. -/
theorem activeTransition_newTransition {spec : TransitionSpec} {stamp : String}
    (minted : newTransition ledger spec stamp = .ok (t, ledger')) :
    ledger'.activeTransition spec.personId = some t := by
  obtain ⟨requested, state, _, found, shape, rfl⟩ := newTransition_eq_ok.mp minted
  have owner : t.personId = spec.personId := by
    rw [shape]
    rfl
  refine activeTransition_eq_some.mpr
    ⟨{ state with activeTransitionId := some t.id, updatedAt := stamp }, t.id, ?_, rfl, ?_, ?_⟩
  · refine BTreeMap.getElem?_modify.trans ?_
    rw [if_pos owner, found]
    rfl
  · exact BTreeMap.getElem?_insert.trans (if_pos rfl)
  · rw [shape, mintedTransition]
    split <;> simp

/-- Finding or opening leaves the person owing exactly what was found or opened. -/
theorem activeTransition_ensureMatchingTransition {spec : TransitionSpec} {stamp : String}
    (named : Named ledger)
    (ensured : ensureMatchingTransition ledger spec stamp = .ok (t, ledger')) :
    ledger'.activeTransition spec.personId = some t := by
  rw [ensureMatchingTransition_eq named] at ensured
  cases owed : ledger.activeTransition spec.personId with
  | none =>
      rw [owed] at ensured
      exact activeTransition_newTransition ensured
  | some current =>
      simp only [owed] at ensured
      split at ensured
      · exact activeTransition_newTransition ensured
      · split at ensured
        · exact activeTransition_newTransition ensured
        · simp only [matchExisting, bind_eq_ok, Except.ok.injEq, Prod.mk.injEq] at ensured
          obtain ⟨_, ⟨_, _, _, _, rfl⟩, rfl, rfl⟩ := ensured
          exact owed

end Owed

/-! ### Going overdue -/

/-- A handoff past its deadline. -/
def Pass.late (pass : Pass) (current : GracefulTransition) : Bool :=
  current.status = .awaitingHandoff ∧
    (parseIsoMillis current.handoffDeadlineAt).any (· ≤ pass.now) = true

/-- The transition as the pass finds it, overdue or not. -/
def Pass.aged (pass : Pass) (current : GracefulTransition) : GracefulTransition :=
  if pass.late current then { current with status := .overdue } else current

/-- The draft once the transition `personId` owes is aged. -/
def agedDraft (pass : Pass) (draft : ActivityLedger) (personId : String) : ActivityLedger :=
  match draft.activeTransition personId with
  | none => draft
  | some current =>
      if pass.late current then
        draft.modifyTransition current.id fun t => { t with status := .overdue }
      else draft

section Aging

variable {draft : ActivityLedger} {personId : String}

theorem late_awaiting {current : GracefulTransition} (late : pass.late current = true) :
    current.status = .awaitingHandoff := by
  simp only [Pass.late, decide_eq_true_eq] at late
  exact late.1

/-- Aging changes nothing but a status, and that only from awaiting to overdue. -/
theorem aged_cases (pass : Pass) (current : GracefulTransition) :
    pass.aged current = current ∨
      (current.status = .awaitingHandoff ∧
        pass.aged current = { current with status := .overdue }) := by
  unfold Pass.aged
  split
  · rename_i late
    exact .inr ⟨late_awaiting late, rfl⟩
  · exact .inl rfl

@[simp] theorem aged_action (current : GracefulTransition) :
    (pass.aged current).action = current.action := by
  unfold Pass.aged
  split <;> rfl

@[simp] theorem aged_intentId (current : GracefulTransition) :
    (pass.aged current).intentId = current.intentId := by
  unfold Pass.aged
  split <;> rfl

@[simp] theorem aged_toDepartmentId (current : GracefulTransition) :
    (pass.aged current).toDepartmentId = current.toDepartmentId := by
  unfold Pass.aged
  split <;> rfl

@[simp] theorem aged_isPending (current : GracefulTransition) :
    (pass.aged current).status.isPending = current.status.isPending := by
  rcases aged_cases pass current with same | ⟨awaiting, overdue⟩
  · rw [same]
  · rw [overdue, awaiting]
    rfl

/-- A status past waiting is the same before and after. -/
theorem aged_of_not_pending {current : GracefulTransition}
    (settled : current.status.isPending = false) : pass.aged current = current := by
  rcases aged_cases pass current with same | ⟨awaiting, _⟩
  · exact same
  · rw [awaiting] at settled
    cases settled

theorem markOverdue_eq (pass : Pass) (personId : String) (named : Named draft) :
    markOverdue pass draft (draft.activeTransitionIdOf personId) =
      .ok (agedDraft pass draft personId) := by
  unfold agedDraft
  cases owed : draft.activeTransition personId with
  | none =>
      rw [activeTransitionIdOf_none owed]
      rfl
  | some current =>
      simp only [activeTransitionIdOf_some owed, markOverdue, named.stored owed, Pass.late,
        decide_eq_true_eq]
      split <;> rfl

@[simp] theorem agedDraft_people : (agedDraft pass draft personId).people = draft.people := by
  unfold agedDraft
  split
  · rfl
  · split <;> rfl

theorem agedDraft_owed (named : Named draft) :
    (agedDraft pass draft personId).activeTransition personId =
      (draft.activeTransition personId).map pass.aged := by
  unfold agedDraft
  cases owed : draft.activeTransition personId with
  | none => exact owed
  | some current =>
      simp only [Option.map_some, Pass.aged]
      split
      · exact activeTransition_modifyTransition named owed (by simp)
      · exact owed

theorem agedDraft_edits (fits : Prop) (touches : String → Prop)
    (opens : GracefulTransition → Prop) (named : Named draft) (touched : touches personId) :
    Edits (roundScope pass fits touches opens) 0 draft (agedDraft pass draft personId) := by
  unfold agedDraft
  cases owed : draft.activeTransition personId with
  | none => exact .refl
  | some current =>
      simp only
      split
      · rename_i late
        have awaiting := late_awaiting late
        refine .single (.progressed (g := fun t => { t with status := .overdue })
          (named.stored owed) (fun wiring => (wiring.owner owed).symm ▸ touched) ?_
          fun impossible => by cases impossible)
        refine ⟨rfl, rfl, rfl, rfl, ⟨rfl, .inr (.inl ⟨by rw [awaiting]; rfl, by simp⟩)⟩,
          fun _ agree => ?_, fun _ rules => ?_⟩
        · have unapplied := (not_congr agree.applied).mpr (by simp [awaiting])
          have uncancelled := (not_congr agree.cancelled).mpr (by simp [awaiting])
          exact ⟨by simpa using unapplied, by simpa using uncancelled, by simp⟩
        · exact
            { rules with
              applied := by simp
              cancelled := by simp
              forcedPark := by simp
              forced := by simp
              abandoned := fun value member => by
                have cancelled := (rules.abandoned value member).1
                rw [awaiting] at cancelled
                cases cancelled }
      · exact .refl

end Aging

/-! ### Leases -/

section Leases

variable {reasons : Reasons} {personId q : String} {reason : ActivityReason}

@[simp] theorem reasonsOf_addReason :
    reasonsOf (addReason reasons q reason) personId =
      if q = personId then insert reason (reasonsOf reasons personId)
      else reasonsOf reasons personId := by
  unfold reasonsOf addReason
  rw [Std.ExtTreeMap.getD_eq_getD_getElem?, BTreeMap.getElem?_insert]
  split
  · rename_i same
    subst same
    rfl
  · rw [Std.ExtTreeMap.getD_eq_getD_getElem?]

/-- A pending transition is noted as a lease; nothing else changes. -/
theorem noteHandoff_eq {s : ReconcileState} (named : Named s.draft) :
    noteHandoff s personId = .ok
      (if (s.draft.activeTransition personId).any (fun t => t.status.isPending) then
        { s with reasons := addReason s.reasons personId .handoffRequired }
      else s) := by
  unfold noteHandoff
  cases owed : s.draft.activeTransition personId with
  | none =>
      rw [activeTransitionIdOf_none owed]
      rfl
  | some current =>
      rw [activeTransitionIdOf_some owed]
      simp only [named.stored owed, Option.any_some]
      split <;> rfl

/-- What a pass remembers about one person beside the draft. -/
def leaseView (personId : String) (s : ReconcileState) : Finset ActivityReason × Bool × Bool :=
  (reasonsOf s.reasons personId, decide (personId ∈ s.abandoned),
    decide (personId ∈ s.directTransfers))

theorem noteHandoff_cases {s s' : ReconcileState} (noted : noteHandoff s personId = .ok s') :
    s' = s ∨ s' = { s with reasons := addReason s.reasons personId .handoffRequired } := by
  unfold noteHandoff at noted
  cases owed : s.draft.activeTransitionIdOf personId with
  | none =>
      simp only [owed, Except.ok.injEq] at noted
      exact .inl noted.symm
  | some id =>
      cases stored : s.draft.transitions[id]? with
      | none => simp [owed, stored] at noted
      | some current =>
          simp only [owed, stored] at noted
          split at noted
          · cases noted
            exact .inr rfl
          · cases noted
            exact .inl rfl

theorem noteHandoff_draft {s s' : ReconcileState} (noted : noteHandoff s personId = .ok s') :
    s'.draft = s.draft := by
  rcases noteHandoff_cases noted with rfl | rfl <;> rfl

theorem noteHandoff_frame {s s' : ReconcileState} (noted : noteHandoff s personId = .ok s')
    (other : q ≠ personId) : leaseView q s' = leaseView q s := by
  rcases noteHandoff_cases noted with rfl | rfl
  · rfl
  · simp [leaseView, other.symm]

end Leases

/-! ### One round of the transition loop -/

/-- Why a round may open a routine idle park: nothing pins the person, who is to be running, and they
were admitted or still point at a park that is history. -/
def MayPark (admitted : List String) (s : ReconcileState) (personId : String) : Prop :=
  hasOwnPinningDemand s.reasons personId = false ∧
    (∃ state, s.draft.people[personId]? = some state ∧ state.lastDesiredActive = true) ∧
    (personId ∈ admitted ∨ ∃ current, s.draft.activeTransition personId = some current ∧
      current.action = .park ∧ startsFresh (idleParkSpec personId) current = true)

/-- What a round of the transition loop may open. -/
def RoundOpens (admitted : List String) (s : ReconcileState) (personId : String)
    (t : GracefulTransition) : Prop :=
  t.personId = personId ∧ (isRoutineIdlePark t = true → MayPark admitted s personId)

/-- The draft after an unowned park has yielded to work. -/
def yieldedDraft (pass : Pass) (draft : ActivityLedger) (personId : String) : ActivityLedger :=
  match draft.activeTransition personId with
  | none => draft
  | some current =>
      if current.action = .park ∧ current.intentId = none then
        if current.status = .applied then
          draft.modifyPerson personId fun state =>
            { state with activeTransitionId := none, updatedAt := pass.stamp }
        else cancelTransition draft current.id pass.stamp
      else draft

section Round

variable {s s' : ReconcileState} {personId q : String} {structural : StructuralTransition}
  {admitted : List String} {state : PersonActivityState}

theorem structuralTransition_rules {manifest : OrganizationManifest}
    (wellFormed : ManifestWellFormed manifest)
    (gap : structuralTransition state manifest personId = some structural) :
    SpecRules manifest (structural.spec personId) := by
  have words : ∀ action : TransitionAction,
      isBlank s!"Release the transition before {action.asStr} changes pane ownership." = false ∧
        s!"Release the transition before {action.asStr} changes pane ownership.".length ≤
          transitionMaxReasonCharacters := by
    intro action
    cases action <;> decide +kernel
  have target : structural.action.needsTarget = structural.toDepartmentId.isSome ∧
      ∀ unit ∈ structural.toDepartmentId, unit ∈ manifest.departments := by
    unfold structuralTransition at gap
    cases known : manifest.people[personId]? with
    | none =>
        rw [known] at gap
        cases gap
    | some person =>
        simp only [known] at gap
        split at gap
        · obtain rfl := Option.some.inj gap
          exact ⟨rfl, by simp⟩
        · split at gap
          · obtain rfl := Option.some.inj gap
            exact ⟨rfl, by simp⟩
          · split at gap
            · obtain rfl := Option.some.inj gap
              exact ⟨rfl, by simp⟩
            · split at gap
              · obtain rfl := Option.some.inj gap
                exact ⟨rfl, by simpa using wellFormed.personPlaced known⟩
              · cases gap
  exact ⟨(words structural.action).1, (words structural.action).2, target.1, target.2⟩

theorem idleParkSpec_rules (manifest : OrganizationManifest) (personId : String) :
    SpecRules manifest (idleParkSpec personId) :=
  ⟨show isBlank idleAutoParkReason = false by decide +kernel,
    show idleAutoParkReason.length ≤ transitionMaxReasonCharacters by decide +kernel, rfl,
    by simp [idleParkSpec]⟩

theorem isRoutineIdlePark_minted {spec : TransitionSpec} {id placement stamp : String}
    {requested : Int} : isRoutineIdlePark (mintedTransition spec id placement stamp requested) =
      spec.routineIdlePark := rfl

theorem structural_not_routine (structural : StructuralTransition) (personId : String) :
    (structural.spec personId).routineIdlePark = false := by
  have words : ∀ action : TransitionAction,
      s!"Release the transition before {action.asStr} changes pane ownership." ≠
        idleAutoParkReason := by
    intro action
    cases action <;> decide +kernel
  simp only [TransitionSpec.routineIdlePark, decide_eq_false_iff_not]
  exact fun routine => words structural.action routine.2.2

/-- Terms without an intent supersede nothing. -/
theorem supersedes_unowned {spec : TransitionSpec} (unowned : spec.intentId = none)
    (current : GracefulTransition) : supersedes spec current = false := by
  simp [supersedes, supersededByPark, supersededByIntent, unowned]

/-- Terms without an intent leave every transition under its own id. -/
theorem named_ensured {spec : TransitionSpec} {draft draft' : ActivityLedger}
    {t : GracefulTransition} (named : Named draft) (unowned : spec.intentId = none)
    (ensured : ensureMatchingTransition draft spec pass.stamp = .ok (t, draft')) :
    Named draft' := by
  have anything : (roundScope pass False (fun _ => True) fun _ => True).Sound :=
    roundScope_sound _ _ False.elim
  obtain ⟨n, _, edits⟩ := ensureMatchingTransition_edits anything named ensured trivial
    False.elim (fun current _ superseded => by
      rw [supersedes_unowned unowned] at superseded
      cases superseded) fun _ _ _ _ => trivial
  exact edits.named named

theorem yieldStep_eq (named : Named s.draft) :
    yieldStep pass s personId = .ok { s with draft := yieldedDraft pass s.draft personId } := by
  unfold yieldStep yieldedDraft
  cases owed : s.draft.activeTransition personId with
  | none => rfl
  | some current =>
      simp only [Option.any_some, decide_eq_true_eq, activeTransitionIdOf_some owed,
        named.stored owed]
      split
      · split <;> rfl
      · rfl

theorem yieldedDraft_edits (touches : String → Prop) (opens : GracefulTransition → Prop)
    (sound : fits → RecordsFit pass.manifest pass.stamp) {draft : ActivityLedger} (named : Named draft) (touched : touches personId) :
    Edits (roundScope pass fits touches opens) 0 draft (yieldedDraft pass draft personId) := by
  unfold yieldedDraft
  cases owed : draft.activeTransition personId with
  | none => exact .refl
  | some current =>
      simp only
      split
      · split
        · exact .single (.person touched fun state _ =>
            unlinked_rewrite (roundScope_sound touches opens sound) state)
        · rename_i unapplied
          exact .single (cancelTransition_edit (roundScope_sound touches opens sound) named owed
            touched (orderly_cancelledAs _ unapplied))
      · exact .refl

theorem yieldedDraft_owed {draft : ActivityLedger} (wiring : Wired draft) :
    (yieldedDraft pass draft personId).activeTransition personId =
      (draft.activeTransition personId).filter
        fun t => ¬ (t.action = .park ∧ t.intentId = none) := by
  unfold yieldedDraft
  cases owed : draft.activeTransition personId with
  | none => exact owed
  | some current =>
      by_cases unowned : current.action = .park ∧ current.intentId = none
      · have gone : (some current).filter
            (fun t => ¬ (t.action = .park ∧ t.intentId = none)) = none := by
          simp [unowned]
        rw [gone]
        simp only [unowned, and_self, if_true]
        split
        · refine activeTransition_unlinked (f := fun state =>
            { state with activeTransitionId := none, updatedAt := pass.stamp }) fun _ _ => rfl
        · exact activeTransition_cancelTransition wiring _ owed
      · have kept : (some current).filter
            (fun t => ¬ (t.action = .park ∧ t.intentId = none)) = some current := by
          rw [Option.filter_some, if_pos (decide_eq_true unowned)]
        rw [kept]
        simp only [if_neg unowned]
        exact owed

/-- The record of a handoff abandoned because its owner is fenced out. -/
def GracefulTransition.fencedOutAs (transition : GracefulTransition) (stamp : String) :
    GracefulTransition :=
  { transition.cancelledAs stamp with abandonedAt := some stamp }

theorem abandonFencedOut_eq_retire {draft : ActivityLedger} {current : GracefulTransition}
    (named : Named draft) (owed : draft.activeTransition personId = some current) :
    abandonFencedOut pass draft personId = retire draft current.id current.personId
      (fun t => t.fencedOutAs pass.stamp) fun state => state.releasedFrom current.id pass.stamp := by
  unfold abandonFencedOut
  rw [activeTransitionIdOf_some owed]
  simp only [cancelTransition_eq_retire (named.stored owed), retire, modifyTransition, modifyPerson,
    BTreeMap.modify_modify]
  rfl

theorem abandonFencedOut_edits (touches : String → Prop) (opens : GracefulTransition → Prop)
    (sound : fits → RecordsFit pass.manifest pass.stamp) {draft : ActivityLedger} (named : Named draft) (touched : touches personId)
    (pending : ∀ t, draft.activeTransition personId = some t → t.status.isPending = true) :
    Edits (roundScope pass fits touches opens) 0 draft (abandonFencedOut pass draft personId) := by
  cases owed : draft.activeTransition personId with
  | none =>
      unfold abandonFencedOut
      rw [activeTransitionIdOf_none owed]
      exact .refl
  | some current =>
      have unapplied : current.status ≠ .applied := fun applied => by
        have waiting := pending current owed
        rw [applied] at waiting
        cases waiting
      have order := orderly_cancelledAs pass.stamp unapplied
      have cancelled := cancelledAs_move (roundScope_sound touches opens sound) order
      rw [abandonFencedOut_eq_retire named owed]
      refine .single (.retired (named.stored owed) (fun wiring => (wiring.owner owed).symm ▸ touched)
        ⟨rfl, rfl, rfl, rfl, ⟨order.reason, order.status⟩, fun wasApplied agree => ?_, fun holds rules => ?_⟩
        fun state _ => ⟨releasedFrom_rewrite (roundScope_sound touches opens sound) _ state, ?_⟩)
      · have agrees := cancelled.stamps wasApplied agree
        exact ⟨agrees.applied, agrees.cancelled, agrees.forced⟩
      · exact
          { cancelled.rules holds rules with
            abandoned := fun value member => by
              obtain rfl := Option.some.inj member
              exact ⟨rfl, (sound holds).clock.readable⟩ }
      · unfold PersonActivityState.releasedFrom
        split
        · simp
        · assumption

theorem abandonFencedOut_owed {draft : ActivityLedger} (wiring : Wired draft) :
    (abandonFencedOut pass draft personId).activeTransition personId = none := by
  cases owed : draft.activeTransition personId with
  | none =>
      unfold abandonFencedOut
      rw [activeTransitionIdOf_none owed]
      exact owed
  | some current =>
      rw [abandonFencedOut_eq_retire wiring.named owed, retire, wiring.owner owed]
      refine activeTransition_unlinked fun state found => ?_
      obtain ⟨state', id, found', points, stored, _⟩ := activeTransition_eq_some.mp owed
      have here : draft.people[personId]? = some state := found
      rw [found'] at here
      obtain rfl := Option.some.inj here
      simp [PersonActivityState.releasedFrom, points, wiring.named stored]

/-- How a round ends for a person with a structural gap. -/
inductive StructuralOutcome (pass : Pass) (s : ReconcileState) (personId : String)
    (structural : StructuralTransition) : ReconcileState → Prop where
  | direct (transfer : structural.action = .transfer)
      (free : s.draft.activeTransition personId = none) (admitted : pass.admits personId = true) :
      StructuralOutcome pass s personId structural
        { s with directTransfers := personId :: s.directTransfers }
  | abandoned
      (pending : ∀ t, s.draft.activeTransition personId = some t → t.status.isPending = true)
      (fenced : pass.admits personId = false) :
      StructuralOutcome pass s personId structural
        { s with
          draft := abandonFencedOut pass s.draft personId
          abandoned := personId :: s.abandoned }
  | ensured {t : GracefulTransition} {draft : ActivityLedger}
      (ensured : ensureMatchingTransition s.draft (structural.spec personId) pass.stamp =
        .ok (t, draft)) :
      StructuralOutcome pass s personId structural
        { s with
          draft := draft
          reasons := addReason s.reasons personId
            (if t.status.isPending then .handoffRequired else .transitionReady) }

theorem addReason_idem {reasons : Reasons} {reason : ActivityReason} :
    addReason (addReason reasons q reason) q reason = addReason reasons q reason := by
  refine Std.ExtTreeMap.ext_getElem? fun a => ?_
  unfold addReason
  rw [BTreeMap.getElem?_insert, BTreeMap.getElem?_insert]
  split
  · rename_i same
    have once : reasonsOf (addReason reasons q reason) q = insert reason (reasonsOf reasons q) := by
      simp
    unfold addReason at once
    rw [once, Finset.insert_idem]
  · rfl

theorem structuralStep_outcome {transition : Option String} (named : Named s.draft)
    (same : transition = none ↔ s.draft.activeTransition personId = none)
    (ran : structuralStep pass s personId transition structural = .ok s') :
    StructuralOutcome pass s personId structural s' := by
  unfold structuralStep at ran
  split at ran
  · rename_i direct
    cases ran
    exact .direct direct.1 (same.mp direct.2.1) direct.2.2
  · split at ran
    · rename_i fenced
      cases ran
      refine .abandoned (fun t owed => ?_) fenced.2
      simpa [owed] using fenced.1
    · simp only [bind_eq_ok] at ran
      obtain ⟨⟨t, draft⟩, ensured, noted⟩ := ran
      have owed : draft.activeTransition personId = some t :=
        activeTransition_ensureMatchingTransition named ensured
      have namedAfter : Named draft := named_ensured named rfl ensured
      rw [noteHandoff_eq namedAfter, Except.ok.injEq] at noted
      subst noted
      simp only [owed, Option.any_some]
      split
      · rename_i pending
        have outcome : StructuralOutcome pass s personId structural _ := .ensured ensured
        simp only [pending, if_true] at outcome ⊢
        rw [addReason_idem]
        exact outcome
      · rename_i settled
        have outcome : StructuralOutcome pass s personId structural _ := .ensured ensured
        simp only [if_neg settled] at outcome ⊢
        exact outcome

/-- How a round ends for a desired-active person nothing demands. -/
inductive IdleOutcome (pass : Pass) (admitted : List String) (s : ReconcileState)
    (personId : String) : ReconcileState → Prop where
  | other {t : GracefulTransition} (owed : s.draft.activeTransition personId = some t)
      (action : t.action ≠ .park) : IdleOutcome pass admitted s personId s
  | waiting (free : s.draft.activeTransition personId = none) :
      IdleOutcome pass admitted s personId
        { s with reasons := addReason s.reasons personId .maintenanceBackpressure }
  | parked {t : GracefulTransition} {draft : ActivityLedger}
      (parks : ∀ current, s.draft.activeTransition personId = some current →
        current.action = .park)
      (slot : s.draft.activeTransition personId = none → personId ∈ admitted)
      (ensured : ensureMatchingTransition s.draft (idleParkSpec personId) pass.stamp =
        .ok (t, draft)) :
      IdleOutcome pass admitted s personId
        { s with
          draft := draft
          reasons :=
            if t.status.isPending then addReason s.reasons personId .handoffRequired
            else s.reasons }

theorem idleStep_outcome (ran : idleStep pass admitted s personId = .ok s') :
    IdleOutcome pass admitted s personId s' := by
  unfold idleStep at ran
  split at ran
  · rename_i parks
    split at ran
    · rename_i slot
      simp only [bind_eq_ok, Except.ok.injEq] at ran
      obtain ⟨⟨t, draft⟩, ensured, rfl⟩ := ran
      refine .parked (fun current owed => ?_) (fun free => ?_) ensured
      · simpa [owed] using parks
      · simpa [free] using slot
    · rename_i slot
      cases ran
      refine .waiting ?_
      push Not at slot
      simpa using slot.1
  · rename_i action
    cases ran
    cases owed : s.draft.activeTransition personId with
    | none => simp [owed] at action
    | some t => exact .other owed (by simpa [owed] using action)

/-- How one round of the transition loop ends. Every case starts from the aged draft. -/
inductive RoundOutcome (pass : Pass) (admitted : List String) (s : ReconcileState)
    (personId : String) (state : PersonActivityState) (s' : ReconcileState) : Prop where
  | gap {structural : StructuralTransition}
      (structuralGap : structuralTransition state pass.manifest personId = some structural)
      (outcome : StructuralOutcome pass { s with draft := agedDraft pass s.draft personId }
        personId structural s')
  | idle {s₁ : ReconcileState}
      (settled : structuralTransition state pass.manifest personId = none)
      (unpinned : hasOwnPinningDemand s.reasons personId = false)
      (desired : state.lastDesiredActive = true)
      (outcome : IdleOutcome pass admitted { s with draft := agedDraft pass s.draft personId }
        personId s₁)
      (noted : noteHandoff s₁ personId = .ok s')
  | pinned (settled : structuralTransition state pass.manifest personId = none)
      (pinning : hasOwnPinningDemand s.reasons personId = true)
      (noted : noteHandoff { s with
        draft := yieldedDraft pass (agedDraft pass s.draft personId) personId } personId = .ok s')
  | resting (settled : structuralTransition state pass.manifest personId = none)
      (unpinned : hasOwnPinningDemand s.reasons personId = false)
      (undesired : state.lastDesiredActive = false)
      (noted : noteHandoff { s with draft := agedDraft pass s.draft personId } personId = .ok s')

theorem agedDraft_wired (pass : Pass) (personId : String) {draft : ActivityLedger}
    (wiring : Wired draft) : Wired (agedDraft pass draft personId) :=
  (agedDraft_edits False (fun _ => True) (fun _ => True) wiring.named trivial).wired_unopened wiring

theorem agedDraft_named (pass : Pass) (personId : String) {draft : ActivityLedger}
    (named : Named draft) :
    Named (agedDraft pass draft personId) :=
  (agedDraft_edits False (fun _ => True) (fun _ => True) named trivial).named named

theorem yieldedDraft_named {draft : ActivityLedger} (named : Named draft) :
    Named (yieldedDraft pass draft personId) :=
  (yieldedDraft_edits (fun _ => True) (fun _ => True) (False.elim : False → RecordsFit pass.manifest pass.stamp) named
    trivial).named named

theorem transitionStep_outcome (named : Named s.draft)
    (found : s.draft.people[personId]? = some state)
    (ran : transitionStep pass admitted s personId = .ok s') :
    RoundOutcome pass admitted s personId state s' := by
  have namedAged := agedDraft_named pass personId named
  have foundAged : (agedDraft pass s.draft personId).people[personId]? = some state := by
    rw [agedDraft_people]
    exact found
  have freeAged : s.draft.activeTransitionIdOf personId = none ↔
      (agedDraft pass s.draft personId).activeTransition personId = none := by
    rw [agedDraft_owed named, Option.map_eq_none_iff, activeTransitionIdOf, Option.map_eq_none_iff]
  unfold transitionStep at ran
  simp only [markOverdue_eq pass personId named, ok_bind, foundAged] at ran
  cases structuralGap : structuralTransition state pass.manifest personId with
  | some structural =>
      simp only [structuralGap] at ran
      exact .gap structuralGap (structuralStep_outcome namedAged freeAged ran)
  | none =>
      simp only [structuralGap] at ran
      split at ran
      · rename_i idle
        simp only [bind_eq_ok] at ran
        obtain ⟨s₁, stepped, noted⟩ := ran
        exact .idle structuralGap idle.1 idle.2 (idleStep_outcome stepped) noted
      · rename_i busy
        split at ran
        · rename_i pinning
          rw [yieldStep_eq namedAged, ok_bind] at ran
          exact .pinned structuralGap pinning ran
        · rename_i unpinned
          have undesired : state.lastDesiredActive = false := by
            simpa [unpinned] using busy
          exact .resting structuralGap (by simpa using unpinned) undesired ran

/-- A round of the transition loop is a chain of edits of its own person. -/
theorem transitionStep_edits (touches : String → Prop) (opens : GracefulTransition → Prop)
    (sound : fits → RecordsFit pass.manifest pass.stamp) (named : Named s.draft)
    (touched : touches personId)
    (opened : ∀ t, RoundOpens admitted s personId t → opens t)
    (ran : transitionStep pass admitted s personId = .ok s') :
    ∃ n ≤ 1, Edits (roundScope pass fits touches opens) n s.draft s'.draft := by
  cases found : s.draft.people[personId]? with
  | none =>
      unfold transitionStep at ran
      simp [markOverdue_eq pass personId named, found] at ran
  | some state =>
      have namedAged := agedDraft_named pass personId named
      have aged : Edits (roundScope pass fits touches opens) 0 s.draft _ :=
        agedDraft_edits fits touches opens named touched
      have ensures {t : GracefulTransition} {draft : ActivityLedger} {spec : TransitionSpec}
          (owner : spec.personId = personId) (unowned : spec.intentId = none)
          (rules : fits → SpecRules pass.manifest spec)
          (allowed : (∀ current, s.draft.activeTransition personId = some current →
            startsFresh spec current = true) → spec.routineIdlePark = true →
            MayPark admitted s personId)
          (ensured : ensureMatchingTransition (agedDraft pass s.draft personId) spec pass.stamp =
            .ok (t, draft)) :
          ∃ n ≤ 1, Edits (roundScope pass fits touches opens) n s.draft draft := by
        obtain ⟨n, small, edits⟩ := ensureMatchingTransition_edits
          (roundScope_sound touches opens sound) namedAged ensured (owner.symm ▸ touched) rules
          (fun current _ superseded => by
            rw [supersedes_unowned unowned] at superseded
            cases superseded)
          (fun clear id placement requested => opened _ ⟨owner, fun routine => by
            rw [isRoutineIdlePark_minted] at routine
            refine allowed (fun current owed => ?_) routine
            have owedAged : (agedDraft pass s.draft personId).activeTransition spec.personId =
                some (pass.aged current) := by
              rw [owner, agedDraft_owed named, owed]
              rfl
            rcases clear _ owedAged with superseded | fresh
            · rw [supersedes_unowned unowned] at superseded
              cases superseded
            · rcases aged_cases pass current with same | ⟨_, overdue⟩
              · rw [same] at fresh
                exact fresh
              · rw [overdue] at fresh
                simp [startsFresh, TransitionStatus.isTerminal] at fresh⟩)
        exact ⟨0 + n, by omega, aged.trans edits⟩
      cases transitionStep_outcome named found ran with
      | gap structuralGap outcome =>
          cases outcome with
          | direct => exact ⟨0, by omega, aged⟩
          | abandoned pending =>
              exact ⟨0, by omega,
                aged.trans (abandonFencedOut_edits touches opens sound namedAged touched pending)⟩
          | @ensured t draft ensured =>
              refine ensures rfl rfl (fun holds =>
                structuralTransition_rules (sound holds).wellFormed structuralGap) ?_ ensured
              intro _ routine
              rw [structural_not_routine] at routine
              cases routine
      | idle _ unpinned desired outcome noted =>
          cases outcome with
          | other =>
              rw [noteHandoff_draft noted]
              exact ⟨0, by omega, aged⟩
          | waiting =>
              have same := noteHandoff_draft noted
              rw [same]
              exact ⟨0, by omega, aged⟩
          | @parked t draft parks slot ensured =>
              obtain ⟨n, small, edits⟩ := ensures rfl rfl
                (fun _ => idleParkSpec_rules pass.manifest personId)
                (fun fresh _ => ⟨unpinned, ⟨state, found, desired⟩, by
                  cases owed : s.draft.activeTransition personId with
                  | none =>
                      refine .inl (slot ?_)
                      rw [agedDraft_owed named, owed]
                      rfl
                  | some current =>
                      refine .inr ⟨current, rfl, ?_, fresh current owed⟩
                      have owedAged : (agedDraft pass s.draft personId).activeTransition personId =
                          some (pass.aged current) := by
                        rw [agedDraft_owed named, owed]
                        rfl
                      simpa using parks _ owedAged⟩) ensured
              rw [noteHandoff_draft noted]
              exact ⟨n, small, edits⟩
      | pinned _ _ noted =>
          have yielded := yieldedDraft_edits touches opens sound namedAged touched
          rw [noteHandoff_draft noted]
          exact ⟨0, by omega, aged.trans yielded⟩
      | resting _ _ _ noted =>
          rw [noteHandoff_draft noted]
          exact ⟨0, by omega, aged⟩

/-- A round only remembers things about its own person. -/
theorem transitionStep_frame (named : Named s.draft)
    (ran : transitionStep pass admitted s personId = .ok s') (other : q ≠ personId) :
    leaseView q s' = leaseView q s := by
  cases found : s.draft.people[personId]? with
  | none =>
      unfold transitionStep at ran
      simp [markOverdue_eq pass personId named, found] at ran
  | some state =>
      cases transitionStep_outcome named found ran with
      | gap _ outcome =>
          cases outcome with
          | direct => simp [leaseView, other]
          | abandoned => simp [leaseView, other]
          | ensured => simp [leaseView, other.symm]
      | idle _ _ _ outcome noted =>
          cases outcome with
          | other => exact (noteHandoff_frame noted other).trans rfl
          | waiting =>
              rw [noteHandoff_frame noted other]
              simp [leaseView, other.symm]
          | parked =>
              rw [noteHandoff_frame noted other]
              split <;> simp [leaseView, other.symm]
      | pinned _ _ noted =>
          exact (noteHandoff_frame noted other).trans rfl
      | resting _ _ _ noted => exact (noteHandoff_frame noted other).trans rfl

end Round

/-! ### One round of the decision loop -/

/-- The match over the structural gap and the pointer, as a function of what the person owes. -/
def settledVerdict (pass : Pass) (s : ReconcileState) (personId : String)
    (structural : Option StructuralTransition) (hasWorkLease : Bool) (verdict : Verdict) :
    Verdict :=
  if structural.isSome = true ∧ personId ∈ s.abandoned then
    { verdict with active := false, advancePlacement := true }
  else
    match s.draft.activeTransition personId, structural with
    | none, _ => verdict
    | some current, some structural =>
        if current.status.isReleased then
          settleStructural pass personId current.id current structural hasWorkLease verdict
        else verdict
    | some current, none => settlePointer pass personId current.id current hasWorkLease verdict

section Decision

variable {s : ReconcileState} {personId q : String} {structural : Option StructuralTransition}
  {lease : Bool} {verdict : Verdict}

theorem settleTransition_eq (named : Named s.draft) :
    settleTransition pass s personId structural lease verdict =
      .ok (settledVerdict pass s personId structural lease verdict) := by
  unfold settleTransition settledVerdict
  split
  · rfl
  · cases owed : s.draft.activeTransition personId with
    | none => rw [activeTransitionIdOf_none owed]
    | some current =>
        simp only [activeTransitionIdOf_some owed, named.stored owed]
        cases structural with
        | none => rfl
        | some structural =>
            simp only
            split <;> rfl

/-- Where the pass starts a decision: the draft and the leases as the transition loop left them. -/
def openVerdict (s : ReconcileState) (personId : String) (state : PersonActivityState)
    (structural : Option StructuralTransition) : Verdict :=
  { draft := s.draft
    reasons := s.reasons
    active := demandedActive s personId state
    advancePlacement := structural.isNone || decide (personId ∈ s.directTransfers) }

/-- The verdict on one person. -/
def verdictOn (pass : Pass) (s : ReconcileState) (personId : String)
    (state : PersonActivityState) : Verdict :=
  let structural := structuralTransition state pass.manifest personId
  settledVerdict pass s personId structural (hasEffectiveDemand s.reasons personId)
    (openVerdict s personId state structural)

/-- The draft a decision leaves. -/
def decidedDraft (pass : Pass) (s : ReconcileState) (personId : String)
    (state : PersonActivityState) (person : PersonRecord) : ActivityLedger :=
  let verdict := verdictOn pass s personId state
  verdict.draft.modifyPerson personId fun state =>
    state.decided pass person (verdict.active && pass.admits personId) verdict.advancePlacement

/-- The decision on one person. -/
def decisionOn (pass : Pass) (s : ReconcileState) (personId : String)
    (state : PersonActivityState) (person : PersonRecord) : PersonActivityDecision :=
  let verdict := verdictOn pass s personId state
  { personId := personId
    active := verdict.active && pass.admits personId
    reasons := ActivityReason.all.filter (· ∈ reasonsOf verdict.reasons personId)
    transitionId := (decidedDraft pass s personId state person).activeTransitionIdOf personId }

theorem decisionStep_eq_ok {decisions : BTreeMap PersonActivityDecision}
    {s' : ReconcileState × BTreeMap PersonActivityDecision} (named : Named s.draft) :
    decisionStep pass (s, decisions) personId = .ok s' ↔
      ∃ person state, pass.manifest.people[personId]? = some person ∧
        s.draft.people[personId]? = some state ∧
        s' = ({ s with
            draft := decidedDraft pass s personId state person
            reasons := (verdictOn pass s personId state).reasons },
          decisions.insert personId (decisionOn pass s personId state person)) := by
  unfold decisionStep
  cases known : pass.manifest.people[personId]? with
  | none => simp
  | some person =>
      cases found : s.draft.people[personId]? with
      | none => simp
      | some state =>
          simp only [settleTransition_eq named, ok_bind, Except.ok.injEq, Option.some.injEq,
            exists_and_left, exists_eq_left']
          exact eq_comm

theorem settledVerdict_edits (touches : String → Prop) (opens : GracefulTransition → Prop)
    (sound : fits → RecordsFit pass.manifest pass.stamp) (named : Named s.draft)
    (touched : touches personId) (opening : verdict.draft = s.draft) :
    Edits (passScope pass fits touches opens) 0 s.draft
      (settledVerdict pass s personId structural lease verdict).draft := by
  have applies {current : GracefulTransition}
      (owed : s.draft.activeTransition personId = some current)
      (released : current.status.isReleased = true) :
      Edit (passScope pass fits touches opens) 0 s.draft
        (s.draft.modifyTransition current.id fun t => t.appliedAs pass.stamp) :=
    .progressed (g := fun t => t.appliedAs pass.stamp) (named.stored owed)
      (fun wiring => (wiring.owner owed).symm ▸ touched)
      (appliedAs_move (passScope_sound touches opens sound) released
        (orderly_appliedAs _ released))
      fun impossible => by
        rw [appliedAs_status] at impossible
        cases impossible
  unfold settledVerdict
  split
  · rw [opening]
    exact .refl
  · cases owed : s.draft.activeTransition personId with
    | none =>
        rw [opening]
        exact .refl
    | some current =>
        cases structural with
        | some structural =>
            simp only
            split
            · rename_i released
              unfold settleStructural
              simp only
              split
              · rw [opening]
                exact .step (applies owed released) (.single (.person
                  (f := fun state => { state with activeTransitionId := none }) touched
                  fun state _ => ⟨rfl, .inr rfl, fun idle => idle, fun _ rules => { rules with }⟩))
              · rw [opening]
                exact .refl
            · rw [opening]
              exact .refl
        | none =>
            simp only [settlePointer]
            split
            · rename_i settles
              rw [opening]
              exact .single (applies owed settles.2.1)
            · split
              · rw [opening]
                exact .refl
              · rw [opening]
                exact .refl

theorem decided_rewrite (sound : fits → RecordsFit pass.manifest pass.stamp) {person : PersonRecord}
    (known : pass.manifest.people[personId]? = some person) (active advance : Bool)
    (state : PersonActivityState) :
    Rewrite (passScope pass fits touches opens) state
      (state.decided pass person active advance) := by
  unfold PersonActivityState.decided
  refine ⟨?_, .inl ?_, ?_, fun holds rules => ?_⟩
  · simp only
    split <;> split <;> rfl
  · simp only
    split <;> split <;> rfl
  · intro idle
    simp only
    split <;> split <;> first | rfl | exact idle
  · have placed := (sound holds).wellFormed.personPlaced known
    have readable := (sound holds).clock.readable
    simp only
    split <;> split <;> constructor <;>
      first
        | exact readable
        | exact placed
        | exact rules.placed
        | exact rules.idle
        | exact rules.agentActive
        | exact fun value member => by cases member

/-- A decision is a chain of edits of its own person. -/
theorem decidedDraft_edits (touches : String → Prop) (opens : GracefulTransition → Prop)
    (sound : fits → RecordsFit pass.manifest pass.stamp) (named : Named s.draft) (touched : touches personId)
    (state : PersonActivityState) {person : PersonRecord}
    (known : pass.manifest.people[personId]? = some person) :
    Edits (passScope pass fits touches opens) 0 s.draft
      (decidedDraft pass s personId state person) :=
  (settledVerdict_edits touches opens sound named touched rfl).trans
    (.single (.person touched fun _ _ => decided_rewrite sound known _ _ _))

end Decision

end Chief.Activity
