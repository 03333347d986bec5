/-
Module: Chief.Activity.Repair
Layer: Proofs
Purpose: The repair pass before every mutation: what it may do to any ledger, and that it keeps a
  valid ledger valid.
Trusted boundary: none
Main exports: Repaired, reconcilePeople_repaired, reconcilePeople_order, reconcilePeople_valid
-/
import Chief.Activity.PassChains

namespace Chief.Activity

open Foundation ActivityLedger

/-! ### What a repair may do -/

/-- The reports a state keeps of its person: the last decision and what the pane last said. -/
def PersonActivityState.reports (state : PersonActivityState) :
    Bool × Option String × Option String :=
  (state.lastDesiredActive, state.agentQuietAt, state.agentActiveAt)

/-- A transition seen through a repair: the same terms, moved on in order. -/
structure Carried (before after : GracefulTransition) : Prop where
  id : after.id = before.id
  personId : after.personId = before.personId
  action : after.action = before.action
  intentId : after.intentId = before.intentId
  order : Orderly before after
  applied : after.status = .applied → before.status = .applied
  stamps : StampsAgree before → StampsAgree after

theorem Carried.refl (t : GracefulTransition) : Carried t t :=
  ⟨rfl, rfl, rfl, rfl, ⟨rfl, .refl _⟩, fun applied => applied, fun agree => agree⟩

theorem Carried.trans {first second third : GracefulTransition} (one : Carried first second)
    (two : Carried second third) : Carried first third :=
  ⟨two.id.trans one.id, two.personId.trans one.personId, two.action.trans one.action,
    two.intentId.trans one.intentId,
    ⟨two.order.reason.trans one.order.reason, one.order.status.trans two.order.status⟩,
    fun applied => one.applied (two.applied applied), fun agree => two.stamps (one.stamps agree)⟩

/-- Where a repaired state comes from: the state before, perhaps without its pointer, or a new
person. -/
def RepairedState (before : Option PersonActivityState) (after : PersonActivityState) : Prop :=
  (∃ s, before = some s ∧ after.reports = s.reports ∧
    (after.activeTransitionId = s.activeTransitionId ∨ after.activeTransitionId = none)) ∨
  (after.reports = (false, none, none) ∧ after.activeTransitionId = none)

/-- What a repair may do: drop transitions, cancel some, forget people and seed new ones. -/
structure Repaired (before after : ActivityLedger) : Prop where
  next : after.nextTransitionSequence = before.nextTransitionSequence
  transition : ∀ {id : String} {t' : GracefulTransition}, after.transitions[id]? = some t' →
    ∃ t, before.transitions[id]? = some t ∧ Carried t t'
  state : ∀ {personId : String} {s' : PersonActivityState}, after.people[personId]? = some s' →
    RepairedState before.people[personId]? s'

theorem Repaired.refl (ledger : ActivityLedger) : Repaired ledger ledger where
  next := rfl
  transition found := ⟨_, found, .refl _⟩
  state found := .inl ⟨_, found, rfl, .inl rfl⟩

theorem Repaired.trans {first second third : ActivityLedger} (one : Repaired first second)
    (two : Repaired second third) : Repaired first third where
  next := two.next.trans one.next
  transition found := by
    obtain ⟨t, here, carried⟩ := two.transition found
    obtain ⟨t0, there, carried'⟩ := one.transition here
    exact ⟨t0, there, carried'.trans carried⟩
  state found := by
    rcases two.state found with ⟨s, here, reports, pointer⟩ | seeded
    · rcases one.state here with ⟨s0, there, reports0, pointer0⟩ | ⟨reports0, pointer0⟩
      · refine .inl ⟨s0, there, reports.trans reports0, ?_⟩
        rcases pointer with same | gone
        · rw [same]
          exact pointer0
        · exact .inr gone
      · refine .inr ⟨reports.trans reports0, ?_⟩
        rcases pointer with same | gone
        · exact same.trans pointer0
        · exact gone
    · exact .inr seeded

variable {manifest : OrganizationManifest} {ledger : ActivityLedger} {now : String}

/-! ### The roster -/

theorem seedPersonState_reports {personId : String} {state : PersonActivityState}
    (seeded : seedPersonState manifest personId now = some state) :
    state.reports = (false, none, none) ∧ state.activeTransitionId = none := by
  unfold seedPersonState at seeded
  split at seeded
  · cases seeded
  · obtain rfl := Option.some.inj seeded
    exact ⟨rfl, rfl⟩

/-- What the seeding loop leaves at one person. -/
theorem seedMissing_people (manifest : OrganizationManifest) (now : String) (l : List String)
    (step : ActivityLedger × Bool) (p : String) :
    (l.foldl (seedMissing manifest now) step).1.people[p]? =
      if p ∈ l then (step.1.people[p]?).or (seedPersonState manifest p now)
      else step.1.people[p]? := by
  induction l generalizing step with
  | nil => rfl
  | cons q l inductionHypothesis =>
      have here : (seedMissing manifest now step q).1.people[p]? =
          if q = p then (step.1.people[p]?).or (seedPersonState manifest p now)
          else step.1.people[p]? := by
        unfold seedMissing
        by_cases known : q ∈ step.1.people
        · rw [if_pos known]
          by_cases same : q = p
          · obtain ⟨state, found⟩ := BTreeMap.mem_iff_getElem?.mp known
            rw [if_pos same, ← same, found]
            rfl
          · rw [if_neg same]
        · rw [if_neg known]
          have absent : step.1.people[q]? = none := Std.ExtTreeMap.getElem?_eq_none known
          cases seeded : seedPersonState manifest q now with
          | none =>
              by_cases same : q = p
              · subst same
                simp [absent, seeded]
              · simp [same]
          | some state =>
              simp only [BTreeMap.getElem?_insert]
              by_cases same : q = p
              · subst same
                simp [absent, seeded]
              · simp [same]
      rw [List.foldl_cons, inductionHypothesis, here]
      by_cases same : q = p
      · subst same
        cases step.1.people[q]? with
        | some state => simp
        | none =>
            cases seedPersonState manifest q now with
            | some state => simp
            | none => simp
      · have other : p ≠ q := fun h => same h.symm
        simp [same, other]

theorem seedMissing_frame (manifest : OrganizationManifest) (now : String) (l : List String)
    (step : ActivityLedger × Bool) :
    (l.foldl (seedMissing manifest now) step).1 =
      { step.1 with people := (l.foldl (seedMissing manifest now) step).1.people } := by
  refine foldl_invariant (fun after : ActivityLedger × Bool =>
    after.1 = { step.1 with people := after.1.people }) (fun after p _ same => ?_) rfl
  unfold seedMissing
  split
  · exact same
  · split
    · exact same
    · rw [same]

/-- The roster half in one equation. -/
theorem reconcileRoster_eq (ledger : ActivityLedger) (manifest : OrganizationManifest)
    (now : String) : ∃ people : BTreeMap PersonActivityState,
    (reconcileRoster ledger manifest now).1 =
        { ledger with personOrder := manifest.peopleOrder, people := people } ∧
      ∀ p, people[p]? =
        if p ∈ manifest.peopleOrder then (ledger.people[p]?).or (seedPersonState manifest p now)
        else none := by
  unfold reconcileRoster
  have ordered : (if ledger.personOrder ≠ manifest.peopleOrder then
      ({ ledger with personOrder := manifest.peopleOrder }, true) else (ledger, false)).1 =
        { ledger with personOrder := manifest.peopleOrder } := by
    split
    · rfl
    · rename_i same
      push Not at same
      rw [← same]
  generalize (if ledger.personOrder ≠ manifest.peopleOrder then
    ({ ledger with personOrder := manifest.peopleOrder }, true) else (ledger, false)) = step
    at ordered
  have frame := seedMissing_frame manifest now manifest.peopleOrder step
  have people := seedMissing_people manifest now manifest.peopleOrder step
  rw [ordered] at frame people
  dsimp only at frame people ⊢
  generalize manifest.peopleOrder.foldl (seedMissing manifest now) step = seeded at frame people ⊢
  split
  · rename_i all
    refine ⟨seeded.1.people, frame, fun p => ?_⟩
    by_cases listed : p ∈ manifest.peopleOrder
    · rw [people p, if_pos listed, if_pos listed]
    · rw [if_neg listed]
      refine Std.ExtTreeMap.getElem?_eq_none fun member => listed ?_
      simpa using List.all_eq_true.mp all p (Std.ExtTreeMap.mem_keys.mpr member)
  · refine ⟨BTreeMap.filterKeys seeded.1.people fun id => id ∈ manifest.peopleOrder, ?_,
      fun p => ?_⟩
    · rw [frame]
    · rw [BTreeMap.getElem?_filterKeys, people p]
      by_cases listed : p ∈ manifest.peopleOrder <;> simp [listed]

theorem reconcileRoster_repaired : Repaired ledger (reconcileRoster ledger manifest now).1 := by
  obtain ⟨people, shape, lookup⟩ := reconcileRoster_eq ledger manifest now
  rw [shape]
  refine ⟨rfl, fun found => ⟨_, found, .refl _⟩, fun {p s'} found => ?_⟩
  have here : people[p]? = some s' := found
  rw [lookup] at here
  split at here
  · rcases Option.or_eq_some_iff.mp here with stored | ⟨_, seeded⟩
    · exact .inl ⟨_, stored, rfl, .inl rfl⟩
    · exact .inr (seedPersonState_reports seeded)
  · cases here

/-! ### Dropping -/

theorem dropTransitions_repaired (ledger : ActivityLedger) (doomed : List String) :
    Repaired ledger (dropTransitions ledger doomed) := by
  refine ⟨rfl, fun {id t'} found => ?_, fun found => .inl ⟨_, found, rfl, .inl rfl⟩⟩
  have kept : (BTreeMap.filterKeys ledger.transitions fun id => id ∉ doomed)[id]? = some t' := found
  rw [BTreeMap.getElem?_filterKeys] at kept
  split at kept
  · exact ⟨t', kept, .refl t'⟩
  · cases kept

theorem dropPointers_repaired (ledger : ActivityLedger) (stale : String → Bool) :
    Repaired ledger (dropPointers ledger stale) := by
  refine ⟨rfl, fun found => ⟨_, found, .refl _⟩, fun {p s'} found => ?_⟩
  have mapped : (ledger.people.map fun _ state =>
      if state.activeTransitionId.any stale then { state with activeTransitionId := none }
      else state)[p]? = some s' := found
  rw [BTreeMap.getElem?_map] at mapped
  obtain ⟨s, here, rfl⟩ := Option.map_eq_some_iff.mp mapped
  refine .inl ⟨s, here, ?_⟩
  split
  · exact ⟨rfl, .inr rfl⟩
  · exact ⟨rfl, .inl rfl⟩

theorem repairPlacement_repaired (step : ActivityLedger × Bool) (personId : String) :
    Repaired step.1 (repairPlacement manifest now step personId).1 := by
  unfold repairPlacement
  split
  · split
    · exact .refl _
    · rename_i person _ _ _ _
      refine ⟨rfl, fun found => ⟨_, found, .refl _⟩, fun {p s'} found => ?_⟩
      rw [people_modifyPerson] at found
      split at found
      · obtain ⟨s, here, rfl⟩ := Option.map_eq_some_iff.mp found
        exact .inl ⟨s, here, rfl, .inl rfl⟩
      · exact .inl ⟨s', found, rfl, .inl rfl⟩
  · exact .refl _

theorem repairDanglingDepartments_repaired :
    Repaired ledger (repairDanglingDepartments ledger manifest now).1 := by
  unfold repairDanglingDepartments
  refine foldl_invariant (fun step : ActivityLedger × Bool => Repaired ledger step.1)
    (fun step p _ so => so.trans (repairPlacement_repaired step p)) ?_
  split
  · exact .refl _
  · exact (dropTransitions_repaired _ _).trans (dropPointers_repaired _ _)

theorem retainKnown_repaired : Repaired ledger (retainKnown ledger manifest).1 := by
  unfold retainKnown
  dsimp only
  split
  · exact (dropTransitions_repaired _ _).trans (dropPointers_repaired _ _)
  · exact .refl _

theorem trimHistory_repaired : Repaired ledger (trimHistory ledger).1 := by
  unfold trimHistory
  split
  · exact .refl _
  · exact dropTransitions_repaired _ _

/-! ### Sweeping -/

/-- A transition the sweep takes is stored and live. -/
theorem expiredTransition_live {nowMs : Int} {personId id : String}
    (expired : expiredTransition ledger nowMs personId = some id) :
    ∃ t, ledger.transitions[id]? = some t ∧ t.status.isTerminal = false := by
  simp only [expiredTransition, Option.bind_eq_bind, Option.bind_eq_some_iff,
    Option.guard_eq_some', Option.some.injEq, exists_and_left] at expired
  obtain ⟨state, _, pointed, _, t, stored, live, _, _, _, _, _, _, _, rfl⟩ := expired
  refine ⟨t, stored, ?_⟩
  rcases live with status | status | status <;> rw [status] <;> rfl

/-- The scope of the sweep: it may cancel what is not applied, and nothing else. -/
def sweepScope (manifest : OrganizationManifest) (stamp : String) : Scope where
  manifest := manifest
  stamp := stamp
  fits := True
  touches _ := True
  rewrites _ _ := True
  moves := Orderly
  opens _ := False

/-- What a list of ids to cancel still needs: none of them is applied. -/
def Unapplied (ids : List String) (ledger : ActivityLedger) : Prop :=
  ∀ id ∈ ids, ∀ t, ledger.transitions[id]? = some t → t.status ≠ .applied

theorem cancelTransition_absent {id stamp : String} (absent : ledger.transitions[id]? = none) :
    cancelTransition ledger id stamp = ledger := by
  unfold cancelTransition
  simp [absent]

theorem cancelTransition_transitions {id stamp a : String} :
    (cancelTransition ledger id stamp).transitions[a]? =
      if id = a then (ledger.transitions[a]?).map fun t => t.cancelledAs stamp
      else ledger.transitions[a]? := by
  cases found : ledger.transitions[id]? with
  | none =>
      rw [cancelTransition_absent found]
      split
      · rename_i same
        rw [← same, found]
        rfl
      · rfl
  | some t =>
      rw [cancelTransition_eq_retire found, retire, transitions_modifyPerson,
        transitions_modifyTransition]

theorem unapplied_cancelTransition {ids : List String} {id stamp : String}
    (unapplied : Unapplied ids ledger) : Unapplied ids (cancelTransition ledger id stamp) := by
  intro other member t found
  rw [cancelTransition_transitions] at found
  split at found
  · obtain ⟨_, _, rfl⟩ := Option.map_eq_some_iff.mp found
    simp [GracefulTransition.cancelledAs]
  · exact unapplied other member t found

theorem cancelledAs_carried {t : GracefulTransition} (stamp : String)
    (unapplied : t.status ≠ .applied) : Carried t (t.cancelledAs stamp) where
  id := rfl
  personId := rfl
  action := rfl
  intentId := rfl
  order := orderly_cancelledAs stamp unapplied
  applied impossible := by cases impossible
  stamps agree := by
    have noStamp := (not_congr agree.applied).mpr unapplied
    exact ⟨by simpa [GracefulTransition.cancelledAs] using noStamp,
      by simp [GracefulTransition.cancelledAs], by simp [GracefulTransition.cancelledAs]⟩

theorem cancelTransition_repaired {id stamp : String}
    (unapplied : ∀ t, ledger.transitions[id]? = some t → t.status ≠ .applied) :
    Repaired ledger (cancelTransition ledger id stamp) := by
  cases found : ledger.transitions[id]? with
  | none =>
      rw [cancelTransition_absent found]
      exact .refl _
  | some t =>
      rw [cancelTransition_eq_retire found]
      refine ⟨rfl, fun {a t'} stored => ?_, fun {p s'} stored => ?_⟩
      · rw [retire, transitions_modifyPerson, transitions_modifyTransition] at stored
        split at stored
        · rename_i same
          subst same
          rw [found] at stored
          obtain rfl := Option.some.inj stored
          exact ⟨t, found, cancelledAs_carried stamp (unapplied t found)⟩
        · exact ⟨t', stored, .refl t'⟩
      · rw [retire, people_modifyPerson] at stored
        split at stored
        · obtain ⟨s, here, rfl⟩ := Option.map_eq_some_iff.mp stored
          refine .inl ⟨s, here, ?_⟩
          unfold PersonActivityState.releasedFrom
          split
          · exact ⟨rfl, .inr rfl⟩
          · exact ⟨rfl, .inl rfl⟩
        · exact .inl ⟨s', stored, rfl, .inl rfl⟩

theorem unapplied_expired {nowMs : Int} :
    Unapplied (ledger.personOrder.filterMap (expiredTransition ledger nowMs)) ledger := by
  intro id member t found
  obtain ⟨personId, _, expired⟩ := List.mem_filterMap.mp member
  obtain ⟨t', stored, live⟩ := expiredTransition_live expired
  rw [found] at stored
  obtain rfl := Option.some.inj stored
  rintro applied
  rw [applied] at live
  cases live

theorem sweepExpiredTransitions_repaired :
    Repaired ledger (sweepExpiredTransitions ledger now).1 := by
  unfold sweepExpiredTransitions
  split
  · exact .refl _
  · rename_i nowMs _
    have kept (after : ActivityLedger) (id : String)
        (member : id ∈ ledger.personOrder.filterMap (expiredTransition ledger nowMs))
        (so : Repaired ledger after ∧
          Unapplied (ledger.personOrder.filterMap (expiredTransition ledger nowMs)) after) :
        Repaired ledger (cancelTransition after id now) ∧
          Unapplied (ledger.personOrder.filterMap (expiredTransition ledger nowMs))
            (cancelTransition after id now) :=
      ⟨so.1.trans (cancelTransition_repaired (so.2 id member)), unapplied_cancelTransition so.2⟩
    exact (foldl_invariant _ kept ⟨.refl ledger, unapplied_expired⟩).1

/-- What the whole repair may do to a ledger. -/
theorem reconcilePeople_repaired (ledger : ActivityLedger) (manifest : OrganizationManifest)
    (now : String) : Repaired ledger (reconcilePeople ledger manifest now).1 :=
  reconcileRoster_repaired.trans (repairDanglingDepartments_repaired.trans
    (retainKnown_repaired.trans (trimHistory_repaired.trans sweepExpiredTransitions_repaired)))

/-! ### The order of the roster -/

theorem sweepExpiredTransitions_order :
    (sweepExpiredTransitions ledger now).1.personOrder = ledger.personOrder := by
  unfold sweepExpiredTransitions
  split
  · rfl
  · refine foldl_invariant (fun after : ActivityLedger => after.personOrder = ledger.personOrder)
      (fun after id _ same => ?_) rfl
    rw [← same]
    unfold cancelTransition
    split <;> rfl

/-- After the repair the people stand in the manifest's order. -/
theorem reconcilePeople_order (ledger : ActivityLedger) (manifest : OrganizationManifest)
    (now : String) :
    (reconcilePeople ledger manifest now).1.personOrder = manifest.peopleOrder := by
  have trimmed (ledger : ActivityLedger) : (trimHistory ledger).1.personOrder = ledger.personOrder := by
    unfold trimHistory
    split <;> rfl
  have retained (ledger : ActivityLedger) :
      (retainKnown ledger manifest).1.personOrder = ledger.personOrder := by
    unfold retainKnown
    dsimp only
    split <;> rfl
  have repaired (ledger : ActivityLedger) :
      (repairDanglingDepartments ledger manifest now).1.personOrder = ledger.personOrder := by
    unfold repairDanglingDepartments
    refine foldl_invariant (fun step : ActivityLedger × Bool =>
      step.1.personOrder = ledger.personOrder) (fun step p _ same => ?_) ?_
    · unfold repairPlacement
      split
      · split <;> exact same
      · exact same
    · split <;> rfl
  obtain ⟨people, shape, _⟩ := reconcileRoster_eq ledger manifest now
  unfold reconcilePeople
  dsimp only
  rw [sweepExpiredTransitions_order, trimmed, retained, repaired, shape]

/-! ### A valid ledger stays valid -/

section Validity

variable (wellFormed : ManifestWellFormed manifest) (readable : Readable now)
  (valid : Valid manifest ledger)
include valid

include wellFormed readable in
theorem reconcileRoster_valid : Valid manifest (reconcileRoster ledger manifest now).1 := by
  obtain ⟨people, shape, lookup⟩ := reconcileRoster_eq ledger manifest now
  rw [shape]
  have stateValid {p : String} {s : PersonActivityState} (found : people[p]? = some s) :
      StateValid manifest ledger.transitions p s := by
    rw [lookup] at found
    split at found
    · rename_i listed
      rcases Option.or_eq_some_iff.mp found with stored | ⟨_, seeded⟩
      · exact valid.state stored
      · obtain ⟨person, known⟩ :=
          BTreeMap.mem_iff_getElem?.mp ((wellFormed.peopleListed.mem_iff p).mp listed)
        simp only [seedPersonState, known, Option.some.injEq] at seeded
        subst seeded
        exact
          { known := BTreeMap.mem_of_getElem? known
            named := rfl
            placed := wellFormed.personPlaced known
            updated := readable
            idle := fun value member => by cases member
            agentActive := fun value member => by cases member
            pointer := fun id member => by cases member }
    · cases found
  refine
    { schemaVersion := valid.schemaVersion
      organization := valid.organization
      people := ⟨wellFormed.peopleListed.nodup, fun p => ⟨fun listed => ?_, fun member => ?_⟩⟩
      transitions := valid.transitions
      state := stateValid
      transition := valid.transition
      sequencePositive := valid.sequencePositive
      fresh := valid.fresh }
  · obtain ⟨person, known⟩ :=
      BTreeMap.mem_iff_getElem?.mp ((wellFormed.peopleListed.mem_iff p).mp listed)
    refine BTreeMap.mem_iff_getElem?.mpr ?_
    rw [lookup, if_pos listed]
    cases ledger.people[p]? with
    | some s => exact ⟨s, rfl⟩
    | none => simp [seedPersonState, known]
  · obtain ⟨s, found⟩ := BTreeMap.mem_iff_getElem?.mp member
    rw [lookup] at found
    by_contra unlisted
    rw [if_neg unlisted] at found
    cases found

theorem departmentsKnown_of_valid {id : String} {t : GracefulTransition}
    (found : ledger.transitions[id]? = some t) : departmentsKnown manifest t = true := by
  have rules := valid.transition found
  simp only [departmentsKnown, decide_eq_true_eq]
  exact ⟨rules.placed, rules.targetKnown⟩

theorem stored_of_listed {id : String} (listed : id ∈ ledger.transitionOrder) :
    ∃ t, ledger.transitions[id]? = some t :=
  BTreeMap.mem_iff_getElem?.mp ((valid.transitions.mem_iff id).mp listed)

/-- A valid ledger has nothing dangling. -/
theorem repairDanglingDepartments_same :
    (repairDanglingDepartments ledger manifest now).1 = ledger := by
  have none : (ledger.transitionOrder.filter fun id =>
      (ledger.transitions[id]?).any fun t => !departmentsKnown manifest t) = [] := by
    refine List.filter_eq_nil_iff.mpr fun id listed => ?_
    obtain ⟨t, found⟩ := stored_of_listed valid listed
    simp [found, departmentsKnown_of_valid valid found]
  unfold repairDanglingDepartments
  rw [none]
  refine foldl_invariant (fun step : ActivityLedger × Bool => step.1 = ledger)
    (fun step p _ same => ?_) rfl
  unfold repairPlacement
  split
  · rename_i person state _ found
    rw [same] at found
    rw [if_pos (valid.state found).placed]
    exact same
  · exact same

include wellFormed in
/-- A valid ledger names nobody the manifest does not know. -/
theorem retainKnown_same : (retainKnown ledger manifest).1 = ledger := by
  have all : (ledger.transitionOrder.filter fun id => (ledger.transitions[id]?).any fun t =>
      decide (t.personId ∈ manifest.peopleOrder) && departmentsKnown manifest t) =
        ledger.transitionOrder := by
    refine List.filter_eq_self.mpr fun id listed => ?_
    obtain ⟨t, found⟩ := stored_of_listed valid listed
    have known := (wellFormed.peopleListed.mem_iff t.personId).mpr (valid.transition found).known
    simp [found, departmentsKnown_of_valid valid found, known]
  unfold retainKnown
  rw [all]
  simp

/-- Dropping transitions nobody points at keeps every rule. -/
theorem dropTransitions_valid {doomed : List String}
    (unreferenced : ∀ id ∈ doomed, id ∉ referencedTransitions ledger) :
    Valid manifest (dropTransitions ledger doomed) := by
  have kept {id : String} {t : GracefulTransition} :
      (dropTransitions ledger doomed).transitions[id]? = some t ↔
        id ∉ doomed ∧ ledger.transitions[id]? = some t := by
    show (BTreeMap.filterKeys ledger.transitions fun id => id ∉ doomed)[id]? = some t ↔ _
    rw [BTreeMap.getElem?_filterKeys]
    by_cases dropped : id ∈ doomed <;> simp [dropped]
  refine
    { schemaVersion := valid.schemaVersion
      organization := valid.organization
      people := valid.people
      transitions := ⟨valid.transitions.nodup.filter _, fun id => ?_⟩
      state := fun {p s} found => ?_
      transition := fun found => valid.transition (kept.mp found).2
      sequencePositive := valid.sequencePositive
      fresh := fun found numbered => valid.fresh (kept.mp found).2 numbered }
  · rw [BTreeMap.mem_iff_getElem?]
    simp only [kept, exists_and_left, ← BTreeMap.mem_iff_getElem?, ← valid.transitions.mem_iff]
    show id ∈ ledger.transitionOrder.filter (fun id => id ∉ doomed) ↔ _
    rw [List.mem_filter]
    simp [and_comm]
  · have rules := valid.state (found : ledger.people[p]? = some s)
    refine { rules with pointer := fun id member => ?_ }
    obtain ⟨t, stored, owner, live⟩ := rules.pointer id member
    refine ⟨t, kept.mpr ⟨fun dropped => unreferenced id dropped ?_, stored⟩, owner, live⟩
    exact List.mem_filterMap.mpr
      ⟨(p, s), Std.ExtTreeMap.mem_toList_iff_getElem?_eq_some.mpr found, member⟩

theorem trimHistory_valid : Valid manifest (trimHistory ledger).1 := by
  unfold trimHistory
  split
  · exact valid
  · refine dropTransitions_valid valid fun id member => ?_
    have droppable := List.mem_of_mem_take member
    simp only [List.mem_filter, Bool.and_eq_true, decide_eq_true_eq] at droppable
    exact droppable.2.1

omit valid in
include wellFormed in
/-- The sweep as a chain of edits. -/
theorem sweepExpiredTransitions_edits (clock : ClockFits now) (ledger : ActivityLedger) :
    Edits (sweepScope manifest now) 0 ledger (sweepExpiredTransitions ledger now).1 := by
  have sound : (sweepScope manifest now).Sound :=
    ⟨fun _ => ⟨clock, wellFormed⟩, fun _ => trivial, fun _ _ => trivial⟩
  unfold sweepExpiredTransitions
  split
  · exact .refl
  · rename_i nowMs _
    have kept (after : ActivityLedger) (id : String)
        (member : id ∈ ledger.personOrder.filterMap (expiredTransition ledger nowMs))
        (so : Edits (sweepScope manifest now) 0 ledger after ∧
          Unapplied (ledger.personOrder.filterMap (expiredTransition ledger nowMs)) after) :
        Edits (sweepScope manifest now) 0 ledger (cancelTransition after id now) ∧
          Unapplied (ledger.personOrder.filterMap (expiredTransition ledger nowMs))
            (cancelTransition after id now) := by
      have cancelled : Edits (sweepScope manifest now) 0 after (cancelTransition after id now) := by
        cases found : after.transitions[id]? with
        | none =>
            rw [cancelTransition_absent found]
            exact .refl
        | some t =>
            exact .single (cancelStored_edit sound found (fun _ => trivial)
              (orderly_cancelledAs _ (so.2 id member t found)))
      exact ⟨so.1.trans cancelled, unapplied_cancelTransition so.2⟩
    exact (foldl_invariant _ kept ⟨.refl, unapplied_expired⟩).1

include wellFormed in
/-- The repair keeps a valid ledger valid. -/
theorem reconcilePeople_valid (clock : ClockFits now)
    (small : ledger.nextTransitionSequence ≤ u64Max) :
    Valid manifest (reconcilePeople ledger manifest now).1 := by
  have rostered := reconcileRoster_valid wellFormed clock.readable valid
  have trimmed := trimHistory_valid rostered
  unfold reconcilePeople
  dsimp only
  rw [repairDanglingDepartments_same rostered, retainKnown_same wellFormed rostered]
  have swept := sweepExpiredTransitions_edits wellFormed clock
    (trimHistory (reconcileRoster ledger manifest now).1).1
  have before : (trimHistory (reconcileRoster ledger manifest now).1).1.nextTransitionSequence ≤
      u64Max := by
    rw [trimHistory_repaired.next, reconcileRoster_repaired.next]
    exact small
  have wiring := trimmed.wired before
  exact (swept.wired_unopened wiring).valid (swept.ruled trimmed.ruled trivial)

end Validity

end Chief.Activity
