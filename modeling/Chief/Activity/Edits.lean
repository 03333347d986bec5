/-
Module: Chief.Activity.Edits
Layer: Proofs
Purpose: What the operations of the activity store may do to a ledger, one elementary edit at a time,
  and what every chain of such edits preserves. Later proofs show once that an operation is a chain of
  edits and read its invariants off this module.
Trusted boundary: none
Main exports: Wired, Ruled, Scope, Edit, Edits, Edits.wired, Edits.room, Edits.ruled,
  Edits.untouched, Edits.state, Edits.origin, Edits.pointed
-/
import Chief.Activity.Commands

namespace Chief.Activity

open Foundation ActivityLedger

/-! ### The rules, split by what they are about -/

/-- Every transition is stored under its own id. Unlike the rest of the wiring, this survives even
where the sequence runs out of numbers. -/
def Named (ledger : ActivityLedger) : Prop :=
  ∀ ⦃id : String⦄ ⦃transition : GracefulTransition⦄,
    ledger.transitions[id]? = some transition → transition.id = id

/-- How orders, pointers and ids of a ledger hang together. -/
structure Wired (ledger : ActivityLedger) : Prop where
  people : BTreeMap.Lists ledger.personOrder ledger.people
  transitions : BTreeMap.Lists ledger.transitionOrder ledger.transitions
  personNamed : ∀ {personId : String} {state : PersonActivityState},
    ledger.people[personId]? = some state → state.personId = personId
  named : Named ledger
  pointer : ∀ {personId id : String} {state : PersonActivityState},
    ledger.people[personId]? = some state → state.activeTransitionId = some id →
      ∃ transition : GracefulTransition, ledger.transitions[id]? = some transition ∧
        transition.personId = personId ∧ transition.status ≠ .cancelled
  numbered : ∀ {id : String} {transition : GracefulTransition},
    ledger.transitions[id]? = some transition →
      ∃ sequence, transitionSequence id = some sequence ∧ sequence < ledger.nextTransitionSequence
  sequencePositive : 0 < ledger.nextTransitionSequence
  small : ledger.nextTransitionSequence ≤ u64Max

theorem Wired.owner {ledger : ActivityLedger} (wired : Wired ledger) {personId : String}
    {transition : GracefulTransition}
    (owed : ledger.activeTransition personId = some transition) :
    transition.personId = personId := by
  obtain ⟨_, _, found, points, stored, _⟩ := activeTransition_eq_some.mp owed
  obtain ⟨_, stored', owner, _⟩ := wired.pointer found points
  rw [stored] at stored'
  obtain rfl := Option.some.inj stored'
  exact owner

theorem Named.stored {ledger : ActivityLedger} (named : Named ledger) {personId : String}
    {transition : GracefulTransition}
    (owed : ledger.activeTransition personId = some transition) :
    ledger.transitions[transition.id]? = some transition := by
  obtain ⟨_, id, _, _, stored, _⟩ := activeTransition_eq_some.mp owed
  rw [named stored]
  exact stored

/-- The last number of the sequence is taken. -/
def Exhausted (ledger : ActivityLedger) : Prop :=
  ∃ id ∈ ledger.transitions, transitionSequence id = some u64Max

theorem Wired.spare {ledger : ActivityLedger} (wired : Wired ledger) : ¬ Exhausted ledger := by
  rintro ⟨id, member, last⟩
  obtain ⟨t, found⟩ := BTreeMap.mem_iff_getElem?.mp member
  obtain ⟨sequence, numbered, below⟩ := wired.numbered found
  rw [last, Option.some.injEq] at numbered
  have small := wired.small
  omega

/-- The rules of one state that concern nothing but the state. -/
structure StateRules (manifest : OrganizationManifest) (state : PersonActivityState) : Prop where
  placed : state.lastDepartmentId ∈ manifest.departments
  updated : Readable state.updatedAt
  idle : ∀ value ∈ state.idleSince, Readable value
  agentActive : ∀ value ∈ state.agentActiveAt, Readable value

/-- The rules of one transition that concern nothing but the transition. -/
structure TransitionRules (manifest : OrganizationManifest) (transition : GracefulTransition) :
    Prop where
  known : transition.personId ∈ manifest.people
  reasonGiven : isBlank transition.reason = false
  reasonShort : transition.reason.length ≤ transitionMaxReasonCharacters
  placed : transition.placementDepartmentId ∈ manifest.departments
  targetKind : transition.action.needsTarget = transition.toDepartmentId.isSome
  targetKnown : ∀ unit ∈ transition.toDepartmentId, unit ∈ manifest.departments
  deadline : ∃ requested due, parseIsoMillis transition.requestedAt = some requested ∧
    parseIsoMillis transition.handoffDeadlineAt = some due ∧ requested ≤ due
  applied : transition.status = .applied → stamped transition.appliedAt = true
  cancelled : transition.status = .cancelled → stamped transition.cancelledAt = true
  forcedPark : transition.status = .forced → transition.action = .park
  forced : transition.status = .forced → stamped transition.forcedAt = true
  abandoned : ∀ value ∈ transition.abandonedAt, transition.status = .cancelled ∧ Readable value

/-- Every record of the ledger follows its own rules. -/
structure Ruled (manifest : OrganizationManifest) (ledger : ActivityLedger) : Prop where
  schemaVersion : ledger.schemaVersion = activitySchemaVersion
  organization : ledger.organization = manifest.slug
  known : ∀ {personId : String} {state : PersonActivityState},
    ledger.people[personId]? = some state → personId ∈ manifest.people
  state : ∀ {personId : String} {state : PersonActivityState},
    ledger.people[personId]? = some state → StateRules manifest state
  transition : ∀ {id : String} {transition : GracefulTransition},
    ledger.transitions[id]? = some transition → TransitionRules manifest transition

/-- A park of a ruled ledger has no target. -/
theorem Ruled.park_untargeted {manifest : OrganizationManifest} {ledger : ActivityLedger}
    (ruled : Ruled manifest ledger) (named : Named ledger) {personId : String}
    {current : GracefulTransition} (owed : ledger.activeTransition personId = some current)
    (park : current.action = .park) : current.toDepartmentId = none := by
  have kind := (ruled.transition (named.stored owed)).targetKind
  rw [park] at kind
  have untargeted : current.toDepartmentId.isSome = false := kind.symm
  simpa using untargeted

theorem Valid.wired {manifest : OrganizationManifest} {ledger : ActivityLedger}
    (valid : Valid manifest ledger) (small : ledger.nextTransitionSequence ≤ u64Max) :
    Wired ledger where
  people := valid.people
  transitions := valid.transitions
  personNamed found := (valid.state found).named
  named _ _ found := (valid.transition found).named
  pointer found points := (valid.state found).pointer _ points
  numbered found :=
    let ⟨sequence, numbered⟩ := (valid.transition found).numbered
    ⟨sequence, numbered, valid.fresh found numbered⟩
  sequencePositive := valid.sequencePositive
  small := small

theorem Valid.ruled {manifest : OrganizationManifest} {ledger : ActivityLedger}
    (valid : Valid manifest ledger) : Ruled manifest ledger where
  schemaVersion := valid.schemaVersion
  organization := valid.organization
  known found := (valid.state found).known
  state found :=
    let rules := valid.state found
    ⟨rules.placed, rules.updated, rules.idle, rules.agentActive⟩
  transition found :=
    let rules := valid.transition found
    ⟨rules.known, rules.reasonGiven, rules.reasonShort, rules.placed, rules.targetKind,
      rules.targetKnown, rules.deadline, rules.applied, rules.cancelled, rules.forcedPark,
      rules.forced, rules.abandoned⟩

/-- A wired ledger whose records follow their rules is valid. -/
theorem Wired.valid {manifest : OrganizationManifest} {ledger : ActivityLedger}
    (wired : Wired ledger) (ruled : Ruled manifest ledger) : Valid manifest ledger where
  schemaVersion := ruled.schemaVersion
  organization := ruled.organization
  people := wired.people
  transitions := wired.transitions
  state found :=
    let rules := ruled.state found
    { known := ruled.known found
      named := wired.personNamed found
      placed := rules.placed
      updated := rules.updated
      idle := rules.idle
      agentActive := rules.agentActive
      pointer := fun _ points => wired.pointer found points }
  transition found :=
    let rules := ruled.transition found
    { rules with
      named := wired.named found
      numbered :=
        let ⟨sequence, numbered, _⟩ := wired.numbered found
        ⟨sequence, numbered⟩ }
  sequencePositive := wired.sequencePositive
  fresh found numbered := by
    obtain ⟨sequence, numbered', below⟩ := wired.numbered found
    rw [numbered, Option.some.injEq] at numbered'
    omega

/-! ### Elementary edits -/

/-- The stamps of a transition agree with its status. -/
structure StampsAgree (transition : GracefulTransition) : Prop where
  applied : transition.appliedAt.isSome = true ↔ transition.status = .applied
  cancelled : transition.cancelledAt.isSome = true ↔ transition.status = .cancelled
  forced : transition.status = .forced → transition.forcedAt.isSome = true

/-- What a chain of edits is allowed to do: the manifest and the stamp it works with, what it needs
for every record to keep its rules, whose records it may touch, how it may rewrite a state, how it may
move a transition on and which transitions it may open. -/
structure Scope where
  manifest : OrganizationManifest
  stamp : String
  fits : Prop
  touches : String → Prop
  rewrites : PersonActivityState → PersonActivityState → Prop
  moves : GracefulTransition → GracefulTransition → Prop
  opens : GracefulTransition → Prop

/-- How one transition may move on. -/
structure Move (scope : Scope) (before after : GracefulTransition) : Prop where
  id : after.id = before.id
  personId : after.personId = before.personId
  action : after.action = before.action
  intentId : after.intentId = before.intentId
  allowed : scope.moves before after
  stamps : (after.status = .cancelled → before.status ≠ .applied) → StampsAgree before →
    StampsAgree after
  rules : scope.fits → TransitionRules scope.manifest before →
    TransitionRules scope.manifest after

/-- How one state may be rewritten. -/
structure Rewrite (scope : Scope) (before after : PersonActivityState) : Prop where
  personId : after.personId = before.personId
  pointer : after.activeTransitionId = before.activeTransitionId ∨
    after.activeTransitionId = none
  allowed : scope.rewrites before after
  rules : scope.fits → StateRules scope.manifest before → StateRules scope.manifest after

/-- What a newly opened transition looks like. -/
structure Opened (scope : Scope) (ledger : ActivityLedger) (transition : GracefulTransition) :
    Prop where
  id : transition.id =
    transitionId ledger.nextTransitionSequence transition.personId transition.action
  touched : scope.touches transition.personId
  person : transition.personId ∈ ledger.people
  allowed : scope.opens transition
  status : transition.status ≠ .cancelled
  forced : transition.status = .forced → transition.intentId = none
  stamps : StampsAgree transition
  rules : scope.fits → Ruled scope.manifest ledger → TransitionRules scope.manifest transition
  stamp : scope.fits → Readable scope.stamp

/-- The ledger after a transition is retired together with its owner's pointer at it. -/
def retire (ledger : ActivityLedger) (id personId : String)
    (g : GracefulTransition → GracefulTransition) (f : PersonActivityState → PersonActivityState) :
    ActivityLedger :=
  (ledger.modifyTransition id g).modifyPerson personId f

/-- One elementary edit; the number is how many transitions it opens. -/
inductive Edit (scope : Scope) : Nat → ActivityLedger → ActivityLedger → Prop where
  | person {ledger : ActivityLedger} {personId : String}
      {f : PersonActivityState → PersonActivityState} (touched : scope.touches personId)
      (rewrite : ∀ state, ledger.people[personId]? = some state → Rewrite scope state (f state)) :
      Edit scope 0 ledger (ledger.modifyPerson personId f)
  | progressed {ledger : ActivityLedger} {id : String} {transition : GracefulTransition}
      {g : GracefulTransition → GracefulTransition}
      (found : ledger.transitions[id]? = some transition)
      (touched : Wired ledger → scope.touches transition.personId)
      (move : Move scope transition (g transition))
      (kept : (g transition).status = .cancelled → transition.status = .cancelled) :
      Edit scope 0 ledger (ledger.modifyTransition id g)
  | retired {ledger : ActivityLedger} {id : String} {transition : GracefulTransition}
      {g : GracefulTransition → GracefulTransition}
      {f : PersonActivityState → PersonActivityState}
      (found : ledger.transitions[id]? = some transition)
      (touched : Wired ledger → scope.touches transition.personId)
      (move : Move scope transition (g transition))
      (rewrite : ∀ state, ledger.people[transition.personId]? = some state →
        Rewrite scope state (f state) ∧ (f state).activeTransitionId ≠ some id) :
      Edit scope 0 ledger (retire ledger id transition.personId g f)
  | opened {ledger : ActivityLedger} {transition : GracefulTransition}
      (opening : Opened scope ledger transition) :
      Edit scope 1 ledger (storeMinted ledger transition scope.stamp)
  | cursor {ledger : ActivityLedger} {position : Option Nat} :
      Edit scope 0 ledger { ledger with automaticParkCursor := position }

namespace Edit

variable {scope : Scope} {k : Nat} {before after : ActivityLedger}

/-! ### What one edit leaves alone -/

theorem personOrder (edit : Edit scope k before after) : after.personOrder = before.personOrder := by
  cases edit <;> rfl

theorem schemaVersion (edit : Edit scope k before after) :
    after.schemaVersion = before.schemaVersion := by
  cases edit <;> rfl

theorem organization (edit : Edit scope k before after) :
    after.organization = before.organization := by
  cases edit <;> rfl

theorem next (edit : Edit scope k before after)
    (small : before.nextTransitionSequence ≤ u64Max) :
    after.nextTransitionSequence = min (before.nextTransitionSequence + k) u64Max := by
  cases edit with
  | opened opening => rfl
  | person | progressed | retired | cursor => exact (min_eq_left small).symm

/-- How the state of one person follows from the state before. -/
theorem state (edit : Edit scope k before after) {personId : String} {s' : PersonActivityState}
    (found : after.people[personId]? = some s') :
    ∃ s, before.people[personId]? = some s ∧
      (s' = s ∨ Rewrite scope s s' ∨ ∃ t, Opened scope before t ∧ t.personId = personId ∧
        after = storeMinted before t scope.stamp ∧
        s' = { s with activeTransitionId := some t.id, updatedAt := scope.stamp }) := by
  cases edit with
  | person touched rewrite =>
      rw [people_modifyPerson] at found
      split at found
      · rename_i same
        obtain ⟨s, here, rfl⟩ := Option.map_eq_some_iff.mp found
        exact ⟨s, here, .inr (.inl (rewrite s (same ▸ here)))⟩
      · exact ⟨s', found, .inl rfl⟩
  | progressed => exact ⟨s', found, .inl rfl⟩
  | retired _ _ _ rewrite =>
      rw [retire, people_modifyPerson] at found
      split at found
      · rename_i same
        obtain ⟨s, here, rfl⟩ := Option.map_eq_some_iff.mp found
        exact ⟨s, here, .inr (.inl (rewrite s (same ▸ here)).1)⟩
      · exact ⟨s', found, .inl rfl⟩
  | @opened _ t opening =>
      have shape : (before.people.modify t.personId fun state =>
          { state with activeTransitionId := some t.id, updatedAt := scope.stamp })[personId]? =
            some s' := found
      rw [BTreeMap.getElem?_modify] at shape
      split at shape
      · rename_i same
        obtain ⟨s, here, rfl⟩ := Option.map_eq_some_iff.mp shape
        exact ⟨s, here, .inr (.inr ⟨t, opening, same, rfl, rfl⟩)⟩
      · exact ⟨s', shape, .inl rfl⟩
  | cursor => exact ⟨s', found, .inl rfl⟩

/-- Where one transition comes from: unchanged, moved on, or opened. -/
theorem transition (edit : Edit scope k before after) {id : String} {t' : GracefulTransition}
    (found : after.transitions[id]? = some t') :
    (∃ t, before.transitions[id]? = some t ∧ (t' = t ∨ Move scope t t')) ∨
      (Opened scope before t' ∧ t'.id = id ∧ k = 1) := by
  cases edit with
  | person | cursor => exact .inl ⟨t', found, .inl rfl⟩
  | progressed here _ move _ =>
      rw [transitions_modifyTransition] at found
      split at found
      · rename_i same
        subst same
        rw [here] at found
        obtain rfl := Option.some.inj found
        exact .inl ⟨_, here, .inr move⟩
      · exact .inl ⟨t', found, .inl rfl⟩
  | retired here _ move _ =>
      rw [retire, transitions_modifyPerson, transitions_modifyTransition] at found
      split at found
      · rename_i same
        subst same
        rw [here] at found
        obtain rfl := Option.some.inj found
        exact .inl ⟨_, here, .inr move⟩
      · exact .inl ⟨t', found, .inl rfl⟩
  | @opened _ t opening =>
      have shape : (before.transitions.insert t.id t)[id]? = some t' := found
      rw [BTreeMap.getElem?_insert] at shape
      split at shape
      · rename_i same
        obtain rfl := Option.some.inj shape
        exact .inr ⟨opening, same, rfl⟩
      · exact .inl ⟨t', shape, .inl rfl⟩

theorem named (edit : Edit scope k before after) (named : Named before) : Named after := by
  intro id t' found
  rcases edit.transition found with ⟨t, here, rfl | move⟩ | ⟨_, same, _⟩
  · exact named here
  · exact move.id.trans (named here)
  · exact same

theorem mem_people (edit : Edit scope k before after) {personId : String} :
    personId ∈ after.people ↔ personId ∈ before.people := by
  cases edit with
  | person | opened => exact Std.ExtTreeMap.mem_modify
  | retired => exact Std.ExtTreeMap.mem_modify
  | progressed | cursor => rfl

/-- No edit removes a transition. -/
theorem mem_transitions (edit : Edit scope k before after) {id : String}
    (member : id ∈ before.transitions) : id ∈ after.transitions := by
  cases edit with
  | person | cursor => exact member
  | progressed => exact Std.ExtTreeMap.mem_modify.mpr member
  | retired => exact Std.ExtTreeMap.mem_modify.mpr member
  | opened => exact Std.ExtTreeMap.mem_insert.mpr (.inr member)

/-! ### What one edit preserves -/

section Wiring

variable (edit : Edit scope k before after) (wiring : Wired before)
  (room : before.nextTransitionSequence + k ≤ u64Max)

include edit in
theorem next_of_room (room : before.nextTransitionSequence + k ≤ u64Max) :
    after.nextTransitionSequence = before.nextTransitionSequence + k := by
  rw [edit.next (by omega), min_eq_left room]

/-- The id of a newly opened transition is new. -/
theorem fresh {t : GracefulTransition} (opening : Opened scope before t) (wired : Wired before)
    (room : before.nextTransitionSequence ≤ u64Max) : t.id ∉ before.transitions := by
  intro member
  obtain ⟨old, found⟩ := BTreeMap.mem_iff_getElem?.mp member
  obtain ⟨sequence, numbered, below⟩ := wired.numbered found
  rw [opening.id, transitionSequence_transitionId _ _ room, Option.some.injEq] at numbered
  omega

include edit wiring room in
theorem wired_transitions : BTreeMap.Lists after.transitionOrder after.transitions := by
  cases edit with
  | person | cursor => exact wiring.transitions
  | progressed =>
      exact ⟨wiring.transitions.nodup, fun id => (wiring.transitions.mem_iff id).trans
        Std.ExtTreeMap.mem_modify.symm⟩
  | retired =>
      exact ⟨wiring.transitions.nodup, fun id => (wiring.transitions.mem_iff id).trans
        Std.ExtTreeMap.mem_modify.symm⟩
  | @opened _ t opening =>
      have unlisted : t.id ∉ before.transitionOrder := fun member =>
        fresh opening wiring (by omega) ((wiring.transitions.mem_iff _).mp member)
      constructor
      · exact List.nodup_append.mpr ⟨wiring.transitions.nodup, List.nodup_singleton _,
          fun a old b new => by
            rintro rfl
            exact unlisted (List.mem_singleton.mp new ▸ old)⟩
      · intro id
        have stored : id ∈ (storeMinted before t scope.stamp).transitions ↔
            t.id = id ∨ id ∈ before.transitions := by
          simp [storeMinted, Std.ExtTreeMap.mem_insert]
        rw [stored, ← wiring.transitions.mem_iff]
        simp only [storeMinted, List.mem_append, List.mem_singleton]
        constructor
        · rintro (old | rfl)
          · exact .inr old
          · exact .inl rfl
        · rintro (rfl | old)
          · exact .inr rfl
          · exact .inl old

include edit wiring room in
theorem wired_numbered {id : String} {t' : GracefulTransition}
    (found : after.transitions[id]? = some t') :
    ∃ sequence, transitionSequence id = some sequence ∧
      sequence < after.nextTransitionSequence := by
  rw [edit.next_of_room room]
  rcases edit.transition found with ⟨t, here, _⟩ | ⟨opening, rfl, rfl⟩
  · obtain ⟨sequence, numbered, below⟩ := wiring.numbered here
    exact ⟨sequence, numbered, by omega⟩
  · refine ⟨before.nextTransitionSequence, ?_, by omega⟩
    rw [opening.id, transitionSequence_transitionId _ _ (by omega)]

include edit wiring room in
theorem wired_pointer {personId id : String} {s' : PersonActivityState}
    (found : after.people[personId]? = some s') (points : s'.activeTransitionId = some id) :
    ∃ t : GracefulTransition, after.transitions[id]? = some t ∧ t.personId = personId ∧
      t.status ≠ .cancelled := by
  have old {s : PersonActivityState} (here : before.people[personId]? = some s)
      (kept : s.activeTransitionId = some id) := wiring.pointer here kept
  cases edit with
  | person touched rewrite =>
      rw [people_modifyPerson] at found
      split at found
      · rename_i same
        obtain ⟨s, here, rfl⟩ := Option.map_eq_some_iff.mp found
        rcases (rewrite s (same ▸ here)).pointer with kept | gone
        · exact old here (kept ▸ points)
        · rw [gone] at points
          cases points
      · exact old found points
  | cursor => exact old found points
  | @progressed _ key t g here _ move kept =>
      obtain ⟨t0, stored, owner, live⟩ := old found points
      rw [transitions_modifyTransition]
      by_cases same : key = id
      · subst same
        rw [here] at stored
        obtain rfl := Option.some.inj stored
        exact ⟨g t, by simp [here], move.personId.trans owner, fun cancelled => live (kept cancelled)⟩
      · exact ⟨t0, by simp [same, stored], owner, live⟩
  | @retired _ key t g f here _ move rewrite =>
      rw [retire, people_modifyPerson] at found
      have elsewhere {s : PersonActivityState} (state : before.people[personId]? = some s)
          (kept : s.activeTransitionId = some id) (other : key ≠ id) :
          ∃ t', (retire before key t.personId g f).transitions[id]? = some t' ∧
            t'.personId = personId ∧ t'.status ≠ .cancelled := by
        obtain ⟨t0, stored, owner, live⟩ := old state kept
        refine ⟨t0, ?_, owner, live⟩
        rw [retire, transitions_modifyPerson, transitions_modifyTransition, if_neg other, stored]
      split at found
      · rename_i same
        obtain ⟨s, state, rfl⟩ := Option.map_eq_some_iff.mp found
        obtain ⟨rewritten, away⟩ := rewrite s (same ▸ state)
        rcases rewritten.pointer with kept | gone
        · exact elsewhere state (kept ▸ points) fun same => away (same ▸ points)
        · rw [gone] at points
          cases points
      · rename_i other
        refine elsewhere found points fun same => other ?_
        obtain ⟨t0, stored, owner, _⟩ := old found points
        rw [← same, here] at stored
        obtain rfl := Option.some.inj stored
        exact owner
  | @opened _ t opening =>
      have shape : (before.people.modify t.personId fun state =>
          { state with activeTransitionId := some t.id, updatedAt := scope.stamp })[personId]? =
            some s' := found
      rw [BTreeMap.getElem?_modify] at shape
      have stored : (storeMinted before t scope.stamp).transitions[id]? =
          if t.id = id then some t else before.transitions[id]? := BTreeMap.getElem?_insert
      rw [stored]
      split at shape
      · rename_i same
        obtain ⟨s, _, rfl⟩ := Option.map_eq_some_iff.mp shape
        obtain rfl := Option.some.inj points
        exact ⟨t, if_pos rfl, same, opening.status⟩
      · obtain ⟨t0, stored, owner, live⟩ := old shape points
        refine ⟨t0, ?_, owner, live⟩
        rw [if_neg, stored]
        rintro rfl
        exact fresh opening wiring (by omega) (BTreeMap.mem_of_getElem? stored)

include edit wiring room in
theorem wired : Wired after where
  people := ⟨edit.personOrder ▸ wiring.people.nodup, fun personId => by
    rw [edit.personOrder, wiring.people.mem_iff, edit.mem_people]⟩
  transitions := edit.wired_transitions wiring room
  personNamed found := by
    obtain ⟨s, here, rfl | rewritten | ⟨_, _, _, _, rfl⟩⟩ := edit.state found
    · exact wiring.personNamed here
    · exact rewritten.personId.trans (wiring.personNamed here)
    · have named : s.personId = _ := wiring.personNamed here
      exact named
  named := edit.named wiring.named
  pointer found points := edit.wired_pointer wiring room found points
  numbered found := edit.wired_numbered wiring room found
  sequencePositive := by
    rw [edit.next_of_room room]
    exact Nat.lt_of_lt_of_le wiring.sequencePositive (Nat.le_add_right _ _)
  small := by rw [edit.next_of_room room]; exact room

end Wiring

/-- Records keep their rules. -/
theorem ruled (edit : Edit scope k before after) (ruled : Ruled scope.manifest before)
    (fits : scope.fits) : Ruled scope.manifest after where
  schemaVersion := edit.schemaVersion.trans ruled.schemaVersion
  organization := edit.organization.trans ruled.organization
  known found := by
    obtain ⟨s, here, _⟩ := edit.state found
    exact ruled.known here
  state found := by
    obtain ⟨s, here, rfl | rewritten | ⟨_, opening, _, _, rfl⟩⟩ := edit.state found
    · exact ruled.state here
    · exact rewritten.rules fits (ruled.state here)
    · exact { ruled.state here with updated := opening.stamp fits }
  transition found := by
    rcases edit.transition found with ⟨t, here, rfl | move⟩ | ⟨opening, _, _⟩
    · exact ruled.transition here
    · exact move.rules fits (ruled.transition here)
    · exact opening.rules fits ruled

/-! ### What one edit does to one person -/

/-- The pointer of a person whose state, and whose transition, stay the same. -/
private theorem activeTransition_congr {personId : String} (wiring : Wired before)
    (people : after.people[personId]? = before.people[personId]?)
    (transitions : ∀ (id : String) (t : GracefulTransition), before.transitions[id]? = some t →
      t.personId = personId → after.transitions[id]? = before.transitions[id]?) :
    after.activeTransition personId = before.activeTransition personId := by
  unfold ActivityLedger.activeTransition
  rw [people]
  cases found : before.people[personId]? with
  | none => rfl
  | some s =>
      cases points : s.activeTransitionId with
      | none => simp [points]
      | some id =>
          obtain ⟨t, stored, owner, _⟩ := wiring.pointer found points
          simp only [points, transitions id t stored owner]

/-- A person out of reach keeps state and pointer. -/
theorem untouched (edit : Edit scope k before after) (wiring : Wired before)
    (room : before.nextTransitionSequence + k ≤ u64Max) {personId : String}
    (away : ¬ scope.touches personId) :
    after.people[personId]? = before.people[personId]? ∧
      after.activeTransition personId = before.activeTransition personId := by
  cases edit with
  | @person _ owner f touched _ =>
      have other : owner ≠ personId := fun same => away (same ▸ touched)
      have people := (people_modifyPerson before owner f).trans (if_neg other)
      exact ⟨people, activeTransition_congr wiring people fun _ _ _ _ => rfl⟩
  | cursor => exact ⟨rfl, rfl⟩
  | @progressed _ key t g here touched _ _ =>
      refine ⟨rfl, activeTransition_congr wiring rfl fun id t' stored owner => ?_⟩
      rw [transitions_modifyTransition, if_neg]
      rintro rfl
      rw [here] at stored
      obtain rfl := Option.some.inj stored
      exact away (owner ▸ touched wiring)
  | @retired _ key t g f here touched _ _ =>
      have people : (retire before key t.personId g f).people[personId]? =
          before.people[personId]? := by
        have other : t.personId ≠ personId := fun same => away (same ▸ touched wiring)
        rw [retire, people_modifyPerson, if_neg other]
        rfl
      refine ⟨people, activeTransition_congr wiring people fun id t' stored owner => ?_⟩
      rw [retire, transitions_modifyPerson, transitions_modifyTransition, if_neg]
      rintro rfl
      rw [here] at stored
      obtain rfl := Option.some.inj stored
      exact away (owner ▸ touched wiring)
  | @opened _ t opening =>
      have other : t.personId ≠ personId := fun same => away (same ▸ opening.touched)
      have people : (storeMinted before t scope.stamp).people[personId]? =
          before.people[personId]? :=
        BTreeMap.getElem?_modify.trans (if_neg other)
      refine ⟨people, activeTransition_congr wiring people fun id t' stored _ => ?_⟩
      refine BTreeMap.getElem?_insert.trans (if_neg ?_)
      rintro rfl
      exact fresh opening wiring (by omega) (BTreeMap.mem_of_getElem? stored)

/-- The transition a person owes after an edit: the one owed before, moved on or not, or one just
opened. -/
theorem pointed (edit : Edit scope k before after) (wiring : Wired before)
    (room : before.nextTransitionSequence + k ≤ u64Max) {personId : String}
    {t' : GracefulTransition} (owed : after.activeTransition personId = some t') :
    (∃ t, before.activeTransition personId = some t ∧ (t' = t ∨ Move scope t t')) ∨
      (scope.opens t' ∧ t'.personId = personId) := by
  obtain ⟨s', id, found, points, stored, _⟩ := activeTransition_eq_some.mp owed
  have kept {s : PersonActivityState} (here : before.people[personId]? = some s)
      (same : s.activeTransitionId = some id) :
      ∃ t, before.activeTransition personId = some t ∧ (t' = t ∨ Move scope t t') := by
    obtain ⟨t0, stored0, _, live⟩ := wiring.pointer here same
    rcases edit.transition stored with ⟨t, stored1, moved⟩ | ⟨opening, rfl, rfl⟩
    · rw [stored1] at stored0
      obtain rfl := Option.some.inj stored0
      exact ⟨t, activeTransition_eq_some.mpr ⟨s, id, here, same, stored1, live⟩, moved⟩
    · exact absurd (BTreeMap.mem_of_getElem? stored0) (fresh opening wiring (by omega))
  obtain ⟨s, here, rfl | rewritten | ⟨t, opening, owner, shape, rfl⟩⟩ := edit.state found
  · exact .inl (kept here points)
  · rcases rewritten.pointer with same | gone
    · exact .inl (kept here (same ▸ points))
    · rw [gone] at points
      cases points
  · obtain rfl := Option.some.inj points
    have new : after.transitions[t.id]? = some t := by
      rw [shape]
      exact BTreeMap.getElem?_insert.trans (if_pos rfl)
    rw [new] at stored
    obtain rfl := Option.some.inj stored
    exact .inr ⟨opening.allowed, owner⟩

end Edit

/-! ### Chains -/

/-- A chain of edits. -/
inductive Edits (scope : Scope) : Nat → ActivityLedger → ActivityLedger → Prop where
  | refl {ledger : ActivityLedger} : Edits scope 0 ledger ledger
  | step {k n : Nat} {before middle after : ActivityLedger} (first : Edit scope k before middle)
      (rest : Edits scope n middle after) : Edits scope (k + n) before after

namespace Edits

variable {scope : Scope} {k n : Nat} {before middle after : ActivityLedger}

theorem single (edit : Edit scope k before after) : Edits scope k before after :=
  .step edit .refl

theorem trans (first : Edits scope k before middle) (second : Edits scope n middle after) :
    Edits scope (k + n) before after := by
  induction first with
  | refl => simpa using second
  | step edit _ inductionHypothesis =>
      rw [Nat.add_assoc]
      exact .step edit (inductionHypothesis second)

theorem personOrder (edits : Edits scope n before after) :
    after.personOrder = before.personOrder := by
  induction edits with
  | refl => rfl
  | step edit _ inductionHypothesis => exact inductionHypothesis.trans edit.personOrder

theorem named (edits : Edits scope n before after) (named : Named before) : Named after := by
  induction edits with
  | refl => exact named
  | step edit _ inductionHypothesis => exact inductionHypothesis (edit.named named)

theorem mem_people (edits : Edits scope n before after) {personId : String} :
    personId ∈ after.people ↔ personId ∈ before.people := by
  induction edits with
  | refl => rfl
  | step edit _ inductionHypothesis => exact inductionHypothesis.trans edit.mem_people

theorem mem_transitions (edits : Edits scope n before after) {id : String}
    (member : id ∈ before.transitions) : id ∈ after.transitions := by
  induction edits with
  | refl => exact member
  | step edit _ inductionHypothesis => exact inductionHypothesis (edit.mem_transitions member)

theorem next (edits : Edits scope n before after)
    (small : before.nextTransitionSequence ≤ u64Max) :
    after.nextTransitionSequence = min (before.nextTransitionSequence + n) u64Max := by
  induction edits with
  | refl => exact (min_eq_left small).symm
  | step edit _ inductionHypothesis =>
      have grown := edit.next small
      rw [inductionHypothesis (by omega)]
      omega

theorem wired (edits : Edits scope n before after) (wiring : Wired before)
    (room : before.nextTransitionSequence + n ≤ u64Max) : Wired after := by
  induction edits with
  | refl => exact wiring
  | step edit _ inductionHypothesis =>
      refine inductionHypothesis (edit.wired wiring (by omega)) ?_
      rw [edit.next_of_room (by omega)]
      omega

/-- A chain that opens nothing needs no room. -/
theorem wired_unopened (edits : Edits scope 0 before after) (wiring : Wired before) :
    Wired after :=
  edits.wired wiring wiring.small

/-- A chain without room for what it opens uses up the last number. -/
private theorem exhausted (edits : Edits scope n before after) (wiring : Wired before)
    (crowded : u64Max < before.nextTransitionSequence + n) : Exhausted after := by
  induction edits with
  | refl =>
      have small := wiring.small
      omega
  | @step k n before middle after edit rest inductionHypothesis =>
      by_cases room : before.nextTransitionSequence + k ≤ u64Max
      · refine inductionHypothesis (edit.wired wiring room) ?_
        rw [edit.next_of_room room]
        omega
      · cases edit with
        | opened opening =>
            have small := wiring.small
            refine ⟨_, rest.mem_transitions (Std.ExtTreeMap.mem_insert_self), ?_⟩
            rw [opening.id, transitionSequence_transitionId _ _ small]
            have last : before.nextTransitionSequence = u64Max := by omega
            rw [last]
        | person | progressed | retired | cursor =>
            exact absurd wiring.small (by omega)

/-- A chain that leaves the last number unused had room for every transition it opened. -/
theorem room (edits : Edits scope n before after) (wiring : Wired before)
    (spare : ¬ Exhausted after) : before.nextTransitionSequence + n ≤ u64Max := by
  by_contra crowded
  exact spare (edits.exhausted wiring (by omega))

theorem spare (edits : Edits scope n before after) (spare : ¬ Exhausted after) :
    ¬ Exhausted before :=
  fun ⟨id, member, numbered⟩ => spare ⟨id, edits.mem_transitions member, numbered⟩

theorem ruled (edits : Edits scope n before after) (ruled : Ruled scope.manifest before)
    (fits : scope.fits) : Ruled scope.manifest after := by
  induction edits with
  | refl => exact ruled
  | step edit _ inductionHypothesis => exact inductionHypothesis (edit.ruled ruled fits)

theorem untouched (edits : Edits scope n before after) (wiring : Wired before)
    (room : before.nextTransitionSequence + n ≤ u64Max) {personId : String}
    (away : ¬ scope.touches personId) :
    after.people[personId]? = before.people[personId]? ∧
      after.activeTransition personId = before.activeTransition personId := by
  induction edits with
  | refl => exact ⟨rfl, rfl⟩
  | step edit _ inductionHypothesis =>
      obtain ⟨people, owed⟩ := edit.untouched wiring (by omega) away
      obtain ⟨people', owed'⟩ := inductionHypothesis (edit.wired wiring (by omega))
        (by rw [edit.next_of_room (by omega)]; omega)
      exact ⟨people'.trans people, owed'.trans owed⟩

/-- What holds of one person's state, and survives every rewrite and every new pointer, holds after
the chain. -/
theorem state (edits : Edits scope n before after) {personId : String}
    (holds : PersonActivityState → Prop)
    (rewritten : ∀ s s', holds s → Rewrite scope s s' → holds s')
    (repointed : ∀ s id, holds s →
      holds { s with activeTransitionId := some id, updatedAt := scope.stamp })
    (old : ∀ s, before.people[personId]? = some s → holds s) {s : PersonActivityState}
    (found : after.people[personId]? = some s) : holds s := by
  induction edits with
  | refl => exact old s found
  | step edit _ inductionHypothesis =>
      refine inductionHypothesis (fun s' here => ?_) found
      obtain ⟨s0, here0, rfl | rewrite | ⟨t, _, _, _, rfl⟩⟩ := edit.state here
      · exact old s' here0
      · exact rewritten s0 s' (old s0 here0) rewrite
      · exact repointed s0 t.id (old s0 here0)

/-- What holds of every transition, and survives every move and holds of everything opened, holds
after the chain. -/
theorem origin (edits : Edits scope n before after)
    (small : before.nextTransitionSequence ≤ u64Max) (holds : String → GracefulTransition → Prop)
    (moved : ∀ id t t', holds id t → Move scope t t' → holds id t')
    (opened : ∀ ledger t, Opened scope ledger t →
      before.nextTransitionSequence ≤ ledger.nextTransitionSequence →
      ledger.nextTransitionSequence ≤ u64Max → holds t.id t)
    (old : ∀ id t, before.transitions[id]? = some t → holds id t) {id : String}
    {t : GracefulTransition} (found : after.transitions[id]? = some t) : holds id t := by
  induction edits with
  | refl => exact old id t found
  | step edit _ inductionHypothesis =>
      have grown := edit.next small
      refine inductionHypothesis (by omega) (fun ledger t opening above below =>
        opened ledger t opening (by omega) below) (fun id t' stored => ?_) found
      rcases edit.transition stored with ⟨t0, stored0, rfl | move⟩ | ⟨opening, rfl, _⟩
      · exact old id t' stored0
      · exact moved id t0 t' (old id t0 stored0) move
      · exact opened _ t' opening (le_refl _) small

/-- The same rule for the transition one person owes. -/
theorem pointed (edits : Edits scope n before after) (wiring : Wired before)
    (room : before.nextTransitionSequence + n ≤ u64Max) {personId : String}
    (holds : GracefulTransition → Prop)
    (moved : ∀ t t', holds t → Move scope t t' → holds t')
    (opened : ∀ t, scope.opens t → t.personId = personId → holds t)
    (old : ∀ t, before.activeTransition personId = some t → holds t) {t : GracefulTransition}
    (owed : after.activeTransition personId = some t) : holds t := by
  induction edits with
  | refl => exact old t owed
  | step edit _ inductionHypothesis =>
      refine inductionHypothesis (edit.wired wiring (by omega))
        (by rw [edit.next_of_room (by omega)]; omega) (fun t' owed' => ?_) owed
      rcases edit.pointed wiring (by omega) owed' with ⟨t0, owed0, rfl | move⟩ | ⟨allowed, owner⟩
      · exact old t' owed0
      · exact moved t0 t' (old t0 owed0) move
      · exact opened t' allowed owner

end Edits

/-! ### Wider scopes -/

/-- Everything the inner scope allows, the outer one allows. -/
structure Scope.Within (inner outer : Scope) : Prop where
  manifest : inner.manifest = outer.manifest
  stamp : inner.stamp = outer.stamp
  fits : outer.fits → inner.fits
  touches : ∀ personId, inner.touches personId → outer.touches personId
  moves : ∀ before after, inner.moves before after → outer.moves before after
  opens : ∀ transition, inner.opens transition → outer.opens transition
  rewrites : ∀ before after, inner.rewrites before after → outer.rewrites before after

section Widen

variable {inner outer : Scope} (within : inner.Within outer)
include within

private theorem Move.widen {t t' : GracefulTransition} (move : Move inner t t') :
    Move outer t t' :=
  { move with
    allowed := within.moves _ _ move.allowed
    rules := fun fits => within.manifest ▸ move.rules (within.fits fits) }

private theorem Rewrite.widen {s s' : PersonActivityState} (rewrite : Rewrite inner s s') :
    Rewrite outer s s' :=
  { rewrite with
    allowed := within.rewrites _ _ rewrite.allowed
    rules := fun fits => within.manifest ▸ rewrite.rules (within.fits fits) }

private theorem Opened.widen {ledger : ActivityLedger} {t : GracefulTransition}
    (opening : Opened inner ledger t) : Opened outer ledger t :=
  { opening with
    touched := within.touches _ opening.touched
    allowed := within.opens _ opening.allowed
    rules := fun fits => within.manifest ▸ opening.rules (within.fits fits)
    stamp := fun fits => within.stamp ▸ opening.stamp (within.fits fits) }

theorem Edit.widen {k : Nat} {before after : ActivityLedger} (edit : Edit inner k before after) :
    Edit outer k before after := by
  cases edit with
  | person touched rewrite =>
      exact .person (within.touches _ touched) fun s found => (rewrite s found).widen within
  | progressed found touched move kept =>
      exact .progressed found (fun wiring => within.touches _ (touched wiring))
        (move.widen within) kept
  | retired found touched move rewrite =>
      exact .retired found (fun wiring => within.touches _ (touched wiring)) (move.widen within)
        fun s state => ⟨(rewrite s state).1.widen within, (rewrite s state).2⟩
  | opened opening =>
      rw [within.stamp]
      exact .opened (opening.widen within)
  | cursor => exact .cursor

theorem Edits.widen {n : Nat} {before after : ActivityLedger}
    (edits : Edits inner n before after) : Edits outer n before after := by
  induction edits with
  | refl => exact .refl
  | step edit _ inductionHypothesis => exact .step (edit.widen within) inductionHypothesis

end Widen

end Chief.Activity
