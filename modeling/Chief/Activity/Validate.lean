/-
Module: Chief.Activity.Validate
Layer: Model
Purpose: The rules of the activity ledger, and the same rules as a proposition.
Trusted boundary: human-reviewed translation
Main exports: exactOrder, validate, StateValid, TransitionValid, Valid, validate_eq_ok_iff
-/
import Chief.Activity.Ledger

namespace Chief.Activity

open Foundation

/-! ### The rules -/

/-- The source's `invalid`: a refusal of the ledger validator. -/
def invalidLedger (message : String) : Refusal := { code := invalidInput, message := message }

def exactOrder {α : Type} (order : List String) (records : BTreeMap α) (label : String) :
    Except Refusal Unit :=
  require (order.Nodup ∧ (∀ id ∈ order, id ∈ records) ∧ order.length = records.size)
    (invalidLedger s!"Activity {label} order is invalid")

/-- An optional timestamp must be readable when it is there. -/
def readableStamp (personId : String) (field : Option String) (label : String) :
    Except Refusal Unit :=
  require (∀ value ∈ field, Readable value)
    (invalidLedger s!"Activity person '{personId}' has invalid {label}")

/-- A pointer must name an existing transition of the same person that is not cancelled. -/
def pointerValid (ledger : ActivityLedger) (personId : String) (id : String) : Bool :=
  match ledger.transitions[id]? with
  | none => false
  | some transition => transition.personId = personId ∧ transition.status ≠ .cancelled

def validatePersonState (ledger : ActivityLedger) (manifest : OrganizationManifest)
    (personId : String) : Except Refusal Unit := do
  let some state := ledger.people[personId]? | .error (indexPanic personId)
  require (¬ (personId ∉ manifest.people ∨ state.personId ≠ personId))
    { code := unknownPerson, message := s!"Unknown activity person '{personId}'" }
  let unit := state.lastDepartmentId
  require (unit ∈ manifest.departments) (invalidLedger
    s!"Activity person '{personId}' has a prior placement at '{unit}', which this organization has no department for; a prior placement must name one of its current departments")
  require (Readable state.updatedAt)
    (invalidLedger s!"Activity person '{personId}' has invalid desired state")
  readableStamp personId state.idleSince "idle lease time"
  readableStamp personId state.agentActiveAt "agent activity time"
  require (∀ id ∈ state.activeTransitionId, pointerValid ledger personId id = true)
    (invalidLedger s!"Activity person '{personId}' has an invalid active transition")

/-- A stamp the status requires. -/
def stamped (field : Option String) : Bool := (field.bind parseIsoMillis).isSome

/-- The rules of one transition; the result is its sequence. -/
def validateTransition (ledger : ActivityLedger) (manifest : OrganizationManifest) (id : String) :
    Except Refusal Nat := do
  let some transition := ledger.transitions[id]? | .error (indexPanic id)
  require (¬ (transition.id ≠ id ∨ transition.personId ∉ manifest.people))
    (invalidLedger s!"Graceful transition '{id}' is invalid")
  let some sequence := transitionSequence id
    | .error (invalidLedger s!"Graceful transition '{id}' has an invalid id")
  require (¬ (isBlank transition.reason = true ∨
      transition.reason.length > transitionMaxReasonCharacters))
    (invalidLedger s!"Graceful transition '{id}' has an invalid reason")
  require (transition.placementDepartmentId ∈ manifest.departments)
    (invalidLedger s!"Graceful transition '{id}' has invalid prior placement")
  require (¬ (transition.action.needsTarget ≠ transition.toDepartmentId.isSome ∨
      ∃ unit ∈ transition.toDepartmentId, unit ∉ manifest.departments))
    (invalidLedger s!"Graceful transition '{id}' has an invalid target")
  let deadlineKept := match parseIsoMillis transition.requestedAt,
      parseIsoMillis transition.handoffDeadlineAt with
    | some requested, some deadline => decide (deadline ≥ requested)
    | _, _ => false
  require (deadlineKept = true)
    (invalidLedger s!"Graceful transition '{id}' has an invalid deadline")
  require (¬ (transition.status = .applied ∧ stamped transition.appliedAt = false))
    (invalidLedger s!"Graceful transition '{id}' has no applied timestamp")
  require (¬ (transition.status = .cancelled ∧ stamped transition.cancelledAt = false))
    (invalidLedger s!"Graceful transition '{id}' has no cancelled timestamp")
  require (¬ (transition.status = .forced ∧ transition.action ≠ .park))
    (invalidLedger s!"Graceful transition '{id}' is 'forced' but not a 'park'")
  require (¬ (transition.status = .forced ∧ stamped transition.forcedAt = false))
    (invalidLedger s!"Graceful transition '{id}' has no forced timestamp")
  require (∀ abandoned ∈ transition.abandonedAt,
      transition.status = .cancelled ∧ Readable abandoned)
    (invalidLedger s!"Graceful transition '{id}' has an invalid abandoned timestamp")
  .ok sequence

/-- Every rule of the ledger, in the order the source checks them. -/
def validate (ledger : ActivityLedger) (manifest : OrganizationManifest) : Except Refusal Unit := do
  require (ledger.schemaVersion = activitySchemaVersion)
    (invalidLedger "Unsupported activity ledger")
  require (ledger.organization = manifest.slug) (invalidLedger
    s!"Activity ledger belongs to '{ledger.organization}', not '{manifest.slug}'")
  exactOrder ledger.personOrder ledger.people "person"
  exactOrder ledger.transitionOrder ledger.transitions "transition"
  ledger.personOrder.forM (validatePersonState ledger manifest)
  let maximumSequence ← ledger.transitionOrder.foldlM (fun maximum id => do
    let sequence ← validateTransition ledger manifest id
    .ok (max maximum sequence)) 0
  require (¬ ledger.nextTransitionSequence ≤ maximumSequence)
    (invalidLedger "Activity transition sequence is invalid")

/-! ### The rules as a proposition -/

/-- What the validator requires of one person's state. -/
structure StateValid (manifest : OrganizationManifest)
    (transitions : BTreeMap GracefulTransition) (personId : String)
    (state : PersonActivityState) : Prop where
  known : personId ∈ manifest.people
  named : state.personId = personId
  placed : state.lastDepartmentId ∈ manifest.departments
  updated : Readable state.updatedAt
  idle : ∀ value ∈ state.idleSince, Readable value
  agentActive : ∀ value ∈ state.agentActiveAt, Readable value
  pointer : ∀ id ∈ state.activeTransitionId, ∃ transition : GracefulTransition,
    transitions[id]? = some transition ∧ transition.personId = personId ∧
      transition.status ≠ .cancelled

/-- What the validator requires of one transition. -/
structure TransitionValid (manifest : OrganizationManifest) (id : String)
    (transition : GracefulTransition) : Prop where
  named : transition.id = id
  known : transition.personId ∈ manifest.people
  numbered : ∃ sequence, transitionSequence id = some sequence
  reasonGiven : isBlank transition.reason = false
  reasonShort : transition.reason.length ≤ transitionMaxReasonCharacters
  placed : transition.placementDepartmentId ∈ manifest.departments
  targetKind : transition.action.needsTarget = transition.toDepartmentId.isSome
  targetKnown : ∀ unit ∈ transition.toDepartmentId, unit ∈ manifest.departments
  deadline : ∃ requested due, parseIsoMillis transition.requestedAt = some requested ∧
    parseIsoMillis transition.handoffDeadlineAt = some due ∧ requested ≤ due
  applied : transition.status = .applied → stamped transition.appliedAt = true
  cancelled : transition.status = .cancelled → stamped transition.cancelledAt = true
  forcedPark : transition.status = .forced → transition.action = .park
  forced : transition.status = .forced → stamped transition.forcedAt = true
  abandoned : ∀ value ∈ transition.abandonedAt, transition.status = .cancelled ∧ Readable value

/-- A ledger every rule accepts. -/
structure Valid (manifest : OrganizationManifest) (ledger : ActivityLedger) : Prop where
  schemaVersion : ledger.schemaVersion = activitySchemaVersion
  organization : ledger.organization = manifest.slug
  people : BTreeMap.Lists ledger.personOrder ledger.people
  transitions : BTreeMap.Lists ledger.transitionOrder ledger.transitions
  state : ∀ {personId : String} {state : PersonActivityState},
    ledger.people[personId]? = some state →
      StateValid manifest ledger.transitions personId state
  transition : ∀ {id : String} {transition : GracefulTransition},
    ledger.transitions[id]? = some transition → TransitionValid manifest id transition
  sequencePositive : 0 < ledger.nextTransitionSequence
  fresh : ∀ {id : String} {transition : GracefulTransition} {sequence : Nat},
    ledger.transitions[id]? = some transition → transitionSequence id = some sequence →
      sequence < ledger.nextTransitionSequence

theorem exactOrder_eq_ok {α : Type} {order : List String} {records : BTreeMap α} {label : String}
    {u : Unit} : exactOrder order records label = .ok u ↔ BTreeMap.Lists order records := by
  rw [exactOrder, require_eq_ok, BTreeMap.lists_iff]

theorem validatePersonState_eq_ok {ledger : ActivityLedger} {manifest : OrganizationManifest}
    {personId : String} :
    validatePersonState ledger manifest personId = .ok () ↔
      ∃ state, ledger.people[personId]? = some state ∧
        StateValid manifest ledger.transitions personId state := by
  unfold validatePersonState
  cases found : ledger.people[personId]? with
  | none => simp
  | some state =>
      simp only [Option.some.injEq, exists_eq_left', bind_eq_ok, require_eq_ok, readableStamp]
      have pointer {id : String} : pointerValid ledger personId id = true ↔
          ∃ transition : GracefulTransition, ledger.transitions[id]? = some transition ∧
            transition.personId = personId ∧ transition.status ≠ .cancelled := by
        unfold pointerValid
        cases ledger.transitions[id]? <;> simp
      constructor
      · rintro ⟨_, person, _, placed, _, updated, _, idle, _, active, pointers⟩
        push Not at person
        exact ⟨person.1, person.2, placed, updated, idle, active,
          fun id member => pointer.mp (pointers id member)⟩
      · intro valid
        refine ⟨(), ?_, (), valid.placed, (), valid.updated, (), valid.idle, (),
          valid.agentActive, fun id member => pointer.mpr (valid.pointer id member)⟩
        push Not
        exact ⟨valid.known, valid.named⟩

theorem validateTransition_eq_ok {ledger : ActivityLedger} {manifest : OrganizationManifest}
    {id : String} {sequence : Nat} :
    validateTransition ledger manifest id = .ok sequence ↔
      ∃ transition, ledger.transitions[id]? = some transition ∧
        TransitionValid manifest id transition ∧ transitionSequence id = some sequence := by
  unfold validateTransition
  cases found : ledger.transitions[id]? with
  | none => simp
  | some transition =>
      cases number : transitionSequence id with
      | none =>
          simp only [bind_eq_ok, require_eq_ok]
          constructor
          · rintro ⟨_, _, failed⟩
            cases failed
          · rintro ⟨_, _, _, impossible⟩
            cases impossible
      | some found =>
          simp only [Option.some.injEq, exists_eq_left', bind_eq_ok, require_eq_ok,
            Except.ok.injEq]
          constructor
          · rintro ⟨_, identity, _, reason, _, placed, _, target, _, deadline, _, applied, _,
              cancelled, _, forcedPark, _, forced, _, abandoned, same⟩
            push Not at identity reason target applied cancelled forcedPark forced
            refine ⟨⟨identity.1, identity.2, ⟨found, number⟩, by simpa using reason.1, reason.2,
              placed, target.1, target.2, ?_, by simpa using applied, by simpa using cancelled,
              forcedPark, by simpa using forced, abandoned⟩, same⟩
            revert deadline
            cases parseIsoMillis transition.requestedAt <;>
              cases parseIsoMillis transition.handoffDeadlineAt <;> simp
          · rintro ⟨valid, same⟩
            obtain ⟨requested, due, isRequested, isDue, inOrder⟩ := valid.deadline
            refine ⟨(), ?_, (), ?_, (), valid.placed, (), ?_, (), ?_, (), ?_, (), ?_, (), ?_, (),
              ?_, (), valid.abandoned, same⟩
            · push Not
              exact ⟨valid.named, valid.known⟩
            · push Not
              exact ⟨by simp [valid.reasonGiven], valid.reasonShort⟩
            · push Not
              exact ⟨valid.targetKind, valid.targetKnown⟩
            · simp [isRequested, isDue, inOrder]
            · push Not
              exact fun status => by simp [valid.applied status]
            · push Not
              exact fun status => by simp [valid.cancelled status]
            · push Not
              exact valid.forcedPark
            · push Not
              exact fun status => by simp [valid.forced status]

/-- The maximum the transition loop computes bounds exactly what it has seen. -/
private theorem validateTransitions_eq_ok (ledger : ActivityLedger)
    (manifest : OrganizationManifest) (bound : Nat) :
    ∀ (order : List String) (maximum : Nat),
      (∃ highest, order.foldlM (fun maximum id => do
          let sequence ← validateTransition ledger manifest id
          Except.ok (max maximum sequence)) maximum = .ok highest ∧ highest < bound) ↔
        maximum < bound ∧ ∀ id ∈ order, ∃ sequence,
          validateTransition ledger manifest id = .ok sequence ∧ sequence < bound
  | [], maximum => by simp [pure, Except.pure]
  | id :: order, maximum => by
      simp only [List.foldlM_cons, bind_eq_ok, Except.ok.injEq, List.forall_mem_cons]
      constructor
      · rintro ⟨highest, ⟨_, ⟨sequence, here, rfl⟩, later⟩, small⟩
        obtain ⟨below, rest⟩ := (validateTransitions_eq_ok ledger manifest bound order _).mp ⟨highest, later, small⟩
        exact ⟨by omega, ⟨sequence, here, by omega⟩, rest⟩
      · rintro ⟨below, ⟨sequence, here, small⟩, rest⟩
        obtain ⟨highest, later, bounded⟩ :=
          (validateTransitions_eq_ok ledger manifest bound order (max maximum sequence)).mpr
            ⟨by omega, rest⟩
        exact ⟨highest, ⟨_, ⟨sequence, here, rfl⟩, later⟩, bounded⟩

/-- The validator accepts exactly the valid ledgers. -/
theorem validate_eq_ok_iff {ledger : ActivityLedger} {manifest : OrganizationManifest} :
    validate ledger manifest = .ok () ↔ Valid manifest ledger := by
  unfold validate
  simp only [bind_eq_ok, require_eq_ok, exactOrder_eq_ok, not_le]
  constructor
  · rintro ⟨_, schema, _, slug, _, people, _, transitions, _, states, highest, run, bounded⟩
    obtain ⟨positive, records⟩ :=
      (validateTransitions_eq_ok ledger manifest _ _ 0).mp ⟨highest, run, bounded⟩
    have record {id : String} {transition : GracefulTransition}
        (found : ledger.transitions[id]? = some transition) :
        TransitionValid manifest id transition ∧ ∃ sequence,
          transitionSequence id = some sequence ∧ sequence < ledger.nextTransitionSequence := by
      obtain ⟨sequence, checked, small⟩ :=
        records id ((transitions.mem_iff id).mpr (BTreeMap.mem_of_getElem? found))
      obtain ⟨transition', found', valid, numbered⟩ := validateTransition_eq_ok.mp checked
      rw [found, Option.some.injEq] at found'
      exact ⟨found' ▸ valid, sequence, numbered, small⟩
    refine ⟨schema, slug, people, transitions, ?_, fun found => (record found).1, positive, ?_⟩
    · intro personId state found
      obtain ⟨state', found', valid⟩ := validatePersonState_eq_ok.mp
        (forM_eq_ok.mp states personId
          ((people.mem_iff personId).mpr (BTreeMap.mem_of_getElem? found)))
      rw [found, Option.some.injEq] at found'
      exact found' ▸ valid
    · intro id transition sequence found numbered
      obtain ⟨_, sequence', numbered', small⟩ := record found
      rw [numbered, Option.some.injEq] at numbered'
      exact numbered' ▸ small
  · intro valid
    have states : ledger.personOrder.forM (validatePersonState ledger manifest) = .ok () := by
      refine forM_eq_ok.mpr fun personId member => validatePersonState_eq_ok.mpr ?_
      obtain ⟨state, found⟩ :=
        BTreeMap.mem_iff_getElem?.mp ((valid.people.mem_iff personId).mp member)
      exact ⟨state, found, valid.state found⟩
    obtain ⟨highest, run, bounded⟩ := (validateTransitions_eq_ok ledger manifest
      ledger.nextTransitionSequence ledger.transitionOrder 0).mpr ⟨valid.sequencePositive, by
        intro id member
        obtain ⟨transition, found⟩ :=
          BTreeMap.mem_iff_getElem?.mp ((valid.transitions.mem_iff id).mp member)
        obtain ⟨sequence, numbered⟩ := (valid.transition found).numbered
        exact ⟨sequence, validateTransition_eq_ok.mpr
          ⟨transition, found, valid.transition found, numbered⟩, valid.fresh found numbered⟩⟩
    exact ⟨(), valid.schemaVersion, (), valid.organization, (), valid.people, (),
      valid.transitions, (), states, highest, run, bounded⟩

end Chief.Activity
