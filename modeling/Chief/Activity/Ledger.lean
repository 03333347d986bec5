/-
Module: Chief.Activity.Ledger
Layer: Model
Purpose: The durable activity ledger: graceful transitions, the last-known projection state of each
  person and the seed ledger.
Trusted boundary: human-reviewed translation
Main exports: TransitionAction, TransitionStatus, ActivityReason, GracefulTransition,
  PersonActivityState, ActivityLedger, seedPersonState, ActivityLedger.initial, activeTransition
-/
import Chief.Organization.Validate

namespace Chief.Activity

open Foundation

/-! ### Constants -/

def activitySchemaVersion : Nat := 1

/-- How long a person has to release their transition before it goes overdue. -/
def handoffGraceMs : Int := 2 * 60 * 1000

/-- Maximum characters in a transition reason. -/
def transitionMaxReasonCharacters : Nat := 500

/-- The retention bound on terminal transitions. -/
def activityTerminalTransitionLimit : Nat := 200

/-- The identity of a routine idle park. -/
def idleAutoParkReason : String := "Idle auto-park."

/-- How many routine idle parks may be in flight at once. -/
def organizationAutomaticParkMaxInFlight : Nat := 2

/-- The whole settle window, from idle to the pane being gone. -/
def organizationSettledIdleStopLeaseMs : Int := 300 * 1000

/-- How long one activity beat keeps the quiet lease cancelled without a further beat. -/
def agentActivityLivenessMs : Int := 300 * 1000

def unknownTransition : String := "unknown-transition"
def transitionReleased : String := "transition-released"
def transitionTerminal : String := "transition-terminal"
def invalidInput : String := "invalid-input"
def unknownPerson : String := "unknown-person"
def transitionConflict : String := "transition-conflict"
def internalInconsistency : String := "activity-internal-inconsistency"

/-- The store's documents key. -/
def storeName : String := "activity"

/-- The largest value of the source's `u64` counters. -/
def u64Max : Nat := 2 ^ 64 - 1

/-- The largest value of the source's `i64` instants. -/
def i64Max : Int := 2 ^ 63 - 1

/-! ### Records -/

/-- What a graceful transition is preparing for. -/
inductive TransitionAction where
  | park
  | transfer
  | offboard
deriving DecidableEq, Repr

namespace TransitionAction

/-- The wire spelling. -/
def asStr : TransitionAction → String
  | .park => "park"
  | .transfer => "transfer"
  | .offboard => "offboard"

/-- Whether the action needs a target department. -/
def needsTarget : TransitionAction → Bool
  | .transfer => true
  | _ => false

/-- Whether the action removes the pane. -/
def isRemoval : TransitionAction → Bool
  | .transfer => false
  | _ => true

end TransitionAction

/-- Where a transition is in its life. -/
inductive TransitionStatus where
  | awaitingHandoff
  | overdue
  | ready
  | applied
  | cancelled
  | forced
deriving DecidableEq, Repr

namespace TransitionStatus

/-- The wire spelling. -/
def asStr : TransitionStatus → String
  | .awaitingHandoff => "awaiting_handoff"
  | .overdue => "overdue"
  | .ready => "ready"
  | .applied => "applied"
  | .cancelled => "cancelled"
  | .forced => "forced"

/-- Still waiting for a handoff. -/
def isPending : TransitionStatus → Bool
  | .awaitingHandoff | .overdue => true
  | _ => false

/-- Released: the structural change may proceed. -/
def isReleased : TransitionStatus → Bool
  | .ready | .applied => true
  | _ => false

/-- Can no longer be released or abandoned. -/
def isTerminal : TransitionStatus → Bool
  | .applied | .cancelled | .forced => true
  | _ => false

end TransitionStatus

/-- Why a person is being kept online this cycle, in the order reasons are reported. -/
inductive ActivityReason where
  | managingOpenWork
  | organizationRoot
  | requested
  | handoffRequired
  | transitionReady
  | maintenanceBackpressure
deriving DecidableEq, Repr

namespace ActivityReason

/-- The reasons in ascending order. -/
def all : List ActivityReason :=
  [.managingOpenWork, .organizationRoot, .requested, .handoffRequired, .transitionReady,
    .maintenanceBackpressure]

/-- Durable work demand rather than shutdown bookkeeping. -/
def isEffectiveDemand : ActivityReason → Bool
  | .handoffRequired | .transitionReady | .maintenanceBackpressure | .managingOpenWork => false
  | _ => true

end ActivityReason

/-- One graceful transition. -/
structure GracefulTransition where
  id : String
  personId : String
  action : TransitionAction
  reason : String
  intentId : Option String := none
  placementDepartmentId : String
  toDepartmentId : Option String := none
  status : TransitionStatus
  requestedAt : String
  handoffDeadlineAt : String
  appliedAt : Option String := none
  cancelledAt : Option String := none
  forcedAt : Option String := none
  abandonedAt : Option String := none
deriving DecidableEq, Repr

/-- One person's last-known projection state. -/
structure PersonActivityState where
  personId : String
  lastEmploymentState : EmploymentState
  lastDepartmentId : String
  lastOperational : Bool
  lastDesiredActive : Bool
  idleSince : Option String := none
  agentQuietAt : Option String := none
  agentActiveAt : Option String := none
  operatorWakeAt : Option String := none
  activeTransitionId : Option String := none
  updatedAt : String
deriving DecidableEq, Repr

/-- The durable activity ledger. -/
structure ActivityLedger where
  schemaVersion : Nat
  organization : String
  personOrder : List String
  people : BTreeMap PersonActivityState
  transitionOrder : List String
  transitions : BTreeMap GracefulTransition
  nextTransitionSequence : Nat
  automaticParkCursor : Option Nat
  createdAt : String
  updatedAt : String
deriving DecidableEq

/-- The state a person the ledger does not know yet starts from. -/
def seedPersonState (manifest : OrganizationManifest) (personId now : String) :
    Option PersonActivityState :=
  match manifest.people[personId]? with
  | none => none
  | some person => some
      { personId := personId
        lastEmploymentState := person.employmentState
        lastDepartmentId := person.departmentId
        lastOperational := organizationUnitIsActive manifest person.departmentId
        lastDesiredActive := false
        updatedAt := now }

namespace ActivityLedger

/-- The seed ledger for a freshly created company. -/
def initial (manifest : OrganizationManifest) (now : String) : ActivityLedger :=
  { schemaVersion := activitySchemaVersion
    organization := manifest.slug
    personOrder := manifest.peopleOrder
    people := Std.ExtTreeMap.ofList (manifest.peopleOrder.filterMap fun personId =>
      (seedPersonState manifest personId now).map fun state => (personId, state))
    transitionOrder := []
    transitions := ∅
    nextTransitionSequence := 1
    automaticParkCursor := some 0
    createdAt := now
    updatedAt := now }

/-- The transition `personId` currently owes, ignoring cancelled ones. -/
def activeTransition (ledger : ActivityLedger) (personId : String) : Option GracefulTransition :=
  match ledger.people[personId]? with
  | none => none
  | some state =>
      match state.activeTransitionId with
      | none => none
      | some id => (ledger.transitions[id]?).filter fun t => t.status ≠ .cancelled

theorem activeTransition_eq_some {ledger : ActivityLedger} {personId : String}
    {transition : GracefulTransition} :
    ledger.activeTransition personId = some transition ↔
      ∃ state id, ledger.people[personId]? = some state ∧ state.activeTransitionId = some id ∧
        ledger.transitions[id]? = some transition ∧ transition.status ≠ .cancelled := by
  unfold activeTransition
  cases ledger.people[personId]? with
  | none => simp
  | some state =>
      cases points : state.activeTransitionId with
      | none => simp [points]
      | some id => simp [points, Option.filter_eq_some_iff]

def activeTransitionIdOf (ledger : ActivityLedger) (personId : String) : Option String :=
  (ledger.activeTransition personId).map GracefulTransition.id

/-- Rewrite one person's state in place. -/
def modifyPerson (ledger : ActivityLedger) (personId : String)
    (f : PersonActivityState → PersonActivityState) : ActivityLedger :=
  { ledger with people := ledger.people.modify personId f }

/-- Rewrite one transition in place. -/
def modifyTransition (ledger : ActivityLedger) (id : String)
    (f : GracefulTransition → GracefulTransition) : ActivityLedger :=
  { ledger with transitions := ledger.transitions.modify id f }

variable (ledger : ActivityLedger) (key : String)

section Frames

variable (f : PersonActivityState → PersonActivityState) (g : GracefulTransition → GracefulTransition)

@[simp] theorem people_modifyTransition : (ledger.modifyTransition key g).people = ledger.people := rfl

@[simp] theorem transitions_modifyPerson :
    (ledger.modifyPerson key f).transitions = ledger.transitions := rfl

@[simp] theorem personOrder_modifyPerson :
    (ledger.modifyPerson key f).personOrder = ledger.personOrder := rfl

@[simp] theorem personOrder_modifyTransition :
    (ledger.modifyTransition key g).personOrder = ledger.personOrder := rfl

@[simp] theorem transitionOrder_modifyPerson :
    (ledger.modifyPerson key f).transitionOrder = ledger.transitionOrder := rfl

@[simp] theorem transitionOrder_modifyTransition :
    (ledger.modifyTransition key g).transitionOrder = ledger.transitionOrder := rfl

@[simp] theorem nextTransitionSequence_modifyPerson :
    (ledger.modifyPerson key f).nextTransitionSequence = ledger.nextTransitionSequence := rfl

@[simp] theorem nextTransitionSequence_modifyTransition :
    (ledger.modifyTransition key g).nextTransitionSequence = ledger.nextTransitionSequence := rfl

theorem people_modifyPerson {a : String} :
    (ledger.modifyPerson key f).people[a]? =
      if key = a then ledger.people[a]?.map f else ledger.people[a]? :=
  BTreeMap.getElem?_modify

theorem transitions_modifyTransition {a : String} :
    (ledger.modifyTransition key g).transitions[a]? =
      if key = a then ledger.transitions[a]?.map g else ledger.transitions[a]? :=
  BTreeMap.getElem?_modify

end Frames

end ActivityLedger

/-! ### Transition ids -/

/-- `transition:<seq>:<person>:<action>`. -/
def transitionId (sequence : Nat) (personId : String) (action : TransitionAction) : String :=
  s!"transition:{sequence}:{personId}:{action.asStr}"

/-- The sequence an id carries: the `u64` between the prefix and the next colon. -/
def transitionSequence (id : String) : Option Nat :=
  if "transition:".toList.isPrefixOf id.toList then
    parseUnsigned u64Max ((id.toList.drop "transition:".length).takeWhile (· ≠ ':'))
  else none

/-- A minted id carries the sequence it was minted with. -/
theorem transitionSequence_transitionId {sequence : Nat} (personId : String)
    (action : TransitionAction) (small : sequence ≤ u64Max) :
    transitionSequence (transitionId sequence personId action) = some sequence := by
  have shape : (transitionId sequence personId action).toList =
      "transition:".toList ++ (Nat.toDigits 10 sequence ++
        ':' :: (personId.toList ++ ':' :: action.asStr.toList)) := by
    simp [transitionId, toString]
  have digits : ∀ c ∈ Nat.toDigits 10 sequence, (c ≠ ':') = True := by
    intro c member
    have digit := Nat.isDigit_of_mem_toDigits (b := 10) (by decide) (by decide) member
    simp only [ne_eq, eq_iff_iff, iff_true]
    rintro rfl
    exact absurd digit (by decide)
  have number : ((Nat.toDigits 10 sequence ++
      ':' :: (personId.toList ++ ':' :: action.asStr.toList)).takeWhile (· ≠ ':')) =
      Nat.toDigits 10 sequence := by
    rw [List.takeWhile_append_of_pos (by simpa using digits)]
    simp
  have stem : (("transition:".toList ++ (Nat.toDigits 10 sequence ++
      ':' :: (personId.toList ++ ':' :: action.asStr.toList))).drop "transition:".length) =
      Nat.toDigits 10 sequence ++ ':' :: (personId.toList ++ ':' :: action.asStr.toList) :=
    List.drop_left' rfl
  rw [transitionSequence, shape, if_pos (List.isPrefixOf_iff_prefix.mpr (List.prefix_append _ _)),
    stem, number, parseUnsigned_toDigits small]

end Chief.Activity
