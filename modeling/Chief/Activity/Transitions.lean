/-
Module: Chief.Activity.Transitions
Layer: Model
Purpose: Opening, finding and cancelling the graceful transition of one person.
Trusted boundary: human-reviewed translation
Main exports: cancelTransition, TransitionSpec, newTransition, ensureMatchingTransition,
  isRoutineIdlePark
-/
import Chief.Activity.Validate

namespace Chief.Activity

open Foundation ActivityLedger

/-- `u64::saturating_add(1)`. -/
def saturatingSucc (n : Nat) : Nat := min (n + 1) u64Max

/-- A routine idle park: the scheduler's own, as opposed to an operator's or a command's. -/
def isRoutineIdlePark (transition : GracefulTransition) : Bool :=
  transition.action = .park ∧ transition.intentId = none ∧ transition.reason = idleAutoParkReason

/-! ### Cancelling -/

/-- The record of a cancelled transition. It was not forced, so the forced stamp goes. -/
def GracefulTransition.cancelledAs (transition : GracefulTransition) (stamp : String) :
    GracefulTransition :=
  { transition with status := .cancelled, cancelledAt := some stamp, forcedAt := none }

/-- Drop a person's pointer if it still names `id`. -/
def PersonActivityState.releasedFrom (state : PersonActivityState) (id stamp : String) :
    PersonActivityState :=
  if state.activeTransitionId = some id then
    { state with activeTransitionId := none, updatedAt := stamp }
  else state

def cancelTransition (ledger : ActivityLedger) (id stamp : String) : ActivityLedger :=
  match ledger.transitions[id]? with
  | none => ledger
  | some transition =>
      (ledger.modifyTransition id fun t => t.cancelledAs stamp).modifyPerson transition.personId
        fun state => state.releasedFrom id stamp

/-! ### Opening -/

/-- The terms of one transition. -/
structure TransitionSpec where
  personId : String
  action : TransitionAction
  reason : String
  toDepartmentId : Option String
  intentId : Option String
deriving DecidableEq, Repr

/-- Exactly the three fields `isRoutineIdlePark` reads, before the record exists. -/
def TransitionSpec.routineIdlePark (spec : TransitionSpec) : Bool :=
  spec.action = .park ∧ spec.intentId = none ∧ spec.reason = idleAutoParkReason

/-- The record a mint stores. A routine idle park is born terminal. -/
def mintedTransition (spec : TransitionSpec) (id placement stamp : String) (requested : Int) :
    GracefulTransition :=
  { id := id
    personId := spec.personId
    action := spec.action
    reason := spec.reason
    intentId := spec.intentId
    placementDepartmentId := placement
    toDepartmentId := spec.toDepartmentId
    status := if spec.routineIdlePark then .forced else .awaitingHandoff
    requestedAt := stamp
    handoffDeadlineAt :=
      if spec.routineIdlePark then stamp else isoMillis (requested + handoffGraceMs)
    forcedAt := if spec.routineIdlePark then some stamp else none }

/-- Store a minted transition, append it to the order and point its person at it. -/
def storeMinted (ledger : ActivityLedger) (transition : GracefulTransition) (stamp : String) :
    ActivityLedger :=
  { ledger with
    nextTransitionSequence := saturatingSucc ledger.nextTransitionSequence
    transitions := ledger.transitions.insert transition.id transition
    transitionOrder := ledger.transitionOrder ++ [transition.id]
    people := ledger.people.modify transition.personId fun state =>
      { state with activeTransitionId := some transition.id, updatedAt := stamp } }

def newTransition (ledger : ActivityLedger) (spec : TransitionSpec) (stamp : String) :
    Except ChiefdError (GracefulTransition × ActivityLedger) := do
  let id := transitionId ledger.nextTransitionSequence spec.personId spec.action
  let some requested := parseIsoMillis stamp
    | .error (refused invalidInput "commit timestamp is not ISO-8601")
  let some state := ledger.people[spec.personId]?
    | .error (refused unknownPerson s!"Unknown organization person '{spec.personId}'")
  let transition := mintedTransition spec id state.lastDepartmentId stamp requested
  .ok (transition, storeMinted ledger transition stamp)

/-! ### Finding or opening -/

/-- Only park may supersede park, and only a previously unowned transition. -/
def supersededByPark (spec : TransitionSpec) (current : GracefulTransition) : Bool :=
  current.action = .park ∧ spec.action = .park ∧ spec.intentId.isSome = true ∧
    current.intentId = none

/-- An intent-bound request supersedes any conflicting transition that is not applied. -/
def supersededByIntent (spec : TransitionSpec) (current : GracefulTransition) : Bool :=
  spec.intentId.isSome = true ∧ current.status ≠ .applied ∧
    (current.action ≠ spec.action ∨ current.toDepartmentId ≠ spec.toDepartmentId ∨
      current.intentId ≠ spec.intentId)

/-- One supersession rule: the transition in the way is cancelled and forgotten. -/
def supersede (rule : TransitionSpec → GracefulTransition → Bool) (spec : TransitionSpec)
    (stamp : String) (ledger : ActivityLedger) (existing : Option String) :
    Except ChiefdError (ActivityLedger × Option String) :=
  match existing with
  | none => .ok (ledger, none)
  | some id =>
      match ledger.transitions[id]? with
      | none => .error (.panicked id)
      | some current =>
          if rule spec current then .ok (cancelTransition ledger id stamp, none)
          else .ok (ledger, some id)

/-- An applied intent-bound handoff stays available for its own structural retry. -/
def ownStructuralRetry (spec : TransitionSpec) (current : GracefulTransition) : Bool :=
  current.status = .applied ∧ current.action = spec.action ∧
    current.toDepartmentId = spec.toDepartmentId ∧ current.intentId.isSome = true ∧
    (spec.intentId = none ∨ current.intentId = spec.intentId)

/-- A terminal transition is history and never fences new terms. -/
def startsFresh (spec : TransitionSpec) (current : GracefulTransition) : Bool :=
  current.status.isTerminal && !ownStructuralRetry spec current

/-- The transition in the way serves the request, or refuses it. -/
def matchExisting (spec : TransitionSpec) (id : String) (current : GracefulTransition) :
    Except ChiefdError GracefulTransition := do
  require (¬ (current.action ≠ spec.action ∨ current.toDepartmentId ≠ spec.toDepartmentId))
    (refused transitionConflict
      s!"Person '{spec.personId}' already has {current.action.asStr} transition '{id}'")
  require (¬ (spec.intentId.isSome = true ∧ current.intentId ≠ spec.intentId))
    (refused transitionConflict
      s!"Person '{spec.personId}' already has transition '{id}' for another lifecycle intent")
  .ok current

/-- Find or create the transition matching these terms. -/
def ensureMatchingTransition (ledger : ActivityLedger) (spec : TransitionSpec) (stamp : String) :
    Except ChiefdError (GracefulTransition × ActivityLedger) := do
  let (ledger, existing) ← supersede supersededByPark spec stamp ledger
    (ledger.activeTransitionIdOf spec.personId)
  let (ledger, existing) ← supersede supersededByIntent spec stamp ledger existing
  match existing with
  | none => newTransition ledger spec stamp
  | some id =>
      match ledger.transitions[id]? with
      | none => .error (.panicked id)
      | some current =>
          if startsFresh spec current then newTransition ledger spec stamp
          else do
            let current ← matchExisting spec id current
            .ok (current, ledger)

end Chief.Activity
