/-
Module: Chief.Activity.Commands
Layer: Model
Purpose: One mutation of the activity ledger, and the operations people and lifecycle commands run
  through it.
Trusted boundary: human-reviewed translation
Main exports: ActivityContext, mutate, reconcileStructural, beginTransition, settleAppliedMove,
  abandonTransition, release, noteAgentActivity, applyPointerClears
-/
import Chief.Activity.Roster
import Chief.Ledgers

namespace Chief.Activity

open Foundation ActivityLedger

/-! ### Reading, mutating and publishing -/

/-- The manifest and supervision facts every activity mutation reads. -/
structure ActivityContext where
  manifest : OrganizationManifest
  supervision : SupervisionLedger
  now : Int

/-- The stored body, decoded but not yet validated. -/
def readForMutation (ledgers : Ledgers) : Except ChiefdError ActivityLedger :=
  match ledgers.activity with
  | none => .error (.absent storeName)
  | some .undecodable => .error (.corrupt storeName "the activity body did not parse")
  | some (.decoded ledger) => .ok ledger

def put (ledgers : Ledgers) (ledger : ActivityLedger) : Ledgers :=
  { ledgers with activity := some (.decoded ledger) }

/-- What a mutation runs on the repaired draft. -/
abbrev Body (α : Type) :=
  ActivityLedger → ActivityContext → String → Except ChiefdError (α × ActivityLedger)

/-- Run one mutation: repair the roster, validate, run the body, then publish when anything
changed. -/
def mutate {α : Type} (ledgers : Ledgers) (manifest : OrganizationManifest)
    (supervision : SupervisionLedger) (body : Body α) : Except ChiefdError (α × Ledgers) := do
  let stamp := isoMillis ledgers.now
  let current ← readForMutation ledgers
  let reconciled := reconcilePeople current manifest stamp
  asStoreFailure storeName (validate reconciled.1 manifest)
  let (result, draft) ← body reconciled.1
    { manifest := manifest, supervision := supervision, now := ledgers.now } stamp
  if reconciled.2 = true ∨ draft ≠ current then do
    let published := { draft with updatedAt := stamp }
    liftRefusal (validate published manifest)
    .ok (result, put ledgers published)
  else .ok (result, ledgers)

/-- Repair the ledger right after a structural manifest mutation. -/
def reconcileStructural (ledgers : Ledgers) (manifest : OrganizationManifest) :
    Except ChiefdError (Bool × Ledgers) := do
  let current ← readForMutation ledgers
  let stamp := isoMillis ledgers.now
  let draft := (reconcilePeople current manifest stamp).1
  if draft = current then do
    asStoreFailure storeName (validate draft manifest)
    .ok (false, ledgers)
  else do
    let published := { draft with updatedAt := stamp }
    asStoreFailure storeName (validate published manifest)
    .ok (true, put ledgers published)

/-! ### Opening a handoff -/

/-- A required text: trimmed, not empty and within its bound. -/
def required (value label : String) (maximum : Nat) : Except ChiefdError String := do
  let trimmed := trim value
  Foundation.require (trimmed ≠ "") (refused invalidInput s!"{label} is required")
  Foundation.require (trimmed.length ≤ maximum)
    (refused invalidInput s!"{label} must be at most {maximum} characters")
  .ok trimmed

/-- What `beginTransition` needs. -/
structure BeginTransitionInput where
  personId : String
  action : TransitionAction
  reason : String
  toDepartmentId : Option String := none
  intentId : Option String := none
deriving DecidableEq, Repr

/-- The target as asked for: trimmed, and absent when nothing is left of it. -/
def BeginTransitionInput.target (input : BeginTransitionInput) : Option String :=
  (input.toDepartmentId.map trim).filter (· ≠ "")

/-- The intent's identity as stored. -/
def requiredIntent (intentId : Option String) : Except ChiefdError (Option String) :=
  match intentId with
  | none => .ok none
  | some value => (required value "transition.intentId" 300).map some

def unknownOrganizationPerson (personId : String) : ChiefdError :=
  refused unknownPerson s!"Unknown organization person '{personId}'"

def beginTransitionBody (input : BeginTransitionInput) : Body GracefulTransition :=
  fun draft ctx stamp => do
    let some _ := ctx.manifest.people[input.personId]?
      | .error (unknownOrganizationPerson input.personId)
    let some state := draft.people[input.personId]?
      | .error (unknownOrganizationPerson input.personId)
    let target := input.target
    Foundation.require (¬ (input.action.needsTarget = true ∧
        ¬ (target.any fun unit => unit ∈ ctx.manifest.departments) = true))
      (refused invalidInput
        s!"{input.action.asStr} transition requires a known target department")
    Foundation.require (¬ (input.action.needsTarget = false ∧ target.isSome = true))
      (refused invalidInput
        s!"{input.action.asStr} transition cannot have a target department")
    Foundation.require (target ≠ some state.lastDepartmentId) (refused invalidInput
      s!"Person '{input.personId}' is already assigned to '{state.lastDepartmentId}'")
    let intentId ← requiredIntent input.intentId
    let reason ← required input.reason "transition.reason" transitionMaxReasonCharacters
    ensureMatchingTransition draft
      { personId := input.personId
        action := input.action
        reason := reason
        toDepartmentId := target
        intentId := intentId } stamp

/-! ### Settling, abandoning and releasing -/

/-- The record of a structural change that happened. -/
def GracefulTransition.appliedAs (transition : GracefulTransition) (stamp : String) :
    GracefulTransition :=
  if transition.status ≠ .applied then
    { transition with status := .applied, appliedAt := some stamp }
  else transition

/-- The placement of `person` as the manifest has it. -/
def PersonActivityState.placedAs (state : PersonActivityState) (manifest : OrganizationManifest)
    (person : PersonRecord) : PersonActivityState :=
  { state with
    lastEmploymentState := person.employmentState
    lastDepartmentId := person.departmentId
    lastOperational := organizationUnitIsActive manifest person.departmentId }

def settleAppliedMoveBody (personId : String) : Body Bool :=
  fun draft ctx stamp => do
    let some person := ctx.manifest.people[personId]?
      | .error (unknownOrganizationPerson personId)
    Foundation.require (personId ∈ draft.people) (unknownOrganizationPerson personId)
    match draft.activeTransitionIdOf personId with
    | none => .ok (false, draft)
    | some id =>
        match draft.transitions[id]? with
        | none => .error (.panicked id)
        | some current =>
            if current.action.isRemoval = true ∨ current.status.isReleased = false then
              .ok (false, draft)
            else
              let applied := draft.modifyTransition id fun t => t.appliedAs stamp
              .ok (true, applied.modifyPerson personId fun state =>
                { state.placedAs ctx.manifest person with
                  activeTransitionId := none
                  updatedAt := stamp })

/-- Why a handoff could not be completed, appended to why it was opened. -/
@[irreducible] def mergedReason (transition : GracefulTransition) (reason : String) : String :=
  String.ofList
    ((trim s!"{transition.reason} {reason}").toList.take transitionMaxReasonCharacters)

/-- The record of an abandoned transition. -/
def GracefulTransition.abandonedAs (transition : GracefulTransition) (reason stamp : String) :
    GracefulTransition :=
  { transition with
    status := .cancelled
    cancelledAt := some stamp
    abandonedAt := some stamp
    reason := mergedReason transition reason }

/-- The transition a caller names, when it exists and is theirs. -/
def ownTransition (draft : ActivityLedger) (transitionId personId : String) :
    Except ChiefdError GracefulTransition :=
  match (draft.transitions[transitionId]?).filter fun t => t.personId = personId with
  | none => .error (refused unknownTransition
      s!"Unknown graceful transition '{transitionId}' for '{personId}'")
  | some current => .ok current

def abandonTransitionBody (transitionId personId reason : String) : Body GracefulTransition :=
  fun draft _ctx stamp => do
    let current ← ownTransition draft transitionId personId
    Foundation.require (current.status.isReleased = false) (refused transitionReleased
      s!"Graceful transition '{transitionId}' has been released and cannot be abandoned")
    Foundation.require (current.status ≠ .forced) (refused transitionTerminal
      s!"Graceful transition '{transitionId}' was already force-completed without a release and cannot be abandoned")
    Foundation.require (current.status ≠ .cancelled) (refused transitionTerminal
      s!"Graceful transition '{transitionId}' is already cancelled")
    let result := current.abandonedAs reason stamp
    .ok (result,
      (draft.modifyTransition transitionId fun t => t.abandonedAs reason stamp).modifyPerson
        personId fun state =>
          if state.activeTransitionId = some transitionId then
            { state with activeTransitionId := none }
          else state)

/-- What `release` needs. -/
structure ReleaseInput where
  transitionId : String
  personId : String
deriving DecidableEq, Repr

def releaseBody (input : ReleaseInput) : Body GracefulTransition :=
  fun draft _ctx _stamp => do
    let current ← ownTransition draft input.transitionId input.personId
    Foundation.require (current.status.isTerminal = false) (refused transitionTerminal
      s!"Graceful transition '{input.transitionId}' is already {current.status.asStr}")
    .ok ({ current with status := .ready },
      draft.modifyTransition input.transitionId fun t => { t with status := .ready })

/-! ### Reports of the agent -/

/-- The state after one report of the person's own pane. -/
def PersonActivityState.reported (state : PersonActivityState) (working : Bool) (stamp : String) :
    PersonActivityState :=
  if working then
    { state with agentActiveAt := some stamp, agentQuietAt := none, idleSince := none }
  else { state with agentActiveAt := none, agentQuietAt := some stamp }

/-- A beat calls off a routine idle park that is still pending. -/
def beatCancels (draft : ActivityLedger) (personId : String) (working : Bool) : Bool :=
  working && (draft.activeTransition personId).any fun transition =>
    isRoutineIdlePark transition && transition.status.isPending

/-- The draft after the park a beat calls off is gone. -/
def cancelOnBeat (draft : ActivityLedger) (personId : String) (working : Bool) (stamp : String) :
    ActivityLedger :=
  if beatCancels draft personId working then
    match draft.activeTransitionIdOf personId with
    | none => draft
    | some id => cancelTransition draft id stamp
  else draft

def noteAgentActivityBody (personId : String) (working : Bool) : Body Bool :=
  fun draft _ctx stamp => do
    Foundation.require (personId ∈ draft.people) (refused unknownPerson
      s!"Unknown person '{personId}' for an agent activity beat")
    let cancel := beatCancels draft personId working
    let draft := cancelOnBeat draft personId working stamp
    let some before := draft.people[personId]?
      | .error (refused internalInconsistency
          "the person receiving an agent activity beat disappeared inside a single mutation; this is a chiefd bug")
    let state := before.reported working stamp
    let changed : Bool := state ≠ before
    let state := if changed then { state with updatedAt := stamp } else state
    .ok (changed || cancel, draft.modifyPerson personId fun _ => state)

/-! ### Clearing pointers -/

/-- Why a pointer is being cleared. -/
inductive ClearReason where
  | cancelled
deriving DecidableEq, Repr

/-- One pointer a sweep proposes clearing. -/
structure ClearPointerAction where
  personId : String
  transitionId : String
  reason : ClearReason
deriving DecidableEq, Repr

/-- The live state re-read at apply time. The sweep's own status type renames the six statuses one
to one, so the statuses themselves stand here. -/
structure ClearRecheck where
  activeTransitionId : Option String
  status : Option TransitionStatus
deriving DecidableEq, Repr

def pointerRecheck (draft : ActivityLedger) (action : ClearPointerAction) : ClearRecheck :=
  { activeTransitionId :=
      (draft.people[action.personId]?).bind PersonActivityState.activeTransitionId
    status := (draft.transitions[action.transitionId]?).map GracefulTransition.status }

/-- Whether the pointer should still be cleared. -/
def reverifyClear (action : ClearPointerAction) (current : ClearRecheck) : Bool :=
  if current.activeTransitionId ≠ some action.transitionId then false
  else
    match action.reason with
    | .cancelled => current.status = some .cancelled

/-- One planned clear: dropped silently when the re-read state no longer justifies it. -/
def applyPointerClear (stamp : String) (step : List ClearPointerAction × ActivityLedger)
    (action : ClearPointerAction) : List ClearPointerAction × ActivityLedger :=
  if reverifyClear action (pointerRecheck step.2 action) = false then step
  else
    match step.2.people[action.personId]? with
    | none => step
    | some _ => (step.1 ++ [action], step.2.modifyPerson action.personId fun state =>
        { state with activeTransitionId := none, updatedAt := stamp })

def applyPointerClearsBody (actions : List ClearPointerAction) : Body (List ClearPointerAction) :=
  fun draft _ctx stamp => .ok (actions.foldl (applyPointerClear stamp) ([], draft))

/-! ### The operations -/

section Operations

variable (ledgers : Ledgers) (manifest : OrganizationManifest) (supervision : SupervisionLedger)

/-- Open (or find) a bounded handoff before a structural change. -/
def beginTransition (input : BeginTransitionInput) :
    Except ChiefdError (GracefulTransition × Ledgers) :=
  mutate ledgers manifest supervision (beginTransitionBody input)

/-- Record that a placement move happened, in the call that committed it. -/
def settleAppliedMove (personId : String) : Except ChiefdError (Bool × Ledgers) :=
  mutate ledgers manifest supervision (settleAppliedMoveBody personId)

/-- Abandon a handoff that provably cannot be completed. -/
def abandonTransition (transitionId personId reason : String) :
    Except ChiefdError (GracefulTransition × Ledgers) :=
  mutate ledgers manifest supervision (abandonTransitionBody transitionId personId reason)

/-- Release a transition so its structural change may proceed. -/
def release (input : ReleaseInput) : Except ChiefdError (GracefulTransition × Ledgers) :=
  mutate ledgers manifest supervision (releaseBody input)

/-- Record what a person's own pane says the agent is doing. -/
def noteAgentActivity (personId : String) (working : Bool) :
    Except ChiefdError (Bool × Ledgers) :=
  mutate ledgers manifest supervision (noteAgentActivityBody personId working)

/-- Apply the pointer sweep's compare-and-clear. -/
def applyPointerClears (actions : List ClearPointerAction) :
    Except ChiefdError (List ClearPointerAction × Ledgers) :=
  mutate ledgers manifest supervision (applyPointerClearsBody actions)

end Operations

end Chief.Activity
