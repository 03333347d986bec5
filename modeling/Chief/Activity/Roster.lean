/-
Module: Chief.Activity.Roster
Layer: Model
Purpose: The repair pass every mutation starts with: the roster follows the manifest, references the
  manifest dropped are dropped, old terminal history is trimmed and stale handoffs are swept.
Trusted boundary: human-reviewed translation
Main exports: repairDanglingDepartments, reconcilePeople, sweepExpiredTransitions
-/
import Chief.Activity.Transitions

namespace Chief.Activity

open Foundation ActivityLedger

/-- Whether a transition names only departments of the manifest. -/
def departmentsKnown (manifest : OrganizationManifest) (transition : GracefulTransition) : Bool :=
  transition.placementDepartmentId ∈ manifest.departments ∧
    ∀ unit ∈ transition.toDepartmentId, unit ∈ manifest.departments

/-- Forget the pointers satisfying `stale`, without a new stamp. -/
def dropPointers (ledger : ActivityLedger) (stale : String → Bool) : ActivityLedger :=
  { ledger with people := ledger.people.map fun _ state =>
      if state.activeTransitionId.any stale then { state with activeTransitionId := none }
      else state }

/-- Remove transitions from the map and from the order. -/
def dropTransitions (ledger : ActivityLedger) (doomed : List String) : ActivityLedger :=
  { ledger with
    transitionOrder := ledger.transitionOrder.filter fun id => id ∉ doomed
    transitions := BTreeMap.filterKeys ledger.transitions fun id => id ∉ doomed }

/-- Re-point one person's prior placement if the manifest cannot name it. -/
def repairPlacement (manifest : OrganizationManifest) (now : String)
    (step : ActivityLedger × Bool) (personId : String) : ActivityLedger × Bool :=
  match manifest.people[personId]?, step.1.people[personId]? with
  | some person, some state =>
      if state.lastDepartmentId ∈ manifest.departments then step
      else (step.1.modifyPerson personId fun state =>
        { state with lastDepartmentId := person.departmentId, updatedAt := now }, true)
  | _, _ => step

/-- Drop what references a department the manifest no longer has. -/
def repairDanglingDepartments (ledger : ActivityLedger) (manifest : OrganizationManifest)
    (now : String) : ActivityLedger × Bool :=
  let doomed := ledger.transitionOrder.filter fun id =>
    (ledger.transitions[id]?).any fun transition => !departmentsKnown manifest transition
  let start :=
    if doomed.isEmpty then (ledger, false)
    else (dropPointers (dropTransitions ledger doomed) fun id => id ∈ doomed, true)
  manifest.peopleOrder.foldl (repairPlacement manifest now) start

/-- Seed one person the ledger does not know yet. -/
def seedMissing (manifest : OrganizationManifest) (now : String)
    (step : ActivityLedger × Bool) (personId : String) : ActivityLedger × Bool :=
  if personId ∈ step.1.people then step
  else
    match seedPersonState manifest personId now with
    | none => step
    | some state => ({ step.1 with people := step.1.people.insert personId state }, true)

/-- The roster half: the manifest's order, its missing people and nobody else. -/
def reconcileRoster (ledger : ActivityLedger) (manifest : OrganizationManifest) (now : String) :
    ActivityLedger × Bool :=
  let ordered :=
    if ledger.personOrder ≠ manifest.peopleOrder then
      ({ ledger with personOrder := manifest.peopleOrder }, true)
    else (ledger, false)
  let seeded := manifest.peopleOrder.foldl (seedMissing manifest now) ordered
  if seeded.1.people.keys.all fun id => id ∈ manifest.peopleOrder then seeded
  else ({ seeded.1 with
    people := BTreeMap.filterKeys seeded.1.people fun id => id ∈ manifest.peopleOrder }, true)

/-- Drop the transitions the manifest can no longer name, with the pointers at them. -/
def retainKnown (ledger : ActivityLedger) (manifest : OrganizationManifest) :
    ActivityLedger × Bool :=
  let retained := ledger.transitionOrder.filter fun id =>
    (ledger.transitions[id]?).any fun transition =>
      decide (transition.personId ∈ manifest.peopleOrder) && departmentsKnown manifest transition
  if retained.length ≠ ledger.transitionOrder.length then
    let dropped := ledger.transitionOrder.filter fun id => id ∉ retained
    (dropPointers (dropTransitions ledger dropped) fun id => id ∉ retained, true)
  else (ledger, false)

/-- The transition ids people still point at. -/
def referencedTransitions (ledger : ActivityLedger) : List String :=
  ledger.people.toList.filterMap fun entry => entry.2.activeTransitionId

/-- The oldest terminal, unreferenced transitions beyond the retention bound. -/
def trimmable (ledger : ActivityLedger) : List String :=
  let droppable := ledger.transitionOrder.filter fun id =>
    decide (id ∉ referencedTransitions ledger) &&
      (ledger.transitions[id]?).any fun transition => transition.status.isTerminal
  droppable.take (droppable.length - activityTerminalTransitionLimit)

def trimHistory (ledger : ActivityLedger) : ActivityLedger × Bool :=
  if trimmable ledger = [] then (ledger, false)
  else (dropTransitions ledger (trimmable ledger), true)

/-- Whether the transition `personId` points at is dead weight at `nowMs`: past its deadline by one
more grace window, still in flight, and not a routine idle park. -/
def expiredTransition (ledger : ActivityLedger) (nowMs : Int) (personId : String) :
    Option String := do
  let state ← ledger.people[personId]?
  let id ← state.activeTransitionId
  let transition ← ledger.transitions[id]?
  guard (transition.status = .awaitingHandoff ∨ transition.status = .overdue ∨
    transition.status = .ready)
  guard (isRoutineIdlePark transition = false)
  let deadlineMs ← parseIsoMillis transition.handoffDeadlineAt
  guard (¬ nowMs ≤ deadlineMs + handoffGraceMs)
  some id

def sweepExpiredTransitions (ledger : ActivityLedger) (now : String) : ActivityLedger × Bool :=
  match parseIsoMillis now with
  | none => (ledger, false)
  | some nowMs =>
      let expired := ledger.personOrder.filterMap (expiredTransition ledger nowMs)
      (expired.foldl (fun ledger id => cancelTransition ledger id now) ledger, !expired.isEmpty)

/-- Reconcile the roster against the manifest; the flag says whether anything changed. -/
def reconcilePeople (ledger : ActivityLedger) (manifest : OrganizationManifest) (now : String) :
    ActivityLedger × Bool :=
  let rostered := reconcileRoster ledger manifest now
  let repaired := repairDanglingDepartments rostered.1 manifest now
  let retained := retainKnown repaired.1 manifest
  let trimmed := trimHistory retained.1
  let swept := sweepExpiredTransitions trimmed.1 now
  (swept.1, rostered.2 || repaired.2 || retained.2 || trimmed.2 || swept.2)

end Chief.Activity
