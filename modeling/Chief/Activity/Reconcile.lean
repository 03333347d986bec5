/-
Module: Chief.Activity.Reconcile
Layer: Model
Purpose: Recomputing who should be running: demand reasons, idle clocks, park admission, transitions
  and decisions, with the launch fence applied last.
Trusted boundary: human-reviewed translation
Main exports: LaunchFence, ReconcileInput, ActivitySnapshot, agentQuietSince, structuralTransition,
  stampIdle, admitParks, transitionStep, decisionStep, reconcileBody, reconcile
-/
import Chief.Activity.Commands
import Mathlib.Data.Finset.Basic
import Mathlib.Data.Finset.Insert
import Mathlib.Data.List.MinMax

namespace Chief.Activity

open Foundation ActivityLedger

/-! ### Inputs and results -/

/-- The per-node launch-intent fence. -/
inductive LaunchFence where
  | fenced (allowed : BTreeSet)
  | unfenced

def LaunchFence.admits (fence : LaunchFence) (personId chiefPersonId : String) : Bool :=
  match fence with
  | .unfenced => true
  | .fenced allowed => personId = chiefPersonId ∨ personId ∈ allowed

/-- What one reconcile is told about the world. -/
structure ReconcileInput where
  launchIntent : LaunchFence
  requestedPersonIds : List String
  watchingSince : String

/-- One person's projection decision. -/
structure PersonActivityDecision where
  personId : String
  active : Bool
  reasons : List ActivityReason
  transitionId : Option String
deriving DecidableEq, Repr

/-- The result of one reconcile. -/
structure ActivitySnapshot where
  people : BTreeMap PersonActivityDecision
deriving DecidableEq

/-! ### Demand reasons -/

abbrev Reasons := BTreeMap (Finset ActivityReason)

def reasonsOf (reasons : Reasons) (personId : String) : Finset ActivityReason :=
  reasons.getD personId ∅

def addReason (reasons : Reasons) (personId : String) (reason : ActivityReason) : Reasons :=
  reasons.insert personId (insert reason (reasonsOf reasons personId))

def hasEffectiveDemand (reasons : Reasons) (personId : String) : Bool :=
  ∃ reason ∈ reasonsOf reasons personId, reason.isEffectiveDemand = true

/-- Demand attached to the person itself: everything but managing open work. -/
def hasOwnPinningDemand (reasons : Reasons) (personId : String) : Bool :=
  ∃ reason ∈ reasonsOf reasons personId, reason ≠ .managingOpenWork

/-- Whether the manifest permits this person to receive new runtime demand. -/
def personIsOperational (manifest : OrganizationManifest) (personId : String) : Bool :=
  match manifest.people[personId]? with
  | none => false
  | some person =>
      if person.employmentState ≠ .active ∨
          organizationUnitIsActive manifest person.departmentId = false then false
      else
        match manifest.headedDepartment personId with
        | none => true
        | some headed => organizationUnitIsActive manifest headed.id

/-! ### The idle clock -/

/-- `i64::saturating_add`. -/
def saturatingAdd (a b : Int) : Int := min (a + b) i64Max

/-- The instant this person's quiet lease began, if a settle countdown is running at all. -/
def agentQuietSince (state : PersonActivityState) (watchingSince now : Int) : Option String :=
  match state.agentQuietAt with
  | some quietAt => some quietAt
  | none =>
      match state.agentActiveAt.bind parseIsoMillis with
      | none => none
      | some activeAt =>
          let conclusiveAt := saturatingAdd (max activeAt watchingSince) agentActivityLivenessMs
          if conclusiveAt ≤ now then some (isoMillis conclusiveAt) else none

/-- Whether the person is inside the quiet lease an operator's wake bought them. -/
def operatorWakeLeaseActive (state : PersonActivityState) (now : Int) : Bool :=
  (state.operatorWakeAt.bind parseIsoMillis).any fun wokeAt =>
    wokeAt ≤ now ∧ now < wokeAt + organizationSettledIdleStopLeaseMs

/-- The decision made before an ordinary idle stop begins. -/
def settledIdleStopLeaseExpired (state : PersonActivityState) (now : Int) : Bool :=
  !operatorWakeLeaseActive state now && state.lastDesiredActive &&
    (state.idleSince.bind parseIsoMillis).any fun idleAt =>
      idleAt + organizationSettledIdleStopLeaseMs ≤ now

/-! ### Structural gaps -/

/-- A structural change the manifest has committed and the persisted state has not caught up
with. -/
structure StructuralTransition where
  action : TransitionAction
  toDepartmentId : Option String := none
  forceRemoval : Bool := false
deriving DecidableEq, Repr

/-- Departure beats benching, benching beats a unit pause, and a placement change is a transfer. -/
def structuralTransition (state : PersonActivityState) (manifest : OrganizationManifest)
    (personId : String) : Option StructuralTransition :=
  match manifest.people[personId]? with
  | none => none
  | some person =>
      if state.lastEmploymentState = .active ∧ person.employmentState = .departed then
        some { action := .offboard }
      else if state.lastEmploymentState = .active ∧ person.employmentState ≠ .active then
        some { action := .park }
      else if state.lastOperational = true ∧
          organizationUnitIsActive manifest person.departmentId = false then
        some { action := .park, forceRemoval := true }
      else if state.lastDepartmentId ≠ person.departmentId then
        some { action := .transfer, toDepartmentId := some person.departmentId }
      else none

/-! ### One pass -/

/-- What every step of one pass reads. -/
structure Pass where
  manifest : OrganizationManifest
  now : Int
  stamp : String
  fence : LaunchFence
  chief : String
  watchingSince : Int

/-- Whether the fence of the pass admits `personId`. -/
def Pass.admits (pass : Pass) (personId : String) : Bool :=
  pass.fence.admits personId pass.chief

/-- Recompute one person's idle clock from scratch. The chief never has one. -/
def stampIdle (pass : Pass) (reasons : Reasons) (draft : ActivityLedger) (personId : String) :
    ActivityLedger :=
  draft.modifyPerson personId fun state =>
    { state with
      idleSince :=
        if personId = pass.chief ∨ hasEffectiveDemand reasons personId = true ∨
            state.lastDesiredActive = false then none
        else agentQuietSince state pass.watchingSince pass.now }

/-- How many routine idle parks are pending. -/
def parksInFlight (draft : ActivityLedger) : Nat :=
  (draft.personOrder.filter fun personId =>
    (draft.activeTransition personId).any fun transition =>
      isRoutineIdlePark transition && transition.status.isPending).length

/-- The order of admission, starting from the durable cursor. -/
def roundRobin (draft : ActivityLedger) : List String :=
  let personCount := draft.personOrder.length
  let cursor := if personCount = 0 then 0 else draft.automaticParkCursor.getD 0 % personCount
  draft.personOrder.drop cursor ++ draft.personOrder.take cursor

def isParkCandidate (pass : Pass) (reasons : Reasons) (draft : ActivityLedger)
    (personId : String) : Bool :=
  if personId = pass.chief then false
  else
    match draft.people[personId]? with
    | none => false
    | some state =>
        if state.lastDesiredActive = false ∨ hasOwnPinningDemand reasons personId = true ∨
            (structuralTransition state pass.manifest personId).isSome = true ∨
            settledIdleStopLeaseExpired state pass.now = false then false
        else (draft.activeTransition personId).isNone

/-- The candidates that get a slot this pass. -/
def admitParks (pass : Pass) (reasons : Reasons) (draft : ActivityLedger) : List String :=
  ((roundRobin draft).filter (isParkCandidate pass reasons draft)).take
    (organizationAutomaticParkMaxInFlight - parksInFlight draft)

/-- Where `personId` stands in the order; zero when it does not. -/
def positionOf (draft : ActivityLedger) (personId : String) : Nat :=
  (draft.personOrder.findIdx? (· == personId)).getD 0

/-- The cursor moves past the last person admitted. -/
def advanceCursor (draft : ActivityLedger) (admitted : List String) : ActivityLedger :=
  match admitted.argmax (positionOf draft) with
  | none => draft
  | some last =>
      if draft.personOrder.length > 0 then
        { draft with
          automaticParkCursor := some ((positionOf draft last + 1) % draft.personOrder.length) }
      else draft

/-- What the transition loop carries from person to person. -/
structure ReconcileState where
  draft : ActivityLedger
  reasons : Reasons
  abandoned : List String := []
  directTransfers : List String := []

/-- A handoff past its deadline goes overdue. -/
def markOverdue (pass : Pass) (draft : ActivityLedger) (transition : Option String) :
    Except ChiefdError ActivityLedger :=
  match transition with
  | none => .ok draft
  | some id =>
      match draft.transitions[id]? with
      | none => .error (.panicked id)
      | some current =>
          if current.status = .awaitingHandoff ∧
              (parseIsoMillis current.handoffDeadlineAt).any (· ≤ pass.now) = true then
            .ok (draft.modifyTransition id fun t => { t with status := .overdue })
          else .ok draft

/-- A pending transition is a live lease, however its person came by it. -/
def noteHandoff (s : ReconcileState) (personId : String) : Except ChiefdError ReconcileState :=
  match s.draft.activeTransitionIdOf personId with
  | none => .ok s
  | some id =>
      match s.draft.transitions[id]? with
      | none => .error (.panicked id)
      | some transition =>
          if transition.status.isPending then
            .ok { s with reasons := addReason s.reasons personId .handoffRequired }
          else .ok s

/-- A fenced-out person's pending handoff is abandoned: its release is unreachable. -/
def abandonFencedOut (pass : Pass) (draft : ActivityLedger) (personId : String) :
    ActivityLedger :=
  match draft.activeTransitionIdOf personId with
  | none => draft
  | some id => (cancelTransition draft id pass.stamp).modifyTransition id fun t =>
      { t with abandonedAt := some pass.stamp }

/-- The terms of the handoff a structural gap asks for. -/
def StructuralTransition.spec (structural : StructuralTransition) (personId : String) :
    TransitionSpec :=
  { personId := personId
    action := structural.action
    reason :=
      s!"Release the transition before {structural.action.asStr} changes pane ownership."
    toDepartmentId := structural.toDepartmentId
    intentId := none }

/-- The transition loop for a person with a structural gap. `transition` is the pointer as it stood
before the step. The first two branches are the source's `continue`. -/
def structuralStep (pass : Pass) (s : ReconcileState) (personId : String)
    (transition : Option String) (structural : StructuralTransition) :
    Except ChiefdError ReconcileState :=
  if structural.action = .transfer ∧ transition = none ∧ pass.admits personId = true then
    .ok { s with directTransfers := personId :: s.directTransfers }
  else if (s.draft.activeTransition personId).all (fun t => t.status.isPending) = true ∧
      pass.admits personId = false then
    .ok { s with
      draft := abandonFencedOut pass s.draft personId
      abandoned := personId :: s.abandoned }
  else do
    let (transition, draft) ←
      ensureMatchingTransition s.draft (structural.spec personId) pass.stamp
    noteHandoff
      { s with
        draft := draft
        reasons := addReason s.reasons personId
          (if transition.status.isPending then .handoffRequired else .transitionReady) } personId

/-- The terms of a routine idle park. -/
def idleParkSpec (personId : String) : TransitionSpec :=
  { personId := personId
    action := .park
    reason := idleAutoParkReason
    toDepartmentId := none
    intentId := none }

/-- The transition loop for a desired-active person nothing demands. -/
def idleStep (pass : Pass) (admitted : List String) (s : ReconcileState) (personId : String) :
    Except ChiefdError ReconcileState :=
  if (s.draft.activeTransition personId).all (fun t => t.action = .park) = true then
    if (s.draft.activeTransition personId).isSome = true ∨ personId ∈ admitted then do
      let (transition, draft) ← ensureMatchingTransition s.draft (idleParkSpec personId) pass.stamp
      .ok { s with
        draft := draft
        reasons :=
          if transition.status.isPending then addReason s.reasons personId .handoffRequired
          else s.reasons }
    else .ok { s with reasons := addReason s.reasons personId .maintenanceBackpressure }
  else .ok s

/-- Ordinary parking yields to newly arrived work; an intent-bound park does not. -/
def yieldStep (pass : Pass) (s : ReconcileState) (personId : String) :
    Except ChiefdError ReconcileState :=
  if (s.draft.activeTransition personId).any
      (fun t => t.action = .park ∧ t.intentId = none) = true then
    match s.draft.activeTransitionIdOf personId with
    | none => .ok s
    | some id =>
        match s.draft.transitions[id]? with
        | none => .error (.panicked id)
        | some current =>
            if current.status = .applied then
              .ok { s with draft := s.draft.modifyPerson personId fun state =>
                { state with activeTransitionId := none, updatedAt := pass.stamp } }
            else .ok { s with draft := cancelTransition s.draft id pass.stamp }
  else .ok s

/-- One round of the transition loop. -/
def transitionStep (pass : Pass) (admitted : List String) (s : ReconcileState)
    (personId : String) : Except ChiefdError ReconcileState := do
  let transition := s.draft.activeTransitionIdOf personId
  let draft ← markOverdue pass s.draft transition
  let s := { s with draft := draft }
  match s.draft.people[personId]? with
  | none => .error (.panicked personId)
  | some state =>
      match structuralTransition state pass.manifest personId with
      | some structural => structuralStep pass s personId transition structural
      | none =>
          if hasOwnPinningDemand s.reasons personId = false ∧ state.lastDesiredActive = true then do
            let s ← idleStep pass admitted s personId
            noteHandoff s personId
          else if hasOwnPinningDemand s.reasons personId = true then do
            let s ← yieldStep pass s personId
            noteHandoff s personId
          else noteHandoff s personId

/-! ### Decisions -/

/-- What the match over the structural gap and the pointer leaves behind. -/
structure Verdict where
  draft : ActivityLedger
  reasons : Reasons
  active : Bool
  advancePlacement : Bool

/-- The arm of a released transition with a structural gap. -/
def settleStructural (pass : Pass) (personId id : String) (current : GracefulTransition)
    (structural : StructuralTransition) (hasWorkLease : Bool) (verdict : Verdict) : Verdict :=
  let removal := current.action.isRemoval
  if removal = false ∨ hasWorkLease = false ∨ structural.forceRemoval = true then
    { verdict with
      draft := (verdict.draft.modifyTransition id fun t => t.appliedAs pass.stamp).modifyPerson
        personId fun state => { state with activeTransitionId := none }
      active := if removal then false else hasWorkLease
      advancePlacement := true }
  else { verdict with active := true }

/-- The arms of a pointer without a structural gap. -/
def settlePointer (pass : Pass) (personId id : String) (current : GracefulTransition)
    (hasWorkLease : Bool) (verdict : Verdict) : Verdict :=
  if current.action = .park ∧ current.status.isReleased = true ∧
      (hasWorkLease = false ∨ current.intentId.isSome = true) then
    { verdict with
      draft := verdict.draft.modifyTransition id fun t => t.appliedAs pass.stamp
      active := false }
  else if current.action ≠ .park then
    { verdict with
      active := true
      reasons := addReason verdict.reasons personId
        (if current.status = .ready then .transitionReady else .handoffRequired) }
  else verdict

/-- The match over the structural gap and the pointer. -/
def settleTransition (pass : Pass) (s : ReconcileState) (personId : String)
    (structural : Option StructuralTransition) (hasWorkLease : Bool) (verdict : Verdict) :
    Except ChiefdError Verdict :=
  if structural.isSome = true ∧ personId ∈ s.abandoned then
    .ok { verdict with active := false, advancePlacement := true }
  else
    match s.draft.activeTransitionIdOf personId with
    | none => .ok verdict
    | some id =>
        match s.draft.transitions[id]? with
        | none => .error (.panicked id)
        | some current =>
            match structural with
            | some structural =>
                if current.status.isReleased then
                  .ok (settleStructural pass personId id current structural hasWorkLease verdict)
                else .ok verdict
            | none => .ok (settlePointer pass personId id current hasWorkLease verdict)

/-- The state a decision leaves: a rising edge clears every report of the previous run. -/
def PersonActivityState.decided (state : PersonActivityState) (pass : Pass) (person : PersonRecord)
    (active advancePlacement : Bool) : PersonActivityState :=
  let risen :=
    if active = true ∧ state.lastDesiredActive = false then
      { state with agentQuietAt := none, agentActiveAt := none, idleSince := none }
    else state
  let desired := { risen with lastDesiredActive := active }
  let placed := if advancePlacement then desired.placedAs pass.manifest person else desired
  { placed with updatedAt := pass.stamp }

/-- Whether the leases and the direct transfer alone would keep the person running. -/
def demandedActive (s : ReconcileState) (personId : String) (state : PersonActivityState) : Bool :=
  let lease := reasonsOf s.reasons personId
  hasEffectiveDemand s.reasons personId || decide (.handoffRequired ∈ lease) ||
    decide (.maintenanceBackpressure ∈ lease) ||
    (decide (personId ∈ s.directTransfers) && state.lastDesiredActive)

/-- One round of the decision loop. The fence is applied after every reason and transition. -/
def decisionStep (pass : Pass) (s : ReconcileState × BTreeMap PersonActivityDecision)
    (personId : String) :
    Except ChiefdError (ReconcileState × BTreeMap PersonActivityDecision) := do
  let some person := pass.manifest.people[personId]? | .error (.panicked personId)
  let some state := s.1.draft.people[personId]? | .error (.panicked personId)
  let structural := structuralTransition state pass.manifest personId
  let hasWorkLease := hasEffectiveDemand s.1.reasons personId
  let verdict ← settleTransition pass s.1 personId structural hasWorkLease
    { draft := s.1.draft
      reasons := s.1.reasons
      active := demandedActive s.1 personId state
      advancePlacement := structural.isNone || decide (personId ∈ s.1.directTransfers) }
  let active := verdict.active && pass.admits personId
  let draft := verdict.draft.modifyPerson personId fun state =>
    state.decided pass person active verdict.advancePlacement
  .ok ({ s.1 with draft := draft, reasons := verdict.reasons }, s.2.insert personId
    { personId := personId
      active := active
      reasons := ActivityReason.all.filter (· ∈ reasonsOf verdict.reasons personId)
      transitionId := draft.activeTransitionIdOf personId })

/-! ### The whole pass -/

/-- The first requested id, in ascending order, the manifest does not know. -/
def unknownRequested (manifest : OrganizationManifest) (requested : BTreeSet) : Option String :=
  requested.toList.find? fun personId => personId ∉ manifest.people

/-- The demand of one explicit request. -/
def addRequested (manifest : OrganizationManifest) (reasons : Reasons) (personId : String) :
    Reasons :=
  if personIsOperational manifest personId then addReason reasons personId .requested else reasons

/-- The demand computed before anything is touched. -/
def demandReasons (manifest : OrganizationManifest) (chief : String) (requested : BTreeSet) :
    Reasons :=
  requested.toList.foldl (addRequested manifest) (addReason ∅ chief .organizationRoot)

/-- The idle clocks and the admission of routine parks: what the loops start from. -/
def prepare (pass : Pass) (requested : BTreeSet) (draft : ActivityLedger) :
    ReconcileState × List String :=
  let reasons := demandReasons pass.manifest pass.chief requested
  let stamped := draft.personOrder.foldl (stampIdle pass reasons) draft
  let admitted := admitParks pass reasons stamped
  ({ draft := advanceCursor stamped admitted, reasons := reasons }, admitted)

def reconcileBody (chief : String) (input : ReconcileInput) : Body ActivitySnapshot :=
  fun draft ctx stamp => do
    let requested := Std.ExtTreeSet.ofList input.requestedPersonIds
    match unknownRequested ctx.manifest requested with
    | some personId =>
        .error (refused unknownPerson s!"Unknown requested person '{personId}'")
    | none => do
        let pass : Pass :=
          { manifest := ctx.manifest
            now := ctx.now
            stamp := stamp
            fence := input.launchIntent
            chief := chief
            watchingSince := (parseIsoMillis input.watchingSince).getD i64Max }
        let prepared := prepare pass requested draft
        let s ← prepared.1.draft.personOrder.foldlM (transitionStep pass prepared.2) prepared.1
        let decided ← s.draft.personOrder.foldlM (decisionStep pass) (s, ∅)
        .ok ({ people := decided.2 }, decided.1.draft)

/-- Recompute who should be running, and commit the result. -/
def reconcile (ledgers : Ledgers) (manifest : OrganizationManifest)
    (supervision : SupervisionLedger) (input : ReconcileInput) :
    Except ChiefdError (ActivitySnapshot × Ledgers) := do
  let chief ← liftRefusal manifest.chiefPersonId
  mutate ledgers manifest supervision (reconcileBody chief input)

end Chief.Activity
