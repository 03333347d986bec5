/-
Module: Chief.Runtime.Desired
Layer: Model
Purpose: Who should be running, as the runtime answers it: the narrow manifest and the activity snapshot
  it plans from, their projection from the stored ledgers, the one predicate over them and the roster
  that publishes it.
Trusted boundary: human-reviewed translation
Main exports: Manifest, ActivitySnapshot, activeDepartment, isDesiredPerson, projectManifest,
  projectActivityFromLedger, projectDesiredRoster
-/
import Chief.Activity.Reconcile

namespace Chief.Runtime

open Foundation
open Activity (ActivityLedger)

/-! ### Inputs -/

/-- The one activity reason that overrides roster state. -/
def handoffRequiredReason : String := "handoff-required"

/-- Whether a department is running. -/
inductive DepartmentState where
  | active
  | paused
deriving DecidableEq, Repr

/-- A person's roster standing. -/
inductive EmploymentState where
  | active
  | benched
  | departed
deriving DecidableEq, Repr

/-- One department in the disk model. -/
structure Department where
  id : String
  name : String
  parentDepartmentId : Option String
  headPersonId : String
  state : DepartmentState
deriving DecidableEq, Repr

/-- One person in the disk model. -/
structure Person where
  id : String
  departmentId : String
  employmentState : EmploymentState
deriving DecidableEq, Repr

/-- The disk model the desired set is derived from. -/
structure Manifest where
  slug : String
  rootDepartmentId : String
  departments : BTreeMap Department
  people : BTreeMap Person
  departmentOrder : List String
  peopleOrder : List String
deriving DecidableEq

/-- One person's runtime activity decision. -/
structure PersonActivityDecision where
  personId : String
  active : Bool
  reasons : List String
deriving DecidableEq, Repr

/-- Whether the decision retains the person for a handoff they owe. -/
def PersonActivityDecision.isHandoffRequired (decision : PersonActivityDecision) : Bool :=
  decision.reasons.any (· == handoffRequiredReason)

/-- The runtime activity snapshot: one decision a person. -/
structure ActivitySnapshot where
  organization : String
  people : BTreeMap PersonActivityDecision
deriving DecidableEq

/-! ### The predicate -/

/-- The walk of `active_department` from `cursor`. Nothing in it notices a cycle, on which the source
does not return: it has an answer only where the rounds it is given are enough. -/
def activeDepartmentFrom (manifest : Manifest) : Nat → Option Department → Option Bool
  | 0, _ => none
  | _ + 1, none => some true
  | fuel + 1, some department =>
      if department.state ≠ .active then some false
      else activeDepartmentFrom manifest fuel
        (department.parentDepartmentId.bind fun parent => manifest.departments[parent]?)

/-- Whether every department from `departmentId` up to the root is active. -/
def activeDepartment (manifest : Manifest) (departmentId : String) : Option Bool :=
  activeDepartmentFrom manifest (manifest.departments.size + 2) manifest.departments[departmentId]?

/-- The department a person heads, in the order of the map. -/
def headed (manifest : Manifest) (personId : String) : Option Department :=
  (manifest.departments.toList.map Prod.snd).find? fun department =>
    department.headPersonId == personId

/-- Whether the roster lets the person run and the decision, if there is one, wants them to. -/
def isRosterActive (manifest : Manifest) (person : Person)
    (decision : Option PersonActivityDecision) : Option Bool := do
  let placedActive ← activeDepartment manifest person.departmentId
  if placedActive = false then some false
  else if person.employmentState ≠ .active then some false
  else do
    let headedActive ← match headed manifest person.id with
      | none => some true
      | some department => activeDepartment manifest department.id
    if headedActive = false then some false
    else some (decision.all PersonActivityDecision.active)

/-- Whether this person should be running. A handoff they owe beats the roster. -/
def isDesiredPerson (manifest : Manifest) (person : Person) (activity : ActivitySnapshot) :
    Option Bool :=
  match (activity.people[person.id]?).filter PersonActivityDecision.isHandoffRequired with
  | some decision => some decision.active
  | none => isRosterActive manifest person activity.people[person.id]?

/-! ### Projection -/

def mapDepartmentState : UnitState → DepartmentState
  | .active => .active
  | .paused => .paused

def mapEmployment : Chief.EmploymentState → EmploymentState
  | .active => .active
  | .benched => .benched
  | .departed => .departed

/-- One department, narrowed. -/
def projectDepartment (department : DepartmentRecord) : Department :=
  { id := department.id
    name := department.name
    parentDepartmentId := department.parentDepartmentId
    headPersonId := department.headPersonId
    state := mapDepartmentState department.state }

/-- One person, narrowed. -/
def projectPerson (person : PersonRecord) : Person :=
  { id := person.id
    departmentId := person.departmentId
    employmentState := mapEmployment person.employmentState }

/-- The stored manifest as the predicate reads it. -/
def projectManifest (manifest : OrganizationManifest) : Manifest :=
  { slug := manifest.slug
    rootDepartmentId := manifest.rootDepartmentId
    departments := manifest.departments.map fun _ department => projectDepartment department
    people := manifest.people.map fun _ person => projectPerson person
    departmentOrder := manifest.departmentOrder
    peopleOrder := manifest.peopleOrder }

/-- The decision a committed ledger records for one person. Only the owed handoff is reconstructed. -/
def projectDecision (activity : ActivityLedger) (personId : String) :
    Option (String × PersonActivityDecision) :=
  (activity.people[personId]?).map fun state =>
    let handoffRequired :=
      (activity.activeTransition personId).any fun transition => transition.status.isPending
    (personId,
      { personId := personId
        active := state.lastDesiredActive
        reasons := if handoffRequired then [handoffRequiredReason] else [] })

/-- The committed ledger as the predicate reads it. -/
def projectActivityFromLedger (manifest : OrganizationManifest) (activity : ActivityLedger) :
    ActivitySnapshot :=
  { organization := manifest.slug
    people := Std.ExtTreeMap.ofList (activity.personOrder.filterMap (projectDecision activity)) }

/-! ### The roster -/

/-- One department, as a fact. -/
structure RosterDepartment where
  id : String
  name : String
  parentDepartmentId : Option String
  headPersonId : String
  order : Nat
  state : String
deriving DecidableEq, Repr

/-- One person, as a fact. -/
structure RosterPerson where
  id : String
  displayName : String
  title : String
  departmentId : String
  isHeadOf : Option String
  displayOrder : Nat
  desiredActive : Bool
  employmentState : String
deriving DecidableEq, Repr

/-- The roster of one company. -/
structure DesiredRoster where
  slug : String
  displayName : String
  rootDepartmentId : String
  departments : List RosterDepartment
  people : List RosterPerson
deriving DecidableEq, Repr

def unitStateText : UnitState → String
  | .active => "active"
  | .paused => "paused"

def employmentStateText : Chief.EmploymentState → String
  | .active => "active"
  | .benched => "benched"
  | .departed => "departed"

/-- One department of the roster. -/
def rosterDepartment (org : OrganizationManifest) (entry : String × Nat) :
    Option RosterDepartment :=
  (org.departments[entry.1]?).map fun unit =>
    { id := unit.id
      name := unit.name
      parentDepartmentId := unit.parentDepartmentId
      headPersonId := unit.headPersonId
      order := entry.2
      state := unitStateText unit.state }

/-- A person of the order, with the record and the narrowed record under their id. -/
structure RosterEntry where
  id : String
  order : Nat
  person : PersonRecord
  planned : Person

/-- What both manifests know of a person of the order. -/
def rosterEntry (org : OrganizationManifest) (entry : String × Nat) : Option RosterEntry := do
  let person ← org.people[entry.1]?
  let planned ← (projectManifest org).people[entry.1]?
  some
    { id := entry.1
      order := entry.2
      person := person
      planned := planned }

/-- The people of the order both manifests know. -/
def rosterEntries (org : OrganizationManifest) : List RosterEntry :=
  org.peopleOrder.zipIdx.filterMap (rosterEntry org)

/-- One person of the roster. -/
def rosterPerson (org : OrganizationManifest) (snapshot : ActivitySnapshot) (entry : RosterEntry) :
    Option RosterPerson := do
  let desiredActive ← isDesiredPerson (projectManifest org) entry.planned snapshot
  some
    { id := entry.person.id
      displayName := entry.person.name
      title := entry.person.title
      departmentId := entry.person.departmentId
      isHeadOf := (org.headedDepartment entry.id).map DepartmentRecord.id
      displayOrder := entry.order
      desiredActive := desiredActive
      employmentState := employmentStateText entry.person.employmentState }

/-- The roster facts of a manifest and of the activity ledger, if there is one. -/
def projectDesiredRoster (org : OrganizationManifest) (activity : Option ActivityLedger) :
    Option DesiredRoster := do
  let snapshot := match activity with
    | some ledger => projectActivityFromLedger org ledger
    | none => { organization := org.slug, people := ∅ }
  let people ← (rosterEntries org).mapM (rosterPerson org snapshot)
  some
    { slug := org.slug
      displayName := org.name
      rootDepartmentId := org.rootDepartmentId
      departments := org.departmentOrder.zipIdx.filterMap (rosterDepartment org)
      people := people }

end Chief.Runtime
