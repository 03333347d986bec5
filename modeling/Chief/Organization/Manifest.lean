/-
Module: Chief.Organization.Manifest
Layer: Model
Purpose: The organization manifest, the lookups the other stores make in it and the ancestry walk that
  decides whether a unit accepts work.
Trusted boundary: human-reviewed translation
Main exports: OrganizationManifest, chiefPersonId, headedDepartment, organizationUnitKind,
  stoppedOrganizationUnitAncestor, organizationUnitIsActive, stoppedAncestorFrom_fuel
-/
import Chief.Foundation.BTreeMap
import Chief.Foundation.Loops
import Chief.Error
import Mathlib.Tactic.Common

namespace Chief

open Foundation

/-- Schema version of the manifest body. -/
def organizationSchemaVersion : Nat := 1

/-- The implicit root unit's id. -/
def rootDepartmentId : String := "executive"

/-- The manifest failed a structural rule. -/
def manifestInvalid : String := "manifest-invalid"

/-- Whether a person may be activated at all. -/
inductive EmploymentState where
  | active
  | benched
  | departed
deriving DecidableEq, Repr

/-- A person's structural role. -/
inductive PersonKind where
  | executive
  | head
  | worker
deriving DecidableEq, Repr

/-- Whether this kind is an organization manager. -/
def PersonKind.isManager : PersonKind → Bool
  | .worker => false
  | _ => true

/-- Which flavour of unit a department record describes. -/
inductive UnitKind where
  | company
  | department
  | contract
deriving DecidableEq, Repr

/-- Whether a unit is accepting work. -/
inductive UnitState where
  | active
  | paused
deriving DecidableEq, Repr

/-- A contract unit's engagement metadata. -/
structure ContractMetadata where
  engagement : String
  launchedAt : String
  expiresAt : Option String := none
deriving DecidableEq, Repr

/-- One department or contract unit. -/
structure DepartmentRecord where
  id : String
  name : String := ""
  purpose : String := ""
  kind : Option UnitKind := none
  transient : Option ContractMetadata := none
  parentDepartmentId : Option String := none
  headPersonId : String
  state : UnitState
  createdAt : String := ""
deriving DecidableEq, Repr

/-- One person. -/
structure PersonRecord where
  id : String
  name : String := ""
  title : String := ""
  mandate : String := ""
  kind : PersonKind
  departmentId : String
  employmentState : EmploymentState
  activation : String := "resident"
  tools : List String := []
  prompts : List String := []
  createdAt : String
deriving DecidableEq, Repr

/-- The manifest: the structural authority for one company. -/
structure OrganizationManifest where
  schemaVersion : Nat
  kind : String
  slug : String
  name : String
  purpose : String := ""
  rootDepartmentId : String
  departmentOrder : List String
  peopleOrder : List String
  departments : BTreeMap DepartmentRecord
  people : BTreeMap PersonRecord
  createdAt : String
  updatedAt : String
deriving DecidableEq

/-- The source's `invalid`: a refusal of the manifest validator. -/
def manifestRefusal (message : String) : Refusal := { code := manifestInvalid, message := message }

namespace OrganizationManifest

variable (manifest : OrganizationManifest)

/-- The root unit's head. -/
def chiefPersonId : Except Refusal String :=
  match manifest.departments[manifest.rootDepartmentId]? with
  | some root => .ok root.headPersonId
  | none => .error (manifestRefusal "Organization root department is missing")

/-- The unit `personId` heads, if any, in manifest order. -/
def headedDepartment (personId : String) : Option DepartmentRecord :=
  (manifest.departmentOrder.filterMap fun id => manifest.departments[id]?).find?
    fun department => department.headPersonId == personId

end OrganizationManifest

/-- Resolve a unit's kind, tolerating records that omit it. -/
def organizationUnitKind (manifest : OrganizationManifest) (department : DepartmentRecord) :
    UnitKind :=
  department.kind.getD
    (if department.id = manifest.rootDepartmentId then .company else .department)

/-- The walk of `stopped_organization_unit_ancestor` from `cursor`, with the ids already visited. -/
def stoppedAncestorFrom (manifest : OrganizationManifest) :
    Nat → List String → DepartmentRecord → Except Refusal (Option DepartmentRecord)
  | 0, _, cursor => .error (manifestRefusal s!"Department cycle includes '{cursor.id}'")
  | fuel + 1, visited, cursor =>
      if cursor.id ∈ visited then
        .error (manifestRefusal s!"Department cycle includes '{cursor.id}'")
      else if cursor.state ≠ .active then
        .ok (some cursor)
      else
        match cursor.parentDepartmentId with
        | none => .ok none
        | some parent =>
            match manifest.departments[parent]? with
            | none => .ok none
            | some next => stoppedAncestorFrom manifest fuel (cursor.id :: visited) next

/-- The first local-or-ancestor paused unit, if any. Each round visits one more record, so one
round more than there are records is never used up (`stoppedAncestorFrom_fuel`). -/
def stoppedOrganizationUnitAncestor (manifest : OrganizationManifest) (unitId : String) :
    Except Refusal (Option DepartmentRecord) :=
  match manifest.departments[unitId]? with
  | none => .error (manifestRefusal s!"Unknown department '{unitId}'")
  | some cursor => stoppedAncestorFrom manifest (manifest.departments.size + 1) [] cursor

/-- Whether a unit and its whole ancestry are active. An unknown unit and a cycle are not. -/
def organizationUnitIsActive (manifest : OrganizationManifest) (unitId : String) : Bool :=
  stoppedOrganizationUnitAncestor manifest unitId = .ok none

/-! ### The walk ends

The ids already visited are ids of distinct records, so there are never more of them than records.
-/

/-- Every visited id is the id of a record, and none was visited twice. -/
private def VisitedRecords (manifest : OrganizationManifest) (visited : List String) : Prop :=
  visited.Nodup ∧ ∀ id ∈ visited, ∃ (key : String) (record : DepartmentRecord),
    manifest.departments[key]? = some record ∧ record.id = id

private theorem VisitedRecords.length_le {manifest : OrganizationManifest} {visited : List String}
    (records : VisitedRecords manifest visited) :
    visited.length ≤ manifest.departments.size := by
  have included : visited ⊆ manifest.departments.toList.map fun entry => entry.2.id := by
    intro id member
    obtain ⟨key, record, found, named⟩ := records.2 id member
    exact List.mem_map.mpr
      ⟨(key, record), Std.ExtTreeMap.mem_toList_iff_getElem?_eq_some.mpr found, named⟩
  have bounded := (List.subperm_of_subset records.1 included).length_le
  rwa [List.length_map, Std.ExtTreeMap.length_toList] at bounded

/-- With one round more than there are records, an extra round changes nothing. -/
theorem stoppedAncestorFrom_fuel {manifest : OrganizationManifest} :
    ∀ {fuel : Nat} {visited : List String} {cursor : DepartmentRecord},
      VisitedRecords manifest visited → (∃ key : String, manifest.departments[key]? = some cursor) →
        manifest.departments.size + 1 ≤ fuel + visited.length →
          stoppedAncestorFrom manifest (fuel + 1) visited cursor =
            stoppedAncestorFrom manifest fuel visited cursor
  | 0, visited, cursor, records, _, enough => by
      have bounded := records.length_le
      omega
  | fuel + 1, visited, cursor, records, ⟨key, found⟩, enough => by
      rw [stoppedAncestorFrom, stoppedAncestorFrom]
      by_cases seen : cursor.id ∈ visited
      · rw [if_pos seen, if_pos seen]
      by_cases paused : cursor.state ≠ .active
      · rw [if_neg seen, if_neg seen, if_pos paused, if_pos paused]
      rw [if_neg seen, if_neg seen, if_neg paused, if_neg paused]
      cases parent : cursor.parentDepartmentId with
      | none => rfl
      | some parentId =>
          dsimp only
          cases next : manifest.departments[parentId]? with
          | none => rfl
          | some record =>
              have grown : VisitedRecords manifest (cursor.id :: visited) := by
                refine ⟨List.nodup_cons.mpr ⟨seen, records.1⟩, ?_⟩
                intro id member
                rcases List.mem_cons.mp member with rfl | older
                · exact ⟨key, cursor, found, rfl⟩
                · exact records.2 id older
              exact stoppedAncestorFrom_fuel grown ⟨parentId, next⟩
                (by rw [List.length_cons]; omega)

end Chief
