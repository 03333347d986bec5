/-
Module: Chief.Organization.ControlAuthority
Layer: Model
Purpose: Who may act on whom: predicates over a manifest that walk from the target up to the unit the
  actor heads.
Trusted boundary: human-reviewed translation
Main exports: ControlActor, departmentIsWithin, departmentIsInScope, personIsInScope
-/
import Chief.Organization.Manifest

namespace Chief

open Foundation

/-- Who is asking. -/
inductive ControlActor where
  | operator
  | person (id : String)
deriving DecidableEq, Repr

/-- The unit `managerPersonId` heads, if any, resolved through the order of departments. -/
def headedDepartmentId (manifest : OrganizationManifest) (managerPersonId : String) :
    Option String :=
  (manifest.headedDepartment managerPersonId).map (·.id)

/-- The upward walk of `departmentIsWithin`, with the ids already seen. -/
def withinFrom (manifest : OrganizationManifest) (rootId : String) :
    Nat → List String → Option DepartmentRecord → Bool
  | 0, _, _ => false
  | _ + 1, _, none => false
  | fuel + 1, seen, some unit =>
      if unit.id = rootId then true
      else if unit.id ∈ seen then false
      else
        match unit.parentDepartmentId with
        | none => false
        | some parent => withinFrom manifest rootId fuel (unit.id :: seen) manifest.departments[parent]?

/-- Whether `departmentId` is the unit `rootId` or a unit beneath it. Every round sees one more record,
so two rounds more than there are records are never used up. -/
def departmentIsWithin (manifest : OrganizationManifest) (rootId departmentId : String) : Bool :=
  if departmentId ∈ manifest.departments then
    withinFrom manifest rootId (manifest.departments.size + 2) [] manifest.departments[departmentId]?
  else false

/-- Whether `actor` manages `departmentId`. -/
def departmentIsInScope (manifest : OrganizationManifest) (actor : ControlActor)
    (departmentId : String) : Bool :=
  if departmentId ∈ manifest.departments then
    match actor with
    | .operator => true
    | .person actorId =>
        match manifest.people[actorId]? with
        | none => false
        | some person =>
            if person.kind = .executive then true
            else
              match headedDepartmentId manifest actorId with
              | none => false
              | some root => departmentIsWithin manifest root departmentId
  else false

/-- Whether `actor` may act on `targetPersonId`. -/
def personIsInScope (manifest : OrganizationManifest) (actor : ControlActor)
    (targetPersonId : String) : Bool :=
  match manifest.people[targetPersonId]? with
  | none => false
  | some target =>
      match actor with
      | .operator => true
      | .person actorId =>
          if actorId = targetPersonId then true
          else departmentIsInScope manifest actor target.departmentId

end Chief
