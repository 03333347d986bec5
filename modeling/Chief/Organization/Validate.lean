/-
Module: Chief.Organization.Validate
Layer: Model
Purpose: The structural rules of the manifest, and what a manifest that passes them offers the stores
  that validate themselves against it.
Trusted boundary: human-reviewed translation
Main exports: validateOrganizationManifest, promptTemplateReference, ManifestWellFormed,
  wellFormed_of_validate
-/
import Chief.Organization.Manifest
import Chief.Foundation.Text
import Chief.Isotime
import Mathlib.Tactic.Common

namespace Chief

open Foundation

/-! ### The rules -/

def nonempty (value label : String) : Except Refusal Unit :=
  require (isBlank value = false) (manifestRefusal s!"{label} is required")

def iso (value label : String) : Except Refusal Int :=
  match parseIsoMillis value with
  | some millis => .ok millis
  | none => .error (manifestRefusal s!"{label} must be an ISO-8601 timestamp")

/-- Prompt templates are project resources under `prompts/`, never arbitrary host files. -/
def promptTemplateReference (value label : String) : Except Refusal Unit := do
  let backslash := Char.ofNat 92
  let segments := value.toList.splitOn '/'
  require (¬ (value = "" ∨ trim value ≠ value))
    (manifestRefusal s!"{label} must be a non-empty prompt template path")
  require (¬ (backslash ∈ value.toList ∨ value.toList.head? = some '/' ∨
      value.toList[1]? = some ':'))
    (manifestRefusal s!"{label} must be a relative path under prompts/")
  require (¬ ((segments.any fun segment =>
        segment == [] || segment == ['.'] || segment == ['.', '.']) = true ∨
      "prompts/".toList.isPrefixOf value.toList = false ∨
      ".md".toList.isSuffixOf value.toList = false))
    (manifestRefusal s!"{label} must name a Markdown template under prompts/ without traversal")

/-- The metadata rules of one unit: a contract carries it, no other unit does. -/
def validateUnitMetadata (manifest : OrganizationManifest) (department : DepartmentRecord) :
    Except Refusal Unit := do
  let missing := manifestRefusal
    s!"Contract unit '{department.id}' requires transient engagement and launchedAt metadata"
  if organizationUnitKind manifest department = .contract then
    let some transient := department.transient | .error missing
    require (¬ (isBlank transient.engagement = true ∨ isBlank transient.launchedAt = true)) missing
    let launched ← iso transient.launchedAt
      s!"Contract unit '{department.id}'.transient.launchedAt"
    match transient.expiresAt with
    | none => .ok ()
    | some expiresAt =>
        let expires ← iso expiresAt s!"Contract unit '{department.id}'.transient.expiresAt"
        require (¬ expires ≤ launched) (manifestRefusal
          s!"Contract unit '{department.id}'.transient.expiresAt must be later than launchedAt")
  else
    require (department.transient = none) (manifestRefusal
      s!"Non-contract unit '{department.id}' cannot retain transient metadata")

/-- The rules of the person heading `department`. -/
def validateHead (manifest : OrganizationManifest) (headedPeople : List String)
    (department : DepartmentRecord) : Except Refusal String := do
  let some head := manifest.people[department.headPersonId]?
    | .error (manifestRefusal
        s!"Department '{department.id}' has unknown head '{department.headPersonId}'")
  require (head.departmentId = department.id)
    (manifestRefusal s!"Head '{head.id}' must belong to department '{department.id}'")
  require (head.id ∉ headedPeople)
    (manifestRefusal s!"Person '{head.id}' cannot head more than one department")
  let expectedKind : PersonKind :=
    if department.id = manifest.rootDepartmentId then .executive else .head
  let label := if expectedKind = .executive then "executive" else "head"
  require (head.kind = expectedKind)
    (manifestRefusal s!"Department '{department.id}' requires a {label} head")
  require (head.employmentState ≠ .departed) (manifestRefusal
    s!"Head '{head.id}' cannot depart while heading department '{department.id}'")
  .ok head.id

def validateParent (manifest : OrganizationManifest) (department : DepartmentRecord) :
    Except Refusal Unit :=
  match department.parentDepartmentId with
  | none => .ok ()
  | some parent =>
      require (parent ∈ manifest.departments)
        (manifestRefusal s!"Department '{department.id}' has unknown parent '{parent}'")

/-- One round of the department loop, which collects the people seen heading a unit. -/
def validateDepartment (manifest : OrganizationManifest) (headedPeople : List String)
    (id : String) : Except Refusal (List String) := do
  let some department := manifest.departments[id]? | .error (indexPanic id)
  require (department.id = id) (manifestRefusal s!"Department '{id}' has a mismatched id")
  let unitKind := organizationUnitKind manifest department
  require (¬ (department.id = manifest.rootDepartmentId ∧ unitKind ≠ .company))
    (manifestRefusal "Organization root unit must have kind 'company'")
  require (¬ (department.id ≠ manifest.rootDepartmentId ∧ unitKind = .company))
    (manifestRefusal "Only the organization root may have kind 'company'")
  validateUnitMetadata manifest department
  validateParent manifest department
  let head ← validateHead manifest headedPeople department
  .ok (head :: headedPeople)

/-- The climb from `cursor` to the unit without a parent. As in `stoppedAncestorFrom`, the fuel is
one more than there are records. -/
def climbToRoot (manifest : OrganizationManifest) :
    Nat → List String → DepartmentRecord → Except Refusal DepartmentRecord
  | 0, _, cursor => .error (manifestRefusal s!"Department cycle includes '{cursor.id}'")
  | fuel + 1, visited, cursor =>
      match cursor.parentDepartmentId with
      | none => .ok cursor
      | some parent =>
          if cursor.id ∈ visited then
            .error (manifestRefusal s!"Department cycle includes '{cursor.id}'")
          else
            match manifest.departments[parent]? with
            | none => .ok cursor
            | some next => climbToRoot manifest fuel (cursor.id :: visited) next

/-- Every unit must reach the root. -/
def validateAncestry (manifest : OrganizationManifest) (id : String) : Except Refusal Unit := do
  let some cursor := manifest.departments[id]? | .error (indexPanic id)
  let top ← climbToRoot manifest (manifest.departments.size + 1) [] cursor
  require (top.id = manifest.rootDepartmentId)
    (manifestRefusal s!"Department '{id}' is disconnected from the organization root")

/-- The rules of one person. -/
def validatePerson (manifest : OrganizationManifest) (headedPeople : List String) (id : String) :
    Except Refusal Unit := do
  let some person := manifest.people[id]? | .error (indexPanic id)
  require (person.id = id) (manifestRefusal s!"Person '{id}' has a mismatched id")
  require (person.departmentId ∈ manifest.departments) (manifestRefusal
    s!"Person '{person.id}' has unknown department '{person.departmentId}'")
  require (¬ (person.kind.isManager = true ∧ person.id ∉ headedPeople))
    (manifestRefusal s!"Leader '{person.id}' must head exactly one department")
  require (¬ (person.kind.isManager = false ∧ person.id ∈ headedPeople))
    (manifestRefusal s!"Worker '{person.id}' cannot head a department")
  require ((person.tools.any isBlank) = false)
    (manifestRefusal s!"Person '{person.id}' tools must be a string array")
  person.prompts.zipIdx.forM fun entry =>
    promptTemplateReference entry.1 s!"Person '{person.id}'.prompts[{entry.2}]"
  let _ ← iso person.createdAt s!"Person '{person.id}'.createdAt"
  .ok ()

/-- The complete structural rule set, run before every commit of a manifest. -/
def validateOrganizationManifest (manifest : OrganizationManifest) : Except Refusal Unit := do
  require (manifest.schemaVersion = organizationSchemaVersion ∧ manifest.kind = "organization")
    (manifestRefusal "Unsupported organization manifest")
  require (manifest.rootDepartmentId = rootDepartmentId)
    (manifestRefusal "Organization root department id is not the reserved root")
  require (manifest.rootDepartmentId ∈ manifest.departments)
    (manifestRefusal "Organization root department is missing")
  nonempty manifest.slug "Organization slug"
  nonempty manifest.name "Organization name"
  require (manifest.departmentOrder.Nodup ∧
      ∀ id ∈ manifest.departmentOrder, id ∈ manifest.departments)
    (manifestRefusal "Organization department order is invalid")
  require (manifest.peopleOrder.Nodup ∧ ∀ id ∈ manifest.peopleOrder, id ∈ manifest.people)
    (manifestRefusal "Organization people order is invalid")
  require (manifest.departmentOrder.length = manifest.departments.size ∧
      manifest.peopleOrder.length = manifest.people.size)
    (manifestRefusal "Organization order must include every department and person")
  let some root := manifest.departments[manifest.rootDepartmentId]?
    | .error (manifestRefusal "Organization root department is missing")
  require (root.parentDepartmentId = none)
    (manifestRefusal "Organization root department cannot have a parent")
  let headedPeople ← manifest.departmentOrder.foldlM (validateDepartment manifest) []
  manifest.departmentOrder.forM (validateAncestry manifest)
  manifest.peopleOrder.forM (validatePerson manifest headedPeople)
  let _ ← iso manifest.createdAt "Organization createdAt"
  let _ ← iso manifest.updatedAt "Organization updatedAt"
  .ok ()

/-! ### What a valid manifest offers -/

/-- The consequences of the rules that other stores rely on. -/
structure ManifestWellFormed (manifest : OrganizationManifest) : Prop where
  departmentsListed : BTreeMap.Lists manifest.departmentOrder manifest.departments
  peopleListed : BTreeMap.Lists manifest.peopleOrder manifest.people
  rootKnown : manifest.rootDepartmentId ∈ manifest.departments
  departmentId : ∀ {id : String} {department : DepartmentRecord},
    manifest.departments[id]? = some department → department.id = id
  headPlaced : ∀ {id : String} {department : DepartmentRecord},
    manifest.departments[id]? = some department →
      ∃ head, manifest.people[department.headPersonId]? = some head ∧ head.departmentId = id ∧
        head.employmentState ≠ .departed
  personId : ∀ {id : String} {person : PersonRecord},
    manifest.people[id]? = some person → person.id = id
  personPlaced : ∀ {id : String} {person : PersonRecord},
    manifest.people[id]? = some person → person.departmentId ∈ manifest.departments

private theorem validateHead_spec {manifest : OrganizationManifest} {headedPeople : List String}
    {department : DepartmentRecord} {headId : String}
    (passed : validateHead manifest headedPeople department = .ok headId) :
    ∃ head, manifest.people[department.headPersonId]? = some head ∧
      head.departmentId = department.id ∧ head.employmentState ≠ .departed := by
  unfold validateHead at passed
  cases found : manifest.people[department.headPersonId]? with
  | none => simp [found] at passed
  | some head =>
      simp only [found, bind_eq_ok, require_eq_ok] at passed
      obtain ⟨_, placed, _, _, _, _, _, employed, _⟩ := passed
      exact ⟨head, rfl, placed, employed⟩

private theorem validateDepartment_spec {manifest : OrganizationManifest}
    {headedPeople headedPeople' : List String} {id : String}
    (passed : validateDepartment manifest headedPeople id = .ok headedPeople') :
    ∃ department, manifest.departments[id]? = some department ∧ department.id = id ∧
      ∃ head, manifest.people[department.headPersonId]? = some head ∧ head.departmentId = id ∧
        head.employmentState ≠ .departed := by
  unfold validateDepartment at passed
  cases found : manifest.departments[id]? with
  | none => simp [found] at passed
  | some department =>
      simp only [found, bind_eq_ok, require_eq_ok] at passed
      obtain ⟨_, named, _, _, _, _, _, _, _, _, headId, headed, _⟩ := passed
      obtain ⟨head, isHead, placed, employed⟩ := validateHead_spec headed
      exact ⟨department, rfl, named, head, isHead, placed.trans named, employed⟩

private theorem validateDepartments_spec {manifest : OrganizationManifest} :
    ∀ {order headedPeople headedPeople' : List String},
      order.foldlM (validateDepartment manifest) headedPeople = .ok headedPeople' →
        ∀ id ∈ order, ∃ department, manifest.departments[id]? = some department ∧
          department.id = id ∧
          ∃ head, manifest.people[department.headPersonId]? = some head ∧
            head.departmentId = id ∧ head.employmentState ≠ .departed
  | [], _, _, _, id, member => by cases member
  | first :: order, headedPeople, _, passed, id, member => by
      rw [List.foldlM_cons, bind_eq_ok] at passed
      obtain ⟨middle, here, later⟩ := passed
      rcases List.mem_cons.mp member with rfl | member
      · exact validateDepartment_spec here
      · exact validateDepartments_spec later id member

private theorem validatePerson_spec {manifest : OrganizationManifest} {headedPeople : List String}
    {id : String} (passed : validatePerson manifest headedPeople id = .ok ()) :
    ∃ person, manifest.people[id]? = some person ∧ person.id = id ∧
      person.departmentId ∈ manifest.departments := by
  unfold validatePerson at passed
  cases found : manifest.people[id]? with
  | none => simp [found] at passed
  | some person =>
      simp only [found, bind_eq_ok, require_eq_ok] at passed
      obtain ⟨_, named, _, placed, _⟩ := passed
      exact ⟨person, rfl, named, placed⟩

/-- A manifest that validation accepts is well formed. -/
theorem wellFormed_of_validate {manifest : OrganizationManifest}
    (passed : validateOrganizationManifest manifest = .ok ()) : ManifestWellFormed manifest := by
  unfold validateOrganizationManifest at passed
  simp only [bind_eq_ok, require_eq_ok] at passed
  obtain ⟨_, _, _, _, _, rootKnown, _, _, _, _, _, departmentOrder, _, peopleOrder, _, complete,
    passed⟩ := passed
  cases found : manifest.departments[manifest.rootDepartmentId]? with
  | none => simp [found] at passed
  | some root =>
      simp only [found, bind_eq_ok, require_eq_ok] at passed
      obtain ⟨_, _, headedPeople, departments, _, _, _, people, _⟩ := passed
      have departmentsListed : BTreeMap.Lists manifest.departmentOrder manifest.departments :=
        BTreeMap.lists_iff.mpr ⟨departmentOrder.1, departmentOrder.2, complete.1⟩
      have peopleListed : BTreeMap.Lists manifest.peopleOrder manifest.people :=
        BTreeMap.lists_iff.mpr ⟨peopleOrder.1, peopleOrder.2, complete.2⟩
      have department {id : String} {record : DepartmentRecord}
          (known : manifest.departments[id]? = some record) :=
        validateDepartments_spec departments id
          ((departmentsListed.mem_iff id).mpr (BTreeMap.mem_of_getElem? known))
      have person {id : String} {record : PersonRecord}
          (known : manifest.people[id]? = some record) :=
        validatePerson_spec (forM_eq_ok.mp people id
          ((peopleListed.mem_iff id).mpr (BTreeMap.mem_of_getElem? known)))
      refine ⟨departmentsListed, peopleListed, rootKnown, ?_, ?_, ?_, ?_⟩
      · intro id record known
        obtain ⟨record', known', named, _⟩ := department known
        rw [known, Option.some.injEq] at known'
        exact known' ▸ named
      · intro id record known
        obtain ⟨record', known', _, headed⟩ := department known
        rw [known, Option.some.injEq] at known'
        exact known' ▸ headed
      · intro id record known
        obtain ⟨record', known', named, _⟩ := person known
        rw [known, Option.some.injEq] at known'
        exact known' ▸ named
      · intro id record known
        obtain ⟨record', known', _, placed⟩ := person known
        rw [known, Option.some.injEq] at known'
        exact known' ▸ placed

/-- Every unit of a manifest that validation accepts climbs to the root. -/
theorem ancestry_of_validate {manifest : OrganizationManifest} {id : String}
    {department : DepartmentRecord} (passed : validateOrganizationManifest manifest = .ok ())
    (known : manifest.departments[id]? = some department) :
    ∃ top, climbToRoot manifest (manifest.departments.size + 1) [] department = .ok top ∧
      top.id = manifest.rootDepartmentId := by
  have listed := (wellFormed_of_validate passed).departmentsListed
  unfold validateOrganizationManifest at passed
  simp only [bind_eq_ok, require_eq_ok] at passed
  obtain ⟨_, _, _, _, _, _, _, _, _, _, _, _, _, _, _, _, passed⟩ := passed
  cases found : manifest.departments[manifest.rootDepartmentId]? with
  | none => simp [found] at passed
  | some root =>
      simp only [found, bind_eq_ok, require_eq_ok] at passed
      obtain ⟨_, _, _, _, _, ancestry, _⟩ := passed
      have climbs := forM_eq_ok.mp ancestry id
        ((listed.mem_iff id).mpr (BTreeMap.mem_of_getElem? known))
      simp only [validateAncestry, known, bind_eq_ok, require_eq_ok] at climbs
      exact climbs

/-- The root unit's head is found, works in the root unit and has not departed. -/
theorem ManifestWellFormed.chief {manifest : OrganizationManifest}
    (wellFormed : ManifestWellFormed manifest) :
    ∃ chief person, manifest.chiefPersonId = .ok chief ∧ manifest.people[chief]? = some person ∧
      person.departmentId = manifest.rootDepartmentId ∧ person.employmentState ≠ .departed := by
  obtain ⟨root, found⟩ := BTreeMap.mem_iff_getElem?.mp wellFormed.rootKnown
  obtain ⟨head, isHead, placed, employed⟩ := wellFormed.headPlaced found
  exact ⟨root.headPersonId, head, by simp [OrganizationManifest.chiefPersonId, found], isHead,
    placed, employed⟩

/-! ### A small company -/

/-- A department of the small company. -/
private def smallDepartment (id head : String) (parent : Option String) : DepartmentRecord :=
  { id := id, headPersonId := head, parentDepartmentId := parent, state := .active }

/-- A person of the small company. -/
private def smallPerson (id department : String) (kind : PersonKind) : PersonRecord :=
  { id := id
    kind := kind
    departmentId := department
    employmentState := .active
    createdAt := "2026-07-15T12:00:00.000Z" }

/-- An executive, a department below them, its head and one worker. -/
def smallCompany : OrganizationManifest :=
  { schemaVersion := 1
    kind := "organization"
    slug := "acme"
    name := "Acme"
    rootDepartmentId := "executive"
    departmentOrder := ["executive", "engineering"]
    peopleOrder := ["ceo", "head", "worker"]
    departments := Std.ExtTreeMap.ofList
      [("executive", smallDepartment "executive" "ceo" none),
        ("engineering", smallDepartment "engineering" "head" (some "executive"))]
    people := Std.ExtTreeMap.ofList
      [("ceo", smallPerson "ceo" "executive" .executive),
        ("head", smallPerson "head" "engineering" .head),
        ("worker", smallPerson "worker" "engineering" .worker)]
    createdAt := "2026-07-15T12:00:00.000Z"
    updatedAt := "2026-07-15T12:00:00.000Z" }

theorem smallCompany_valid : validateOrganizationManifest smallCompany = .ok () := by
  decide +kernel

end Chief
