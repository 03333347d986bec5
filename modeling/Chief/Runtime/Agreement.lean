/-
Module: Chief.Runtime.Agreement
Layer: Proofs
Purpose: The runtime's predicate and the store's agree: both walks up the tree answer alike, and the
  roster shows as desired exactly who the reconcile decided to run and who may run.
Trusted boundary: none
Main exports: walks_agree, activeDepartment_eq, headed_eq, isDesiredPerson_eq, roster_agrees
-/
import Chief.Activity.LaunchFence
import Chief.Runtime.Desired

namespace Chief.Runtime

open Foundation
open Activity (ActivityLedger PersonActivityState personIsOperational reconcile ReconcileInput Holds)

section Walks

variable {manifest : OrganizationManifest}

/-- What a walk has passed: units with a unit above them. -/
def Climbed (manifest : OrganizationManifest) (visited : List String) : Prop :=
  ∀ id ∈ visited, ∃ unit, manifest.departments[id]? = some unit ∧ unit.parentDepartmentId ≠ none

theorem getElem?_projectManifest (id : String) :
    (projectManifest manifest).departments[id]? =
      (manifest.departments[id]?).map projectDepartment :=
  BTreeMap.getElem?_map

/-- Where the climb to the root succeeds, the walk that looks out for cycles and the one that does not
give the same answer. -/
theorem walks_agree (wellFormed : ManifestWellFormed manifest) {fuel : Nat} :
    ∀ {visited : List String} {cursor top : DepartmentRecord},
      manifest.departments[cursor.id]? = some cursor → Climbed manifest visited →
      climbToRoot manifest fuel visited cursor = .ok top →
      ∃ stopped, stoppedAncestorFrom manifest fuel visited cursor = .ok stopped ∧
        activeDepartmentFrom (projectManifest manifest) (fuel + 1)
          (some (projectDepartment cursor)) = some stopped.isNone := by
  induction fuel with
  | zero =>
      intro visited cursor top _ _ climbed
      cases climbed
  | succ fuel inductionHypothesis =>
      intro visited cursor top known passed climbed
      have fresh : cursor.id ∉ visited := by
        intro seen
        obtain ⟨unit, found, above⟩ := passed _ seen
        rw [known] at found
        obtain rfl := Option.some.inj found
        cases parent : cursor.parentDepartmentId with
        | none => exact above parent
        | some parentId =>
            rw [climbToRoot, parent] at climbed
            simp [seen] at climbed
      rw [stoppedAncestorFrom, if_neg fresh, activeDepartmentFrom]
      cases state : cursor.state with
      | paused =>
          have paused : (projectDepartment cursor).state ≠ .active := by
            simp [projectDepartment, state, mapDepartmentState]
          rw [if_pos (by decide), if_pos paused]
          exact ⟨some cursor, rfl, rfl⟩
      | active =>
          have running : ¬ (projectDepartment cursor).state ≠ .active := by
            simp [projectDepartment, state, mapDepartmentState]
          rw [if_neg (by decide), if_neg running]
          cases parent : cursor.parentDepartmentId with
          | none =>
              refine ⟨none, rfl, ?_⟩
              simp [projectDepartment, parent, activeDepartmentFrom]
          | some parentId =>
              rw [climbToRoot, parent] at climbed
              simp only [if_neg fresh] at climbed
              simp only [projectDepartment, parent, Option.bind_some, getElem?_projectManifest]
              cases next : manifest.departments[parentId]? with
              | none => exact ⟨none, rfl, rfl⟩
              | some unit =>
                  simp only [next] at climbed
                  have named := wellFormed.departmentId next
                  refine inductionHypothesis (named ▸ next) ?_ climbed
                  intro id member
                  rcases List.mem_cons.mp member with rfl | older
                  · exact ⟨cursor, known, by rw [parent]; simp⟩
                  · exact passed id older

/-- On a valid manifest both layers say the same of every unit, and the runtime's walk returns. -/
theorem activeDepartment_eq (valid : validateOrganizationManifest manifest = .ok ())
    {unitId : String} (known : unitId ∈ manifest.departments) :
    activeDepartment (projectManifest manifest) unitId =
      some (organizationUnitIsActive manifest unitId) := by
  have wellFormed := wellFormed_of_validate valid
  obtain ⟨unit, found⟩ := BTreeMap.mem_iff_getElem?.mp known
  obtain ⟨top, climbs, _⟩ := ancestry_of_validate valid found
  have named := wellFormed.departmentId found
  obtain ⟨stopped, store, runtime⟩ := walks_agree wellFormed (named ▸ found)
    (fun _ impossible => absurd impossible List.not_mem_nil) climbs
  have size : (projectManifest manifest).departments.size = manifest.departments.size :=
    Std.ExtTreeMap.size_map
  rw [activeDepartment, size, getElem?_projectManifest, found, Option.map_some, runtime,
    organizationUnitIsActive, stoppedOrganizationUnitAncestor, found]
  simp only [store]
  cases stopped <;> rfl

end Walks

section Heads

variable {manifest : OrganizationManifest} {personId : String}

/-- A unit headed by `personId` is where they work, so there is at most one. -/
theorem heads_unique (wellFormed : ManifestWellFormed manifest) {id other : String}
    {unit another : DepartmentRecord} (found : manifest.departments[id]? = some unit)
    (found' : manifest.departments[other]? = some another) (heads : unit.headPersonId = personId)
    (heads' : another.headPersonId = personId) : unit = another := by
  obtain ⟨head, known, placed, _⟩ := wellFormed.headPlaced found
  obtain ⟨head', known', placed', _⟩ := wellFormed.headPlaced found'
  rw [heads] at known
  rw [heads', known] at known'
  obtain rfl := Option.some.inj known'
  rw [← placed, placed', found'] at found
  exact (Option.some.inj found).symm

theorem headedDepartment_eq_some (wellFormed : ManifestWellFormed manifest)
    {unit : DepartmentRecord} (headed : manifest.headedDepartment personId = some unit) :
    manifest.departments[unit.id]? = some unit ∧ unit.headPersonId = personId := by
  obtain ⟨id, _, found⟩ := List.mem_filterMap.mp (List.mem_of_find?_eq_some headed)
  have isHead := List.find?_some headed
  rw [wellFormed.departmentId found]
  exact ⟨found, by simpa using isHead⟩

/-- Both layers find the same unit a person heads, whatever order they look in. -/
theorem headed_eq (wellFormed : ManifestWellFormed manifest) (personId : String) :
    headed (projectManifest manifest) personId =
      (manifest.headedDepartment personId).map projectDepartment := by
  have values (department : Department) :
      department ∈ (projectManifest manifest).departments.toList.map Prod.snd ↔
        ∃ (id : String) (unit : DepartmentRecord), manifest.departments[id]? = some unit ∧
          projectDepartment unit = department := by
    rw [List.mem_map]
    constructor
    · rintro ⟨⟨id, department⟩, entry, rfl⟩
      have found := Std.ExtTreeMap.mem_toList_iff_getElem?_eq_some.mp entry
      rw [getElem?_projectManifest] at found
      obtain ⟨unit, stored, same⟩ := Option.map_eq_some_iff.mp found
      exact ⟨id, unit, stored, same⟩
    · rintro ⟨id, unit, stored, rfl⟩
      refine ⟨(id, projectDepartment unit), ?_, rfl⟩
      rw [Std.ExtTreeMap.mem_toList_iff_getElem?_eq_some, getElem?_projectManifest, stored]
      rfl
  cases store : manifest.headedDepartment personId with
  | none =>
      rw [headed, Option.map_none, List.find?_eq_none]
      intro department member isHead
      obtain ⟨id, unit, stored, rfl⟩ := (values department).mp member
      have listed : id ∈ manifest.departmentOrder :=
        (wellFormed.departmentsListed.mem_iff id).mpr (BTreeMap.mem_of_getElem? stored)
      have unseen := List.find?_eq_none.mp store unit (List.mem_filterMap.mpr ⟨id, listed, stored⟩)
      exact unseen isHead
  | some unit =>
      obtain ⟨stored, heads⟩ := headedDepartment_eq_some wellFormed store
      cases runtime : headed (projectManifest manifest) personId with
      | none =>
          have unseen := List.find?_eq_none.mp runtime (projectDepartment unit)
            ((values _).mpr ⟨unit.id, unit, stored, rfl⟩)
          simp [projectDepartment, heads] at unseen
      | some department =>
          obtain ⟨id, another, stored', rfl⟩ :=
            (values department).mp (List.mem_of_find?_eq_some runtime)
          have isHead := List.find?_some runtime
          have same := heads_unique wellFormed stored stored' heads (by simpa [projectDepartment] using isHead)
          rw [same]
          rfl

end Heads

/-! ### The predicate -/

/-- Whether the person's transition still waits for their handoff. -/
def owesHandoff (ledger : ActivityLedger) (personId : String) : Bool :=
  (ledger.activeTransition personId).any fun transition => transition.status.isPending

section Predicate

variable {manifest : OrganizationManifest} {ledger : ActivityLedger} {personId : String}
  {state : PersonActivityState} {person : PersonRecord}

/-- The projected decision of a person the ledger lists. -/
theorem getElem?_projectActivity (nodup : ledger.personOrder.Nodup)
    (listed : personId ∈ ledger.personOrder) (known : ledger.people[personId]? = some state) :
    (projectActivityFromLedger manifest ledger).people[personId]? =
      some { personId := personId
             active := state.lastDesiredActive
             reasons := if owesHandoff ledger personId then [handoffRequiredReason] else [] } := by
  have keys : ((ledger.personOrder.filterMap (projectDecision ledger)).map Prod.fst).Nodup := by
    have sublist : ((ledger.personOrder.filterMap (projectDecision ledger)).map Prod.fst).Sublist
        ledger.personOrder := by
      induction ledger.personOrder with
      | nil => exact .slnil
      | cons id order inductionHypothesis =>
          rw [List.filterMap_cons]
          cases decided : projectDecision ledger id with
          | none => exact inductionHypothesis.cons id
          | some entry =>
              have same : entry.1 = id := by
                unfold projectDecision at decided
                obtain ⟨_, _, rfl⟩ := Option.map_eq_some_iff.mp decided
                rfl
              rw [List.map_cons, same]
              exact inductionHypothesis.cons₂ id
    exact sublist.nodup nodup
  refine BTreeMap.getElem?_ofList_of_mem keys (List.mem_filterMap.mpr ⟨personId, listed, ?_⟩)
  rw [projectDecision, known]
  rfl

/-- The runtime's roster rule is the store's `person_is_operational`. -/
theorem isRosterActive_eq (valid : validateOrganizationManifest manifest = .ok ())
    (known : manifest.people[personId]? = some person)
    (decision : Option PersonActivityDecision) :
    isRosterActive (projectManifest manifest) (projectPerson person) decision =
      some (personIsOperational manifest personId && decision.all PersonActivityDecision.active) := by
  have wellFormed := wellFormed_of_validate valid
  have named := wellFormed.personId known
  have home := activeDepartment_eq valid (wellFormed.personPlaced known)
  have employed : (projectPerson person).employmentState = .active ↔
      person.employmentState = .active := by
    cases state : person.employmentState <;> simp [projectPerson, state, mapEmployment]
  rw [isRosterActive, show (projectPerson person).departmentId = person.departmentId from rfl, home,
    show (projectPerson person).id = person.id from rfl, named, headed_eq wellFormed]
  simp only [personIsOperational, known, Option.bind_eq_bind, Option.bind_some, ne_eq, employed]
  by_cases placed : organizationUnitIsActive manifest person.departmentId = false
  · simp [placed]
  · by_cases active : person.employmentState = .active
    · cases store : manifest.headedDepartment personId with
      | none => simp [placed, active]
      | some unit =>
          obtain ⟨stored, _⟩ := headedDepartment_eq_some wellFormed store
          have agreed := activeDepartment_eq valid (BTreeMap.mem_of_getElem? stored)
          have same : (projectDepartment unit).id = unit.id := rfl
          simp only [Option.map_some, same, agreed]
          by_cases running : organizationUnitIsActive manifest unit.id = false
          · simp [placed, active, running]
          · simp [placed, active, running]
    · simp [placed, active]

theorem isDesiredPerson_eq (valid : validateOrganizationManifest manifest = .ok ())
    (nodup : ledger.personOrder.Nodup) (listed : personId ∈ ledger.personOrder)
    (known : manifest.people[personId]? = some person)
    (stored : ledger.people[personId]? = some state) :
    isDesiredPerson (projectManifest manifest) (projectPerson person)
        (projectActivityFromLedger manifest ledger) =
      some (state.lastDesiredActive &&
        (owesHandoff ledger personId || personIsOperational manifest personId)) := by
  have named := (wellFormed_of_validate valid).personId known
  rw [isDesiredPerson, show (projectPerson person).id = person.id from rfl, named,
    getElem?_projectActivity nodup listed stored]
  cases owes : owesHandoff ledger personId with
  | true =>
      have retained : PersonActivityDecision.isHandoffRequired
          { personId := personId
            active := state.lastDesiredActive
            reasons := [handoffRequiredReason] } = true := by
        simp [PersonActivityDecision.isHandoffRequired]
      simp [Option.filter, retained]
  | false =>
      have released : PersonActivityDecision.isHandoffRequired
          { personId := personId
            active := state.lastDesiredActive
            reasons := [] } = false := rfl
      simp [Option.filter, released, isRosterActive_eq valid known, Bool.and_comm]

end Predicate

/-! ### The roster -/

section Roster

variable {manifest : OrganizationManifest}

theorem rosterEntry_eq {entry : String × Nat} {person : PersonRecord}
    (known : manifest.people[entry.1]? = some person) :
    rosterEntry manifest entry = some
      { id := entry.1
        order := entry.2
        person := person
        planned := projectPerson person } := by
  have planned : (projectManifest manifest).people[entry.1]? = some (projectPerson person) := by
    rw [projectManifest, BTreeMap.getElem?_map, known]
    rfl
  rw [rosterEntry, known, planned]
  rfl

/-- The entries of the roster are the people of the order, each with their record. -/
theorem rosterEntries_spec {order : List String} (start : Nat)
    (listed : ∀ id ∈ order, ∃ person, manifest.people[id]? = some person) :
    ((order.zipIdx start).filterMap (rosterEntry manifest)).map RosterEntry.id = order ∧
      ∀ entry ∈ (order.zipIdx start).filterMap (rosterEntry manifest),
        manifest.people[entry.id]? = some entry.person ∧
          entry.planned = projectPerson entry.person := by
  induction order generalizing start with
  | nil => exact ⟨rfl, fun _ impossible => absurd impossible List.not_mem_nil⟩
  | cons id order inductionHypothesis =>
      obtain ⟨person, known⟩ := listed id List.mem_cons_self
      obtain ⟨ids, entries⟩ := inductionHypothesis (start + 1)
        fun id member => listed id (List.mem_cons_of_mem _ member)
      have here : rosterEntry manifest (id, start) = some _ := rosterEntry_eq known
      rw [List.zipIdx_cons, List.filterMap_cons, here]
      refine ⟨congrArg (id :: ·) ids, fun entry member => ?_⟩
      rcases List.mem_cons.mp member with rfl | later
      · exact ⟨known, rfl⟩
      · exact entries entry later

/-- A loop over options that finds something everywhere collects it in order. -/
theorem mapM_eq_map {α β : Type} {f : α → Option β} {g : α → β} {l : List α}
    (found : ∀ a ∈ l, f a = some (g a)) : l.mapM f = some (l.map g) := by
  induction l with
  | nil => rfl
  | cons a l inductionHypothesis =>
      rw [List.mapM_cons, found a List.mem_cons_self,
        inductionHypothesis fun b member => found b (List.mem_cons_of_mem a member)]
      rfl

/-- The roster entry of a person whose decision to run is `desired`. -/
def publishedPerson (manifest : OrganizationManifest) (desired : String → Bool)
    (entry : RosterEntry) : RosterPerson :=
  { id := entry.person.id
    displayName := entry.person.name
    title := entry.person.title
    departmentId := entry.person.departmentId
    isHeadOf := (manifest.headedDepartment entry.id).map DepartmentRecord.id
    displayOrder := entry.order
    desiredActive := desired entry.id
    employmentState := employmentStateText entry.person.employmentState }

/-- The roster agrees with the reconcile that committed the ledger: it returns, it lists everybody in the
order of the manifest, and it shows a person as desired exactly when the reconcile decided to run them
and they owe a handoff or the store lets them run. -/
theorem roster_agrees {ledgers ledgers' : Ledgers} {supervision : SupervisionLedger}
    {input : ReconcileInput} {snapshot : Activity.ActivitySnapshot}
    (valid : validateOrganizationManifest manifest = .ok ())
    (ran : reconcile ledgers manifest supervision input = .ok (snapshot, ledgers')) :
    ∃ published roster, Holds ledgers' published ∧
      projectDesiredRoster manifest (some published) = some roster ∧
      roster.people.map RosterPerson.id = manifest.peopleOrder ∧
      ∀ person ∈ roster.people, ∃ decision, snapshot.people[person.id]? = some decision ∧
        (person.desiredActive = true ↔ decision.active = true ∧
          (owesHandoff published person.id = true ∨
            personIsOperational manifest person.id = true)) := by
  have wellFormed := wellFormed_of_validate valid
  obtain ⟨chief, published, _, holds, order, _, decides⟩ := Activity.reconcile_decides valid ran
  have nodup : published.personOrder.Nodup := order ▸ wellFormed.peopleListed.nodup
  have known : ∀ id ∈ manifest.peopleOrder, ∃ person, manifest.people[id]? = some person :=
    fun id member =>
      BTreeMap.mem_iff_getElem?.mp ((wellFormed.peopleListed.mem_iff id).mp member)
  obtain ⟨ids, entries⟩ := rosterEntries_spec 0 known
  -- What the runtime decides for each person, read off the reconcile's decisions.
  let desired (id : String) : Bool :=
    (published.people[id]?).any (fun state => state.lastDesiredActive) &&
      (owesHandoff published id || personIsOperational manifest id)
  have each : ∀ entry ∈ rosterEntries manifest,
      rosterPerson manifest (projectActivityFromLedger manifest published) entry =
        some (publishedPerson manifest desired entry) := by
    intro entry member
    obtain ⟨found, planned⟩ := entries entry member
    have listed : entry.id ∈ manifest.peopleOrder := ids ▸ List.mem_map_of_mem member
    obtain ⟨_, state, _, stored, _⟩ := (decides entry.id).2 listed
    have runs := isDesiredPerson_eq valid nodup (order ▸ listed) found stored
    rw [rosterPerson, planned, runs]
    have wants : desired entry.id = (state.lastDesiredActive &&
        (owesHandoff published entry.id || personIsOperational manifest entry.id)) := by
      show ((published.people[entry.id]?).any _ && _) = _
      rw [stored]
      rfl
    rw [publishedPerson, wants]
    rfl
  have collected := mapM_eq_map each
  have projected : projectDesiredRoster manifest (some published) = some
      { slug := manifest.slug
        displayName := manifest.name
        rootDepartmentId := manifest.rootDepartmentId
        departments := manifest.departmentOrder.zipIdx.filterMap (rosterDepartment manifest)
        people := (rosterEntries manifest).map (publishedPerson manifest desired) } := by
    rw [projectDesiredRoster, collected]
    rfl
  have named : ∀ entry ∈ rosterEntries manifest,
      (publishedPerson manifest desired entry).id = entry.id :=
    fun entry member => wellFormed.personId (entries entry member).1
  refine ⟨published, _, holds, projected, ?_, fun person member => ?_⟩
  · rw [List.map_map]
    exact (List.map_congr_left named).trans ids
  · obtain ⟨entry, here, rfl⟩ := List.mem_map.mp member
    have listed : entry.id ∈ manifest.peopleOrder := ids ▸ List.mem_map_of_mem here
    obtain ⟨decision, state, decided, stored, made⟩ := (decides entry.id).2 listed
    rw [named entry here]
    refine ⟨decision, decided, ?_⟩
    show desired entry.id = true ↔ _
    simp only [desired, stored, Option.any_some, Bool.and_eq_true, Bool.or_eq_true, made.durable]

/-- On its first day the small company's roster agrees with its first reconcile. -/
theorem roster_agrees_first_day : ∃ snapshot ledgers' published roster,
    reconcile Activity.firstDayLedgers smallCompany (SupervisionLedger.initial smallCompany "")
      Activity.plainReconcile = .ok (snapshot, ledgers') ∧ Holds ledgers' published ∧
      projectDesiredRoster smallCompany (some published) = some roster ∧
      roster.people.map RosterPerson.id = smallCompany.peopleOrder ∧
      ∀ person ∈ roster.people, ∃ decision, snapshot.people[person.id]? = some decision ∧
        (person.desiredActive = true ↔ decision.active = true ∧
          (owesHandoff published person.id = true ∨
            personIsOperational smallCompany person.id = true)) := by
  have passes : (reconcile Activity.firstDayLedgers smallCompany
      (SupervisionLedger.initial smallCompany "") Activity.plainReconcile).toOption.any
        (fun _ => true) = true := by
    decide +kernel
  obtain ⟨⟨snapshot, ledgers'⟩, ran, _⟩ := any_toOption.mp passes
  obtain ⟨published, roster, holds, agrees⟩ := roster_agrees smallCompany_valid ran
  exact ⟨snapshot, ledgers', published, roster, ran, holds, agrees⟩

end Roster

end Chief.Runtime
