/-
Module: Chief.Activity.LaunchFence
Layer: Proofs
Purpose: A reconcile decides everybody in the manifest exactly once, records each decision as the
  person's durable desired state, and runs nobody the launch fence does not admit.
Trusted boundary: none
Main exports: decisions_durable, reconcile_decides, Fenced, reconcile_fenced
-/
import Chief.Activity.Validity

namespace Chief.Activity

open Foundation ActivityLedger

section Loop

variable {pass : Pass} {s : ReconcileState} {personId q : String} {state : PersonActivityState}
  {person : PersonRecord}

/-- The match writes nobody else's state. -/
theorem settledVerdict_people_other {structural : Option StructuralTransition} {lease : Bool}
    {verdict : Verdict} (other : q ≠ personId) :
    (settledVerdict pass s personId structural lease verdict).draft.people[q]? =
      verdict.draft.people[q]? := by
  unfold settledVerdict
  split
  · rfl
  · cases s.draft.activeTransition personId with
    | none => rfl
    | some current =>
        cases structural with
        | some structural =>
            simp only
            split
            · unfold settleStructural
              simp only
              split
              · rw [people_modifyPerson, if_neg other.symm, people_modifyTransition]
              · rfl
            · rfl
        | none =>
            simp only [settlePointer]
            split
            · rfl
            · split <;> rfl

theorem decidedDraft_people_other (other : q ≠ personId) :
    (decidedDraft pass s personId state person).people[q]? = s.draft.people[q]? := by
  unfold decidedDraft
  rw [people_modifyPerson, if_neg other.symm]
  exact settledVerdict_people_other other

/-- A decision is durable, and active only for a person the fence admits. -/
structure DecidedFor (pass : Pass) (personId : String) (decision : PersonActivityDecision)
    (state : PersonActivityState) : Prop where
  named : decision.personId = personId
  durable : state.lastDesiredActive = decision.active
  fenced : decision.active = true → pass.admits personId = true

/-- The decision loop decides everybody it names once and leaves the decision in their state. -/
theorem decisions_durable {start s' : ReconcileState} {l : List String}
    {decisions : BTreeMap PersonActivityDecision} (nodup : l.Nodup) (named : Named start.draft)
    (run : l.foldlM (decisionStep pass) (start, ∅) = .ok (s', decisions)) (p : String) :
    (p ∉ l → decisions[p]? = none) ∧
      (p ∈ l → ∃ decision state, decisions[p]? = some decision ∧
        s'.draft.people[p]? = some state ∧ DecidedFor pass p decision state) := by
  obtain ⟨_, visits⟩ := foldlM_visit
    (fun s : ReconcileState × BTreeMap PersonActivityDecision => Named s.1.draft) (fun _ => True)
    (fun p s => (s.1.draft.people[p]?, s.2[p]?)) (fun _ _ _ _ _ _ => trivial)
    (fun s p _ s' ran _ named _ => by
      obtain ⟨person, state, known, found, rfl⟩ := (decisionStep_eq_ok named).mp ran
      have chain := decidedDraft_edits (fun _ => True) (fun _ => True)
        (False.elim : False → RecordsFit pass.manifest pass.stamp) named trivial state known
      refine ⟨chain.named named, fun q other => ?_⟩
      dsimp only
      rw [decidedDraft_people_other other, BTreeMap.getElem?_insert, if_neg other.symm])
    nodup run named trivial (fun _ _ => rfl)
  refine ⟨fun outside => ?_, fun member => ?_⟩
  · have same := congrArg Prod.snd ((visits p).1 outside)
    exact same.trans (by simp)
  · obtain ⟨s₁, s₂, ran, named₁, _, _, _, kept⟩ := (visits p).2 member
    obtain ⟨person, state, known, found, rfl⟩ := (decisionStep_eq_ok named₁).mp ran
    obtain ⟨before, _, left⟩ := decidedDraft_people pass person found
    refine ⟨decisionOn pass s₁.1 p state person, _, ?_, (congrArg Prod.fst kept).trans left, ?_⟩
    · refine (congrArg Prod.snd kept).trans ?_
      simp
    · refine ⟨rfl, by simp, fun active => ?_⟩
      simp only [decisionOn, Bool.and_eq_true] at active
      exact active.2

end Loop

/-- What a reconcile promises about the launch fence and about its decisions. -/
structure Fenced (manifest : OrganizationManifest) (input : ReconcileInput) (chief : String)
    (snapshot : ActivitySnapshot) (published : ActivityLedger) : Prop where
  everybody : ∀ personId, personId ∈ snapshot.people ↔ personId ∈ manifest.people
  durable : ∀ (personId : String) (decision : PersonActivityDecision),
    snapshot.people[personId]? = some decision → decision.personId = personId ∧
      ∃ state, published.people[personId]? = some state ∧
        state.lastDesiredActive = decision.active
  decided : ∀ (personId : String) (state : PersonActivityState),
    published.people[personId]? = some state → ∃ decision,
      snapshot.people[personId]? = some decision ∧ state.lastDesiredActive = decision.active
  active : ∀ (personId : String) (decision : PersonActivityDecision),
    snapshot.people[personId]? = some decision → decision.active = true → personId ≠ chief →
      input.launchIntent.admits personId chief = true
  desired : ∀ (personId : String) (state : PersonActivityState),
    published.people[personId]? = some state → state.lastDesiredActive = true →
      personId ≠ chief → input.launchIntent.admits personId chief = true

/-- A successful reconcile lists the people of the manifest and decides each of them once. -/
theorem reconcile_decides {ledgers ledgers' : Ledgers} {manifest : OrganizationManifest}
    {supervision : SupervisionLedger} {input : ReconcileInput} {snapshot : ActivitySnapshot}
    (manifestValid : validateOrganizationManifest manifest = .ok ())
    (ran : reconcile ledgers manifest supervision input = .ok (snapshot, ledgers')) :
    ∃ chief published, manifest.chiefPersonId = .ok chief ∧ Holds ledgers' published ∧
      published.personOrder = manifest.peopleOrder ∧
      (∀ p, p ∈ published.people ↔ p ∈ manifest.peopleOrder) ∧
      ∀ p, (p ∉ manifest.peopleOrder → snapshot.people[p]? = none) ∧
        (p ∈ manifest.peopleOrder → ∃ decision state, snapshot.people[p]? = some decision ∧
          published.people[p]? = some state ∧
            DecidedFor (passOf chief input (contextOf manifest supervision ledgers.now)
              (isoMillis ledgers.now)) p decision state) := by
  have wellFormed := wellFormed_of_validate manifestValid
  obtain ⟨chief, current, middle, final, published, commit⟩ := reconcile_eq_ok ran
  have run := commit.run
  have repaired := commit.committed.repaired
  have same := commit.committed.records.1
  have named : Named (repairedDraft manifest ledgers.now current) :=
    fun _ _ found => (repaired.transition found).named
  have frame := run.frame named
  have order : middle.draft.personOrder = manifest.peopleOrder :=
    frame.middleOrder.trans (reconcilePeople_order _ _ _)
  have decided := run.decided
  rw [order] at decided
  have visits := decisions_durable wellFormed.peopleListed.nodup frame.middleNamed decided
  refine ⟨chief, published, commit.isChief, commit.after, ?_, fun p => ?_, fun p => ?_⟩
  · have kept : published.personOrder = final.draft.personOrder := by
      rcases commit.committed.published with ⟨rfl, rfl⟩ | ⟨rfl, _⟩ <;> rfl
    rw [kept, frame.order]
    exact reconcilePeople_order _ _ _
  · rw [same, frame.people, ← repaired.people.mem_iff]
    exact iff_of_eq (congrArg (p ∈ ·) (reconcilePeople_order _ _ _))
  · rw [same]
    exact visits p

/-- A successful reconcile decides each person of the manifest once, durably, and runs nobody but the
executive past the fence. -/
theorem reconcile_fenced {ledgers ledgers' : Ledgers} {manifest : OrganizationManifest}
    {supervision : SupervisionLedger} {input : ReconcileInput} {snapshot : ActivitySnapshot}
    (manifestValid : validateOrganizationManifest manifest = .ok ())
    (ran : reconcile ledgers manifest supervision input = .ok (snapshot, ledgers')) :
    ∃ chief published, manifest.chiefPersonId = .ok chief ∧ Holds ledgers' published ∧
      Fenced manifest input chief snapshot published := by
  have wellFormed := wellFormed_of_validate manifestValid
  obtain ⟨chief, published, isChief, after, _, listed, visits⟩ :=
    reconcile_decides manifestValid ran
  refine ⟨chief, published, isChief, after, ?_⟩
  have taken {p : String} {decision : PersonActivityDecision}
      (found : snapshot.people[p]? = some decision) : ∃ state,
        published.people[p]? = some state ∧
          DecidedFor (passOf chief input (contextOf manifest supervision ledgers.now)
            (isoMillis ledgers.now)) p decision state := by
    by_cases member : p ∈ manifest.peopleOrder
    · obtain ⟨decision', state, found', durable, decided⟩ := (visits p).2 member
      rw [found] at found'
      obtain rfl := Option.some.inj found'
      exact ⟨state, durable, decided⟩
    · rw [(visits p).1 member] at found
      cases found
  have given {p : String} {state : PersonActivityState}
      (found : published.people[p]? = some state) : ∃ decision,
        snapshot.people[p]? = some decision ∧
          DecidedFor (passOf chief input (contextOf manifest supervision ledgers.now)
            (isoMillis ledgers.now)) p decision state := by
    obtain ⟨decision, state', found', durable, decided⟩ :=
      (visits p).2 ((listed p).mp (BTreeMap.mem_of_getElem? found))
    rw [found] at durable
    obtain rfl := Option.some.inj durable
    exact ⟨decision, found', decided⟩
  refine
    { everybody := fun p => ?_
      durable := fun p decision found => ?_
      decided := fun p state found => ?_
      active := fun p decision found active other => ?_
      desired := fun p state found desired other => ?_ }
  · rw [← wellFormed.peopleListed.mem_iff]
    constructor
    · intro member
      obtain ⟨decision, found⟩ := BTreeMap.mem_iff_getElem?.mp member
      obtain ⟨state, stored, _⟩ := taken found
      exact (listed p).mp (BTreeMap.mem_of_getElem? stored)
    · intro member
      obtain ⟨decision, _, found, _⟩ := (visits p).2 member
      exact BTreeMap.mem_of_getElem? found
  · obtain ⟨state, stored, decided⟩ := taken found
    exact ⟨decided.named, state, stored, decided.durable⟩
  · obtain ⟨decision, taken, decided⟩ := given found
    exact ⟨decision, taken, decided.durable⟩
  · obtain ⟨state, _, decided⟩ := taken found
    exact decided.fenced active
  · obtain ⟨decision, _, decided⟩ := given found
    exact decided.fenced (decided.durable ▸ desired)

/-- A reconcile of a node that may launch only the head. -/
def headOnly : ReconcileInput :=
  { plainReconcile with launchIntent := .fenced (Std.ExtTreeSet.ofList ["head"]) }

/-- Under a fence that admits only the head, the first reconcile of the company keeps to it. -/
theorem reconcile_fenced_first_day : ∃ snapshot ledgers' chief published,
    reconcile firstDayLedgers smallCompany (SupervisionLedger.initial smallCompany "") headOnly =
      .ok (snapshot, ledgers') ∧ smallCompany.chiefPersonId = .ok chief ∧
      Holds ledgers' published ∧ Fenced smallCompany headOnly chief snapshot published := by
  have ran : (reconcile firstDayLedgers smallCompany
      (SupervisionLedger.initial smallCompany "") headOnly).toOption.isSome = true := by
    decide +kernel
  cases left : reconcile firstDayLedgers smallCompany (SupervisionLedger.initial smallCompany "")
      headOnly with
  | error e =>
      rw [left] at ran
      cases ran
  | ok done =>
      obtain ⟨chief, published, isChief, holds, fenced⟩ :=
        reconcile_fenced smallCompany_valid left
      exact ⟨done.1, done.2, chief, published, rfl, isChief, holds, fenced⟩

end Chief.Activity
