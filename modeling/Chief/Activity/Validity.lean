/-
Module: Chief.Activity.Validity
Layer: Proofs
Purpose: Every operation leaves a ledger that validates again, with fresh transition ids and pointers
  that name live transitions of their own person. The clock, the counter and the quiet instants of the
  ledger bound where this holds.
Trusted boundary: none
Main exports: ClockReadable, Keeps, repairedDraft_valid, operation_keeps
-/
import Chief.Activity.Runs

namespace Chief.Activity

open Foundation ActivityLedger

/-- The instant of an operation, and the deadline of a handoff opened then, are within the years a
timestamp can be read back from. -/
def ClockReadable (now : Int) : Prop := ReadableInstant now ∧ ReadableInstant (now + handoffGraceMs)

instance (now : Int) : Decidable (ClockReadable now) := inferInstanceAs (Decidable (_ ∧ _))

theorem ClockReadable.fits {now : Int} (clock : ClockReadable now) : ClockFits (isoMillis now) :=
  ⟨now, parseIsoMillis_of_readable clock.1, clock.2⟩

/-- What an operation promises about the ledger it leaves. -/
structure Keeps (manifest : OrganizationManifest) (before after : ActivityLedger) : Prop where
  valid : validate after manifest = .ok ()
  distinct : after.transitionOrder.Nodup
  listed : ∀ id, id ∈ after.transitionOrder ↔ id ∈ after.transitions
  counter : before.nextTransitionSequence ≤ after.nextTransitionSequence
  above : ∀ id, id ∈ before.transitions ∨ id ∈ after.transitions → ∃ sequence,
    transitionSequence id = some sequence ∧ sequence < after.nextTransitionSequence
  fresh : ∀ id ∈ after.transitions, id ∉ before.transitions → ∃ sequence,
    transitionSequence id = some sequence ∧ before.nextTransitionSequence ≤ sequence
  pointer : ∀ personId state id, after.people[personId]? = some state →
    state.activeTransitionId = some id → ∃ transition : GracefulTransition,
      after.transitions[id]? = some transition ∧ transition.personId = personId ∧
        transition.status ≠ .cancelled

section

variable {manifest : OrganizationManifest} {supervision : SupervisionLedger}
  {ledger ledger' : ActivityLedger} {op : Operation} {now : Int}

/-- The repaired draft of a valid ledger is valid, in the order of the manifest, and numbers on from
where the ledger stood. -/
theorem repairedDraft_valid (wellFormed : ManifestWellFormed manifest)
    (valid : Valid manifest ledger) (clock : ClockReadable now)
    (small : ledger.nextTransitionSequence ≤ u64Max) :
    Valid manifest (repairedDraft manifest now ledger) ∧
      (repairedDraft manifest now ledger).personOrder = manifest.peopleOrder ∧
      Repaired ledger (repairedDraft manifest now ledger) :=
  ⟨reconcilePeople_valid wellFormed valid clock.fits small, reconcilePeople_order _ _ _,
    reconcilePeople_repaired _ _ _⟩

/-- A repair reads back whatever quiet instants the ledger let it read. -/
theorem quietReadable_repaired {before after : ActivityLedger} (repaired : Repaired before after)
    (quiet : op.QuietReadable now before) : op.QuietReadable now after := by
  cases op with
  | reconcile input =>
      intro personId state found value given
      rcases repaired.state found with ⟨s, here, reports, _⟩ | ⟨reports, _⟩
      · refine quiet here value ?_
        simp only [PersonActivityState.reports, Prod.mk.injEq] at reports
        rw [agentQuietSince, reports.2.1, reports.2.2] at given
        exact given
      · simp only [PersonActivityState.reports, Prod.mk.injEq] at reports
        rw [agentQuietSince, reports.2.1, reports.2.2] at given
        cases given
  | beginTransition | settleAppliedMove | abandonTransition | release | noteAgentActivity |
    applyPointerClears | reconcileStructural => trivial

/-- A body that succeeds within reach of the clock, the counter and the quiet instants is a chain of
edits to a wired and ruled draft. -/
theorem body_leaves (wellFormed : ManifestWellFormed manifest) (valid : Valid manifest ledger)
    (clock : ClockReadable now)
    (room : ledger.nextTransitionSequence + op.mostMinted manifest ≤ u64Max)
    (quiet : op.QuietReadable now ledger)
    (ran : op.body (repairedDraft manifest now ledger) (contextOf manifest supervision now)
      (isoMillis now) = .ok ledger') :
    (∃ n, Edits (anyScope manifest (isoMillis now) True) n (repairedDraft manifest now ledger)
      ledger') ∧ Wired ledger' ∧ Ruled manifest ledger' := by
  obtain ⟨draftValid, order, repaired⟩ := repairedDraft_valid wellFormed valid clock (by omega)
  have next := repaired.next
  have small : (repairedDraft manifest now ledger).nextTransitionSequence ≤ u64Max := by omega
  have wiring := draftValid.wired small
  have records : True → RecordsFit manifest (isoMillis now) := fun _ => ⟨clock.fits, wellFormed⟩
  obtain ⟨n, bounded, edits⟩ := Operation.body_edits wiring.named order records
    (fun _ => quietReadable_repaired repaired quiet) ran
  have bounded : n ≤ op.mostMinted manifest := bounded
  exact ⟨⟨n, edits⟩, edits.wired wiring (by omega), edits.ruled draftValid.ruled trivial⟩

end

/-! ### A company at work -/

/-- Noon of a day in July 2026. -/
def noon : Int := 1784116800000

/-- The small company on its first day, with its worker up and a quiet instant on record. -/
def firstDay (quietAt : Option String) : ActivityLedger :=
  (ActivityLedger.initial smallCompany (isoMillis noon)).modifyPerson "worker" fun state =>
    { state with lastDesiredActive := true, agentQuietAt := quietAt }

/-- The working set on the company's first day. -/
def firstDayLedgers : Ledgers := { now := noon, activity := some (.decoded (firstDay none)) }

/-- The working set of the small company as it is founded. -/
def foundedLedgers : Ledgers :=
  { now := noon, activity := some (.decoded (ActivityLedger.initial smallCompany (isoMillis noon))) }

/-- A call at noon on the small company. -/
def atNoon (op : Operation) : Call :=
  { op := op
    now := noon
    manifest := smallCompany
    supervision := SupervisionLedger.initial smallCompany "" }

/-- A reconcile of an unfenced node that asks for nobody. -/
def plainReconcile : ReconcileInput :=
  { launchIntent := .unfenced, requestedPersonIds := [], watchingSince := isoMillis noon }

/-- What a reconcile of the first day leaves. -/
def firstReconcile (quietAt : Option String) : Except ChiefdError ActivityLedger :=
  (Operation.reconcile plainReconcile).body
    (repairedDraft smallCompany noon (firstDay quietAt))
    (contextOf smallCompany (SupervisionLedger.initial smallCompany "") noon) (isoMillis noon)

end Chief.Activity
