/-
Module: Chief.Activity.Runs
Layer: Model
Purpose: Runs of the activity store: any sequence of calls, each with its own time and organization,
  where a refused call leaves what it found.
Trusted boundary: human-reviewed translation
Main exports: Call, Call.attempt, InRange, Committed.inRange, runs_hold
-/
import Chief.Activity.Operations
import Chief.Foundation.Runs

namespace Chief.Activity

open Foundation ActivityLedger

/-- One call against the store: what is asked, when, and of which organization. -/
structure Call where
  op : Operation
  now : Int
  manifest : OrganizationManifest
  supervision : SupervisionLedger

/-- The call on a working set, whose clock is the time of the call. -/
def Call.attempt (call : Call) (ledgers : Ledgers) : Except ChiefdError Ledgers :=
  call.op.run { ledgers with now := call.now } call.manifest call.supervision

/-! ### The counter along a run -/

/-- The counter is a `u64`, and its last number is not taken. -/
structure InRange (ledger : ActivityLedger) : Prop where
  small : ledger.nextTransitionSequence ≤ u64Max
  spare : ¬ Exhausted ledger

theorem initial_inRange (manifest : OrganizationManifest) (stamp : String) :
    InRange (ActivityLedger.initial manifest stamp) where
  small := show 1 ≤ u64Max by decide
  spare := by
    rintro ⟨id, member, _⟩
    simp [ActivityLedger.initial] at member

section Committed

variable {op : Operation} {manifest : OrganizationManifest} {supervision : SupervisionLedger}
  {now : Int} {current draft published : ActivityLedger}

/-- What a commit knows about the counter before and after its body. -/
structure CommitRange (manifest : OrganizationManifest) (now : Int)
    (current draft published : ActivityLedger) : Prop where
  wired : Wired (repairedDraft manifest now current)
  spare : ¬ Exhausted draft
  published : InRange published

/-- A commit on a counter in range stays in range. -/
theorem Committed.inRange (committed : Committed op manifest supervision now current draft published)
    (before : InRange current) : CommitRange manifest now current draft published := by
  have repaired := reconcilePeople_repaired current manifest (isoMillis now)
  have next : (repairedDraft manifest now current).nextTransitionSequence =
      current.nextTransitionSequence := repaired.next
  have small : (repairedDraft manifest now current).nextTransitionSequence ≤ u64Max := by
    rw [next]
    exact before.small
  have wiring := committed.repaired.wired small
  have order : (repairedDraft manifest now current).personOrder =
      (contextOf manifest supervision now).manifest.peopleOrder := reconcilePeople_order _ _ _
  obtain ⟨n, _, edits⟩ := Operation.body_edits wiring.named order
    (False.elim : False → RecordsFit manifest (isoMillis now)) False.elim committed.ran
  have grown := edits.next small
  refine ⟨wiring, ?_, ?_⟩
  · rcases committed.published with ⟨_, rfl⟩ | ⟨rfl, valid⟩
    · exact before.spare
    · have wired := valid.wired (show draft.nextTransitionSequence ≤ u64Max by omega)
      exact wired.spare
  · rcases committed.published with ⟨rfl, _⟩ | ⟨rfl, valid⟩
    · exact before
    · have fits : draft.nextTransitionSequence ≤ u64Max := by omega
      exact ⟨fits, (valid.wired (show draft.nextTransitionSequence ≤ u64Max from fits)).spare⟩

end Committed

/-! ### What holds along a run -/

/-- A property of the stored ledger, together with the range of its counter. -/
def StoredSo (holds : ActivityLedger → Prop) (ledgers : Ledgers) : Prop :=
  ∃ ledger, Holds ledgers ledger ∧ InRange ledger ∧ holds ledger

theorem Holds.unique {ledgers : Ledgers} {a b : ActivityLedger} (one : Holds ledgers a)
    (other : Holds ledgers b) : a = b := by
  unfold Holds at one other
  rw [one] at other
  simpa using other

/-- A successful call is a commit on the ledger it found. -/
theorem Call.attempt_eq_ok {call : Call} {ledgers ledgers' : Ledgers} {current : ActivityLedger}
    (stored : Holds ledgers current) (ran : call.attempt ledgers = .ok ledgers') :
    ∃ draft published, Holds ledgers' published ∧
      Committed call.op call.manifest call.supervision call.now current draft published := by
  obtain ⟨current', draft, published, before, after, committed⟩ := Operation.run_eq_ok ran
  have found : Holds ledgers current' := before
  obtain rfl := stored.unique found
  exact ⟨draft, published, after, committed⟩

/-- What every commit of a run keeps, the run keeps. -/
theorem runs_hold {condition : Call → Ledgers → Prop} {calls : List Call} {start : Ledgers}
    (holds : ActivityLedger → Prop)
    (met : Throughout Call.attempt condition calls start)
    (kept : ∀ (call : Call) (ledgers : Ledgers) (current draft published : ActivityLedger),
      condition call ledgers → Holds ledgers current → InRange current →
      Committed call.op call.manifest call.supervision call.now current draft published →
      holds current → holds published)
    (begins : StoredSo holds start) : StoredSo holds (afterRun Call.attempt calls start) := by
  refine met.invariant (StoredSo holds) (fun call ledgers ledgers' meets ran so => ?_) begins
  obtain ⟨current, stored, range, held⟩ := so
  obtain ⟨draft, published, after, committed⟩ := Call.attempt_eq_ok stored ran
  have ranges := committed.inRange range
  exact ⟨published, after, ranges.published,
    kept call ledgers current draft published meets stored range committed held⟩

/-- A run from a fresh ledger always holds a ledger in range. -/
theorem runs_inRange (calls : List Call) {start : Ledgers} {founded : OrganizationManifest}
    {stamp : String} (started : Holds start (ActivityLedger.initial founded stamp)) :
    ∃ ledger, Holds (afterRun Call.attempt calls start) ledger ∧ InRange ledger := by
  obtain ⟨ledger, stored, range, _⟩ := runs_hold (fun _ => True)
    (Throughout.of_forall (fun _ => True) fun _ _ => trivial)
    (fun _ _ _ _ _ _ _ _ _ _ => trivial)
    ⟨_, started, initial_inRange founded stamp, trivial⟩
  exact ⟨ledger, stored, range⟩

end Chief.Activity
