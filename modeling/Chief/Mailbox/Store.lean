/-
Module: Chief.Mailbox.Store
Layer: Model
Purpose: The durable per-recipient mailbox: staging an envelope once per recipient, and moving a pending
  row into its terminal bucket.
Trusted boundary: human-reviewed translation
Main exports: MailboxState, rowId, enqueue, archive, WellKeyed, enqueue_keeps, enqueue_written
-/
import Chief.Ledgers

namespace Chief.Mailbox

open Foundation

/-- Schema version of a durable envelope. -/
def mailboxEnvelopeSchemaVersion : Nat := 1

/-- The lifecycle bucket of a durable envelope. -/
inductive MailboxState where
  | pending
  | delivered
  | accepted
  | superseded
  | rejected
  | resolved
deriving DecidableEq, Repr

namespace MailboxState

/-- The stored spelling. -/
def asStr : MailboxState → String
  | .pending => "pending"
  | .delivered => "delivered"
  | .accepted => "accepted"
  | .superseded => "superseded"
  | .rejected => "rejected"
  | .resolved => "resolved"

/-- Parse the stored spelling. Unknown text is never a default. -/
def parse (raw : String) : Option MailboxState :=
  if raw = "pending" then some .pending
  else if raw = "delivered" then some .delivered
  else if raw = "accepted" then some .accepted
  else if raw = "superseded" then some .superseded
  else if raw = "rejected" then some .rejected
  else if raw = "resolved" then some .resolved
  else none

/-- Whether this bucket is an archive. -/
def isTerminal (state : MailboxState) : Bool := state ≠ .pending

theorem parse_asStr (state : MailboxState) : parse state.asStr = some state := by
  cases state <;> rfl

end MailboxState

/-- The key of the row of one recipient: a function of the envelope id and the recipient alone. -/
def rowId (envelope : MailboxEnvelope) (person : String) : String := s!"{envelope.id}@{person}"

/-- Replace one mailbox row. -/
def putMailbox (ledgers : Ledgers) (id : String) (row : MailboxRow) : Ledgers :=
  { ledgers with mailbox := ledgers.mailbox.insert id row }

/-- Whether a row awaits its recipient. -/
def isPending (row : MailboxRow) : Bool := MailboxState.parse row.state = some .pending

/-- The row a staging writes. -/
def pendingRow (envelope : MailboxEnvelope) (person : String) (now : Int) : MailboxRow :=
  { person := person
    envelope := envelope
    state := MailboxState.pending.asStr
    updatedAt := now }

/-- Stage the envelope for one recipient: a row that is there stays exactly as it is. -/
def enqueueFor (envelope : MailboxEnvelope) (s : List String × Ledgers) (person : String) :
    List String × Ledgers :=
  match s.2.mailbox[rowId envelope person]? with
  | some row => (if isPending row then s.1 ++ [person] else s.1, s.2)
  | none =>
      (s.1 ++ [person],
        putMailbox s.2 (rowId envelope person) (pendingRow envelope person s.2.now))

/-- The distinct recipients of an envelope, in order. -/
def recipientsOf (envelope : MailboxEnvelope) : List String :=
  (Std.ExtTreeSet.ofList envelope.recipients : BTreeSet).toList

/-- Stage an envelope into each recipient's mailbox, and say whose row is now pending. The source's
failure to encode an envelope has no counterpart: an envelope is stored as it is. -/
def enqueue (ledgers : Ledgers) (envelope : MailboxEnvelope) : List String × Ledgers :=
  (recipientsOf envelope).foldl (enqueueFor envelope) ([], ledgers)

/-- Move one row from pending to a terminal bucket, and say whether it moved. -/
def archive (ledgers : Ledgers) (envelopeRowId : String) (bucket : MailboxState) : Bool × Ledgers :=
  if bucket.isTerminal = false then (false, ledgers)
  else
    match ledgers.mailbox[envelopeRowId]? with
    | none => (false, ledgers)
    | some row =>
        if isPending row then
          (true, putMailbox ledgers envelopeRowId
            { row with state := bucket.asStr, updatedAt := ledgers.now })
        else (false, ledgers)

/-! ### What a staging does to the rows -/

section Staging

variable {envelope : MailboxEnvelope} {ledgers ledgers' : Ledgers} {id person : String}
  {row : MailboxRow}

theorem mem_recipientsOf : person ∈ recipientsOf envelope ↔ person ∈ envelope.recipients := by
  rw [recipientsOf, Std.ExtTreeSet.mem_toList]
  simp

/-- Every row lies under the key of its envelope and its person. -/
def WellKeyed (ledgers : Ledgers) : Prop :=
  ∀ (id : String) (row : MailboxRow), ledgers.mailbox[id]? = some row →
    id = rowId row.envelope row.person

/-- Rows under well-formed keys are told apart by their envelope and their person. -/
theorem WellKeyed.unique (keyed : WellKeyed ledgers) {a b : String} {one other : MailboxRow}
    (first : ledgers.mailbox[a]? = some one) (second : ledgers.mailbox[b]? = some other)
    (sameId : one.envelope.id = other.envelope.id) (samePerson : one.person = other.person) :
    a = b ∧ one = other := by
  have same : a = b := by
    rw [keyed a one first, keyed b other second, rowId, rowId, sameId, samePerson]
  subst same
  exact ⟨rfl, Option.some.inj (first.symm.trans second)⟩

/-- What staging for one recipient leaves under a key. -/
theorem enqueueFor_mailbox (s : List String × Ledgers) :
    (enqueueFor envelope s person).2.mailbox[id]? =
      if rowId envelope person = id ∧ s.2.mailbox[id]? = none then
        some (pendingRow envelope person s.2.now)
      else s.2.mailbox[id]? := by
  unfold enqueueFor
  cases found : s.2.mailbox[rowId envelope person]? with
  | some row =>
      dsimp only
      by_cases here : rowId envelope person = id
      · subst here
        simp [found]
      · simp [here]
  | none =>
      dsimp only
      rw [putMailbox, BTreeMap.getElem?_insert]
      by_cases here : rowId envelope person = id
      · subst here
        simp [found]
      · simp [here]

theorem enqueueFor_now (s : List String × Ledgers) :
    (enqueueFor envelope s person).2.now = s.2.now := by
  unfold enqueueFor
  split <;> rfl

/-- Staging touches nothing but the mailbox. -/
theorem enqueue_effects (ledgers : Ledgers) (envelope : MailboxEnvelope) :
    (enqueue ledgers envelope).2.effects = ledgers.effects ∧
      (enqueue ledgers envelope).2.now = ledgers.now := by
  refine foldl_invariant (fun s : List String × Ledgers =>
    s.2.effects = ledgers.effects ∧ s.2.now = ledgers.now) (fun s person _ same => ?_) ⟨rfl, rfl⟩
  unfold enqueueFor
  split <;> exact same

/-- A row that is there survives every staging as it is. -/
theorem enqueue_keeps (envelope : MailboxEnvelope)
    (found : ledgers.mailbox[id]? = some row) :
    (enqueue ledgers envelope).2.mailbox[id]? = some row := by
  refine foldl_invariant (fun s : List String × Ledgers => s.2.mailbox[id]? = some row)
    (fun s person _ kept => ?_) found
  rw [enqueueFor_mailbox, if_neg (by simp [kept]), kept]

/-- A row that was not there is the pending row of a recipient, under its key. -/
theorem enqueue_new (absent : ledgers.mailbox[id]? = none)
    (found : (enqueue ledgers envelope).2.mailbox[id]? = some row) :
    ∃ person ∈ envelope.recipients, id = rowId envelope person ∧
      row = pendingRow envelope person ledgers.now := by
  have passed : (enqueue ledgers envelope).2.now = ledgers.now ∧
      ((enqueue ledgers envelope).2.mailbox[id]? = none ∨ ∃ person ∈ envelope.recipients,
        id = rowId envelope person ∧ (enqueue ledgers envelope).2.mailbox[id]? =
          some (pendingRow envelope person ledgers.now)) := by
    refine foldl_invariant (fun s : List String × Ledgers => s.2.now = ledgers.now ∧
      (s.2.mailbox[id]? = none ∨ ∃ person ∈ envelope.recipients, id = rowId envelope person ∧
        s.2.mailbox[id]? = some (pendingRow envelope person ledgers.now)))
      (fun s person member held => ?_) ⟨rfl, .inl absent⟩
    obtain ⟨now, held⟩ := held
    refine ⟨(enqueueFor_now s).trans now, ?_⟩
    rw [enqueueFor_mailbox]
    rcases held with nothing | ⟨earlier, listed, key, there⟩
    · by_cases here : rowId envelope person = id
      · rw [if_pos ⟨here, nothing⟩, now]
        exact .inr ⟨person, mem_recipientsOf.mp member, here.symm, rfl⟩
      · rw [if_neg fun both => here both.1]
        exact .inl nothing
    · rw [if_neg fun both => by simp [there] at both]
      exact .inr ⟨earlier, listed, key, there⟩
  rcases passed.2 with nothing | ⟨person, listed, key, there⟩
  · rw [nothing] at found
    cases found
  · rw [there] at found
    exact ⟨person, listed, key, (Option.some.inj found).symm⟩

/-- After a staging every recipient has a row under its key. -/
theorem enqueue_written (listed : person ∈ envelope.recipients) :
    ∃ row, (enqueue ledgers envelope).2.mailbox[rowId envelope person]? = some row := by
  have member := mem_recipientsOf.mpr listed
  obtain ⟨before, after, split⟩ := List.append_of_mem member
  unfold enqueue
  rw [split, List.foldl_append, List.foldl_cons]
  have written : ∃ row, (enqueueFor envelope (before.foldl (enqueueFor envelope) ([], ledgers))
      person).2.mailbox[rowId envelope person]? = some row := by
    rw [enqueueFor_mailbox]
    cases found : (before.foldl (enqueueFor envelope)
        ([], ledgers)).2.mailbox[rowId envelope person]? with
    | none => exact ⟨_, if_pos ⟨rfl, rfl⟩⟩
    | some row => exact ⟨row, if_neg (by simp)⟩
  refine foldl_invariant (fun s : List String × Ledgers =>
    ∃ row, s.2.mailbox[rowId envelope person]? = some row) (fun s other _ held => ?_) written
  obtain ⟨row, there⟩ := held
  exact ⟨row, by rw [enqueueFor_mailbox, if_neg (by simp [there]), there]⟩

theorem enqueue_wellKeyed (keyed : WellKeyed ledgers) (envelope : MailboxEnvelope) :
    WellKeyed (enqueue ledgers envelope).2 := by
  intro id row found
  cases before : ledgers.mailbox[id]? with
  | none =>
      obtain ⟨person, _, key, rfl⟩ := enqueue_new before found
      exact key
  | some earlier =>
      rw [enqueue_keeps envelope before] at found
      obtain rfl := Option.some.inj found
      exact keyed id earlier before

end Staging

end Chief.Mailbox
