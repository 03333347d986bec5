/-
Module: Chief.Mailbox.Delta
Layer: Model
Purpose: The mailbox rows of one company and the delta one caller posts against one person's mailbox:
  who may write what, what is representable, and what is written.
Trusted boundary: human-reviewed translation
Main exports: MailboxRecord, MailboxEntry, authorizeDelta, validateSnapshot, applyDelta, delta
-/
import Chief.Mailbox.Store

namespace Chief.Mailbox

open Foundation

/-! ### Constants -/

def unmodeledKeys : String := "unmodeled-keys"
def mailboxInvalid : String := "mailbox-invalid"
def mailboxDeltaForeignDelete : String := "mailbox-delta-foreign-delete"
def mailboxDeltaNotADelivery : String := "mailbox-delta-not-a-delivery"
def mailboxDeltaPersonMismatch : String := "mailbox-delta-person-mismatch"

/-! ### Rows and entries -/

/-- The columns of one mailbox row. The recipients, the company and the schema version of an envelope
are derived and no columns. -/
structure MailboxRecord where
  id : String
  person : String
  fromPersonId : String
  toPersonId : String
  message : String
  urgency : Urgency
  replyTo : Option String
  healthFingerprint : Option String
  healthKind : Option String
  healthRecipientPersonId : Option String
  createdAt : String
  state : String
  updatedAt : Int
deriving DecidableEq, Repr

/-- The rows of one company under their row ids. -/
abbrev MailboxTable := BTreeMap MailboxRecord

/-- One entry of a delta: an envelope with the row's recipient, bucket and stamp. `extra` lists the keys
the rows have no column for. -/
structure MailboxEntry where
  envelope : MailboxEnvelope
  person : String
  state : String
  updatedAt : Int
  extra : List String := []
deriving DecidableEq, Repr

/-- The row id of an entry. -/
def MailboxEntry.envelopeId (entry : MailboxEntry) : String :=
  s!"{entry.envelope.id}@{entry.person}"

/-- The columns an entry writes. -/
def MailboxEntry.record (entry : MailboxEntry) : MailboxRecord :=
  let envelope := entry.envelope
  { id := envelope.id
    person := entry.person
    fromPersonId := envelope.fromPersonId
    toPersonId := envelope.toPersonId
    message := envelope.body
    urgency := envelope.urgency
    replyTo := envelope.replyTo
    healthFingerprint := envelope.healthIncident.map (·.fingerprint)
    healthKind := envelope.healthIncident.map (·.kind)
    healthRecipientPersonId := envelope.healthIncident.map (·.recipientPersonId)
    createdAt := envelope.createdAt
    state := entry.state
    updatedAt := entry.updatedAt }

/-! ### Who may write what -/

/-- Whether the actor is one of the people of the company. -/
def actorNamesAPerson (people : BTreeSet) (actor : String) : Bool := actor ≠ "" ∧ actor ∈ people

/-- Whether the row of this id is stored, and is this person's. -/
def rowExists (table : MailboxTable) (envelopeId person : String) : Bool :=
  (table[envelopeId]?).any fun row => row.person = person

/-- The rule of one entry: a delivery from the caller, or a row the caller holds in its own mailbox. -/
def authorizeEntry (table : MailboxTable) (person actor : String) (entry : MailboxEntry) :
    Except ChiefdError Unit :=
  Foundation.require (entry.envelope.fromPersonId = actor ∨
      (actor = person ∧ rowExists table entry.envelopeId person = true))
    (refused mailboxDeltaNotADelivery
      s!"caller '{actor}' may write into '{person}'s mailbox only a delivery from itself or a settle of a row it already holds; entry '{entry.envelopeId}' is from '{entry.envelope.fromPersonId}' and no such row exists")

/-- A delta is either consumption or delivery. An actor that names nobody is not judged. -/
def authorizeDelta (table : MailboxTable) (people : BTreeSet) (person : String)
    (upserts : List MailboxEntry) (deletes : List String) (actor : String) :
    Except ChiefdError Unit :=
  if actorNamesAPerson people actor = false then .ok ()
  else do
    match deletes.head? with
    | none => .ok ()
    | some envelopeId =>
        Foundation.require (actor = person)
          (refused mailboxDeltaForeignDelete
            s!"caller '{actor}' may delete only from its own mailbox; '{envelopeId}' is in '{person}'s")
    upserts.forM (authorizeEntry table person actor)

/-! ### What is representable -/

/-- The paths of the keys an entry carries beyond its columns. -/
def unmodeledPaths (entry : MailboxEntry) : List String :=
  entry.extra.map fun key => s!"entries.{entry.envelopeId}.{key}"

/-- Refuse keys the rows cannot store. -/
def rejectUnmodeledKeys (entries : List MailboxEntry) : Except ChiefdError Unit :=
  let paths := (entries.flatMap unmodeledPaths).insertionSort (· ≤ ·)
  let listed := String.intercalate ", " paths
  Foundation.require (paths = [])
    (refused unmodeledKeys
      s!"mailbox carries unmodeled keys the row model cannot store: {listed}")

/-- Check one entry against the row ids already seen. -/
def validateEntry (seen : List String) (entry : MailboxEntry) : Except ChiefdError (List String) := do
  Foundation.require ((MailboxState.parse entry.state).isSome = true)
    (refused mailboxInvalid s!"entry '{entry.envelopeId}' has unknown state '{entry.state}'")
  Foundation.require (¬ (entry.person = "" ∨ entry.envelope.id = ""))
    (refused mailboxInvalid "entry has an empty id or recipient")
  Foundation.require (entry.envelopeId ∉ seen)
    (refused mailboxInvalid s!"duplicate entry '{entry.envelopeId}'")
  .ok (entry.envelopeId :: seen)

/-- Every entry is representable, and no row id comes twice. -/
def validateSnapshot (entries : List MailboxEntry) : Except ChiefdError Unit := do
  let _ ← entries.foldlM validateEntry []
  .ok ()

/-! ### What is written -/

/-- Delete a row of this person's mailbox. -/
def deleteRow (person : String) (table : MailboxTable) (envelopeId : String) : MailboxTable :=
  if rowExists table envelopeId person then table.erase envelopeId else table

/-- Write the row of one entry, over whatever lies under its row id. -/
def upsertEntry (table : MailboxTable) (entry : MailboxEntry) : MailboxTable :=
  table.insert entry.envelopeId entry.record

/-- The deletes of a delta, then its upserts. -/
def applyDelta (table : MailboxTable) (person : String) (upserts : List MailboxEntry)
    (deletes : List String) : MailboxTable :=
  upserts.foldl upsertEntry (deletes.foldl (deleteRow person) table)

/-- Post a delta against one person's mailbox. -/
def delta (table : MailboxTable) (people : BTreeSet) (person : String)
    (upserts : List MailboxEntry) (deletes : List String) (actor : String) :
    Except ChiefdError MailboxTable := do
  upserts.forM fun entry =>
    Foundation.require (entry.person = person)
      (refused mailboxDeltaPersonMismatch
        s!"mailbox delta for '{person}' carries an entry for '{entry.person}'")
  authorizeDelta table people person upserts deletes actor
  rejectUnmodeledKeys upserts
  validateSnapshot upserts
  .ok (applyDelta table person upserts deletes)

/-! ### What a delta writes under a row id -/

section Writing

variable {table : MailboxTable} {person : String} {upserts : List MailboxEntry}
  {deletes : List String} {key : String}

theorem getElem?_deleteRow (envelopeId : String) : (deleteRow person table envelopeId)[key]? =
    if envelopeId = key ∧ rowExists table key person = true then none else table[key]? := by
  unfold deleteRow
  by_cases held : rowExists table envelopeId person = true
  · rw [if_pos held, BTreeMap.getElem?_erase]
    by_cases here : envelopeId = key
    · rw [if_pos here, if_pos ⟨here, here ▸ held⟩]
    · rw [if_neg here, if_neg fun both => here both.1]
  · rw [if_neg held, if_neg]
    rintro ⟨rfl, mine⟩
    exact held mine

/-- The deletes take out the rows of this mailbox they name, and no others. -/
theorem getElem?_deletes : (deletes.foldl (deleteRow person) table)[key]? =
    if key ∈ deletes ∧ rowExists table key person = true then none else table[key]? := by
  induction deletes generalizing table with
  | nil => simp
  | cons first deletes inductionHypothesis =>
      rw [List.foldl_cons, inductionHypothesis, rowExists, getElem?_deleteRow]
      by_cases taken : first = key ∧ rowExists table key person = true
      · rw [if_pos taken]
        simp [taken.1, taken.2]
      · rw [if_neg taken, ← rowExists]
        by_cases held : rowExists table key person = true
        · have different : key ≠ first := fun same => taken ⟨same.symm, held⟩
          simp [held, different]
        · rw [if_neg fun both => held both.2, if_neg fun both => held both.2]

/-- The upserts leave under a row id the last entry of that id, or what was there. -/
theorem getElem?_upserts : (upserts.foldl upsertEntry table)[key]? = table[key]? ∧
      (∀ entry ∈ upserts, entry.envelopeId ≠ key) ∨
    ∃ entry ∈ upserts, entry.envelopeId = key ∧
      (upserts.foldl upsertEntry table)[key]? = some entry.record := by
  induction upserts generalizing table with
  | nil => exact .inl ⟨rfl, fun _ impossible => by cases impossible⟩
  | cons first upserts inductionHypothesis =>
      rw [List.foldl_cons]
      rcases @inductionHypothesis (upsertEntry table first) with ⟨same, others⟩ | later
      · rw [same, upsertEntry, BTreeMap.getElem?_insert]
        by_cases here : first.envelopeId = key
        · exact .inr ⟨first, List.mem_cons_self, here, if_pos here⟩
        · refine .inl ⟨if_neg here, ?_⟩
          intro entry member
          rcases List.mem_cons.mp member with rfl | rest
          · exact here
          · exact others entry rest
      · obtain ⟨entry, member, here, written⟩ := later
        exact .inr ⟨entry, List.mem_cons_of_mem first member, here, written⟩

end Writing

end Chief.Mailbox
