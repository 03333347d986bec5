/-
Module: Chief.Ledgers
Layer: Model
Purpose: The working set one commit reads and writes: the stored documents of the modelled stores and
  the relational rows beside them.
Trusted boundary: human-reviewed translation
Main exports: DocumentBody, EffectRow, MailboxEnvelope, MailboxRow, HostActionRecord, Ledgers,
  Ledgers.effectOrder, validateNonDocuments
-/
import Chief.Activity.Ledger
import Chief.Supervision.Ledger
import Mathlib.Data.List.Sort

namespace Chief

open Foundation

/-- A stored body: bytes that do not decode, or the value they decode to. Encoding a value and
decoding it again is the identity. -/
inductive DocumentBody (α : Type) where
  | undecodable
  | decoded (value : α)
deriving DecidableEq

/-- The value a body decodes to. -/
def DocumentBody.value? {α : Type} (body : DocumentBody α) : Option α :=
  match body with
  | .undecodable => none
  | .decoded value => some value

/-- One effect row, the durable form of an effect. -/
structure EffectRow where
  seq : Nat
  kind : String
  body : DocumentBody Effect
  deliveredAt : Option Int := none
deriving DecidableEq

/-- How soon a recipient is to be interrupted. -/
inductive Urgency where
  | normal
  | interrupt
deriving DecidableEq, Repr

/-- The health incident an alert envelope refers to. -/
structure HealthIncidentRef where
  fingerprint : String
  kind : String
  recipientPersonId : String
deriving DecidableEq, Repr

/-- One durable envelope. -/
structure MailboxEnvelope where
  schemaVersion : Nat
  id : String
  organization : String
  fromPersonId : String
  toPersonId : String
  recipients : List String
  body : String
  urgency : Urgency
  replyTo : Option String
  healthIncident : Option HealthIncidentRef
  createdAt : String
deriving DecidableEq, Repr

/-- One mailbox row. -/
structure MailboxRow where
  person : String
  envelope : MailboxEnvelope
  state : String
  updatedAt : Int
deriving DecidableEq, Repr

/-- What the cross-ledger rules read of a host action: its kind, and whether its plan parses to one
JSON object. -/
structure HostActionRecord where
  kind : String
  planIsObject : Bool
deriving DecidableEq, Repr

/-- The counter that names the next effect sequence. -/
def nextEffectSequenceCounter : String := "next_effect_sequence"

/-- The working set of one commit. -/
structure Ledgers where
  now : Int
  activity : Option (DocumentBody Activity.ActivityLedger) := none
  supervision : Option (DocumentBody SupervisionDocument) := none
  hostActions : BTreeMap HostActionRecord := ∅
  effects : BTreeMap EffectRow := ∅
  mailbox : BTreeMap MailboxRow := ∅
  counters : BTreeMap Int := ∅
deriving DecidableEq

namespace Ledgers

/-- A counter that was never written reads as zero. -/
def counter (ledgers : Ledgers) (name : String) : Int := ledgers.counters.getD name 0

def setCounter (ledgers : Ledgers) (name : String) (value : Int) : Ledgers :=
  { ledgers with counters := ledgers.counters.insert name value }

def putEffect (ledgers : Ledgers) (id : String) (row : EffectRow) : Ledgers :=
  { ledgers with effects := ledgers.effects.insert id row }

def removeEffect (ledgers : Ledgers) (id : String) : Ledgers :=
  { ledgers with effects := ledgers.effects.erase id }

/-- The order of effect rows: by sequence, and by id where two sequences agree. -/
def rowBefore (a b : Nat × String) : Prop := a.1 < b.1 ∨ (a.1 = b.1 ∧ a.2 ≤ b.2)

instance : DecidableRel rowBefore := fun _ _ => inferInstanceAs (Decidable (_ ∨ _))

/-- Every effect id, in sequence order. -/
def effectOrder (ledgers : Ledgers) : List String :=
  ((ledgers.effects.toList.map fun entry => (entry.2.seq, entry.1)).insertionSort rowBefore).map
    Prod.snd

/-! ### The rules across stores -/

/-- The rules about one host action. -/
def validateHostAction (actionId : String) (record : HostActionRecord) : Except Refusal Unit := do
  require (record.planIsObject = true)
    { code := "host-action-plan-not-object"
      message := s!"host action '{actionId}' must carry one schema-discriminated JSON object"
      legalRoutes := ["journal a typed host-transaction payload"] }
  require (record.kind ≠ "")
    { code := "host-action-kind-empty", message := s!"host action '{actionId}' has no kind" }

/-- The rules about one mailbox row. -/
def validateMailboxRow (envelopeId : String) (row : MailboxRow) : Except Refusal Unit := do
  require (row.person ≠ "")
    { code := "mailbox-recipient-empty"
      message := s!"mailbox envelope '{envelopeId}' has no recipient" }
  require (row.state ∈ ["pending", "delivered", "accepted", "superseded", "rejected", "resolved"])
    { code := "mailbox-state-unknown"
      message := s!"mailbox envelope '{envelopeId}' has unknown state '{row.state}'" }
  require (row.envelope.id ≠ "")
    { code := "mailbox-envelope-id-empty"
      message := s!"mailbox envelope '{envelopeId}' has an empty logical id" }

/-- Check that an effect row repeats no sequence, and count it in. -/
def countSequence (seen : List Nat) (entry : String × EffectRow) : Except Refusal (List Nat) := do
  require (entry.2.seq ∉ seen)
    { code := "effect-sequence-duplicated"
      message := s!"effect '{entry.1}' reuses sequence {entry.2.seq}" }
  .ok (entry.2.seq :: seen)

/-- The highest of the sequences seen. -/
def highestSequence (seen : List Nat) : Nat := seen.foldl max 0

/-- Every rule that is not about the body of a document. -/
def validateNonDocuments (ledgers : Ledgers) : Except Refusal Unit := do
  ledgers.hostActions.toList.forM fun entry => validateHostAction entry.1 entry.2
  let seen ← ledgers.effects.toList.foldlM countSequence []
  let highest := highestSequence seen
  let next := ledgers.counter nextEffectSequenceCounter
  require (¬ ((ledgers.effects.isEmpty = false ∨ nextEffectSequenceCounter ∈ ledgers.counters) ∧
      next ≤ min (highest : Int) (2 ^ 63 - 1)))
    { code := "effect-sequence-not-monotonic"
      message := s!"{nextEffectSequenceCounter} is {next}, which is not beyond the highest issued sequence {highest}" }
  ledgers.mailbox.toList.forM fun entry => validateMailboxRow entry.1 entry.2

end Ledgers

end Chief
