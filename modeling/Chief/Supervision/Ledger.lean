/-
Module: Chief.Supervision.Ledger
Layer: Model
Purpose: The records of the supervision store: armed reminders and the durable effect outbox.
Trusted boundary: human-reviewed translation
Main exports: JsonValue, EffectStatus, Effect, Reminder, SupervisionDocument, SupervisionLedger
-/
import Chief.Foundation.BTreeMap
import Chief.Organization.Manifest
import Chief.Isotime

namespace Chief

open Foundation

/-- Schema version of the supervision document. -/
def supervisionSchemaVersion : Nat := 2

/-- A payload value. Compound values and numbers that are not integers are kept as their canonical
encoding: no modelled function looks inside them. -/
inductive JsonValue where
  | null
  | bool (value : Bool)
  | number (value : Int)
  | text (value : String)
  | other (encoding : String)
deriving DecidableEq, Repr

/-- The value as a string, if it is one. -/
def JsonValue.asStr : JsonValue → Option String
  | .text value => some value
  | _ => none

/-- Where an effect is in its life. -/
inductive EffectStatus where
  | pending
  | delivered
  | superseded
  | failed
deriving DecidableEq, Repr

/-- One durable effect. -/
structure Effect where
  id : String
  sequence : Nat
  kind : String
  status : EffectStatus
  createdAt : String
  deliveredAt : Option String := none
  supersededAt : Option String := none
  deliveryFailureCount : Option Nat := none
  lastDeliveryFailureAt : Option String := none
  failedAt : Option String := none
  reopenCount : Option Nat := none
  lastReopenedAt : Option String := none
  payload : BTreeMap JsonValue
deriving DecidableEq

/-- A durable reminder. `status` is `active` or `stopped`. -/
structure Reminder where
  id : String
  personId : String
  createdByPersonId : String
  prompt : String
  intervalMs : Int
  nextDueAt : String
  status : String
  recurring : Bool
  fireCount : Nat := 0
  createdAt : String
  lastFiredAt : Option String := none
  expiresAt : Option String := none
  stoppedReason : Option String := none
  stoppedAt : Option String := none
deriving DecidableEq, Repr

/-- The document half of the ledger, which is what the store serializes. -/
structure SupervisionDocument where
  schemaVersion : Nat
  organization : String
  reminderOrder : List String
  reminders : BTreeMap Reminder
  createdAt : String
  updatedAt : String
deriving DecidableEq

/-- The ledger as its operations see it: the document with the relational half projected in. -/
structure SupervisionLedger extends SupervisionDocument where
  effects : BTreeMap Effect
  effectOrder : List String
  nextEffectSequence : Nat
deriving DecidableEq

/-- The seed ledger for a freshly created company. -/
def SupervisionLedger.initial (manifest : OrganizationManifest) (now : String) :
    SupervisionLedger :=
  { schemaVersion := supervisionSchemaVersion
    organization := manifest.slug
    reminderOrder := []
    reminders := ∅
    createdAt := now
    updatedAt := now
    effects := ∅
    effectOrder := []
    nextEffectSequence := 1 }

end Chief
