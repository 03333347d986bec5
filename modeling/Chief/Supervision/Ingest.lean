/-
Module: Chief.Supervision.Ingest
Layer: Model
Purpose: Taking in a whole supervision document written elsewhere: its relational half, the repair of a
  lost race for effect sequences, and its publication.
Trusted boundary: human-reviewed translation
Main exports: ExternalDocument, relationalHalf, mergeStale, ingestExternalDocument
-/
import Chief.Supervision.Mutate

namespace Chief.Supervision

open Foundation
open Activity (u64Max)

/-- A body as it parses: the document, and the keys of the relational half beside it, each of which may
be missing or not decode. -/
structure ExternalDocument where
  document : SupervisionDocument
  effectOrder : Option (DocumentBody (List String)) := none
  effects : Option (DocumentBody (BTreeMap Effect)) := none
  nextEffectSequence : Option (DocumentBody Nat) := none

/-- The relational half of a body. -/
structure RelationalHalf where
  effectOrder : List String
  effects : BTreeMap Effect
  nextEffectSequence : Nat

def carriesRelationalHalf (external : ExternalDocument) : Bool :=
  external.effectOrder.isSome || external.effects.isSome

def halfCorrupt : ChiefdError := .corrupt storeName "the relational half did not parse"

/-- A key of the relational half: what it decodes to, or the default where it is missing. -/
def decodeKey {α : Type} (key : Option (DocumentBody α)) (default : α) : Except ChiefdError α :=
  match key with
  | none => .ok default
  | some .undecodable => .error halfCorrupt
  | some (.decoded value) => .ok value

/-- Decode the relational half. A sequence beyond `u64` does not decode. -/
def relationalHalf (external : ExternalDocument) : Except ChiefdError RelationalHalf := do
  let order ← decodeKey external.effectOrder []
  let effects ← decodeKey external.effects ∅
  let next ← decodeKey external.nextEffectSequence 0
  require (next ≤ u64Max ∧ ∀ entry ∈ effects.toList, entry.2.sequence ≤ u64Max) halfCorrupt
  .ok { effectOrder := order, effects := effects, nextEffectSequence := next }

/-! ### Repairing a lost race -/

/-- The source's `ChiefdError::refused(INVALID_INPUT, …)`. -/
def raceRefused (message : String) : ChiefdError := refused invalidInput message

def sequenceExhausted : ChiefdError :=
  raceRefused "ChiefD supervision effect sequence is exhausted; operator repair is required"

/-- Who holds a sequence. -/
def sequenceOwner (current : SupervisionLedger) (sequence : Nat) : Option String :=
  ((current.effects.toList.filter fun entry => entry.2.sequence = sequence).getLast?).map Prod.fst

/-- What the race proves stale: the effects of the store that stay as they are, and the incoming ones
that need another sequence. -/
structure Race where
  kept : List String := []
  resequenced : List String := []

/-- Look at one incoming effect. -/
def classify (current : SupervisionLedger) (race : Race) (entry : String × Effect) :
    Except ChiefdError Race :=
  let owner := sequenceOwner current entry.2.sequence
  match current.effects[entry.1]? with
  | some known =>
      if known.sequence ≠ entry.2.sequence then
        .ok { race with kept := race.kept ++ entry.1 :: owner.toList }
      else .ok race
  | none =>
      match owner with
      | some holder =>
          .ok
            { kept := race.kept ++ [holder]
              resequenced := race.resequenced ++ [entry.1] }
      | none =>
          if entry.2.sequence < current.nextEffectSequence then
            .error (raceRefused
              s!"ChiefD supervision effect '{entry.1}' uses stale sequence {entry.2.sequence} without a live collision; re-read and retry")
          else .ok race

/-- An effect outside the race must not have changed. -/
def checkUnchanged (incoming : SupervisionLedger) (race : Race) (entry : String × Effect) :
    Except ChiefdError Unit :=
  require (entry.1 ∈ race.kept ∨
      ¬ (incoming.effects[entry.1]?).any (fun effect => effect ≠ entry.2) = true)
    (raceRefused
      s!"ChiefD supervision effect '{entry.1}' changed across a separate effect-sequence race; re-read and retry")

/-- Put one effect of the store back. -/
def restoreEffect (current incoming : SupervisionLedger) (id : String) : SupervisionLedger :=
  match current.effects[id]? with
  | none => incoming
  | some effect =>
      { incoming with
        effects := incoming.effects.insert id effect
        effectOrder :=
          if id ∈ incoming.effectOrder then incoming.effectOrder else incoming.effectOrder ++ [id] }

/-- `u64::checked_add(1)`. -/
def checkedSucc (n : Nat) : Except ChiefdError Nat :=
  if n < u64Max then .ok (n + 1) else .error sequenceExhausted

/-- The first sequence from `next` on that is not used. A round passes one used sequence. -/
def skipUsed (used : List Nat) : Nat → Nat → Except ChiefdError Nat
  | 0, next => .ok next
  | fuel + 1, next =>
      if next ∈ used then do
        let later ← checkedSucc next
        skipUsed used fuel later
      else .ok next

/-- The state of the resequencing loop. -/
structure Resequencing where
  effects : BTreeMap Effect
  used : List Nat
  next : Nat

/-- Give one effect that lost its sequence the next free one. -/
def resequence (race : Race) (s : Resequencing) (id : String) : Except ChiefdError Resequencing :=
  if id ∈ race.resequenced then do
    let free ← skipUsed s.used (s.used.length + 1) s.next
    match s.effects[id]? with
    | none => .ok { s with next := free }
    | some effect => do
        let later ← checkedSucc free
        .ok
          { effects := s.effects.insert id { effect with sequence := free }
            used := free :: s.used
            next := later }
  else .ok s

/-- The order of ids by the sequences of their effects, an unknown one last. -/
def orderBefore (effects : BTreeMap Effect) (a b : String) : Prop :=
  let sequence (id : String) := (effects[id]?).elim u64Max (·.sequence)
  Ledgers.rowBefore (sequence a, a) (sequence b, b)

instance (effects : BTreeMap Effect) : DecidableRel (orderBefore effects) :=
  fun _ _ => inferInstanceAs (Decidable (Ledgers.rowBefore _ _))

/-- One past the highest sequence in use. -/
def sequenceFloor (used : List Nat) : Except ChiefdError Nat :=
  match used with
  | [] => .ok 1
  | _ => checkedSucc (Ledgers.highestSequence used)

/-- Restore what the race proves stale, and give what lost its sequence another one. -/
def repairRace (current incoming : SupervisionLedger) (race : Race) :
    Except ChiefdError SupervisionLedger := do
  current.effects.toList.forM (checkUnchanged incoming race)
  let ids : BTreeSet := Std.ExtTreeSet.ofList race.kept
  let restored := ids.toList.foldl (restoreEffect current) incoming
  let standing := restored.effects.toList.filter fun entry => entry.1 ∉ race.resequenced
  let used := standing.map fun entry => entry.2.sequence
  let floor ← sequenceFloor used
  let last ← restored.effectOrder.foldlM (resequence race)
    { effects := restored.effects, used := used, next := max restored.nextEffectSequence floor }
  .ok
    { restored with
      effects := last.effects
      effectOrder := restored.effectOrder.insertionSort (orderBefore last.effects)
      nextEffectSequence := max (max restored.nextEffectSequence last.next) 1 }

/-- Repair only the rows that a collision of sequences proves stale. -/
def mergeStale (incoming current : SupervisionLedger) : Except ChiefdError SupervisionLedger := do
  require ((incoming.effects.toList.map fun entry => entry.2.sequence).Nodup)
    (raceRefused "ChiefD supervision effects reuse a sequence; re-read and retry")
  let race ← incoming.effects.toList.foldlM (classify current) {}
  let raised := { incoming with
    nextEffectSequence := max (max incoming.nextEffectSequence current.nextEffectSequence) 1 }
  if race.kept = [] then .ok raised else repairRace current raised race

/-! ### Taking a document in -/

/-- The ledger a body amounts to, with what it does not carry taken from the store. -/
def adopt (external : ExternalDocument) (current : SupervisionLedger) :
    Except ChiefdError SupervisionLedger :=
  if carriesRelationalHalf external = true then do
    require (external.nextEffectSequence.isSome = true)
      (raceRefused
        "ChiefD supervision relational half omits nextEffectSequence; re-read and retry")
    let half ← relationalHalf external
    require (half.nextEffectSequence ≠ 0)
      (raceRefused "ChiefD supervision nextEffectSequence must be positive; re-read and retry")
    mergeStale
      { external.document with
        effects := half.effects
        effectOrder := half.effectOrder
        nextEffectSequence := half.nextEffectSequence }
      current
  else
    .ok
      { external.document with
        effects := current.effects
        effectOrder := current.effectOrder
        nextEffectSequence := current.nextEffectSequence }

/-- Take in a document written elsewhere. -/
def ingestExternalDocument (ledgers : Ledgers) (manifest : OrganizationManifest)
    (body : DocumentBody ExternalDocument) : Except ChiefdError Ledgers :=
  match body with
  | .undecodable => .error (.corrupt storeName "the supervision body did not parse")
  | .decoded external => do
      let current ← readForMutation ledgers
      let incoming ← adopt external current
      let ids : BTreeSet := Std.ExtTreeSet.ofList (current.effectOrder ++ incoming.effectOrder)
      publish ledgers manifest ids.toList { incoming with updatedAt := isoMillis ledgers.now }

end Chief.Supervision
