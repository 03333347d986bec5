/-
Module: Chief.Supervision.Delivery
Layer: Model
Purpose: The delivery life of effects: what a dispatch pass would carry, and the bodies that mark effects
  delivered, record a failed dispatch and drive failed effects again.
Trusted boundary: human-reviewed translation
Main exports: dispatchPlan, markDeliveredBody, recordDeliveryFailureBody, reopenFailedEffectsBody
-/
import Chief.Supervision.Mutate

namespace Chief.Supervision

open Foundation

/-- Effect kinds whose dispatch is its own reconcile boundary. -/
def urgentKinds : List String := ["manager_goal_stalled"]

/-- What one dispatch pass would carry, in dispatch order. -/
structure DispatchPlan where
  routine : List String := []
  urgent : List String := []
deriving DecidableEq, Repr

/-- The ids of the pending effects of which `urgent` holds or does not. -/
def pendingIds (ledger : SupervisionLedger) (urgent : Bool) : List String :=
  ledger.effectOrder.filter fun id =>
    (ledger.effects[id]?).any fun effect =>
      effect.status = .pending ∧ (effect.kind ∈ urgentKinds ↔ urgent = true)

/-- The dispatch plan of a hydrated ledger. -/
def dispatchPlan (ledger : SupervisionLedger) : DispatchPlan :=
  { routine := pendingIds ledger false, urgent := pendingIds ledger true }

/-- Mark one pending effect delivered, and say whether it was one. -/
def applyEffectDelivered (draft : SupervisionDraft) (id stamp : String) :
    Bool × SupervisionDraft :=
  match draft.ledger.effects[id]? with
  | none => (false, draft)
  | some effect =>
      if effect.status ≠ .pending then (false, draft)
      else (true, draft.setEffect id
        { effect with status := .delivered, deliveredAt := some stamp })

/-- One round of the loop of `markDeliveredBody`. -/
def deliverNext (stamp : String) (s : List String × SupervisionDraft) (id : String) :
    List String × SupervisionDraft :=
  let applied := applyEffectDelivered s.2 id stamp
  (if applied.1 then s.1 ++ [id] else s.1, applied.2)

/-- Mark a batch of effects delivered. -/
def markDeliveredBody (effectIds : List String) : Body (List String) :=
  fun draft stamp => .ok (effectIds.foldl (deliverNext stamp) ([], draft))

/-- An effect after one more failed dispatch. -/
def failedOnce (effect : Effect) (stamp : String) : Effect :=
  let count := saturatingCount (effect.deliveryFailureCount.getD 0)
  let counted := { effect with
    deliveryFailureCount := some count
    lastDeliveryFailureAt := some stamp }
  if supervisionEffectDeliveryAttemptLimit ≤ count then
    { counted with status := .failed, failedAt := some stamp }
  else counted

/-- Record one dispatch failure and run the breaker. -/
def recordDeliveryFailureBody (effectId : String) : Body EffectStatus := fun draft stamp =>
  match draft.ledger.effects[effectId]? with
  | none =>
      .error (refused "unknown-effect" s!"Supervision effect '{effectId}' does not exist")
  | some effect =>
      if effect.status ≠ .pending then .ok (effect.status, draft)
      else .ok ((failedOnce effect stamp).status, draft.setEffect effectId (failedOnce effect stamp))

/-- One round of the loop of `reopenFailedEffectsBody`. -/
def reopenNext (stamp : String) (draft : SupervisionDraft) (id : String) : SupervisionDraft :=
  match draft.ledger.effects[id]? with
  | none => draft.touchEffect id
  | some effect => draft.setEffect id (reopenEffect effect stamp)

/-- The failed effects with a reopen left. -/
def reopenCandidates (ledger : SupervisionLedger) : List String :=
  ledger.effectOrder.filter fun id => (ledger.effects[id]?).any mayReopen

/-- Drive every failed effect with a reopen left again. -/
def reopenFailedEffectsBody : Body (List String) := fun draft stamp =>
  let candidates := reopenCandidates draft.ledger
  .ok (candidates, candidates.foldl (reopenNext stamp) draft)

section Operations

variable (ledgers : Ledgers) (manifest : OrganizationManifest)

def markDelivered (effectIds : List String) : Except ChiefdError (List String × Ledgers) :=
  mutate ledgers manifest (markDeliveredBody effectIds)

def recordDeliveryFailure (effectId : String) : Except ChiefdError (EffectStatus × Ledgers) :=
  mutate ledgers manifest (recordDeliveryFailureBody effectId)

def reopenFailedEffects : Except ChiefdError (List String × Ledgers) :=
  mutate ledgers manifest reopenFailedEffectsBody

end Operations

end Chief.Supervision
