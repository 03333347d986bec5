/-
Module: Chief.Error
Layer: Model
Purpose: The closed error taxonomy the store layer answers with.
Trusted boundary: human-reviewed translation
Main exports: Refusal, ChiefdError, storeFailure, corruptStore
-/
import Mathlib.Tactic.Common

namespace Chief

/-- A deliberate decline: the machine code, the sentence and the routes that would have worked. -/
structure Refusal where
  code : String
  message : String
  legalRoutes : List String := []
deriving DecidableEq, Repr

/-- The errors the modelled operations can answer with. A store failure keeps the refusal whose
rendering is its cause. `panicked` is the abort of an index out of range, which the source never
returns and the proofs show it never reaches. -/
inductive ChiefdError where
  | refused (refusal : Refusal)
  | storeFailure (store : String) (cause : Refusal)
  | corrupt (store : String) (cause : String)
  | absent (store : String)
  | panicked (what : String)
deriving DecidableEq, Repr

/-- A refusal that travels as itself. -/
def refused (code message : String) : ChiefdError := .refused { code := code, message := message }

/-- The stand-in for an index panic inside a validator. -/
def indexPanic (what : String) : Refusal := { code := "panic", message := what }

/-- Let a refusal of a validator travel as itself. -/
def liftRefusal {α : Type} (outcome : Except Refusal α) : Except ChiefdError α :=
  outcome.mapError .refused

/-- Let a refusal of a validator become the failure of a store. -/
def asStoreFailure {α : Type} (store : String) (outcome : Except Refusal α) : Except ChiefdError α :=
  outcome.mapError (.storeFailure store)

@[simp] theorem liftRefusal_eq_ok {α : Type} {outcome : Except Refusal α} {a : α} :
    liftRefusal outcome = .ok a ↔ outcome = .ok a := by
  cases outcome <;> simp [liftRefusal, Except.mapError]

@[simp] theorem asStoreFailure_eq_ok {α : Type} {store : String} {outcome : Except Refusal α}
    {a : α} : asStoreFailure store outcome = .ok a ↔ outcome = .ok a := by
  cases outcome <;> simp [asStoreFailure, Except.mapError]

end Chief
