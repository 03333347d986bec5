/-
Module: Chief.Foundation.Leases
Layer: Foundation
Purpose: Claims on one resource that run out after a while: the record of who took it when, and how far
  apart the claims lie when each is taken only from a free or an expired one.
Trusted boundary: none
Main exports: Lease, Spaced, Rated, giveBack, Orderly, Orderly.take, Orderly.giveBack
-/
import Mathlib.Data.List.Chain
import Mathlib.Tactic.Common

namespace Chief.Foundation

variable {δ : Type}

/-- One claim: who took it, when, how far it had to lie from the claim before, and whether its holder
gave it back. -/
structure Lease (δ : Type) where
  holder : δ
  takenAt : Int
  floor : Int
  returned : Bool := false
deriving DecidableEq

namespace Lease

/-- Claims, the latest first, of which no two that are still out lie closer than `lifetime`. -/
def Spaced (lifetime : Int) (leases : List (Lease δ)) : Prop :=
  leases.Pairwise fun later earlier =>
    later.returned = false → earlier.returned = false →
      earlier.takenAt + lifetime ≤ later.takenAt

/-- Claims, the latest first, each of which keeps its floor from the one before. -/
def Rated (leases : List (Lease δ)) : Prop :=
  leases.IsChain fun later earlier => earlier.takenAt + later.floor ≤ later.takenAt

/-- Every claim of one holder comes back. -/
def giveBack [DecidableEq δ] (holder : δ) (lease : Lease δ) : Lease δ :=
  if lease.holder = holder then { lease with returned := true } else lease

section GiveBack

variable [DecidableEq δ] {holder : δ} {lease : Lease δ}

@[simp] theorem giveBack_takenAt : (giveBack holder lease).takenAt = lease.takenAt := by
  unfold giveBack
  split <;> rfl

@[simp] theorem giveBack_floor : (giveBack holder lease).floor = lease.floor := by
  unfold giveBack
  split <;> rfl

/-- What is still out after a return was out before it, and is not the returning holder's. -/
theorem giveBack_returned : (giveBack holder lease).returned = false ↔
    lease.returned = false ∧ lease.holder ≠ holder := by
  unfold giveBack
  split <;> simp_all

end GiveBack

/-- What is known of the claims when each was taken from a free or an expired one: a claim that is out
and is not the latest had expired when the latest was taken. -/
structure Orderly (lifetime : Int) (leases : List (Lease δ)) : Prop where
  spaced : Spaced lifetime leases
  rated : Rated leases
  superseded : ∀ latest earlier, leases = latest :: earlier → ∀ lease ∈ earlier,
    lease.takenAt ≤ latest.takenAt ∧
      (lease.returned = false → lease.takenAt + lifetime ≤ latest.takenAt)

namespace Orderly

variable {lifetime : Int} {leases : List (Lease δ)}

theorem nil : Orderly lifetime ([] : List (Lease δ)) where
  spaced := List.Pairwise.nil
  rated := List.IsChain.nil
  superseded := by
    intro latest earlier impossible
    cases impossible

/-- A claim is taken once the latest one is back or has expired, no sooner than its floor allows. -/
theorem take (orderly : Orderly lifetime leases) {lease : Lease δ}
    (forward : ∀ latest ∈ leases.head?, latest.takenAt ≤ lease.takenAt)
    (free : ∀ latest ∈ leases.head?, latest.returned = false →
      latest.takenAt + lifetime ≤ lease.takenAt)
    (floor : ∀ latest ∈ leases.head?, latest.takenAt + lease.floor ≤ lease.takenAt) :
    Orderly lifetime (lease :: leases) := by
  have expired : ∀ other ∈ leases, other.takenAt ≤ lease.takenAt ∧
      (other.returned = false → other.takenAt + lifetime ≤ lease.takenAt) := by
    intro other member
    cases leases with
    | nil => cases member
    | cons latest earlier =>
        have reached := forward latest rfl
        rcases List.mem_cons.mp member with rfl | before
        · exact ⟨reached, free other rfl⟩
        · obtain ⟨known, gone⟩ := orderly.superseded latest earlier rfl other before
          exact ⟨Int.le_trans known reached, fun out => Int.le_trans (gone out) reached⟩
  constructor
  · exact List.pairwise_cons.mpr ⟨fun other member _ => (expired other member).2, orderly.spaced⟩
  · cases leases with
    | nil => exact List.IsChain.singleton lease
    | cons latest earlier => exact List.IsChain.cons_cons (floor latest rfl) orderly.rated
  · rintro latest earlier same
    cases same
    exact expired

/-- A return keeps the claims in order. -/
theorem giveBack [DecidableEq δ] (orderly : Orderly lifetime leases) (holder : δ) :
    Orderly lifetime (leases.map (Lease.giveBack holder)) := by
  constructor
  · refine List.pairwise_map.mpr (orderly.spaced.imp fun apart later earlier => ?_)
    rw [giveBack_takenAt, giveBack_takenAt]
    exact apart (giveBack_returned.mp later).1 (giveBack_returned.mp earlier).1
  · refine (List.isChain_map _).mpr (orderly.rated.imp fun later earlier apart => ?_)
    rw [giveBack_takenAt, giveBack_takenAt, giveBack_floor]
    exact apart
  · intro latest earlier same lease member
    obtain ⟨before, rest, rfl, rfl, rfl⟩ := List.map_eq_cons_iff.mp same
    obtain ⟨other, listed, rfl⟩ := List.mem_map.mp member
    obtain ⟨known, gone⟩ := orderly.superseded before rest rfl other listed
    rw [giveBack_takenAt, giveBack_takenAt]
    exact ⟨known, fun out => gone (giveBack_returned.mp out).1⟩

end Orderly

end Lease

end Chief.Foundation
