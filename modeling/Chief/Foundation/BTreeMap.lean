/-
Module: Chief.Foundation.BTreeMap
Layer: Foundation
Purpose: Ordered maps keyed by text, with lookups after each update stated by equality of keys, and
  orders that list the keys of a map exactly once.
Trusted boundary: none
Main exports: BTreeMap, BTreeSet, getElem?_insert, getElem?_modify, getElem?_filterKeys, Lists,
  lists_iff
-/
import Std.Data.ExtTreeMap
import Std.Data.ExtTreeSet
import Mathlib.Data.List.Basic
import Mathlib.Data.List.Perm.Subperm
import Mathlib.Data.List.Nodup
import Mathlib.Tactic.Common

namespace Chief.Foundation

/-- A finite map with text keys in ascending order. -/
abbrev BTreeMap (α : Type) := Std.ExtTreeMap String α compare

/-- A finite set of texts in ascending order. -/
abbrev BTreeSet := Std.ExtTreeSet String compare

namespace BTreeMap

variable {α β : Type} {m : BTreeMap α} {k a : String} {v : α}

theorem getElem?_insert : (m.insert k v)[a]? = if k = a then some v else m[a]? := by
  rw [Std.ExtTreeMap.getElem?_insert]
  simp

theorem getElem?_modify {f : α → α} :
    (m.modify k f)[a]? = if k = a then m[a]?.map f else m[a]? := by
  rw [Std.ExtTreeMap.getElem?_modify]
  by_cases same : k = a
  · simp [same]
  · simp [same]

theorem modify_modify {f g : α → α} : (m.modify k f).modify k g = m.modify k fun v => g (f v) := by
  refine Std.ExtTreeMap.ext_getElem? fun a => ?_
  rw [getElem?_modify, getElem?_modify, getElem?_modify]
  split <;> simp [Function.comp_def]

theorem getElem?_map {f : α → β} : (m.map fun _ => f)[a]? = m[a]?.map f :=
  Std.ExtTreeMap.getElem?_map

/-- Keep the entries whose key satisfies `keep`. -/
def filterKeys (m : BTreeMap α) (keep : String → Bool) : BTreeMap α :=
  m.filter fun k _ => keep k

theorem getElem?_filterKeys {keep : String → Bool} :
    (filterKeys m keep)[a]? = if keep a then m[a]? else none := by
  rw [filterKeys, Std.ExtTreeMap.getElem?_filter']
  cases m[a]? with
  | none => simp
  | some v => by_cases kept : keep a <;> simp [kept]

theorem mem_iff_getElem? : k ∈ m ↔ ∃ v, m[k]? = some v := by
  rw [← Std.ExtTreeMap.isSome_getElem?_iff_mem, Option.isSome_iff_exists]

theorem mem_of_getElem? (found : m[k]? = some v) : k ∈ m :=
  mem_iff_getElem?.mpr ⟨v, found⟩

theorem getElem?_insertMany {l : List (String × α)} (found : (m.insertMany l)[k]? = some v) :
    (k, v) ∈ l ∨ m[k]? = some v := by
  induction l generalizing m with
  | nil => exact .inr found
  | cons pair l inductionHypothesis =>
      rw [Std.ExtTreeMap.insertMany_cons] at found
      rcases inductionHypothesis found with later | inserted
      · exact .inl (List.mem_cons_of_mem _ later)
      · rw [getElem?_insert] at inserted
        split at inserted
        · rename_i same
          obtain rfl := same
          obtain rfl := Option.some.inj inserted
          exact .inl List.mem_cons_self
        · exact .inr inserted

/-- What a map made from a list of entries holds is one of the entries. -/
theorem mem_of_getElem?_ofList {l : List (String × α)}
    (found : (Std.ExtTreeMap.ofList l : BTreeMap α)[k]? = some v) : (k, v) ∈ l := by
  rw [Std.ExtTreeMap.ofList_eq_insertMany_empty] at found
  rcases getElem?_insertMany found with entry | impossible
  · exact entry
  · simp at impossible

/-- An entry of a list that names no key twice is held by the map made from it. -/
theorem getElem?_ofList_of_mem {l : List (String × α)} (distinct : (l.map Prod.fst).Nodup)
    (entry : (k, v) ∈ l) : (Std.ExtTreeMap.ofList l : BTreeMap α)[k]? = some v := by
  refine Std.ExtTreeMap.getElem?_ofList_of_mem (by simp) ?_ entry
  rw [List.Nodup, List.pairwise_map] at distinct
  exact distinct.imp fun different same => different (by simpa using same)

theorem getElem?_erase : (m.erase k)[a]? = if k = a then none else m[a]? := by
  rw [Std.ExtTreeMap.getElem?_erase]
  simp

/-- `order` names each key of the map exactly once and nothing else. -/
structure Lists (order : List String) (m : BTreeMap α) : Prop where
  nodup : order.Nodup
  mem_iff : ∀ k, k ∈ order ↔ k ∈ m

/-- The three checks of an exact order: no repetition, no stranger, no omission. -/
theorem lists_iff {order : List String} :
    Lists order m ↔
      order.Nodup ∧ (∀ k ∈ order, k ∈ m) ∧ order.length = m.size := by
  constructor
  · intro lists
    have permutation : order.Perm m.keys :=
      (List.perm_ext_iff_of_nodup lists.nodup Std.ExtTreeMap.nodup_keys).mpr
        fun k => by rw [lists.mem_iff k, Std.ExtTreeMap.mem_keys]
    exact ⟨lists.nodup, fun k member => (lists.mem_iff k).mp member,
      by rw [permutation.length_eq, Std.ExtTreeMap.length_keys]⟩
  · rintro ⟨nodup, known, complete⟩
    have included : order ⊆ m.keys := fun k member =>
      Std.ExtTreeMap.mem_keys.mpr (known k member)
    have permutation : order.Perm m.keys :=
      (List.subperm_of_subset nodup included).perm_of_length_le
        (Nat.le_of_eq (by rw [Std.ExtTreeMap.length_keys, complete]))
    exact ⟨nodup, fun k => by rw [permutation.mem_iff, Std.ExtTreeMap.mem_keys]⟩

end BTreeMap

end Chief.Foundation
