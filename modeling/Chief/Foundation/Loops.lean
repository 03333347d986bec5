/-
Module: Chief.Foundation.Loops
Layer: Foundation
Purpose: Programs that may stop with an error: how a success of a sequence or of a loop is taken
  apart, and the invariant rule of a loop over a list.
Trusted boundary: none
Main exports: Except.bind_eq_ok, bind_succeeds_iff, require, forM_eq_ok, foldlM_invariant, foldlM_ok,
  foldlM_rest, foldlM_visit
-/
import Mathlib.Data.List.Basic
import Mathlib.Data.List.Forall2
import Mathlib.Tactic.Common

namespace Chief.Foundation

variable {ε α β σ : Type}

/-- Stop with `failure` unless the condition holds. -/
def require {ε : Type} (condition : Prop) [Decidable condition] (failure : ε) : Except ε Unit :=
  if condition then .ok () else .error failure

@[simp] theorem require_eq_ok {condition : Prop} [Decidable condition] {failure : ε} {u : Unit} :
    require condition failure = .ok u ↔ condition := by
  unfold require
  split <;> simp_all

theorem require_of {condition : Prop} [Decidable condition] {failure : ε} (holds : condition) :
    require condition failure = .ok () := by
  simp [require, holds]

@[simp] theorem bind_eq_ok {first : Except ε α} {next : α → Except ε β} {result : β} :
    first >>= next = .ok result ↔ ∃ a, first = .ok a ∧ next a = .ok result := by
  cases first with
  | ok a => simp [bind, Except.bind]
  | error e => simp [bind, Except.bind]

/-- A check of the outcome is passed by a success and by its result. -/
theorem any_toOption {outcome : Except ε α} {check : α → Bool} :
    outcome.toOption.any check = true ↔ ∃ a, outcome = .ok a ∧ check a = true := by
  cases outcome with
  | ok a => simp [Except.toOption]
  | error e => simp [Except.toOption]

/-- A sequence whose second part never fails succeeds exactly when its first part does. -/
theorem bind_succeeds_iff {first : Except ε α} {next : α → Except ε β}
    (continues : ∀ a, first = .ok a → ∃ result, next a = .ok result) :
    (∃ result, first >>= next = .ok result) ↔ ∃ a, first = .ok a := by
  constructor
  · rintro ⟨result, ran⟩
    obtain ⟨a, here, _⟩ := bind_eq_ok.mp ran
    exact ⟨a, here⟩
  · rintro ⟨a, here⟩
    obtain ⟨result, later⟩ := continues a here
    exact ⟨result, bind_eq_ok.mpr ⟨a, here, later⟩⟩

@[simp] theorem ok_bind {a : α} {next : α → Except ε β} :
    (Except.ok a : Except ε α) >>= next = next a := rfl

@[simp] theorem error_bind {e : ε} {next : α → Except ε β} :
    (Except.error e : Except ε α) >>= next = .error e := rfl

/-- A loop that only checks succeeds exactly when every element passes. -/
theorem forM_eq_ok {check : α → Except ε Unit} {l : List α} :
    l.forM check = .ok () ↔ ∀ a ∈ l, check a = .ok () := by
  induction l with
  | nil => simp [pure, Except.pure]
  | cons a l inductionHypothesis =>
      have unrolled : (a :: l).forM check = check a >>= fun _ => l.forM check := rfl
      rw [unrolled, bind_eq_ok, List.forall_mem_cons]
      constructor
      · rintro ⟨_, here, later⟩
        exact ⟨here, inductionHypothesis.mp later⟩
      · rintro ⟨here, later⟩
        exact ⟨(), here, inductionHypothesis.mpr later⟩

/-- A loop that collects results succeeds when every element has its result. -/
theorem mapM_eq_ok {f : α → Except ε β} {l : List α} {results : List β} :
    l.mapM f = .ok results ↔ List.Forall₂ (fun a b => f a = .ok b) l results := by
  induction l generalizing results with
  | nil =>
      rw [List.mapM_nil, List.forall₂_nil_left_iff]
      constructor
      · intro done
        cases done
        rfl
      · rintro rfl
        rfl
  | cons a l inductionHypothesis =>
      rw [List.mapM_cons, bind_eq_ok, List.forall₂_cons_left_iff]
      constructor
      · rintro ⟨b, first, rest⟩
        rw [bind_eq_ok] at rest
        obtain ⟨later, collected, done⟩ := rest
        cases done
        exact ⟨b, later, first, inductionHypothesis.mp collected, rfl⟩
      · rintro ⟨b, later, first, collected, rfl⟩
        refine ⟨b, first, ?_⟩
        rw [bind_eq_ok]
        exact ⟨later, inductionHypothesis.mpr collected, rfl⟩

/-- A loop that collects results succeeds when no element fails. -/
theorem mapM_succeeds {f : α → Except ε β} {l : List α} (each : ∀ a ∈ l, ∃ b, f a = .ok b) :
    ∃ results, l.mapM f = .ok results := by
  induction l with
  | nil => exact ⟨[], mapM_eq_ok.mpr .nil⟩
  | cons a l inductionHypothesis =>
      obtain ⟨b, here⟩ := each a List.mem_cons_self
      obtain ⟨results, later⟩ :=
        inductionHypothesis fun c member => each c (List.mem_cons_of_mem a member)
      exact ⟨b :: results, mapM_eq_ok.mpr (.cons here (mapM_eq_ok.mp later))⟩

/-- Every collected result is the result of an element. -/
theorem exists_of_mem_mapM {f : α → Except ε β} {l : List α} {results : List β} {b : β}
    (collected : l.mapM f = .ok results) (member : b ∈ results) : ∃ a ∈ l, f a = .ok b := by
  have paired := mapM_eq_ok.mp collected
  clear collected
  induction paired with
  | nil => cases member
  | @cons a first l later here _ inductionHypothesis =>
      rcases List.mem_cons.mp member with rfl | rest
      · exact ⟨a, List.mem_cons_self, here⟩
      · obtain ⟨c, listed, found⟩ := inductionHypothesis rest
        exact ⟨c, List.mem_cons_of_mem a listed, found⟩

/-- What every step of a loop preserves, a successful loop preserves. -/
theorem foldlM_invariant {step : σ → α → Except ε σ} (invariant : σ → Prop) {l : List α}
    (preserved : ∀ s, ∀ a ∈ l, ∀ s', step s a = .ok s' → invariant s → invariant s') :
    ∀ {s s' : σ}, l.foldlM step s = .ok s' → invariant s → invariant s' := by
  induction l with
  | nil =>
      intro s s' run holds
      cases run
      exact holds
  | cons a l inductionHypothesis =>
      intro s s' run holds
      rw [List.foldlM_cons, bind_eq_ok] at run
      obtain ⟨middle, first, rest⟩ := run
      exact inductionHypothesis
        (fun s b member => preserved s b (List.mem_cons_of_mem a member)) rest
        (preserved s a List.mem_cons_self middle first holds)

/-- A loop whose every step succeeds from the invariant succeeds. -/
theorem foldlM_ok {step : σ → α → Except ε σ} (invariant : List α → σ → Prop) {l : List α}
    (progress : ∀ a rest s, invariant (a :: rest) s → ∃ s', step s a = .ok s' ∧ invariant rest s') :
    ∀ {s : σ}, invariant l s → ∃ s', l.foldlM step s = .ok s' ∧ invariant [] s' := by
  induction l with
  | nil => exact fun {s} holds => ⟨s, rfl, holds⟩
  | cons a l inductionHypothesis =>
      intro s holds
      obtain ⟨middle, first, later⟩ := progress a l s holds
      obtain ⟨s', rest, final⟩ := inductionHypothesis later
      exact ⟨s', by simp [first, rest], final⟩

/-- An invariant that knows what the loop has still to do holds with nothing left at its end. -/
theorem foldlM_rest {step : σ → α → Except ε σ} (invariant : List α → σ → Prop) {l : List α}
    (preserved : ∀ a rest s s', step s a = .ok s' → invariant (a :: rest) s → invariant rest s') :
    ∀ {s s' : σ}, l.foldlM step s = .ok s' → invariant l s → invariant [] s' := by
  induction l with
  | nil =>
      intro s s' run holds
      cases run
      exact holds
  | cons a l inductionHypothesis =>
      intro s s' run holds
      rw [List.foldlM_cons, bind_eq_ok] at run
      obtain ⟨middle, first, later⟩ := run
      exact inductionHypothesis later (preserved a l s middle first holds)

/-- What every step of a loop carries back to its start, a successful loop carries back. -/
theorem foldlM_backward {step : σ → α → Except ε σ} (good : σ → Prop) {l : List α}
    (backward : ∀ s, ∀ a ∈ l, ∀ s', step s a = .ok s' → good s' → good s) :
    ∀ {s s' : σ}, l.foldlM step s = .ok s' → good s' → good s := by
  induction l with
  | nil =>
      intro s s' run fine
      cases run
      exact fine
  | cons a l inductionHypothesis =>
      intro s s' run fine
      rw [List.foldlM_cons, bind_eq_ok] at run
      obtain ⟨middle, first, rest⟩ := run
      exact backward s a List.mem_cons_self middle first
        (inductionHypothesis (fun s b member => backward s b (List.mem_cons_of_mem a member)) rest
          fine)

/-- What a loop over distinct elements does to the part of the state each element owns: nothing if the
element is not in the list, and exactly its own step if it is. `good` is known at the end and travels
backwards, `invariant` is known at the start and travels forwards, and every step finds the view of
its element as it was before the loop. -/
theorem foldlM_visit {γ : Type} {step : σ → α → Except ε σ} (invariant good : σ → Prop)
    (view : α → σ → γ) {l : List α} {start : σ}
    (backward : ∀ s, ∀ b ∈ l, ∀ s', step s b = .ok s' → good s' → good s)
    (forward : ∀ s, ∀ b ∈ l, ∀ s', step s b = .ok s' → good s' → invariant s →
      view b s = view b start → invariant s' ∧ ∀ a, a ≠ b → view a s' = view a s) :
    ∀ {s s' : σ}, l.Nodup → l.foldlM step s = .ok s' → invariant s → good s' →
      (∀ a ∈ l, view a s = view a start) →
      invariant s' ∧ ∀ a, (a ∉ l → view a s' = view a s) ∧
        (a ∈ l → ∃ s₁ s₂, step s₁ a = .ok s₂ ∧ invariant s₁ ∧ good s₂ ∧ invariant s₂ ∧
          view a s₁ = view a start ∧ view a s' = view a s₂) := by
  induction l with
  | nil =>
      intro s s' _ run holds _ _
      cases run
      exact ⟨holds, fun a => ⟨fun _ => rfl, fun member => absurd member List.not_mem_nil⟩⟩
  | cons b l inductionHypothesis =>
      intro s s' nodup run holds fine fresh
      obtain ⟨unlisted, nodup⟩ := List.nodup_cons.mp nodup
      rw [List.foldlM_cons, bind_eq_ok] at run
      obtain ⟨middle, first, rest⟩ := run
      have later (c : α) (member : c ∈ l) : c ∈ b :: l := List.mem_cons_of_mem b member
      have fineMiddle : good middle :=
        foldlM_backward good (fun s c member => backward s c (later c member)) rest fine
      obtain ⟨holdsMiddle, framed⟩ := forward s b List.mem_cons_self middle first fineMiddle holds
        (fresh b List.mem_cons_self)
      obtain ⟨holdsEnd, visits⟩ := inductionHypothesis
        (fun s c member => backward s c (later c member))
        (fun s c member => forward s c (later c member)) nodup rest holdsMiddle fine
        (fun a member => (framed a fun same => unlisted (same ▸ member)).trans
          (fresh a (later a member)))
      refine ⟨holdsEnd, fun a => ⟨fun outside => ?_, fun member => ?_⟩⟩
      · rw [(visits a).1 fun member => outside (later a member)]
        exact framed a fun same => outside (same ▸ List.mem_cons_self)
      · by_cases here : a = b
        · subst here
          exact ⟨s, middle, first, holds, fineMiddle, holdsMiddle, fresh a List.mem_cons_self,
            (visits a).1 unlisted⟩
        · exact (visits a).2 ((List.mem_cons.mp member).resolve_left here)

/-- The same invariant rule for a loop that cannot fail. -/
theorem foldl_invariant {step : σ → α → σ} (invariant : σ → Prop) {l : List α}
    (preserved : ∀ s, ∀ a ∈ l, invariant s → invariant (step s a)) {s : σ} (holds : invariant s) :
    invariant (l.foldl step s) := by
  induction l generalizing s with
  | nil => exact holds
  | cons a l inductionHypothesis =>
      exact inductionHypothesis (fun s b member => preserved s b (List.mem_cons_of_mem a member))
        (preserved s a List.mem_cons_self holds)

end Chief.Foundation
