/-
Module: Chief.Foundation.Text
Layer: Foundation
Purpose: Trimming of Unicode white space and decimal numerals, with the facts that make a rendered
  number readable again.
Trusted boundary: none
Main exports: isWhitespace, trim, required_trim facts, parseDigits, parseUnsigned, parseSigned,
  zeroPadded, parseSigned_signPadded
-/
import Mathlib.Algebra.Group.Nat.Defs
import Mathlib.Data.List.DropRight
import Mathlib.Data.List.Basic
import Mathlib.Tactic.Common

namespace Chief.Foundation

/-! ### White space -/

/-- The code points with the Unicode `White_Space` property. -/
def isWhitespace (c : Char) : Bool :=
  let n := c.toNat
  (9 ≤ n && n ≤ 13) || n == 0x20 || n == 0x85 || n == 0xA0 || n == 0x1680 ||
    (0x2000 ≤ n && n ≤ 0x200A) || n == 0x2028 || n == 0x2029 || n == 0x202F || n == 0x205F ||
    n == 0x3000

/-- Drop the elements satisfying `p` from both ends. -/
def trimList {α : Type*} (p : α → Bool) (l : List α) : List α :=
  (l.dropWhile p).rdropWhile p

/-- A text without its leading and trailing white space. -/
def trim (text : String) : String :=
  String.ofList (trimList isWhitespace text.toList)

/-- Whether nothing but white space is there. -/
def isBlank (text : String) : Bool := trim text == ""

section TrimList

variable {α : Type*} {p : α → Bool} {l : List α}

theorem trimList_eq_nil_iff : trimList p l = [] ↔ ∀ x ∈ l, p x := by
  rw [trimList, List.rdropWhile_eq_nil_iff]
  constructor
  · intro onlyBlank x member
    rw [← List.takeWhile_append_dropWhile (p := p) (l := l), List.mem_append] at member
    rcases member with front | back
    · exact List.mem_takeWhile_imp front
    · exact onlyBlank x back
  · intro onlyBlank x member
    exact onlyBlank x ((List.dropWhile_suffix p).subset member)

/-- What remains after trimming starts with a kept element. -/
theorem not_head_trimList {x : α} {rest : List α} (trimmed : trimList p l = x :: rest) :
    p x = false := by
  obtain ⟨suffix, joined⟩ := List.rdropWhile_prefix p (l := l.dropWhile p)
  rw [← trimList, trimmed] at joined
  have dropped : l.dropWhile p = x :: (rest ++ suffix) := by simpa using joined.symm
  simpa [dropped] using List.head?_dropWhile_not p l

theorem trimList_idempotent : trimList p (trimList p l) = trimList p l := by
  cases trimmed : trimList p l with
  | nil => rfl
  | cons x rest =>
      have kept : p x = false := not_head_trimList trimmed
      rw [trimList, List.dropWhile_cons_of_neg (by simp [kept]), ← trimmed, trimList,
        List.rdropWhile_idempotent]

end TrimList

theorem toList_trim (text : String) :
    (trim text).toList = trimList isWhitespace text.toList := by
  simp [trim]

theorem trim_trim (text : String) : trim (trim text) = trim text := by
  rw [trim, toList_trim, trimList_idempotent, ← trim]

theorem isBlank_iff {text : String} :
    isBlank text = true ↔ ∀ c ∈ text.toList, isWhitespace c = true := by
  rw [isBlank, beq_iff_eq, ← String.toList_inj, toList_trim, String.toList_empty,
    trimList_eq_nil_iff]

/-- Cutting a trimmed nonempty text to a positive length leaves something to read. -/
theorem not_isBlank_take_trim {text : String} {limit : Nat} (positive : 0 < limit)
    (kept : isBlank text = false) :
    isBlank (String.ofList ((trim text).toList.take limit)) = false := by
  rw [Bool.eq_false_iff, ne_eq, isBlank_iff, String.toList_ofList, toList_trim]
  cases trimmed : trimList isWhitespace text.toList with
  | nil =>
      rw [trimList_eq_nil_iff, ← isBlank_iff] at trimmed
      simp [trimmed] at kept
  | cons first rest =>
      intro allBlank
      have isFirst : first ∈ (first :: rest).take limit := by
        cases limit with
        | zero => omega
        | succ limit => simp
      simpa [not_head_trimList trimmed] using allBlank first isFirst

/-! ### Numerals -/

/-- The value of a nonempty run of ASCII digits. -/
def parseDigits (digits : List Char) : Option Nat :=
  if digits ≠ [] ∧ digits.all Char.isDigit then some (Nat.ofDigitChars 10 digits 0) else none

/-- An unsigned numeral, with the optional `+` and the upper bound of a fixed-width parse. -/
def parseUnsigned (maximum : Nat) (text : List Char) : Option Nat :=
  let digits := match text with
    | '+' :: rest => rest
    | _ => text
  (parseDigits digits).filter (· ≤ maximum)

/-- A signed numeral short enough that no fixed-width bound can be met. -/
def parseSigned (text : List Char) : Option Int :=
  match text with
  | '+' :: rest => (parseDigits rest).map Int.ofNat
  | '-' :: rest => (parseDigits rest).map fun n => -Int.ofNat n
  | _ => (parseDigits text).map Int.ofNat

/-- Decimal digits, padded with zeros on the left to `width`. -/
def zeroPadded (width n : Nat) : List Char :=
  List.replicate (width - (Nat.toDigits 10 n).length) '0' ++ Nat.toDigits 10 n

/-- Sign-aware padding: the sign counts towards `width`. -/
def signPadded (width : Nat) (n : Int) : List Char :=
  match n with
  | .ofNat n => zeroPadded width n
  | .negSucc n => '-' :: zeroPadded (width - 1) (n + 1)

theorem zeroPadded_ne_nil (width n : Nat) : zeroPadded width n ≠ [] := by
  simp [zeroPadded, Nat.toDigits_ne_nil]

theorem isDigit_of_mem_zeroPadded {width n : Nat} {c : Char} (member : c ∈ zeroPadded width n) :
    c.isDigit = true := by
  rcases List.mem_append.mp member with pad | digit
  · rw [List.eq_of_mem_replicate pad]
    rfl
  · exact Nat.isDigit_of_mem_toDigits (by decide) (by decide) digit

@[simp] theorem parseDigits_zeroPadded (width n : Nat) :
    parseDigits (zeroPadded width n) = some n := by
  have allDigits : (zeroPadded width n).all Char.isDigit = true :=
    List.all_eq_true.mpr fun c member => isDigit_of_mem_zeroPadded member
  rw [parseDigits, if_pos ⟨zeroPadded_ne_nil width n, allDigits⟩, zeroPadded,
    Nat.ofDigitChars_append, Nat.ofDigitChars_replicate_zero, Nat.mul_zero,
    Nat.ofDigitChars_ten_toDigits]

@[simp] theorem parseDigits_toDigits (n : Nat) : parseDigits (Nat.toDigits 10 n) = some n := by
  simpa [zeroPadded] using parseDigits_zeroPadded 0 n

theorem length_zeroPadded_of_lt {width n : Nat} (positive : 0 < width) (small : n < 10 ^ width) :
    (zeroPadded width n).length = width := by
  have short := (Nat.length_toDigits_le_iff (b := 10) (by decide) positive).mpr small
  simp only [zeroPadded, List.length_append, List.length_replicate]
  omega

theorem width_lt_length_zeroPadded {width n : Nat} (positive : 0 < width)
    (large : 10 ^ width ≤ n) : width < (zeroPadded width n).length := by
  have long := (Nat.length_toDigits_le_iff (b := 10) (by decide) positive).not.mpr
    (Nat.not_lt.mpr large)
  simp only [zeroPadded, List.length_append, List.length_replicate]
  omega

/-- Neither sign is a digit, so a numeral read back is the one that was rendered. -/
theorem parseSigned_of_digits {digits : List Char}
    (allDigits : ∀ c ∈ digits, c.isDigit = true) :
    parseSigned digits = (parseDigits digits).map Int.ofNat := by
  unfold parseSigned
  split
  · exact absurd (allDigits '+' (by simp)) (by decide)
  · exact absurd (allDigits '-' (by simp)) (by decide)
  · rfl

@[simp] theorem parseSigned_zeroPadded (width n : Nat) :
    parseSigned (zeroPadded width n) = some (n : Int) := by
  rw [parseSigned_of_digits fun c member => isDigit_of_mem_zeroPadded member]
  simp

@[simp] theorem parseSigned_signPadded (width : Nat) (n : Int) :
    parseSigned (signPadded width n) = some n := by
  cases n with
  | ofNat n => simp [signPadded]
  | negSucc n => simp [signPadded, parseSigned, Int.negSucc_eq]

/-- The decimal text of an integer is the sign-aware rendering without padding. -/
theorem toList_toString (n : Int) : (toString n).toList = signPadded 0 n := by
  cases n with
  | ofNat n => simp [Int.toString_eq_repr, Int.repr, signPadded, zeroPadded]
  | negSucc n => simp [Int.toString_eq_repr, Int.repr, signPadded, zeroPadded]

theorem colon_not_mem_toString (n : Int) : ':' ∉ (toString n).toList := by
  have unpadded (width m : Nat) : ':' ∉ zeroPadded width m := by
    intro member
    have digit := isDigit_of_mem_zeroPadded member
    exact absurd digit (by decide)
  rw [toList_toString]
  cases n with
  | ofNat n => exact unpadded 0 n
  | negSucc n =>
      intro member
      rcases List.mem_cons.mp member with colon | digit
      · exact absurd colon (by decide)
      · exact unpadded _ _ digit

/-- A text that ends in a separator and an integer says which text and which integer. -/
theorem prefixed_integer_inj {text text' : List Char} {n n' : Int}
    (same : text ++ ':' :: (toString n).toList = text' ++ ':' :: (toString n').toList) :
    text = text' ∧ n = n' := by
  have apart : ∀ {l l' d d' : List Char}, ':' ∉ d → l ++ ':' :: d = l' ++ ':' :: d' →
      ∀ {rest}, l' = l ++ rest → rest = [] := by
    intro l l' d d' absent equal rest longer
    rw [longer, List.append_assoc] at equal
    have tails := List.append_cancel_left equal
    cases rest with
    | nil => rfl
    | cons c rest =>
        rw [List.cons_append] at tails
        have tail := (List.cons.inj tails).2
        exact absurd (tail ▸ List.mem_append_right rest List.mem_cons_self) absent
  have texts : text = text' := by
    rcases List.append_eq_append_iff.mp same with ⟨rest, longer, _⟩ | ⟨rest, longer, _⟩
    · have short := apart (colon_not_mem_toString n) same longer
      rw [longer, short, List.append_nil]
    · have short := apart (colon_not_mem_toString n') same.symm longer
      rw [longer, short, List.append_nil]
  subst texts
  have digits := (List.cons.inj (List.append_cancel_left same)).2
  rw [toList_toString, toList_toString] at digits
  have parsed := parseSigned_signPadded 0 n
  rw [digits, parseSigned_signPadded] at parsed
  exact ⟨rfl, (Option.some.inj parsed).symm⟩

/-- A numeral parsed within the bound is what `Nat.toDigits` rendered. -/
theorem parseUnsigned_toDigits {maximum n : Nat} (small : n ≤ maximum) :
    parseUnsigned maximum (Nat.toDigits 10 n) = some n := by
  have digits := parseDigits_toDigits n
  have noSign : ∀ rest, Nat.toDigits 10 n ≠ '+' :: rest := by
    intro rest shape
    have plus := Nat.isDigit_of_mem_toDigits (b := 10) (n := n) (by decide) (by decide)
      (shape ▸ List.mem_cons_self)
    exact absurd plus (by decide)
  unfold parseUnsigned
  split
  · next rest shape => exact absurd shape (noSign rest)
  · simp [digits, small]

theorem parseUnsigned_le {maximum n : Nat} {text : List Char}
    (parsed : parseUnsigned maximum text = some n) : n ≤ maximum := by
  simpa using (Option.filter_eq_some_iff.mp parsed).2

end Chief.Foundation
