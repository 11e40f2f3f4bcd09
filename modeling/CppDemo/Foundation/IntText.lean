import CppDemo.Foundation.ByteStream
import Mathlib.Algebra.Group.Int.Defs
import Mathlib.Data.List.DropRight
import Mathlib.Tactic.Common

/-!
# Texts of integers

A number is spelled by an optional sign, an optional `0x` and digits, and a reader may allow blanks
around it. A text has one valid spelling at most, which is found from the left.

## Main definitions

* `IntText.Spelling` : a sign, a base and digits, with its text and its value.
* `IntText.strip` : a text without the blanks around it.
* `IntText.read` : read a number that fits into 32 bits.

## Main results

* `IntText.spelling_text` : a valid spelling is found from its text.
* `IntText.read_eq_some_iff` : what is read are the values of the valid spellings.
* `IntText.Plain.of_read` : a text without blanks, sign and mark is read as its digits.
-/

namespace CppDemo.IntText

/-! ### Digits -/

/-- The value of a digit, of a letter as in base 16. -/
def digit (c : UInt8) : Option Nat :=
  if 48 ≤ c ∧ c ≤ 57 then some (c.toNat - 48)
  else if 97 ≤ c ∧ c ≤ 102 then some (c.toNat - 87)
  else if 65 ≤ c ∧ c ≤ 70 then some (c.toNat - 55)
  else none

/-- A digit in base `radix`. -/
def IsDigit (radix : Nat) (c : UInt8) : Prop := ∃ d, digit c = some d ∧ d < radix

instance (radix : Nat) (c : UInt8) : Decidable (IsDigit radix c) :=
  decidable_of_iff ((digit c).any (· < radix)) (by
    cases h : digit c <;> simp [IsDigit, h])

/-- The number that digits stand for. -/
def number (radix : Nat) (digits : Bytes) : Nat :=
  digits.foldl (fun n c ↦ n * radix + (digit c).getD 0) 0

/-- A blank of ASCII. -/
def isBlank (c : UInt8) : Bool := c = 32 ∨ 9 ≤ c ∧ c ≤ 13

/-- The text without the blanks around it. -/
def strip (text : Bytes) : Bytes := (text.dropWhile isBlank).rdropWhile isBlank

theorem digit_of_isBlank {c : UInt8} (h : isBlank c = true) : digit c = none := by
  simp only [isBlank, decide_eq_true_eq] at h
  simp only [digit]
  grind

/-- A digit is not a blank, a sign or the mark of base 16. -/
theorem IsDigit.ne {radix : Nat} {c : UInt8} (h : IsDigit radix c) :
    isBlank c = false ∧ c ≠ 43 ∧ c ≠ 45 ∧ c ≠ 120 ∧ c ≠ 88 := by
  obtain ⟨d, hd, -⟩ := h
  have hne : ∀ e, digit e = none → c ≠ e := by
    rintro e he rfl
    exact absurd (he.symm.trans hd) (by simp)
  refine ⟨?_, hne 43 rfl, hne 45 rfl, hne 120 rfl, hne 88 rfl⟩
  by_contra hblank
  exact hne c (digit_of_isBlank (Bool.not_eq_false _ ▸ hblank)) rfl

/-! ### Spellings -/

inductive Sign
  | none
  | plus
  | minus
  deriving DecidableEq, Repr

def Sign.text : Sign → Bytes
  | none => []
  | plus => [43]
  | minus => [45]

inductive Base
  | decimal
  /-- Base 16, marked by this letter. -/
  | hex (upper : Bool)
  deriving DecidableEq, Repr

def Base.text : Base → Bytes
  | decimal => []
  | hex upper => [48, if upper then 88 else 120]

def Base.radix : Base → Nat
  | decimal => 10
  | hex _ => 16

/-- How a number is spelled. -/
structure Spelling where
  sign : Sign
  base : Base
  digits : Bytes
  deriving DecidableEq, Repr

namespace Spelling

def text (s : Spelling) : Bytes := s.sign.text ++ (s.base.text ++ s.digits)

/-- There are digits, and they are digits in the base. -/
structure Valid (s : Spelling) : Prop where
  ne_nil : s.digits ≠ []
  digits : ∀ c ∈ s.digits, IsDigit s.base.radix c

instance (s : Spelling) : Decidable s.Valid :=
  decidable_of_iff (s.digits.isEmpty = false ∧
      s.digits.all (fun c ↦ IsDigit s.base.radix c) = true)
    ⟨fun h ↦ ⟨List.isEmpty_eq_false_iff.mp h.1, by simpa using h.2⟩,
      fun h ↦ ⟨List.isEmpty_eq_false_iff.mpr h.ne_nil, by simpa using h.digits⟩⟩

def value (s : Spelling) : Int :=
  match s.sign with
  | .minus => -number s.base.radix s.digits
  | _ => number s.base.radix s.digits

/-- A spelling by digits only. -/
def plain (digits : Bytes) : Spelling := ⟨.none, .decimal, digits⟩

end Spelling

/-- The sign at the start of a text, and the text after it. -/
def sign : Bytes → Sign × Bytes
  | 43 :: rest => (.plus, rest)
  | 45 :: rest => (.minus, rest)
  | text => (.none, text)

/-- The base that the start of a text stands for, and the text after it. -/
def base : Bytes → Base × Bytes
  | 48 :: 120 :: rest => (.hex false, rest)
  | 48 :: 88 :: rest => (.hex true, rest)
  | text => (.decimal, text)

/-- The spelling of a text, valid if there is a valid one. -/
def spelling (text : Bytes) : Spelling :=
  ⟨(sign text).1, (base (sign text).2).1, (base (sign text).2).2⟩

theorem sign_text (text : Bytes) : (sign text).1.text ++ (sign text).2 = text := by
  unfold sign
  split <;> rfl

theorem base_text (text : Bytes) : (base text).1.text ++ (base text).2 = text := by
  unfold base
  split <;> rfl

theorem text_spelling (text : Bytes) : (spelling text).text = text := by
  rw [Spelling.text, spelling, base_text, sign_text]

/-- The base is found before digits. -/
theorem base_append {b : Base} {digits : Bytes} (h : ∀ c ∈ digits, IsDigit b.radix c) :
    base (b.text ++ digits) = (b, digits) := by
  cases b with
  | hex upper => cases upper <;> rfl
  | decimal =>
    change base digits = _
    unfold base
    split
    · exact absurd rfl (h 120 (by simp)).ne.2.2.2.1
    · exact absurd rfl (h 88 (by simp)).ne.2.2.2.2
    · rfl

/-- The sign is found before a base and digits. -/
theorem sign_append {s : Sign} {b : Base} {digits : Bytes} (h : ∀ c ∈ digits, IsDigit b.radix c) :
    sign (s.text ++ (b.text ++ digits)) = (s, b.text ++ digits) := by
  cases s with
  | plus | minus => rfl
  | none =>
    change sign (b.text ++ digits) = _
    cases b with
    | hex upper => rfl
    | decimal =>
      change sign digits = _
      unfold sign
      split
      · exact absurd rfl (h 43 (by simp)).ne.2.1
      · exact absurd rfl (h 45 (by simp)).ne.2.2.1
      · rfl

/-- A valid spelling is found from its text. -/
theorem spelling_text {s : Spelling} (h : s.Valid) : spelling s.text = s := by
  rw [spelling, Spelling.text, sign_append h.digits]
  simp only [base_append h.digits]

/-- Read a number that fits into 32 bits, with blanks around it. -/
def read (text : Bytes) : Option Int :=
  let s := spelling (strip text)
  if s.Valid ∧ -2 ^ 31 ≤ s.value ∧ s.value < 2 ^ 31 then some s.value else none

/-- What is read are the values of the valid spellings. -/
theorem read_eq_some_iff (text : Bytes) (v : Int) :
    read text = some v ↔
      (∃ s : Spelling, s.Valid ∧ s.text = strip text ∧ s.value = v) ∧ -2 ^ 31 ≤ v ∧ v < 2 ^ 31 := by
  rw [read, Option.ite_none_right_eq_some, Option.some.injEq]
  constructor
  · rintro ⟨⟨hvalid, hrange⟩, rfl⟩
    exact ⟨⟨_, hvalid, text_spelling _, rfl⟩, hrange⟩
  · rintro ⟨⟨s, hvalid, htext, rfl⟩, hrange⟩
    have hs : spelling (strip text) = s := by rw [← htext, spelling_text hvalid]
    rw [hs]
    exact ⟨⟨hvalid, hrange⟩, rfl⟩

/-! ### Digits only -/

/-- A text without blanks around it, without a sign and without the mark of base 16. -/
structure Plain (text : Bytes) : Prop where
  strip : strip text = text
  sign : (sign text).1 = .none
  base : (base text).1 = .decimal

theorem strip_of_digits {radix : Nat} {text : Bytes} (h : ∀ c ∈ text, IsDigit radix c) :
    strip text = text := by
  have hdrop : text.dropWhile isBlank = text := by
    rw [List.dropWhile_eq_self_iff]
    intro hlength
    simp [(h _ (List.getElem_mem hlength)).ne.1]
  rw [strip, hdrop, List.rdropWhile_eq_self_iff]
  intro hne
  simp [(h _ (List.getLast_mem hne)).ne.1]

/-- Digits are a plain text. -/
theorem plain_of_digits {text : Bytes} (h : ∀ c ∈ text, IsDigit 10 c) : Plain text where
  strip := strip_of_digits h
  sign := congrArg Prod.fst (sign_append (s := .none) (b := .decimal) h)
  base := congrArg Prod.fst (base_append (b := .decimal) h)

/-- The spelling of a plain text is the text. -/
theorem Plain.spelling {text : Bytes} (h : Plain text) :
    IntText.spelling text = .plain text := by
  have hsign := sign_text text
  have hbase := base_text text
  rw [h.sign, Sign.text, List.nil_append] at hsign
  rw [h.base, Base.text, List.nil_append] at hbase
  rw [IntText.spelling, hsign, h.sign, h.base, hbase]
  rfl

/-- What a plain text is read as. -/
theorem Plain.of_read {text : Bytes} (hplain : Plain text) {v : Int} (h : read text = some v) :
    text ≠ [] ∧ (∀ c ∈ text, IsDigit 10 c) ∧ v = number 10 text := by
  obtain ⟨⟨s, hvalid, htext, rfl⟩, -⟩ := (read_eq_some_iff text v).mp h
  obtain rfl : Spelling.plain text = s := by
    rw [← spelling_text hvalid, htext, hplain.strip, hplain.spelling]
  exact ⟨hvalid.ne_nil, hvalid.digits, rfl⟩

end CppDemo.IntText
