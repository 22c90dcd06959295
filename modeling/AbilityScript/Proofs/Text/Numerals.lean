import AbilityScript.Proofs.Source.PrintedWords
import AbilityScript.Text.Numeral
import Mathlib.Data.Nat.Digits.Defs

/-!
# The values of numerals

A numeral is read digit by digit, and reading ends as soon as the value so far exceeds what fits into a
byte. Digits only ever make a value larger, so nothing is refused too early: a numeral is read exactly
if the number that it denotes fits, however many zeros it begins with.

## Main definitions

* `Numeral.magnitude`: the number that digits denote in a base.
* `isInteger`, `Numeral.meaning`: the numerals that source text may contain, and what they denote.

## Main statements

* `Numeral.ofDigits_eq_some_iff`: which digits are read, and as what.
* `Numeral.value?_eq_some_iff`: what is read of the numerals in source text.
-/

set_option autoImplicit false

namespace AbilityScript

/-- Whether a text is a hexadecimal numeral with its mark. -/
def isHexadecimal : Text → Bool
  | z :: x :: d :: cs => z == '0' && isHexMark x && isHexDigit d && cs.all isHexDigit
  | _ => false

/-- Whether a text is a numeral as it may stand in source text. -/
def isInteger (t : Text) : Bool :=
  isDecimal t || isHexadecimal t

/-- A hexadecimal numeral is a zero, a mark and at least one hexadecimal digit. -/
theorem isHexadecimal_iff {t : Text} :
    isHexadecimal t = true ↔ ∃ x d cs, t = '0' :: x :: d :: cs ∧ (x = 'x' ∨ x = 'X') ∧
      isHexDigit d = true ∧ cs.all isHexDigit = true := by
  unfold isHexadecimal
  split <;> simp_all [isHexMark, and_assoc]

namespace Numeral

/-- The value of a digit, whatever base it is a digit of. -/
def digit (c : Char) : Nat :=
  (digitValue c).getD 0

/-- The number that digits denote, the first digit being the most significant one. -/
def magnitude (base : Nat) (cs : Text) : Nat :=
  Nat.ofDigits base (cs.map digit).reverse

/-- The number that a numeral denotes, which is hexadecimal if it begins with a mark. -/
def meaning : Text → Nat
  | '0' :: 'x' :: cs => magnitude 16 cs
  | '0' :: 'X' :: cs => magnitude 16 cs
  | cs => magnitude 10 cs

section Digits

variable {base acc v : Nat} {c : Char} {cs : Text}

/-- The first digit counts as often as the base to the number of the others. -/
theorem magnitude_cons (base : Nat) (c : Char) (cs : Text) :
    magnitude base (c :: cs) = digit c * base ^ cs.length + magnitude base cs := by
  rw [magnitude, List.map_cons, Nat.ofDigits_reverse_cons, List.length_map, magnitude]
  ring

/-- A digit that is read has the value of the digit. -/
theorem digitIn_eq_some {d : Nat} (h : digitIn base c = some d) : digit c = d := by
  rw [digit, (Option.filter_eq_some_iff.1 h).1]
  rfl

/-- Reading goes through to the end if the value with all digits fits. -/
theorem accumulate_eq_some_iff (hbase : 0 < base) (hacc : acc ≤ greatest) :
    accumulate base acc cs = some v ↔
      (∀ c ∈ cs, (digitIn base c).isSome) ∧ acc * base ^ cs.length + magnitude base cs = v ∧
        v ≤ greatest := by
  induction cs generalizing acc with
  | nil =>
    simp only [accumulate, Option.some.injEq, List.length_nil, Nat.pow_zero, Nat.mul_one, magnitude,
      List.map_nil, List.reverse_nil, Nat.ofDigits_nil, Nat.add_zero]
    constructor
    · rintro rfl
      exact ⟨by simp, rfl, hacc⟩
    · exact fun h => h.2.1
  | cons c cs ih =>
    rw [accumulate]
    cases hd : digitIn base c with
    | none => simp [hd]
    | some d =>
      have hvalue : acc * base ^ (c :: cs).length + magnitude base (c :: cs) =
          (acc * base + d) * base ^ cs.length + magnitude base cs := by
        rw [magnitude_cons, digitIn_eq_some hd, List.length_cons]
        ring
      have hle : acc * base + d ≤ (acc * base + d) * base ^ cs.length :=
        Nat.le_mul_of_pos_right _ (Nat.pow_pos hbase)
      rw [hvalue]
      by_cases hfits : acc * base + d ≤ greatest
      · simp [hfits, ih hfits, hd]
      · simp only [hfits, if_false, reduceCtorEq, false_iff]
        rintro ⟨-, rfl, hv⟩
        omega

/-- Digits are read if there is at least one, all are digits of the base, and the number that they
denote fits. -/
theorem ofDigits_eq_some_iff (hbase : 0 < base) :
    ofDigits base cs = some v ↔
      cs ≠ [] ∧ (∀ c ∈ cs, (digitIn base c).isSome) ∧ magnitude base cs = v ∧ v ≤ greatest := by
  cases cs with
  | nil => simp [ofDigits]
  | cons c cs =>
    have hread : ofDigits base (c :: cs) = accumulate base 0 (c :: cs) := rfl
    rw [hread, accumulate_eq_some_iff hbase (Nat.zero_le _)]
    simp

end Digits

section Characters

/-- The decimal digits by their code points. -/
theorem isDigit_iff (c : Char) : c.isDigit = true ↔ 48 ≤ c.toNat ∧ c.toNat ≤ 57 := by
  have hdigit : c.isDigit = (decide (48 ≤ c.toNat) && decide (c.toNat ≤ 57)) := rfl
  simp [hdigit]

/-- The hexadecimal digits by their code points. -/
theorem isHexDigit_iff (c : Char) :
    isHexDigit c = true ↔ (48 ≤ c.toNat ∧ c.toNat ≤ 57) ∨ (97 ≤ c.toNat ∧ c.toNat ≤ 102) ∨
      (65 ≤ c.toNat ∧ c.toNat ≤ 70) := by
  have hlower : ('a' ≤ c ∧ c ≤ 'f') ↔ 97 ≤ c.toNat ∧ c.toNat ≤ 102 := Iff.rfl
  have hupper : ('A' ≤ c ∧ c ≤ 'F') ↔ 65 ≤ c.toNat ∧ c.toNat ≤ 70 := Iff.rfl
  simp [isHexDigit, isDigit_iff, hlower, hupper, or_assoc]

/-- The value of a digit lies between those of the first and the last digit of its kind. -/
theorem digitValue_cases (c : Char) :
    (48 ≤ c.toNat ∧ c.toNat ≤ 57 ∧ digitValue c = some (c.toNat - 48)) ∨
      (97 ≤ c.toNat ∧ c.toNat ≤ 102 ∧ digitValue c = some (c.toNat - 97 + 10)) ∨
      (65 ≤ c.toNat ∧ c.toNat ≤ 70 ∧ digitValue c = some (c.toNat - 65 + 10)) ∨
      (¬(48 ≤ c.toNat ∧ c.toNat ≤ 57) ∧ ¬(97 ≤ c.toNat ∧ c.toNat ≤ 102) ∧
        ¬(65 ≤ c.toNat ∧ c.toNat ≤ 70) ∧ digitValue c = none) := by
  unfold digitValue
  split
  case isTrue h => exact .inl ⟨h.1, h.2, rfl⟩
  case isFalse hdigit =>
    split
    case isTrue h => exact .inr (.inl ⟨h.1, h.2, rfl⟩)
    case isFalse hlower =>
      split
      case isTrue h => exact .inr (.inr (.inl ⟨h.1, h.2, rfl⟩))
      case isFalse hupper => exact .inr (.inr (.inr ⟨hdigit, hlower, hupper, rfl⟩))

/-- The digits of base ten are the decimal digits. -/
theorem isSome_digitIn_ten (c : Char) : (digitIn 10 c).isSome = c.isDigit := by
  rw [Bool.eq_iff_iff, isDigit_iff, digitIn]
  obtain ⟨_, _, h⟩ | ⟨_, _, h⟩ | ⟨_, _, h⟩ | ⟨_, _, _, h⟩ := digitValue_cases c <;>
    simp [h, Option.filter] <;> omega

/-- The digits of base sixteen are the hexadecimal digits. -/
theorem isSome_digitIn_sixteen (c : Char) : (digitIn 16 c).isSome = isHexDigit c := by
  rw [Bool.eq_iff_iff, isHexDigit_iff, digitIn]
  obtain ⟨_, _, h⟩ | ⟨_, _, h⟩ | ⟨_, _, h⟩ | ⟨_, _, _, h⟩ := digitValue_cases c <;>
    simp [h, Option.filter] <;> omega

end Characters

section Words

variable {t : Text} {v : Nat}

/-- Digits do not begin with a sign. -/
theorem ofSigned_of_isHexDigit {base : Nat} {d : Char} (hd : isHexDigit d = true) (cs : Text) :
    ofSigned base (d :: cs) = ofDigits base (d :: cs) := by
  unfold ofSigned
  split
  case h_1 h =>
    obtain ⟨rfl, -⟩ := List.cons.inj h
    exact absurd hd (by decide)
  case h_2 => rfl

/-- A decimal digit is a hexadecimal one. -/
theorem isHexDigit_of_isDigit {c : Char} (h : c.isDigit = true) : isHexDigit c = true := by
  simp [isHexDigit, h]

/-- A numeral of decimal digits bears no mark. -/
theorem value?_of_isDecimal (ht : isDecimal t = true) :
    value? t = ofDigits 10 t ∧ meaning t = magnitude 10 t := by
  cases t with
  | nil => exact absurd ht (by decide)
  | cons c cs =>
    rw [isDecimal, Bool.and_eq_true, List.all_eq_true] at ht
    have hmark : ∀ x, isHexMark x = true → ∀ u, c :: cs ≠ '0' :: x :: u := by
      rintro x hx u h
      obtain ⟨rfl, rfl⟩ := List.cons.inj h
      have hdigit := ht.2 x List.mem_cons_self
      simp only [isHexMark, Bool.or_eq_true, beq_iff_eq] at hx
      obtain rfl | rfl := hx <;> exact absurd hdigit (by decide)
    constructor
    · unfold value?
      split
      case h_1 h => exact absurd h (hmark 'x' rfl _)
      case h_2 h => exact absurd h (hmark 'X' rfl _)
      case h_3 => exact ofSigned_of_isHexDigit (isHexDigit_of_isDigit ht.1) cs
    · unfold meaning
      split
      case h_1 h => exact absurd h (hmark 'x' rfl _)
      case h_2 h => exact absurd h (hmark 'X' rfl _)
      case h_3 => rfl

/-- A numeral of hexadecimal digits bears a mark in front of them. -/
theorem exists_of_isHexadecimal (ht : isHexadecimal t = true) :
    ∃ d cs, isHexDigit d = true ∧ cs.all isHexDigit = true ∧ value? t = ofDigits 16 (d :: cs) ∧
      meaning t = magnitude 16 (d :: cs) := by
  obtain ⟨x, d, cs, rfl, rfl | rfl, hd, hcs⟩ := isHexadecimal_iff.1 ht
  · exact ⟨d, cs, hd, hcs, ofSigned_of_isHexDigit hd cs, rfl⟩
  · exact ⟨d, cs, hd, hcs, ofSigned_of_isHexDigit hd cs, rfl⟩

/-- A decimal numeral is digits of base ten, and at least one. -/
theorem digits_of_isDecimal (ht : isDecimal t = true) :
    t ≠ [] ∧ ∀ c ∈ t, (digitIn 10 c).isSome := by
  cases t with
  | nil => exact absurd ht (by decide)
  | cons c cs =>
    rw [isDecimal, ← List.all_cons, List.all_eq_true] at ht
    refine ⟨List.cons_ne_nil c cs, fun d hd => ?_⟩
    rw [isSome_digitIn_ten, ht d hd]

/-- The digits of a hexadecimal numeral are digits of base sixteen. -/
theorem digits_of_isHexDigit {d : Char} {cs : Text} (hd : isHexDigit d = true)
    (hcs : cs.all isHexDigit = true) : ∀ c ∈ d :: cs, (digitIn 16 c).isSome := by
  intro c hc
  rw [isSome_digitIn_sixteen]
  obtain rfl | hc := List.mem_cons.1 hc
  · exact hd
  · exact List.all_eq_true.1 hcs c hc

/-- A numeral in source text is read exactly if the number that it denotes fits into a byte. -/
theorem value?_eq_some_iff (ht : isInteger t = true) :
    value? t = some v ↔ meaning t = v ∧ v ≤ greatest := by
  rw [isInteger, Bool.or_eq_true] at ht
  obtain ht | ht := ht
  · obtain ⟨hvalue, hmeaning⟩ := value?_of_isDecimal ht
    obtain ⟨hne, hdigits⟩ := digits_of_isDecimal ht
    rw [hvalue, hmeaning, ofDigits_eq_some_iff (by decide)]
    exact ⟨fun h => h.2.2, fun h => ⟨hne, hdigits, h⟩⟩
  · obtain ⟨d, cs, hd, hcs, hvalue, hmeaning⟩ := exists_of_isHexadecimal ht
    rw [hvalue, hmeaning, ofDigits_eq_some_iff (by decide)]
    exact ⟨fun h => h.2.2, fun h => ⟨List.cons_ne_nil d cs, digits_of_isHexDigit hd hcs, h⟩⟩

end Words

end Numeral

end AbilityScript
