import AbilityScript.Proofs.Text.Numerals
import Mathlib.Data.List.Forall2

/-!
# Which texts are numerals

A numeral is written with digits, the most significant one first: decimal ones, or hexadecimal ones
behind a mark. A plus sign may come in front of the digits. What number it is for is said here without
reading it, and without a bound. Reading stops where the value so far is too large, and it looks at a
mark before anything else. Neither has an influence on which numerals are read: leading zeros add nothing
to a value, and what begins with a mark is not a decimal numeral.

## Main definitions

* `Numeral.IsDigitFor`, `Numeral.Writes`: a digit and its value, and digits and their number.
* `Numeral.StandsFor`: a numeral and its number.

## Main statements

* `Numeral.value?_eq_some_iff_standsFor`: a text is read if it is a numeral for a number that fits.
* `Numeral.standsFor_meaning`: the numerals that source text may contain are such.
-/

set_option autoImplicit false

namespace AbilityScript.Numeral

/-- A character is the digit for a value in a base. The digits from ten on are letters, small or
capital. -/
def IsDigitFor (base : Nat) (c : Char) (d : Nat) : Prop :=
  d < base ∧ (c = Nat.digitChar d ∨ c = (Nat.digitChar d).toUpper)

/-- At least one digit, and the number they make in a base with the most significant one first. -/
def Writes (base : Nat) (cs : Text) (v : Nat) : Prop :=
  cs ≠ [] ∧ ∃ ds, List.Forall₂ (IsDigitFor base) cs ds ∧ Nat.ofDigits base ds.reverse = v

/-- Digits, perhaps behind a plus sign, and their number. -/
def WritesSigned (base : Nat) (t : Text) (v : Nat) : Prop :=
  ∃ cs, (t = cs ∨ t = '+' :: cs) ∧ Writes base cs v

/-- A numeral and its number, whether or not that fits into a byte. -/
def StandsFor (t : Text) (v : Nat) : Prop :=
  WritesSigned 10 t v ∨
    ∃ x cs, (x = 'x' ∨ x = 'X') ∧ t = '0' :: x :: cs ∧ WritesSigned 16 cs v

section Digits

variable {base d v : Nat} {c : Char} {cs : Text} {ds : List Nat}

/-- A character is looked up as the value for which it is a digit. -/
theorem digitValue_eq_some_iff : digitValue c = some d ↔ IsDigitFor 16 c d := by
  constructor
  · intro h
    have hdecimal : ∀ n < 58, 48 ≤ n → Char.ofNat n = Nat.digitChar (n - 48) := by decide
    have hsmall : ∀ n < 103, 97 ≤ n → Char.ofNat n = Nat.digitChar (n - 97 + 10) := by decide
    have hcapital : ∀ n < 71, 65 ≤ n → Char.ofNat n = (Nat.digitChar (n - 65 + 10)).toUpper := by decide
    rw [← Char.ofNat_toNat c]
    obtain ⟨hle, hlt, hc⟩ | ⟨hle, hlt, hc⟩ | ⟨hle, hlt, hc⟩ | ⟨-, -, -, hc⟩ := digitValue_cases c
    · obtain rfl := Option.some.inj (hc.symm.trans h)
      exact ⟨by omega, .inl (hdecimal _ (by omega) hle)⟩
    · obtain rfl := Option.some.inj (hc.symm.trans h)
      exact ⟨by omega, .inl (hsmall _ (by omega) hle)⟩
    · obtain rfl := Option.some.inj (hc.symm.trans h)
      exact ⟨by omega, .inr (hcapital _ (by omega) hle)⟩
    · cases hc.symm.trans h
  · have hdigit : ∀ d < 16, digitValue (Nat.digitChar d) = some d ∧
        digitValue (Nat.digitChar d).toUpper = some d := by decide
    rintro ⟨hd, rfl | rfl⟩
    · exact (hdigit d hd).1
    · exact (hdigit d hd).2

/-- Reading a digit gives exactly the value that the digit is for. -/
theorem digitIn_eq_some_iff (hbase : base ≤ 16) : digitIn base c = some d ↔ IsDigitFor base c d := by
  rw [digitIn, Option.filter_eq_some_iff, digitValue_eq_some_iff, decide_eq_true_eq]
  constructor
  · rintro ⟨⟨-, hc⟩, hd⟩
    exact ⟨hd, hc⟩
  · rintro ⟨hd, hc⟩
    exact ⟨⟨Nat.lt_of_lt_of_le hd hbase, hc⟩, hd⟩

/-- Characters are digits for exactly the values that they have. -/
theorem forall₂_isDigitFor_iff (hbase : base ≤ 16) :
    List.Forall₂ (IsDigitFor base) cs ds ↔
      (∀ c ∈ cs, (digitIn base c).isSome) ∧ cs.map digit = ds := by
  induction cs generalizing ds with
  | nil =>
    rw [List.forall₂_nil_left_iff, List.map_nil]
    exact ⟨fun h => ⟨List.forall_mem_nil _, h.symm⟩, fun h => h.2.symm⟩
  | cons c cs ih =>
    rw [List.forall₂_cons_left_iff, List.forall_mem_cons, List.map_cons]
    constructor
    · rintro ⟨d, ds, hd, hds, rfl⟩
      rw [← digitIn_eq_some_iff hbase] at hd
      obtain ⟨hall, rfl⟩ := ih.1 hds
      exact ⟨⟨Option.isSome_of_eq_some hd, hall⟩, by rw [digitIn_eq_some hd]⟩
    · rintro ⟨⟨hc, hall⟩, rfl⟩
      obtain ⟨d, hd⟩ := Option.isSome_iff_exists.1 hc
      refine ⟨d, cs.map digit, (digitIn_eq_some_iff hbase).1 hd, ih.2 ⟨hall, rfl⟩, ?_⟩
      rw [digitIn_eq_some hd]

/-- A text writes a number exactly if it is digits of the base and they make that number. -/
theorem writes_iff (hbase : base ≤ 16) :
    Writes base cs v ↔
      cs ≠ [] ∧ (∀ c ∈ cs, (digitIn base c).isSome) ∧ magnitude base cs = v := by
  simp only [Writes, forall₂_isDigitFor_iff hbase, magnitude]
  constructor
  · rintro ⟨hne, ds, ⟨hall, rfl⟩, hv⟩
    exact ⟨hne, hall, hv⟩
  · rintro ⟨hne, hall, hv⟩
    exact ⟨hne, _, ⟨hall, rfl⟩, hv⟩

/-- Digits are read if the number they make fits. -/
theorem ofDigits_eq_some_iff_writes (hpos : 0 < base) (hbase : base ≤ 16) :
    ofDigits base cs = some v ↔ Writes base cs v ∧ v ≤ greatest := by
  rw [ofDigits_eq_some_iff hpos, writes_iff hbase]
  simp only [and_assoc]

/-- What begins with a character that is no digit is not written with digits. -/
theorem not_writes_cons (hbase : base ≤ 16) (hc : digitIn base c = none) : ¬Writes base (c :: cs) v := by
  rw [writes_iff hbase]
  rintro ⟨-, hall, -⟩
  have hsome := hall c List.mem_cons_self
  rw [hc] at hsome
  cases hsome

/-- A sign is no digit, so that digits behind one are told from digits without one. -/
theorem writesSigned_plus_iff (hbase : base ≤ 16) :
    WritesSigned base ('+' :: cs) v ↔ Writes base cs v := by
  have hplus : digitIn base '+' = none := by
    rw [digitIn, show digitValue '+' = none by decide]
    rfl
  constructor
  · rintro ⟨ds, hds | hds, h⟩
    · rw [← hds] at h
      exact absurd h (not_writes_cons hbase hplus)
    · rwa [(List.cons.inj hds).2]
  · exact fun h => ⟨cs, .inr rfl, h⟩

/-- A text without a plus sign in front writes a number with a sign exactly if it does without one. -/
theorem writesSigned_iff_writes (ht : ∀ ds, cs ≠ '+' :: ds) :
    WritesSigned base cs v ↔ Writes base cs v := by
  constructor
  · rintro ⟨ds, rfl | hds, h⟩
    · exact h
    · exact absurd hds (ht ds)
  · exact fun h => ⟨cs, .inl rfl, h⟩

/-- A text writes one number at most. -/
theorem Writes.unique {w : Nat} (hbase : base ≤ 16) (hv : Writes base cs v) (hw : Writes base cs w) :
    v = w := by
  rw [writes_iff hbase] at hv hw
  exact hv.2.2.symm.trans hw.2.2

/-- A text writes one number at most, a plus sign in front or not. -/
theorem WritesSigned.unique {w : Nat} (hbase : base ≤ 16) (hv : WritesSigned base cs v)
    (hw : WritesSigned base cs w) : v = w := by
  by_cases ht : ∃ ds, cs = '+' :: ds
  · obtain ⟨ds, rfl⟩ := ht
    rw [writesSigned_plus_iff hbase] at hv hw
    exact hv.unique hbase hw
  · rw [writesSigned_iff_writes (not_exists.1 ht)] at hv hw
    exact hv.unique hbase hw

/-- A sign makes no difference to which digits are read. -/
theorem ofSigned_eq_some_iff (hpos : 0 < base) (hbase : base ≤ 16) :
    ofSigned base cs = some v ↔ WritesSigned base cs v ∧ v ≤ greatest := by
  unfold ofSigned
  split
  case h_1 => rw [ofDigits_eq_some_iff_writes hpos hbase, writesSigned_plus_iff hbase]
  case h_2 hplus => rw [ofDigits_eq_some_iff_writes hpos hbase, writesSigned_iff_writes hplus]

end Digits

section Marks

variable {t cs : Text} {x : Char} {v : Nat}

/-- What begins with a mark is not decimal: a mark is neither a sign nor a decimal digit. -/
theorem not_writesSigned_ten_marked (hx : x = 'x' ∨ x = 'X') : ¬WritesSigned 10 ('0' :: x :: cs) v := by
  have hdigit : digitIn 10 x = none := by
    obtain rfl | rfl := hx
    · decide
    · decide
  rw [writesSigned_iff_writes (by simp), writes_iff (by decide)]
  rintro ⟨-, hall, -⟩
  have hsome := hall x (by simp)
  rw [hdigit] at hsome
  cases hsome

/-- Behind a mark a numeral stands for what its digits write in base sixteen. -/
theorem standsFor_marked_iff (hx : x = 'x' ∨ x = 'X') :
    StandsFor ('0' :: x :: cs) v ↔ WritesSigned 16 cs v := by
  constructor
  · rintro (h | ⟨y, ds, -, hds, h⟩)
    · exact absurd h (not_writesSigned_ten_marked hx)
    · rwa [(List.cons.inj (List.cons.inj hds).2).2]
  · exact fun h => .inr ⟨x, cs, hx, rfl, h⟩

/-- A numeral without a mark stands for what its digits write in base ten. -/
theorem standsFor_unmarked_iff (hx : ∀ cs, t ≠ '0' :: 'x' :: cs) (hX : ∀ cs, t ≠ '0' :: 'X' :: cs) :
    StandsFor t v ↔ WritesSigned 10 t v := by
  constructor
  · rintro (h | ⟨y, ds, rfl | rfl, hds, -⟩)
    · exact h
    · exact absurd hds (hx ds)
    · exact absurd hds (hX ds)
  · exact .inl

/-- A text is read as a value if it is a numeral for that value and the value fits. -/
theorem value?_eq_some_iff_standsFor : value? t = some v ↔ StandsFor t v ∧ v ≤ greatest := by
  unfold value?
  split
  case h_1 => rw [ofSigned_eq_some_iff (by decide) (by decide), standsFor_marked_iff (.inl rfl)]
  case h_2 => rw [ofSigned_eq_some_iff (by decide) (by decide), standsFor_marked_iff (.inr rfl)]
  case h_3 hx hX =>
    rw [ofSigned_eq_some_iff (by decide) (by decide), standsFor_unmarked_iff hx hX]

/-- No text is a numeral for two numbers. -/
theorem StandsFor.unique {w : Nat} (hv : StandsFor t v) (hw : StandsFor t w) : v = w := by
  obtain hv | ⟨x, cs, hx, rfl, hv⟩ := hv
  · obtain hw | ⟨x, cs, hx, rfl, -⟩ := hw
    · exact hv.unique (by decide) hw
    · exact absurd hv (not_writesSigned_ten_marked hx)
  · rw [standsFor_marked_iff hx] at hw
    exact hv.unique (by decide) hw

/-- A numeral in source text is one for the number that it denotes. -/
theorem standsFor_meaning (ht : isInteger t = true) : StandsFor t (meaning t) := by
  rw [isInteger, Bool.or_eq_true] at ht
  obtain ht | ht := ht
  · obtain ⟨hne, hdigits⟩ := digits_of_isDecimal ht
    have hwrites : Writes 10 t (meaning t) :=
      (writes_iff (by decide)).2 ⟨hne, hdigits, (value?_of_isDecimal ht).2.symm⟩
    exact .inl ⟨t, .inl rfl, hwrites⟩
  · obtain ⟨x, d, cs, rfl, hx, hd, hcs⟩ := isHexadecimal_iff.1 ht
    have hmeaning : magnitude 16 (d :: cs) = meaning ('0' :: x :: d :: cs) := by
      obtain rfl | rfl := hx
      · rfl
      · rfl
    have hwrites : Writes 16 (d :: cs) (meaning ('0' :: x :: d :: cs)) :=
      (writes_iff (by decide)).2 ⟨List.cons_ne_nil d cs, digits_of_isHexDigit hd hcs, hmeaning⟩
    exact (standsFor_marked_iff hx).2 ⟨d :: cs, .inl rfl, hwrites⟩

end Marks

end AbilityScript.Numeral
