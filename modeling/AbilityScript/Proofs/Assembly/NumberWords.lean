import AbilityScript.Proofs.Assembly.LineGrammar
import AbilityScript.Proofs.Text.NumeralForms

/-!
# Numbers in source text

An integer in source text is a numeral for exactly one number, which may be as large as one likes. Where
an amount or a constant is expected, the integer is taken if that number lies in the range, and only
then. It is stored as what it exceeds the least number of the range by, so no number is stored as another
one, and whatever is not taken is reported with its text and the range.

## Main definitions

* `ReadsNumber`: a reader takes a word for a number in a range.

## Main statements

* `readsNumber_readInteger`: an integer is read as the number for which it is a numeral.
* `numbers_read_exactly`: which texts are read as numbers, and what becomes of the integers in a text.
-/

set_option autoImplicit false

namespace AbilityScript

open ByteCoded (toByte)

/-- A reader takes a word for a number if that lies in a range, and rejects the word otherwise. What is
stored is by how much the number exceeds the least one. -/
structure ReadsNumber {α : Type} [ByteCoded α] (read : Word → WordResult α) (role : Role)
    (least greatest : Nat) (w : Word) (n : Nat) : Prop where
  isOk_iff : (∃ a, read w = .ok a) ↔ least ≤ n ∧ n ≤ greatest
  stored : ∀ a, read w = .ok a → least + (toByte a).toNat = n
  rejected : ¬(least ≤ n ∧ n ≤ greatest) →
    read w = .error ⟨.badLiteral role w.value.text least greatest, w.span⟩

section Readers

variable {α : Type} {role : Role} {least greatest : Nat} {ofValue? : Nat → Option α} {w : Word}

/-- What is not read is reported with its text and the range. -/
theorem readInteger_eq_error (h : ∀ a, readInteger role least greatest ofValue? w ≠ .ok a) :
    readInteger role least greatest ofValue? w =
      .error ⟨.badLiteral role w.value.text least greatest, w.span⟩ := by
  unfold readInteger at h ⊢
  split
  case h_1 a hvalue =>
    rw [hvalue] at h
    exact absurd rfl (h a)
  case h_2 => rfl

/-- Names and stray characters are not read as numbers. -/
theorem readInteger_of_kind_ne (hkind : w.value.kind ≠ .integer) :
    readInteger role least greatest ofValue? w =
      .error ⟨.badLiteral role w.value.text least greatest, w.span⟩ := by
  have hnone : w.value.byteValue? = none := by
    unfold Lexeme.byteValue?
    split
    case h_1 h => exact absurd h hkind
    case h_2 | h_3 => rfl
  rw [readInteger, hnone]
  rfl

/-- An integer is read as the number for which it is a numeral, if there is a member of that value. -/
theorem readsNumber_readInteger [ByteCoded α]
    (hvalue : ∀ a m, ofValue? m = some a ↔ least + (toByte a).toNat = m)
    (hcount : least + ByteCoded.count α = greatest + 1) (hgreatest : greatest ≤ Numeral.greatest)
    (hw : w.value.HasShape) (hinteger : w.value.kind = .integer) :
    ReadsNumber (readInteger role least greatest ofValue?) role least greatest w
      (Numeral.meaning w.value.text) := by
  have hle : ∀ a : α, least + (toByte a).toNat ≤ greatest := by
    intro a
    have hlt := (ByteCoded.index a).isLt
    rw [ByteCoded.toNat_toByte]
    omega
  have hread : ∀ a, readInteger role least greatest ofValue? w = .ok a ↔
      least + (toByte a).toNat = Numeral.meaning w.value.text := by
    intro a
    rw [readInteger_eq_ok_iff hw (hvalue a) (Nat.le_trans (hle a) hgreatest)]
    exact ⟨fun h => h.2.symm, fun h => ⟨hinteger, h.symm⟩⟩
  have hok : (∃ a, readInteger role least greatest ofValue? w = .ok a) ↔
      least ≤ Numeral.meaning w.value.text ∧ Numeral.meaning w.value.text ≤ greatest := by
    constructor
    · rintro ⟨a, ha⟩
      have hstored := (hread a).1 ha
      have hstoredLe := hle a
      omega
    · rintro ⟨hleast, hmost⟩
      let number : Fin (ByteCoded.count α) := ⟨Numeral.meaning w.value.text - least, by omega⟩
      refine ⟨ByteCoded.ofIndex number, (hread _).2 ?_⟩
      rw [ByteCoded.toNat_toByte, ByteCoded.index_ofIndex]
      exact Nat.add_sub_of_le hleast
  refine ⟨hok, fun a => (hread a).1, fun hout => ?_⟩
  apply readInteger_eq_error
  intro a ha
  exact hout (hok.1 ⟨a, ha⟩)

/-- A numeral is read as an amount exactly if it stands for a number from 1 to 4. -/
theorem readsNumber_readAmount (hw : w.value.HasShape) (hinteger : w.value.kind = .integer) :
    ReadsNumber readAmount .amount 1 4 w (Numeral.meaning w.value.text) := by
  refine readsNumber_readInteger (fun a m => ?_) rfl (by decide) hw hinteger
  rw [Amount.ofValue?_eq_some_iff, ByteCoded.toNat_toByte, Nat.add_comm]
  rfl

/-- A numeral is read as a constant exactly if it stands for a number up to 15. -/
theorem readsNumber_readImmediate (hw : w.value.HasShape) (hinteger : w.value.kind = .integer) :
    ReadsNumber readImmediate .immediate 0 15 w (Numeral.meaning w.value.text) := by
  refine readsNumber_readInteger (fun v m => ?_) rfl (by decide) hw hinteger
  rw [Immediate.ofValue?_eq_some_iff, ByteCoded.toNat_toByte, Nat.zero_add]
  rfl

end Readers

section Operands

variable {o : Operand} {i : Instruction}

/-- The operands of an action are names and amounts. -/
theorem Action.operand_cases {a : Action} (h : o ∈ a.operands) :
    (∃ t b, o = .named t b) ∨ ∃ n, o = .ofAmount n := by
  cases a with
  | damage t n | heal t n =>
    obtain rfl | h := List.mem_cons.1 h
    · exact .inl ⟨_, _, rfl⟩
    · exact .inr ⟨n, List.mem_singleton.1 h⟩
  | buffStat t s n | debuffStat t s n =>
    obtain rfl | h := List.mem_cons.1 h
    · exact .inl ⟨_, _, rfl⟩
    obtain rfl | h := List.mem_cons.1 h
    · exact .inl ⟨_, _, rfl⟩
    · exact .inr ⟨n, List.mem_singleton.1 h⟩
  | draw n | discard n | createToken n => exact .inr ⟨n, List.mem_singleton.1 h⟩
  | destroy t => exact .inl ⟨_, _, List.mem_singleton.1 h⟩

/-- The operands of a side are names and constants. -/
theorem Side.operand_cases {s : Side} (h : o ∈ s.operands) :
    (∃ t b, o = .named t b) ∨ ∃ v, o = .ofImmediate v := by
  cases s with
  | imm v =>
    obtain rfl | h := List.mem_cons.1 h
    · exact .inl ⟨_, _, rfl⟩
    · exact .inr ⟨v, List.mem_singleton.1 h⟩
  | statOf t s =>
    obtain rfl | h := List.mem_cons.1 h
    · exact .inl ⟨_, _, rfl⟩
    obtain rfl | h := List.mem_cons.1 h
    · exact .inl ⟨_, _, rfl⟩
    · exact .inl ⟨_, _, List.mem_singleton.1 h⟩

/-- The numbers among the operands of an instruction are constants if it is a conditional, and amounts
otherwise. -/
theorem Instruction.operand_cases (h : o ∈ i.operands) :
    (∃ t b, o = .named t b) ∨ (i.opcode ≠ .ifTest ∧ ∃ n, o = .ofAmount n) ∨
      (i.opcode = .ifTest ∧ ∃ v, o = .ofImmediate v) := by
  cases i with
  | action a =>
    have hopcode : (Instruction.action a).opcode ≠ .ifTest := by
      cases a <;> exact nofun
    exact (Action.operand_cases h).imp_right fun hnumber => .inl ⟨hopcode, hnumber⟩
  | ifTest c =>
    obtain rfl | h := List.mem_cons.1 h
    · exact .inl ⟨_, _, rfl⟩
    · have hside := (List.mem_append.1 h).elim Side.operand_cases Side.operand_cases
      exact hside.imp_right fun hnumber => .inr ⟨rfl, hnumber⟩
  | whenEvent e => exact .inl ⟨_, _, List.mem_singleton.1 h⟩
  | elseMark | endIf | endWhen | stop => cases h

variable {w : Word} {ws vs : List Word}

/-- An integer among words that are written for the operands of an instruction is read as an amount or a
constant, and the byte at its place is the one that stores that. -/
theorem Instruction.number_encoded (h : Operand.AreSpelled i.operands (ws ++ w :: vs))
    (hw : w.value.HasShape) (hinteger : w.value.kind = .integer) :
    (i.opcode ≠ .ifTest ∧ ∃ n, readAmount w = .ok n ∧ i.encode[ws.length + 1]? = some (toByte n)) ∨
      (i.opcode = .ifTest ∧
        ∃ v, readImmediate w = .ok v ∧ i.encode[ws.length + 1]? = some (toByte v)) := by
  obtain ⟨front, back, hoperands, hfront, hback⟩ := Operand.exists_append_of_areSpelled h
  obtain ⟨o, back, ho, -, rfl⟩ := List.forall₂_cons_right_iff.1 hback
  have hbyte : i.encode[ws.length + 1]? = some o.byte := by
    rw [i.encode_eq, hoperands, ← hfront.length_eq]
    simp
  have hmem : o ∈ i.operands := by
    rw [hoperands]
    exact List.mem_append_right _ List.mem_cons_self
  rw [hbyte]
  obtain ⟨t, b, rfl⟩ | ⟨hopcode, n, rfl⟩ | ⟨hopcode, v, rfl⟩ := Instruction.operand_cases hmem
  · cases hinteger.symm.trans ho.1
  · exact .inl ⟨hopcode, n, (readAmount_eq_ok_iff hw).2 ho, rfl⟩
  · exact .inr ⟨hopcode, v, (readImmediate_eq_ok_iff hw).2 ho, rfl⟩

end Operands

/-- A text is read as a value exactly if it consists of decimal digits, or of hexadecimal ones behind a
mark, perhaps with a plus sign in front of them, and the value is the number that the digits make, which
has to fit into a byte. So an integer of a source text stands for one number, however long it is. It is
taken for an amount if that number is one to four and for a constant if it is at most fifteen, and
rejected otherwise, as any other word is. The byte that stores it in an instruction is the one for that
very number. -/
theorem numbers_read_exactly (source : Text) :
    (∀ t v, Numeral.value? t = some v ↔ Numeral.StandsFor t v ∧ v ≤ 255) ∧
    (∀ w ∈ sourceWords source, w.value.kind = .integer → ∃ n,
      (∀ m, Numeral.StandsFor w.value.text m ↔ m = n) ∧ ReadsNumber readAmount .amount 1 4 w n ∧
        ReadsNumber readImmediate .immediate 0 15 w n) ∧
    (∀ w : Word, w.value.kind ≠ .integer →
      readAmount w = .error ⟨.badLiteral .amount w.value.text 1 4, w.span⟩ ∧
        readImmediate w = .error ⟨.badLiteral .immediate w.value.text 0 15, w.span⟩) ∧
    ∀ l ∈ sourceLines source, ∀ i, assembleLine l = .ok i →
      ∀ ws w vs, l.tail = ws ++ w :: vs → w.value.kind = .integer →
        (i.opcode ≠ .ifTest ∧ ∃ n, readAmount w = .ok n ∧ i.encode[ws.length + 1]? = some (toByte n)) ∨
          (i.opcode = .ifTest ∧
            ∃ v, readImmediate w = .ok v ∧ i.encode[ws.length + 1]? = some (toByte v)) := by
  refine ⟨fun t v => Numeral.value?_eq_some_iff_standsFor, ?_, ?_, ?_⟩
  · intro w hw hinteger
    obtain ⟨front, p, back, number, hat⟩ := mem_sourceWords_iff.1 hw
    obtain ⟨-, hshape, -⟩ := hat.hasShape
    have hnumeral : Numeral.StandsFor w.value.text (Numeral.meaning w.value.text) := by
      apply Numeral.standsFor_meaning
      rwa [Lexeme.HasShape, hinteger] at hshape
    refine ⟨Numeral.meaning w.value.text, fun m => ?_, readsNumber_readAmount hshape hinteger,
      readsNumber_readImmediate hshape hinteger⟩
    constructor
    · exact fun hm => hm.unique hnumeral
    · rintro rfl
      exact hnumeral
  · intro w hkind
    exact ⟨readInteger_of_kind_ne hkind, readInteger_of_kind_ne hkind⟩
  · intro l hl i hi ws w vs htail hinteger
    have hshape := hasShape_of_mem_sourceLines hl
    obtain ⟨-, -, -, hspelled⟩ := (assembleLine_eq_ok_iff hshape).1 hi
    rw [htail] at hspelled
    refine Instruction.number_encoded hspelled (hshape w ?_) hinteger
    apply List.mem_cons_of_mem
    rw [htail]
    exact List.mem_append_right _ List.mem_cons_self

/-- A constant with zeros in front, a number that exceeds a byte by two and is not taken for one, and a
numeral with a sign, which no integer of a source text bears. -/
theorem numbers_read_exactly_beyond_bytes :
    let source := "IF GT IMM 0x0000F IMM 007\nDRAW 257".toList
    let conditional := (sourceLines source).head (by decide +kernel)
    let last := (sourceWords source).getLast (by decide +kernel)
    assembleLine conditional = .ok (.ifTest ⟨.gt, .imm ⟨15⟩, .imm ⟨7⟩⟩) ∧
      readAmount last = .error ⟨.badLiteral .amount "257".toList 1 4, last.span⟩ ∧
      (∀ m, Numeral.StandsFor "257".toList m ↔ m = 257) ∧
      Numeral.StandsFor "0X+00fF".toList 255 := by
  intro source conditional last
  have hlast : last.value = ⟨.integer, "257".toList⟩ := by decide +kernel
  obtain ⟨hvalue, hinteger, -, -⟩ := numbers_read_exactly source
  obtain ⟨n, hnumeral, hamount, -⟩ := hinteger last (List.getLast_mem _) (by rw [hlast])
  rw [hlast] at hnumeral
  obtain rfl : 257 = n := (hnumeral 257).1 (Numeral.standsFor_meaning (by decide))
  refine ⟨by decide +kernel, ?_, hnumeral, ((hvalue _ 255).1 (by decide)).1⟩
  rw [hamount.rejected (by omega), hlast]

end AbilityScript
