import AbilityScript.Assembly.Basic
import AbilityScript.Proofs.Source.PrintedWords

/-!
# Assembling printed instructions

The line that shows an instruction assembles to that instruction: each of its words is read as the
operand that was printed. So a text of such lines, however they are indented, assembles to the
instructions in order.

## Main definitions

* `Instruction.lexemes`: the words of the line that shows an instruction.

## Main statements

* `assembleLine_of_lexemes`: a line with these words assembles to the instruction.
* `map_assembleLine_rows`: so do all lines of a printed text.
-/

set_option autoImplicit false

namespace AbilityScript

section Printable

/-- Labels are names if they are so one by one. -/
theorem isName_name {α : Type} [Labelled α]
    (h : ((Labelled.labels α).all fun l => isName l.toList) = true) (a : α) :
    isName (Labelled.name a) = true := by
  rw [List.all_eq_true] at h
  exact h _ (List.mem_map_of_mem (ByteCoded.mem_all a))

/-- Targets are printed as names. -/
@[simp] theorem isName_target (t : Target) : isName (Labelled.name t) = true :=
  isName_name (by decide) t

/-- Stats are printed as names. -/
@[simp] theorem isName_stat (s : Stat) : isName (Labelled.name s) = true :=
  isName_name (by decide) s

/-- Comparators are printed as names. -/
@[simp] theorem isName_comparator (c : Comparator) : isName (Labelled.name c) = true :=
  isName_name (by decide) c

/-- Events are printed as names. -/
@[simp] theorem isName_event (e : Event) : isName (Labelled.name e) = true :=
  isName_name (by decide) e

/-- The kinds of sides are printed as names. -/
@[simp] theorem isName_sideKind (k : SideKind) : isName (Labelled.name k) = true :=
  isName_name (by decide) k

/-- Mnemonics are names. -/
@[simp] theorem isName_opcode (op : Opcode) : isName (Labelled.name op) = true :=
  isName_name (by decide) op

/-- An amount is printed as a decimal numeral for it. -/
theorem Amount.text_facts (n : Amount) :
    isName n.text = false ∧ isDecimal n.text = true ∧ Numeral.value? n.text = some n.value := by
  obtain ⟨k⟩ := n
  revert k
  decide

/-- A constant is printed as a decimal numeral for it. -/
theorem Immediate.text_facts (v : Immediate) :
    isName v.text = false ∧ isDecimal v.text = true ∧
      Numeral.value? v.text = some v.value.val := by
  obtain ⟨k⟩ := v
  revert k
  decide

/-- Every name may be printed. -/
theorem isPrintable_of_isName {t : Text} (h : isName t = true) : isPrintable t = true := by
  rw [isPrintable, h, Bool.true_or]

/-- What is printed for an amount is one word. -/
@[simp] theorem Amount.isPrintable_text (n : Amount) : isPrintable n.text = true := by
  rw [isPrintable, n.text_facts.2.1, Bool.or_true]

/-- What is printed for a constant is one word. -/
@[simp] theorem Immediate.isPrintable_text (v : Immediate) : isPrintable v.text = true := by
  rw [isPrintable, v.text_facts.2.1, Bool.or_true]

/-- What is printed for a side is words. -/
theorem Side.isPrintable_words (s : Side) : ∀ w ∈ s.words, isPrintable w = true := by
  cases s <;> simp [Side.words, isPrintable_of_isName]

/-- What is printed for an action is words. -/
theorem Action.isPrintable_words (a : Action) : ∀ w ∈ a.words, isPrintable w = true := by
  cases a <;> simp [Action.words, isPrintable_of_isName]

namespace Instruction

/-- The words of the line that shows an instruction. -/
def words (i : Instruction) : List Text :=
  Labelled.name i.opcode :: i.operandWords

/-- The words of that line as they are read. -/
def lexemes (i : Instruction) : List Lexeme :=
  i.words.map Lexeme.ofPrinted

/-- What is printed for an instruction is words. -/
theorem isPrintable_words (i : Instruction) : ∀ w ∈ i.words, isPrintable w = true := by
  intro w hw
  obtain rfl | hw := List.mem_cons.1 hw
  · exact isPrintable_of_isName (isName_opcode i.opcode)
  · cases i with
    | action a => exact a.isPrintable_words w hw
    | ifTest c =>
      obtain rfl | hw := List.mem_cons.1 hw
      · exact isPrintable_of_isName (isName_comparator c.cmp)
      · obtain hw | hw := List.mem_append.1 hw
        · exact c.lhs.isPrintable_words w hw
        · exact c.rhs.isPrintable_words w hw
    | whenEvent e =>
      obtain rfl := List.mem_singleton.1 hw
      exact isPrintable_of_isName (isName_event e)
    | elseMark | endIf | endWhen | stop => exact absurd hw List.not_mem_nil

end Instruction

end Printable

section Operands

variable {w : Word} {ws : List Word}

/-- A word that was printed for a member of a list is read as that member. -/
theorem readName_of_value {α : Type} [Labelled α] {a : α} (role : Role)
    (h : w.value = Lexeme.ofPrinted (Labelled.name a)) : readName role w = .ok a := by
  have hlookup : Labelled.ofName? w.value.text = some a := by
    rw [h]
    exact Labelled.ofName?_eq_some_iff.2 rfl
  rw [readName, hlookup]

/-- A word that was printed for an amount is read as it. -/
theorem readAmount_of_value {n : Amount} (h : w.value = Lexeme.ofPrinted n.text) :
    readAmount w = .ok n := by
  have hvalue : w.value.byteValue?.bind Amount.ofValue? = some n := by
    rw [h]
    simp only [Lexeme.byteValue?, Lexeme.ofPrinted, n.text_facts, Bool.false_eq_true, if_false,
      Option.bind_some]
    exact Amount.ofValue?_eq_some_iff.2 rfl
  rw [readAmount, readInteger, hvalue]

/-- A word that was printed for a constant is read as it. -/
theorem readImmediate_of_value {v : Immediate} (h : w.value = Lexeme.ofPrinted v.text) :
    readImmediate w = .ok v := by
  have hvalue : w.value.byteValue?.bind Immediate.ofValue? = some v := by
    rw [h]
    simp only [Lexeme.byteValue?, Lexeme.ofPrinted, v.text_facts, Bool.false_eq_true, if_false,
      Option.bind_some]
    exact Immediate.ofValue?_eq_some_iff.2 rfl
  rw [readImmediate, readInteger, hvalue]

/-- The words of a side are taken off the front and read as that side. -/
theorem take?_of_values {s : Side} {ls : List Lexeme}
    (h : ws.map Spanned.value = s.words.map Lexeme.ofPrinted ++ ls) :
    ∃ sw rest, SideWords.take? ws = some (sw, rest) ∧ sw.read = .ok s ∧
      rest.map Spanned.value = ls := by
  cases s with
  | imm v =>
    obtain ⟨k, ws, rfl, hk, h⟩ := List.map_eq_cons_iff.1 h
    obtain ⟨x, rest, rfl, hx, h⟩ := List.map_eq_cons_iff.1 h
    have hkind : isStatOf k = false := by
      rw [isStatOf, hk]
      decide
    refine ⟨.imm k x, rest, by simp [SideWords.take?, hkind], ?_, h⟩
    rw [SideWords.read, readName_of_value .sideKind hk, readImmediate_of_value hx]
    rfl
  | statOf t s =>
    obtain ⟨k, ws, rfl, hk, h⟩ := List.map_eq_cons_iff.1 h
    obtain ⟨x, ws, rfl, hx, h⟩ := List.map_eq_cons_iff.1 h
    obtain ⟨y, rest, rfl, hy, h⟩ := List.map_eq_cons_iff.1 h
    have hkind : isStatOf k = true := by
      rw [isStatOf, hk]
      decide
    refine ⟨.statOf x y, rest, by simp [SideWords.take?, hkind], ?_, h⟩
    rw [SideWords.read, readTarget, readName_of_value .target hx, readStat,
      readName_of_value .stat hy]
    rfl

/-- The operand words of an action are read as its operands. -/
theorem readOperandWords?_of_action {a : Action}
    (h : ws.map Spanned.value = a.words.map Lexeme.ofPrinted) :
    readOperandWords? a.opcode ws = some (.ok (.action a)) := by
  cases a with
  | damage t n | heal t n =>
    obtain ⟨x, ws, rfl, hx, h⟩ := List.map_eq_cons_iff.1 h
    obtain ⟨y, ws, rfl, hy, h⟩ := List.map_eq_cons_iff.1 h
    obtain rfl := List.map_eq_nil_iff.1 h
    have htarget : readTarget x = .ok t := readName_of_value .target hx
    simp only [Action.opcode, Action.kind, ActionKind.opcode, readOperandWords?, htarget,
      readAmount_of_value hy]
    rfl
  | buffStat t s n | debuffStat t s n =>
    obtain ⟨x, ws, rfl, hx, h⟩ := List.map_eq_cons_iff.1 h
    obtain ⟨y, ws, rfl, hy, h⟩ := List.map_eq_cons_iff.1 h
    obtain ⟨z, ws, rfl, hz, h⟩ := List.map_eq_cons_iff.1 h
    obtain rfl := List.map_eq_nil_iff.1 h
    have htarget : readTarget x = .ok t := readName_of_value .target hx
    have hstat : readStat y = .ok s := readName_of_value .stat hy
    simp only [Action.opcode, Action.kind, ActionKind.opcode, readOperandWords?, htarget, hstat,
      readAmount_of_value hz]
    rfl
  | draw n | discard n | createToken n =>
    obtain ⟨x, ws, rfl, hx, h⟩ := List.map_eq_cons_iff.1 h
    obtain rfl := List.map_eq_nil_iff.1 h
    simp only [Action.opcode, Action.kind, ActionKind.opcode, readOperandWords?,
      readAmount_of_value hx]
    rfl
  | destroy t =>
    obtain ⟨x, ws, rfl, hx, h⟩ := List.map_eq_cons_iff.1 h
    obtain rfl := List.map_eq_nil_iff.1 h
    have htarget : readTarget x = .ok t := readName_of_value .target hx
    simp only [Action.opcode, Action.kind, ActionKind.opcode, readOperandWords?, htarget]
    rfl

/-- The operand words of an instruction are read as its operands. -/
theorem readOperandWords?_of_values {i : Instruction}
    (h : ws.map Spanned.value = i.operandWords.map Lexeme.ofPrinted) :
    readOperandWords? i.opcode ws = some (.ok i) := by
  cases i with
  | action a => exact readOperandWords?_of_action h
  | ifTest c =>
    obtain ⟨x, ws, rfl, hx, h⟩ := List.map_eq_cons_iff.1 h
    have hsides : ws.map Spanned.value =
        c.lhs.words.map Lexeme.ofPrinted ++ c.rhs.words.map Lexeme.ofPrinted :=
      h.trans List.map_append
    obtain ⟨lhs, ws, hlhs, hreadLhs, hright⟩ := take?_of_values hsides
    obtain ⟨rhs, rest, hrhs, hreadRhs, h⟩ :=
      take?_of_values (hright.trans (List.append_nil _).symm)
    obtain rfl := List.map_eq_nil_iff.1 h
    simp only [Instruction.opcode, readOperandWords?, hlhs, hrhs, hreadLhs, hreadRhs,
      readName_of_value .comparator hx]
    rfl
  | whenEvent e =>
    obtain ⟨x, ws, rfl, hx, h⟩ := List.map_eq_cons_iff.1 h
    obtain rfl := List.map_eq_nil_iff.1 h
    simp only [Instruction.opcode, readOperandWords?, readName_of_value .event hx]
    rfl
  | elseMark | endIf | endWhen | stop =>
    obtain rfl := List.map_eq_nil_iff.1 h
    rfl

end Operands

/-- Every opcode is found by its mnemonic. -/
theorem ofMnemonic?_name (op : Opcode) : Opcode.ofMnemonic? (Labelled.name op) = some op := by
  cases op <;> decide

/-- A line with the words of an instruction assembles to it. -/
theorem assembleLine_of_lexemes {l : Line} {i : Instruction} (h : l.lexemes = i.lexemes) :
    assembleLine l = .ok i := by
  have hstray : l.words.find? (fun w => w.value.kind = .stray) = none := by
    rw [List.find?_eq_none]
    intro w hw
    have hmem : w.value ∈ i.lexemes := by
      rw [← h]
      exact List.mem_map_of_mem hw
    obtain ⟨t, -, ht⟩ := List.mem_map.1 hmem
    rw [← ht, Lexeme.ofPrinted]
    split <;> simp
  obtain ⟨hhead, htail⟩ := List.cons.inj h
  have hname : Opcode.ofMnemonic? l.head.value.text = some i.opcode := by
    rw [hhead]
    exact ofMnemonic?_name i.opcode
  simp only [assembleLine, hstray, hname, readOperandWords?_of_values htail]

/-- The lines of printed instructions hold the words of the instructions. -/
theorem lexemes_sourceLines_rows (rs : List Row) :
    (sourceLines (Text.unlines (rs.map Row.text))).map Line.lexemes =
      rs.map fun r => r.instr.lexemes := by
  induction rs with
  | nil => simp [Text.unlines, sourceLines, pieces, joinStray, numberedWords, groupLines]
  | cons r rs ih =>
    have hreturn : r.text.getLast? ≠ some '\r' := by
      intro hlast
      obtain hmem | hmem := List.mem_append.1 (List.mem_of_getLast? hlast)
      · exact absurd (List.eq_of_mem_replicate hmem) (by decide)
      · exact absurd (mem_unwords r.instr.isPrintable_words hmem) (by decide)
    have hcons : Text.unlines ((r :: rs).map Row.text) =
        r.text ++ '\n' :: Text.unlines (rs.map Row.text) := by
      simp [Text.unlines, Text.withBreak]
    have hline : (sourceLines r.text).map Line.lexemes = [r.instr.lexemes] :=
      lexemes_sourceLines_of_words _ (List.cons_ne_nil _ _) r.instr.isPrintable_words
    have hshift : ∀ d k, Line.lexemes ∘ Line.shift d k = Line.lexemes :=
      fun d k => funext (Line.lexemes_shift d k)
    rw [hcons, sourceLines_append_break hreturn, List.map_append, List.map_map, hshift, hline, ih]
    rfl

/-- A printed text assembles line by line to the instructions that are shown. -/
theorem map_assembleLine_rows (rs : List Row) :
    (sourceLines (Text.unlines (rs.map Row.text))).map assembleLine =
      (rs.map Row.instr).map .ok := by
  have h := lexemes_sourceLines_rows rs
  generalize sourceLines (Text.unlines (rs.map Row.text)) = ls at h
  induction rs generalizing ls with
  | nil =>
    obtain rfl := List.map_eq_nil_iff.1 h
    rfl
  | cons r rs ih =>
    obtain ⟨l, ls, rfl, hl, h⟩ := List.map_eq_cons_iff.1 h
    simp only [List.map_cons, assembleLine_of_lexemes hl, ih ls h]

end AbilityScript
