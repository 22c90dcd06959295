import AbilityScript.Bytecode.Encoding
import AbilityScript.Proofs.Assembly.OperandWords
import AbilityScript.Proofs.Assembly.PrintedInstructions
import AbilityScript.Proofs.Source.Tiling

/-!
# The grammar of lines

A line assembles exactly if it is a mnemonic followed by one word for each operand of an instruction,
in the order in which the operands are stored. A named operand is its label, letter for letter; a
number may be any numeral that denotes it. So a line is an instruction in at most one way, and two
lines are the same instruction if they differ in nothing but the choice between a mnemonic's names and
the spelling of numbers.

## Main definitions

* `Operand`, `Instruction.operands`: the operands of an instruction, each with what is written for it
  and the byte that stores it.
* `Line.Spells`: a line is written for an instruction.
* `Line.Agrees`: two lines agree up to the names of mnemonics and the spelling of numbers.

## Main statements

* `Instruction.encode_eq`: an instruction is stored as its opcode and the bytes of its operands.
* `assembleLine_eq_ok_iff`: a line assembles to an instruction if it is written for it.
* `assembleLine_grammar`: which lines assemble, to the same, and how their operands are read.
-/

set_option autoImplicit false

namespace AbilityScript

open ByteCoded (toByte)

/-- An operand of an instruction: what is written for it, and the byte that stores it. -/
inductive Operand where
  | named (label : Text) (byte : UInt8)
  | number (value : Nat) (byte : UInt8)
deriving DecidableEq, Repr

namespace Operand

/-- The operand that a name from a closed list is. -/
def ofName {α : Type} [Labelled α] (a : α) : Operand :=
  .named (Labelled.name a) (toByte a)

/-- The operand that an amount is. -/
def ofAmount (n : Amount) : Operand :=
  .number n.value (toByte n)

/-- The operand that a constant is. -/
def ofImmediate (v : Immediate) : Operand :=
  .number v.value.val (toByte v)

/-- The byte that stores an operand. -/
def byte : Operand → UInt8
  | .named _ b | .number _ b => b

/-- A word is written for an operand: it is the label, or a numeral for the number. -/
def IsSpelled (o : Operand) (l : Lexeme) : Prop :=
  match o with
  | .named t _ => l.kind = .name ∧ l.text = t
  | .number n _ => l.kind = .integer ∧ Numeral.meaning l.text = n

instance (o : Operand) (l : Lexeme) : Decidable (o.IsSpelled l) :=
  match o with
  | .named _ _ => inferInstanceAs (Decidable (_ ∧ _))
  | .number _ _ => inferInstanceAs (Decidable (_ ∧ _))

/-- Words are written for operands, one for each. -/
def AreSpelled (os : List Operand) (ws : List Word) : Prop :=
  List.Forall₂ (fun o w => o.IsSpelled w.value) os ws

/-- Operands are written as a word for the first one, and words for the others behind it. -/
theorem areSpelled_cons_iff {o : Operand} {os : List Operand} {ws : List Word} :
    AreSpelled (o :: os) ws ↔ ∃ w vs, ws = w :: vs ∧ o.IsSpelled w.value ∧ AreSpelled os vs := by
  rw [AreSpelled, List.forall₂_cons_left_iff]
  constructor
  · rintro ⟨w, vs, hw, hvs, rfl⟩
    exact ⟨w, vs, rfl, hw, hvs⟩
  · rintro ⟨w, vs, rfl, hw, hvs⟩
    exact ⟨w, vs, hw, hvs, rfl⟩

/-- No operands are written as no words. -/
theorem areSpelled_nil_iff {ws : List Word} : AreSpelled [] ws ↔ ws = [] :=
  List.forall₂_nil_left_iff

/-- Operands in two parts are written as words in two parts. -/
theorem areSpelled_append_iff {os os' : List Operand} {ws : List Word} :
    AreSpelled (os ++ os') ws ↔
      ∃ vs vs', ws = vs ++ vs' ∧ AreSpelled os vs ∧ AreSpelled os' vs' := by
  induction os generalizing ws with
  | nil =>
    constructor
    · exact fun h => ⟨[], ws, rfl, .nil, h⟩
    · rintro ⟨vs, vs', rfl, h, h'⟩
      obtain rfl := areSpelled_nil_iff.1 h
      exact h'
  | cons o os ih =>
    rw [List.cons_append, areSpelled_cons_iff]
    constructor
    · rintro ⟨w, ws, rfl, hw, h⟩
      obtain ⟨vs, vs', rfl, hvs, hvs'⟩ := ih.1 h
      exact ⟨w :: vs, vs', rfl, .cons hw hvs, hvs'⟩
    · rintro ⟨vs, vs', rfl, h, h'⟩
      obtain ⟨w, vs, rfl, hw, hvs⟩ := areSpelled_cons_iff.1 h
      exact ⟨w, vs ++ vs', rfl, hw, ih.2 ⟨vs, vs', rfl, hvs, h'⟩⟩

/-- Words in two parts are written for operands in two parts. -/
theorem exists_append_of_areSpelled {os : List Operand} {vs ws : List Word}
    (h : AreSpelled os (vs ++ ws)) :
    ∃ front back, os = front ++ back ∧ AreSpelled front vs ∧ AreSpelled back ws := by
  induction vs generalizing os with
  | nil => exact ⟨[], os, rfl, .nil, h⟩
  | cons v vs ih =>
    obtain ⟨o, os, hv, hrest, rfl⟩ := List.forall₂_cons_right_iff.1 h
    obtain ⟨front, back, rfl, hfront, hback⟩ := ih hrest
    exact ⟨o :: front, back, rfl, .cons hv hfront, hback⟩

end Operand

/-- The operands that a side is written and stored as. -/
def Side.operands : Side → List Operand
  | .imm v => [.ofName SideKind.imm, .ofImmediate v]
  | .statOf t s => [.ofName SideKind.statOf, .ofName t, .ofName s]

/-- The operands that an action is written and stored as. -/
def Action.operands : Action → List Operand
  | .damage t n | .heal t n => [.ofName t, .ofAmount n]
  | .buffStat t s n | .debuffStat t s n => [.ofName t, .ofName s, .ofAmount n]
  | .draw n | .discard n | .createToken n => [.ofAmount n]
  | .destroy t => [.ofName t]

/-- The operands of an instruction, in the order in which they are stored. -/
def Instruction.operands : Instruction → List Operand
  | .action a => a.operands
  | .ifTest c => .ofName c.cmp :: (c.lhs.operands ++ c.rhs.operands)
  | .whenEvent e => [.ofName e]
  | .elseMark | .endIf | .endWhen | .stop => []

/-- An instruction is stored as its opcode and one byte for each operand. -/
theorem Instruction.encode_eq (i : Instruction) :
    i.encode = toByte i.opcode :: i.operands.map Operand.byte := by
  have hside : ∀ s : Side, s.encode = s.operands.map Operand.byte := by
    intro s
    cases s <;> rfl
  cases i with
  | action a => cases a <;> rfl
  | ifTest c =>
    simp only [encode, encodeOperands, operands, List.map_cons, List.map_append, hside]
    rfl
  | elseMark | endIf | whenEvent e | endWhen | stop => rfl

/-- Two operand words say the same: they are alike, or numerals for one number. -/
def Lexeme.SameOperand (a b : Lexeme) : Prop :=
  a = b ∨ (a.kind = .integer ∧ b.kind = .integer ∧
    Numeral.meaning a.text = Numeral.meaning b.text)

namespace Line

/-- A line is written for an instruction: none of its words is stray, the first one is a name of the
opcode, and the others are the operands. -/
def Spells (l : Line) (i : Instruction) : Prop :=
  (∀ w ∈ l.words, w.value.kind ≠ .stray) ∧ l.head.value.kind = .name ∧
    i.opcode.IsNamed l.head.value.text ∧ Operand.AreSpelled i.operands l.tail

/-- Two lines agree up to the names of mnemonics and the spelling of numbers. -/
def Agrees (l m : Line) : Prop :=
  (∃ op : Opcode, op.IsNamed l.head.value.text ∧ op.IsNamed m.head.value.text) ∧
    List.Forall₂ (fun v w : Word => v.value.SameOperand w.value) l.tail m.tail

end Line

section Mnemonics

/-- No word is a name of two opcodes. -/
theorem ofMnemonic?_eq_some_iff {t : Text} {op : Opcode} :
    Opcode.ofMnemonic? t = some op ↔ op.IsNamed t := by
  constructor
  · intro h
    simpa using List.find?_some h
  · rintro (rfl | h)
    · exact ofMnemonic?_name op
    · cases op with
      | ifTest | elseMark | endIf | whenEvent | endWhen =>
        obtain rfl := Option.some.inj h
        decide
      | _ => cases h

/-- A text is the mnemonic of one opcode at most. -/
theorem isNamed_unique {t : Text} {op op' : Opcode} (h : op.IsNamed t) (h' : op'.IsNamed t) :
    op = op' :=
  Option.some.inj ((ofMnemonic?_eq_some_iff.2 h).symm.trans (ofMnemonic?_eq_some_iff.2 h'))

/-- What names an opcode is a name. -/
theorem isName_of_isNamed {t : Text} {op : Opcode} (h : op.IsNamed t) : isName t = true := by
  obtain rfl | h := h
  · exact isName_opcode op
  · cases op with
    | ifTest | elseMark | endIf | whenEvent | endWhen =>
      obtain rfl := Option.some.inj h
      decide
    | _ => cases h

/-- A word that looks like a name is one. -/
theorem Lexeme.HasShape.kind_eq_name {l : Lexeme} (h : l.HasShape) (hname : isName l.text = true) :
    l.kind = .name := by
  obtain ⟨kind, text⟩ := l
  cases text with
  | nil => exact absurd hname Bool.false_ne_true
  | cons c cs =>
    rw [isName, Bool.and_eq_true] at hname
    cases kind with
    | name => rfl
    | integer =>
      rw [isNameStart_of_isDigit (isDigit_of_isInteger h)] at hname
      cases hname.1
    | stray =>
      have hc := List.all_eq_true.1 h.2 c List.mem_cons_self
      simp [isStrayChar, hname.1] at hc

end Mnemonics

section Words

variable {w : Word}

/-- Which words are read as a member: its label. -/
theorem readName_eq_ok_iff {α : Type} [Labelled α] {role : Role} {a : α} (hw : w.value.HasShape)
    (hname : isName (Labelled.name a) = true) :
    readName role w = .ok a ↔ (Operand.ofName a).IsSpelled w.value := by
  have hlookup : readName role w = .ok a ↔ Labelled.ofName? w.value.text = some a := by
    rw [readName]
    cases (Labelled.ofName? w.value.text : Option α) <;> simp [Word.reject]
  rw [hlookup, Labelled.ofName?_eq_some_iff, eq_comm]
  constructor
  · intro h
    exact ⟨hw.kind_eq_name (h ▸ hname), h⟩
  · exact And.right

/-- A word is read as a target exactly if it is written for that target. -/
theorem readTarget_eq_ok_iff {t : Target} (hw : w.value.HasShape) :
    readTarget w = .ok t ↔ (Operand.ofName t).IsSpelled w.value :=
  readName_eq_ok_iff hw (isName_target t)

/-- A word is read as a stat exactly if it is written for that stat. -/
theorem readStat_eq_ok_iff {s : Stat} (hw : w.value.HasShape) :
    readStat w = .ok s ↔ (Operand.ofName s).IsSpelled w.value :=
  readName_eq_ok_iff hw (isName_stat s)

/-- Which words are read as a number in a range: the numerals for it. -/
theorem readInteger_eq_ok_iff {α : Type} {role : Role} {least greatest n : Nat}
    {ofValue? : Nat → Option α} {a : α} (hw : w.value.HasShape)
    (hvalue : ∀ m, ofValue? m = some a ↔ n = m) (hn : n ≤ Numeral.greatest) :
    readInteger role least greatest ofValue? w = .ok a ↔
      w.value.kind = .integer ∧ Numeral.meaning w.value.text = n := by
  obtain ⟨⟨kind, text⟩, span⟩ := w
  have hlookup : readInteger role least greatest ofValue? ⟨⟨kind, text⟩, span⟩ = .ok a ↔
      (Lexeme.byteValue? ⟨kind, text⟩).bind ofValue? = some a := by
    rw [readInteger]
    cases (Lexeme.byteValue? ⟨kind, text⟩).bind ofValue? <;> simp [Word.reject]
  rw [hlookup, Option.bind_eq_some_iff]
  cases kind with
  | name | stray => simp [Lexeme.byteValue?]
  | integer =>
    simp only [Lexeme.byteValue?, Numeral.value?_eq_some_iff hw, hvalue, true_and]
    constructor
    · rintro ⟨m, ⟨rfl, -⟩, rfl⟩
      rfl
    · rintro rfl
      exact ⟨_, ⟨rfl, hn⟩, rfl⟩

/-- A word is read as an amount exactly if it is a numeral for that amount. -/
theorem readAmount_eq_ok_iff {n : Amount} (hw : w.value.HasShape) :
    readAmount w = .ok n ↔ (Operand.ofAmount n).IsSpelled w.value := by
  refine readInteger_eq_ok_iff hw (fun _ => Amount.ofValue?_eq_some_iff) ?_
  have hlt := n.extra.isLt
  rw [Amount.value, Amount.least, Numeral.greatest]
  omega

/-- A word is read as a constant exactly if it is a numeral for that constant. -/
theorem readImmediate_eq_ok_iff {v : Immediate} (hw : w.value.HasShape) :
    readImmediate w = .ok v ↔ (Operand.ofImmediate v).IsSpelled w.value := by
  refine readInteger_eq_ok_iff hw (fun _ => Immediate.ofValue?_eq_some_iff) ?_
  have hlt := v.value.isLt
  rw [Numeral.greatest]
  omega

end Words

section Soundness

variable {α β : Type}

/-- The words that a reader takes are written for operands which, behind those before them, are the
operands of what it reads. -/
def WordReader.ReadsAfter (front : List Operand) (r : WordReader α)
    (IsRead : α → List Operand → Prop) : Prop :=
  ∀ ws, (∀ w ∈ ws, w.value.HasShape) → ∀ a rest, r.run ws = .ok (a, rest) →
    ∃ used os, ws = used ++ rest ∧ IsRead a (front ++ os) ∧ Operand.AreSpelled os used

namespace WordReader.ReadsAfter

variable {front : List Operand} {IsRead : α → List Operand → Prop}

/-- A reader that takes nothing leaves the operands that were read so far. -/
theorem pure {a : α} (h : IsRead a front) : ReadsAfter front (pure a : WordReader α) IsRead := by
  intro ws _ b rest hrun
  obtain ⟨rfl, rfl⟩ := Prod.mk.inj (Except.ok.inj hrun)
  exact ⟨[], [], rfl, (List.append_nil front).symm ▸ h, .nil⟩

/-- A reader that begins with a word reads the operand of that word after those that were read so far.
-/
theorem next_bind {read : Word → WordResult β} {operand : β → Operand} {f : β → WordReader α}
    (hread : ∀ w b, w.value.HasShape → read w = .ok b → (operand b).IsSpelled w.value)
    (hf : ∀ b, ReadsAfter (front ++ [operand b]) (f b) IsRead) :
    ReadsAfter front (next read >>= f) IsRead := by
  intro ws hws a rest hrun
  cases ws with
  | nil => cases hrun
  | cons w ws =>
    rw [next_bind_run] at hrun
    cases hw : read w with
    | error e =>
      rw [hw] at hrun
      cases hrun
    | ok b =>
      rw [hw] at hrun
      obtain ⟨used, os, rfl, hread', hos⟩ :=
        hf b ws (fun v hv => hws v (List.mem_cons_of_mem _ hv)) a rest hrun
      refine ⟨w :: used, operand b :: os, rfl, ?_, ?_⟩
      · rwa [List.append_assoc] at hread'
      · exact .cons (hread w b (hws w List.mem_cons_self) hw) hos

/-- A reader that begins with a side reads the operands of that side after those that were read so far.
-/
theorem side_bind {f : Side → WordReader α}
    (hf : ∀ s, ReadsAfter (front ++ s.operands) (f s) IsRead) :
    ReadsAfter front (side >>= f) IsRead := by
  rw [side, bind_assoc]
  refine next_bind (fun w k hw => (readName_eq_ok_iff hw (isName_sideKind k)).1) fun k => ?_
  cases k with
  | imm =>
    simp only [bind_assoc]
    refine next_bind (fun w v hw => (readImmediate_eq_ok_iff hw).1) fun v => ?_
    rw [List.append_assoc]
    exact hf (.imm v)
  | statOf =>
    simp only [bind_assoc]
    refine next_bind (fun w t hw => (readTarget_eq_ok_iff hw).1) fun t => ?_
    refine next_bind (fun w s hw => (readStat_eq_ok_iff hw).1) fun s => ?_
    rw [List.append_assoc, List.append_assoc]
    exact hf (.statOf t s)

end WordReader.ReadsAfter

/-- The words that are read as an instruction are written for its operands. -/
theorem readsAfter_instruction (op : Opcode) :
    WordReader.ReadsAfter [] (WordReader.instruction op) fun i os =>
      i.opcode = op ∧ i.operands = os := by
  have htarget : ∀ w (t : Target), w.value.HasShape → readTarget w = .ok t →
      (Operand.ofName t).IsSpelled w.value :=
    fun w t hw => (readTarget_eq_ok_iff hw).1
  have hstat : ∀ w (s : Stat), w.value.HasShape → readStat w = .ok s →
      (Operand.ofName s).IsSpelled w.value :=
    fun w s hw => (readStat_eq_ok_iff hw).1
  have hamount : ∀ w (n : Amount), w.value.HasShape → readAmount w = .ok n →
      (Operand.ofAmount n).IsSpelled w.value :=
    fun w n hw => (readAmount_eq_ok_iff hw).1
  cases op with
  | damage | heal =>
    exact .next_bind htarget fun t => .next_bind hamount fun n => .pure ⟨rfl, rfl⟩
  | buffStat | debuffStat =>
    exact .next_bind htarget fun t => .next_bind hstat fun s => .next_bind hamount fun n =>
      .pure ⟨rfl, rfl⟩
  | draw | discard | createToken => exact .next_bind hamount fun n => .pure ⟨rfl, rfl⟩
  | destroy => exact .next_bind htarget fun t => .pure ⟨rfl, rfl⟩
  | whenEvent =>
    exact .next_bind (fun w e hw => (readName_eq_ok_iff hw (isName_event e)).1) fun e =>
      .pure ⟨rfl, rfl⟩
  | ifTest =>
    exact .next_bind (fun w c hw => (readName_eq_ok_iff hw (isName_comparator c)).1) fun c =>
      .side_bind fun lhs => .side_bind fun rhs => .pure ⟨rfl, rfl⟩
  | elseMark | endIf | endWhen | stop => exact .pure ⟨rfl, rfl⟩

end Soundness

section Completeness

open Operand (areSpelled_cons_iff areSpelled_nil_iff areSpelled_append_iff)

variable {ws used : List Word}

/-- Words that are written for a side are taken off the front and read as that side. -/
theorem take?_of_areSpelled {s : Side} (h : Operand.AreSpelled s.operands used)
    (hused : ∀ w ∈ used, w.value.HasShape) (rest : List Word) :
    ∃ sw, SideWords.take? (used ++ rest) = some (sw, rest) ∧ sw.read = .ok s := by
  cases s with
  | imm v =>
    obtain ⟨k, _, rfl, hk, h⟩ := areSpelled_cons_iff.1 h
    obtain ⟨x, _, rfl, hx, h⟩ := areSpelled_cons_iff.1 h
    obtain rfl := areSpelled_nil_iff.1 h
    have hkind : isStatOf k = false := by
      rw [isStatOf, hk.2]
      decide
    have hsideKind : readName .sideKind k = .ok SideKind.imm :=
      (readName_eq_ok_iff (hused k (by simp)) (isName_sideKind _)).2 hk
    have hvalue := (readImmediate_eq_ok_iff (hused x (by simp))).2 hx
    refine ⟨.imm k x, by simp [SideWords.take?, hkind], ?_⟩
    rw [SideWords.read, hsideKind, hvalue]
    rfl
  | statOf t s =>
    obtain ⟨k, _, rfl, hk, h⟩ := areSpelled_cons_iff.1 h
    obtain ⟨x, _, rfl, hx, h⟩ := areSpelled_cons_iff.1 h
    obtain ⟨y, _, rfl, hy, h⟩ := areSpelled_cons_iff.1 h
    obtain rfl := areSpelled_nil_iff.1 h
    have hkind : isStatOf k = true := by
      rw [isStatOf, hk.2]
      decide
    have htarget := (readTarget_eq_ok_iff (hused x (by simp))).2 hx
    have hstat := (readStat_eq_ok_iff (hused y (by simp))).2 hy
    refine ⟨.statOf x y, by simp [SideWords.take?, hkind], ?_⟩
    rw [SideWords.read, htarget, hstat]
    rfl

/-- The words that are written for the operands of an action are read as that action. -/
theorem readOperandWords?_action_of_areSpelled {a : Action}
    (h : Operand.AreSpelled a.operands ws) (hws : ∀ w ∈ ws, w.value.HasShape) :
    readOperandWords? a.opcode ws = some (.ok (.action a)) := by
  cases a with
  | damage t n | heal t n =>
    obtain ⟨x, _, rfl, hx, h⟩ := areSpelled_cons_iff.1 h
    obtain ⟨y, _, rfl, hy, h⟩ := areSpelled_cons_iff.1 h
    obtain rfl := areSpelled_nil_iff.1 h
    have htarget := (readTarget_eq_ok_iff (hws x (by simp))).2 hx
    have hamount := (readAmount_eq_ok_iff (hws y (by simp))).2 hy
    simp only [Action.opcode, Action.kind, ActionKind.opcode, readOperandWords?, htarget, hamount]
    rfl
  | buffStat t s n | debuffStat t s n =>
    obtain ⟨x, _, rfl, hx, h⟩ := areSpelled_cons_iff.1 h
    obtain ⟨y, _, rfl, hy, h⟩ := areSpelled_cons_iff.1 h
    obtain ⟨z, _, rfl, hz, h⟩ := areSpelled_cons_iff.1 h
    obtain rfl := areSpelled_nil_iff.1 h
    have htarget := (readTarget_eq_ok_iff (hws x (by simp))).2 hx
    have hstat := (readStat_eq_ok_iff (hws y (by simp))).2 hy
    have hamount := (readAmount_eq_ok_iff (hws z (by simp))).2 hz
    simp only [Action.opcode, Action.kind, ActionKind.opcode, readOperandWords?, htarget, hstat,
      hamount]
    rfl
  | draw n | discard n | createToken n =>
    obtain ⟨x, _, rfl, hx, h⟩ := areSpelled_cons_iff.1 h
    obtain rfl := areSpelled_nil_iff.1 h
    have hamount := (readAmount_eq_ok_iff (hws x (by simp))).2 hx
    simp only [Action.opcode, Action.kind, ActionKind.opcode, readOperandWords?, hamount]
    rfl
  | destroy t =>
    obtain ⟨x, _, rfl, hx, h⟩ := areSpelled_cons_iff.1 h
    obtain rfl := areSpelled_nil_iff.1 h
    have htarget := (readTarget_eq_ok_iff (hws x (by simp))).2 hx
    simp only [Action.opcode, Action.kind, ActionKind.opcode, readOperandWords?, htarget]
    rfl

/-- Words that are written for the operands of an instruction are read as that instruction. -/
theorem readOperandWords?_of_areSpelled {i : Instruction} (h : Operand.AreSpelled i.operands ws)
    (hws : ∀ w ∈ ws, w.value.HasShape) : readOperandWords? i.opcode ws = some (.ok i) := by
  cases i with
  | action a => exact readOperandWords?_action_of_areSpelled h hws
  | ifTest c =>
    obtain ⟨x, _, rfl, hx, h⟩ := areSpelled_cons_iff.1 h
    obtain ⟨left, right, rfl, hleft, hright⟩ := areSpelled_append_iff.1 h
    have hcmp : readName .comparator x = .ok c.cmp :=
      (readName_eq_ok_iff (hws x (by simp)) (isName_comparator c.cmp)).2 hx
    obtain ⟨lhs, hlhs, hreadLhs⟩ :=
      take?_of_areSpelled hleft (fun w hw => hws w (by simp [hw])) right
    obtain ⟨rhs, hrhs, hreadRhs⟩ :=
      take?_of_areSpelled hright (fun w hw => hws w (by simp [hw])) []
    rw [List.append_nil] at hrhs
    simp only [Instruction.opcode, readOperandWords?, hlhs, hrhs, hcmp, hreadLhs, hreadRhs]
    rfl
  | whenEvent e =>
    obtain ⟨x, _, rfl, hx, h⟩ := areSpelled_cons_iff.1 h
    obtain rfl := areSpelled_nil_iff.1 h
    have hevent : readName .event x = .ok e :=
      (readName_eq_ok_iff (hws x (by simp)) (isName_event e)).2 hx
    simp only [Instruction.opcode, readOperandWords?, hevent]
    rfl
  | elseMark | endIf | endWhen | stop =>
    obtain rfl := areSpelled_nil_iff.1 h
    rfl

end Completeness

section Lines

variable {source : Text} {l m : Line} {i j : Instruction}

/-- The words of a line have the shapes of their kinds. -/
theorem hasShape_of_mem_sourceLines (hl : l ∈ sourceLines source) :
    ∀ w ∈ l.words, w.value.HasShape := by
  intro w hw
  obtain ⟨front, p, back, h⟩ := exists_wordAt hl hw
  exact h.hasShape.2.1

/-- A line assembles to an instruction exactly if it is written for it. -/
theorem assembleLine_eq_ok_iff (hl : ∀ w ∈ l.words, w.value.HasShape) :
    assembleLine l = .ok i ↔ l.Spells i := by
  have hhead := hl l.head List.mem_cons_self
  have htail : ∀ w ∈ l.tail, w.value.HasShape := fun w hw => hl w (List.mem_cons_of_mem _ hw)
  constructor
  · intro h
    have horder : assembleInOrder l = .ok (i, []) := by
      rw [assembleInOrder_eq, h]
      rfl
    rw [assembleInOrder] at horder
    split at horder
    case h_1 => cases horder
    case h_2 hstray =>
      split at horder
      case h_1 => cases horder
      case h_2 op hop =>
        split at horder
        case isFalse => cases horder
        case isTrue =>
          obtain ⟨used, os, hused, ⟨rfl, hos⟩, hspelled⟩ :=
            readsAfter_instruction op l.tail htail i [] horder
          rw [List.append_nil] at hused
          rw [List.nil_append] at hos
          have hnamed := ofMnemonic?_eq_some_iff.1 hop
          refine ⟨?_, hhead.kind_eq_name (isName_of_isNamed hnamed), hnamed, ?_⟩
          · simpa using List.find?_eq_none.1 hstray
          · rwa [hos, hused]
  · rintro ⟨hstray, -, hnamed, hspelled⟩
    have hnone : l.words.find? (fun w => w.value.kind = .stray) = none := by
      simpa using hstray
    simp only [assembleLine, hnone, ofMnemonic?_eq_some_iff.2 hnamed,
      readOperandWords?_of_areSpelled hspelled htail]

/-- A word that means the same as one that is written for an operand is written for it too. -/
theorem Operand.IsSpelled.of_sameOperand {o : Operand} {a b : Lexeme} (h : o.IsSpelled a)
    (hsame : a.SameOperand b) : o.IsSpelled b := by
  obtain rfl | ⟨ha, hb, hmeaning⟩ := hsame
  · exact h
  · cases o with
    | named t byte => exact absurd (h.1.symm.trans ha) (by decide)
    | number n byte => exact ⟨hb, hmeaning.symm.trans h.2⟩

/-- Words that are written for the same operand mean the same. -/
theorem Operand.IsSpelled.sameOperand {o : Operand} {a b : Lexeme} (ha : o.IsSpelled a)
    (hb : o.IsSpelled b) : a.SameOperand b := by
  cases o with
  | named t byte =>
    obtain ⟨_, _⟩ := a
    obtain ⟨_, _⟩ := b
    obtain ⟨rfl, rfl⟩ := ha
    obtain ⟨rfl, rfl⟩ := hb
    exact .inl rfl
  | number n byte => exact .inr ⟨ha.1, hb.1, ha.2.trans hb.2.symm⟩

/-- A line that agrees with one that is written for an instruction is written for it too. -/
theorem Line.Spells.of_agrees (h : l.Spells i) (hm : m.Spells j) (hagrees : l.Agrees m) :
    m.Spells i := by
  obtain ⟨⟨op, hl, hop⟩, hsame⟩ := hagrees
  obtain ⟨-, -, hnamed, hspelled⟩ := h
  obtain rfl := isNamed_unique hnamed hl
  refine ⟨hm.1, hm.2.1, hop, ?_⟩
  generalize i.operands = os at hspelled
  generalize l.tail = vs at hspelled hsame
  generalize m.tail = ws at hsame
  induction hspelled generalizing ws with
  | nil =>
    cases hsame
    exact .nil
  | cons ho hos ih =>
    cases hsame with
    | cons hw hws => exact .cons (ho.of_sameOperand hw) (ih _ hws)

/-- Lines that are written for the same instruction agree. -/
theorem Line.Spells.agrees (hl : l.Spells i) (hm : m.Spells i) : l.Agrees m := by
  refine ⟨⟨i.opcode, hl.2.2.1, hm.2.2.1⟩, ?_⟩
  have hvs := hl.2.2.2
  have hws := hm.2.2.2
  generalize i.operands = os at hvs hws
  generalize l.tail = vs at hvs
  generalize m.tail = ws at hws
  induction hvs generalizing ws with
  | nil =>
    cases hws
    exact .nil
  | cons ho hos ih =>
    cases hws with
    | cons hw hws => exact .cons (ho.sameOperand hw) (ih _ hws)

/-- Instructions are stored as their opcodes and the bytes of their operands, and a line assembles to
an instruction exactly if none of its words is stray, the first one is a name of the opcode, and the
others are, in the same order, the labels of the operands or numerals for them. Lines that assemble are
the same instruction exactly if they agree up to the names of mnemonics and the spelling of numbers.

The operands can be counted first and then read one after another: there is a word whenever one is
asked for, and none is left. Where there are too many or too few, the numbers that are reported
differ. -/
theorem assembleLine_grammar (hl : l ∈ sourceLines source) :
    (∀ i, i.encode = toByte i.opcode :: i.operands.map Operand.byte ∧
      (assembleLine l = .ok i ↔ l.Spells i)) ∧
    (∀ other, ∀ m ∈ sourceLines other, ∀ i j, assembleLine l = .ok i → assembleLine m = .ok j →
      (i = j ↔ l.Agrees m)) ∧
    assembleInOrder l = (assembleLine l).leaving [] ∧
    ∀ op expected found span, assembleLine l = .error ⟨.argCount op expected found, span⟩ →
      expected ≠ found := by
  have hshape := hasShape_of_mem_sourceLines hl
  refine ⟨fun i => ⟨i.encode_eq, assembleLine_eq_ok_iff hshape⟩, ?_, assembleInOrder_eq l, ?_⟩
  · intro other m hm i j hi hj
    have hshape' := hasShape_of_mem_sourceLines hm
    have hli := (assembleLine_eq_ok_iff hshape).1 hi
    have hmj := (assembleLine_eq_ok_iff hshape').1 hj
    constructor
    · rintro rfl
      exact hli.agrees hmj
    · intro hagrees
      have hmi := (assembleLine_eq_ok_iff hshape').2 (hli.of_agrees hmj hagrees)
      exact Except.ok.inj (hmi.symm.trans hj)
  · intro op expected found span h
    obtain ⟨w, -, -, hquoted⟩ | ⟨op', expected', hne, hfault⟩ := isBlamed_of_assembleLine h
    · cases hquoted
    · cases hfault
      exact hne

/-- The two names of a mnemonic, and two numerals for fifteen. -/
theorem assembleLine_grammar_of_alias :
    let source := "COND_START GT IMM 0x0000F STAT_OF OPPONENT ATTACK ; comment".toList
    let other := "\n\tIF GT IMM 15 STAT_OF OPPONENT ATTACK".toList
    let i : Instruction := .ifTest ⟨.gt, .imm ⟨15⟩, .statOf .opponent .attack⟩
    ∃ l ∈ sourceLines source, ∃ m ∈ sourceLines other, assembleLine l = .ok i ∧ l.Spells i ∧
      i.encode = [0x08, 0x01, 0x00, 0x0F, 0x01, 0x01, 0x00] ∧
      i.encode = toByte i.opcode :: i.operands.map Operand.byte ∧ l.Agrees m ∧
      assembleInOrder l = .ok (i, []) := by
  intro source other i
  let l := (sourceLines source).head (by decide +kernel)
  let m := (sourceLines other).head (by decide +kernel)
  have hl : l ∈ sourceLines source := List.head_mem _
  have hm : m ∈ sourceLines other := List.head_mem _
  have hli : assembleLine l = .ok i := by decide +kernel
  have hmi : assembleLine m = .ok i := by decide +kernel
  obtain ⟨hspells, hagrees, horder, -⟩ := assembleLine_grammar hl
  refine ⟨l, hl, m, hm, hli, ((hspells i).2).1 hli, by decide, (hspells i).1,
    (hagrees other m hm i i hli hmi).1 rfl, ?_⟩
  rw [horder, hli]
  rfl

end Lines

end AbilityScript
