import AbilityScript.Assembly.Line
import Mathlib.Data.List.Basic

/-!
# Operand words read in order

The operands of a line can be read with a cursor, one word at a time, once the number of words is known
to be right. For a conditional that number is guessed from the words that stand where kinds should be,
before any of them is looked up. The guess and the cursor agree on all words, whatever they are: the
cursor never asks for a word that is not there, and no word is left when it is done.

## Main definitions

* `WordReader`: reads words from the front of a list, and may run out of them.
* `WordReader.instruction`: reads the operands of an opcode.
* `assembleInOrder`: assembles a line with a count check and a cursor.
* `Fault.quoted?`, `Word.IsBlamed`: the text that a fault quotes, and the word that it is about.

## Main statements

* `readOperandWords?_eq_none_iff`: operand words are refused as a whole exactly if there are not as
  many as counted.
* `assembleInOrder_eq`: a line assembles to the same with a cursor, which never runs out of words and
  leaves none.
* `isBlamed_of_assembleLine`: a fault of a line is about one of its words, or about their number.
-/

set_option autoImplicit false

namespace AbilityScript

/-- Reads words from the front of a list. An error without a fault says that there is none left. -/
abbrev WordReader : Type → Type :=
  StateT (List Word) (Except (Option (Spanned Fault)))

/-- What came of words, as a reader that leaves others behind them has it. -/
def WordResult.leaving {α : Type} (r : WordResult α) (rest : List Word) :
    Except (Option (Spanned Fault)) (α × List Word) :=
  match r with
  | .ok a => .ok (a, rest)
  | .error f => .error (some f)

namespace WordReader

/-- Reads the next word. -/
def next {α : Type} (read : Word → WordResult α) : WordReader α
  | [] => .error none
  | w :: ws => (read w).leaving ws

/-- Reads a side. -/
def side : WordReader Side := do
  match ← next (readName .sideKind) with
  | SideKind.imm => return .imm (← next readImmediate)
  | SideKind.statOf => return .statOf (← next readTarget) (← next readStat)

/-- Reads the operands of an opcode. -/
def instruction : Opcode → WordReader Instruction
  | .damage => return .action (.damage (← next readTarget) (← next readAmount))
  | .heal => return .action (.heal (← next readTarget) (← next readAmount))
  | .buffStat =>
    return .action (.buffStat (← next readTarget) (← next readStat) (← next readAmount))
  | .debuffStat =>
    return .action (.debuffStat (← next readTarget) (← next readStat) (← next readAmount))
  | .draw => return .action (.draw (← next readAmount))
  | .discard => return .action (.discard (← next readAmount))
  | .createToken => return .action (.createToken (← next readAmount))
  | .destroy => return .action (.destroy (← next readTarget))
  | .ifTest => return .ifTest ⟨← next (readName .comparator), ← side, ← side⟩
  | .elseMark => return .elseMark
  | .endIf => return .endIf
  | .whenEvent => return .whenEvent (← next (readName .event))
  | .endWhen => return .endWhen
  | .stop => return .stop

end WordReader

/-- The instruction of a line and the words left behind its operands. The operands are counted first,
and then read one after another. -/
def assembleInOrder (l : Line) : Except (Option (Spanned Fault)) (Instruction × List Word) :=
  match l.words.find? fun w => w.value.kind = .stray with
  | some w => .error (some ⟨.badCharacter w.value.text, w.span⟩)
  | none =>
    match Opcode.ofMnemonic? l.head.value.text with
    | none =>
      .error (some ⟨.unknownMnemonic l.head.value.text
        (Similarity.closest l.head.value.text (Labelled.labels Opcode)), l.head.span⟩)
    | some op =>
      if l.tail.length = operandCount op l.tail then (WordReader.instruction op).run l.tail
      else .error (some ⟨.argCount op (operandCount op l.tail) l.tail.length, l.span⟩)

section Counting

variable {op : Opcode} {c : Word} {ws : List Word}

/-- The words of a side are as many as its first word says, if there are that many. -/
theorem map_snd_take? (ws : List Word) :
    (SideWords.take? ws).map Prod.snd =
      if sideCount ws.head? ≤ ws.length then some (ws.drop (sideCount ws.head?)) else none := by
  match ws with
  | [] => rfl
  | [k] => by_cases hk : isStatOf k = true <;> simp [SideWords.take?, sideCount, Opcode.sideBytes, hk]
  | [k, v] =>
    by_cases hk : isStatOf k = true <;> simp [SideWords.take?, sideCount, Opcode.sideBytes, hk]
  | k :: v :: s :: rest =>
    by_cases hk : isStatOf k = true <;> simp [SideWords.take?, sideCount, Opcode.sideBytes, hk]

/-- The number of words of a comparison depends on the comparator and on the kind of either side. -/
theorem operandCount_ifTest_cons (c : Word) (ws : List Word) :
    operandCount .ifTest (c :: ws) =
      1 + sideCount ws.head? + sideCount (ws.drop (sideCount ws.head?)).head? := by
  simp [operandCount, List.head?_eq_getElem?, Nat.add_comm 1]

/-- The words behind a comparator are those of two sides exactly if there are as many as counted. -/
theorem length_eq_operandCount_iff :
    (c :: ws).length = operandCount .ifTest (c :: ws) ↔
      ∃ lhs rest rhs, SideWords.take? ws = some (lhs, rest) ∧
        SideWords.take? rest = some (rhs, []) := by
  have hlhs := map_snd_take? ws
  have hrhs := map_snd_take? (ws.drop (sideCount ws.head?))
  rw [List.length_drop] at hrhs
  rw [operandCount_ifTest_cons, List.length_cons]
  constructor
  · intro h
    have hnone : (ws.drop (sideCount ws.head?)).drop
        (sideCount (ws.drop (sideCount ws.head?)).head?) = [] := by
      apply List.drop_eq_nil_of_le
      rw [List.length_drop]
      omega
    rw [if_pos (by omega)] at hlhs hrhs
    rw [hnone] at hrhs
    obtain ⟨⟨lhs, rest⟩, hl, hrest⟩ := Option.map_eq_some_iff.1 hlhs
    obtain ⟨⟨rhs, last⟩, hr, hlast⟩ := Option.map_eq_some_iff.1 hrhs
    obtain rfl : rest = _ := hrest
    obtain rfl : last = _ := hlast
    exact ⟨lhs, _, rhs, hl, hr⟩
  · rintro ⟨lhs, rest, rhs, hl, hr⟩
    rw [hl, Option.map_some] at hlhs
    split at hlhs
    case isFalse => cases hlhs
    case isTrue hle =>
      obtain rfl := Option.some.inj hlhs
      rw [hr, Option.map_some] at hrhs
      split at hrhs
      case isFalse => cases hrhs
      case isTrue hle' =>
        have hlength := congrArg List.length (Option.some.inj hrhs)
        rw [List.length_nil, List.length_drop, List.length_drop] at hlength
        omega

/-- Operand words are refused as a whole exactly if there are not as many as counted. -/
theorem readOperandWords?_eq_none_iff :
    readOperandWords? op ws = none ↔ ws.length ≠ operandCount op ws := by
  by_cases hop : op = .ifTest
  · subst hop
    match ws with
    | [] => simp [readOperandWords?, operandCount, sideCount, Opcode.sideBytes]
    | c :: ws =>
      rw [Ne, length_eq_operandCount_iff, readOperandWords?]
      constructor
      · rintro h ⟨lhs, rest, rhs, hl, hr⟩
        simp [hl, hr] at h
      · intro h
        split
        case h_1 lhs rest hl =>
          split
          case h_1 rhs hr => exact absurd ⟨lhs, rest, rhs, hl, hr⟩ h
          case h_2 => rfl
        case h_2 => rfl
  · have hcount : operandCount op ws = op.argCount := if_neg hop
    rw [hcount]
    match ws with
    | [] | [_] | [_, _] | [_, _, _] | _ :: _ :: _ :: _ :: _ =>
      cases op <;> simp [readOperandWords?, Opcode.argCount] at hop ⊢

end Counting

section Running

variable {op : Opcode} {ws rest : List Word}

open WordReader

/-- A reader that goes on after a word does so with the words behind it. -/
theorem next_bind_run {α β : Type} (read : Word → WordResult α) (f : α → WordReader β) (w : Word)
    (ws : List Word) :
    (next read >>= f).run (w :: ws) =
      match read w with
      | .ok a => (f a).run ws
      | .error e => .error (some e) := by
  show ((read w).leaving ws >>= fun p => f p.1 p.2) = _
  cases read w <;> rfl

/-- Whether a word announces a stat is whether it is read as the kind of such a side. -/
theorem isStatOf_iff (w : Word) :
    isStatOf w = true ↔ (readName .sideKind w : WordResult SideKind) = .ok .statOf := by
  have hlookup : isStatOf w = true ↔ Labelled.ofName? w.value.text = some SideKind.statOf := by
    rw [isStatOf, beq_iff_eq, Labelled.ofName?_eq_some_iff, eq_comm]
  rw [hlookup, readName]
  split <;> simp_all [Word.reject]

/-- A side is read from the words that are its own. -/
theorem side_bind_run {β : Type} {sw : SideWords} (h : SideWords.take? ws = some (sw, rest))
    (f : Side → WordReader β) :
    (side >>= f).run ws =
      match sw.read with
      | .ok s => (f s).run rest
      | .error e => .error (some e) := by
  match ws with
  | [] | [_] => cases h
  | k :: v :: ws =>
    rw [side, bind_assoc, next_bind_run]
    by_cases hk : isStatOf k = true
    · match ws with
      | [] => simp [SideWords.take?, hk] at h
      | s :: ws =>
        obtain ⟨rfl, rfl⟩ : .statOf v s = sw ∧ ws = rest := by simpa [SideWords.take?, hk] using h
        rw [(isStatOf_iff k).1 hk]
        simp only [bind_assoc, next_bind_run, SideWords.read]
        cases readTarget v with
        | error e => rfl
        | ok t => cases readStat s <;> rfl
    · obtain ⟨rfl, rfl⟩ : .imm k v = sw ∧ ws = rest := by simpa [SideWords.take?, hk] using h
      rw [SideWords.read]
      cases hkind : (readName .sideKind k : WordResult SideKind) with
      | error e => rfl
      | ok kind =>
        cases kind with
        | statOf => exact absurd ((isStatOf_iff k).2 hkind) hk
        | imm =>
          simp only [bind_assoc, next_bind_run]
          cases readImmediate v <;> rfl

/-- If there are as many operand words as counted, the cursor comes to the end of them with the same
result. -/
theorem exists_readOperandWords? (h : ws.length = operandCount op ws) :
    ∃ r, readOperandWords? op ws = some r ∧ (instruction op).run ws = r.leaving [] := by
  cases op with
  | damage | heal =>
    obtain ⟨t, n, rfl⟩ := List.length_eq_two.1 h
    refine ⟨_, rfl, ?_⟩
    simp only [instruction, next_bind_run]
    cases readTarget t with
    | error e => rfl
    | ok a => cases readAmount n <;> rfl
  | buffStat | debuffStat =>
    obtain ⟨t, s, n, rfl⟩ := List.length_eq_three.1 h
    refine ⟨_, rfl, ?_⟩
    simp only [instruction, next_bind_run]
    cases readTarget t with
    | error e => rfl
    | ok a =>
      dsimp only
      cases readStat s with
      | error e => rfl
      | ok b => cases readAmount n <;> rfl
  | draw | discard | createToken =>
    obtain ⟨n, rfl⟩ := List.length_eq_one_iff.1 h
    refine ⟨_, rfl, ?_⟩
    simp only [instruction, next_bind_run]
    cases readAmount n <;> rfl
  | destroy =>
    obtain ⟨t, rfl⟩ := List.length_eq_one_iff.1 h
    refine ⟨_, rfl, ?_⟩
    simp only [instruction, next_bind_run]
    cases readTarget t <;> rfl
  | whenEvent =>
    obtain ⟨e, rfl⟩ := List.length_eq_one_iff.1 h
    refine ⟨_, rfl, ?_⟩
    simp only [instruction, next_bind_run]
    cases (readName .event e : WordResult Event) <;> rfl
  | elseMark | endIf | endWhen | stop =>
    obtain rfl := List.eq_nil_of_length_eq_zero h
    exact ⟨_, rfl, rfl⟩
  | ifTest =>
    match ws with
    | [] => simp [operandCount, sideCount, Opcode.sideBytes] at h
    | c :: ws =>
      obtain ⟨lhs, rest, rhs, hl, hr⟩ := length_eq_operandCount_iff.1 h
      have hread : readOperandWords? .ifTest (c :: ws) = some (do
          return .ifTest ⟨← readName .comparator c, ← lhs.read, ← rhs.read⟩) := by
        simp only [readOperandWords?, hl, hr]
      refine ⟨_, hread, ?_⟩
      simp only [instruction, next_bind_run]
      cases (readName .comparator c : WordResult Comparator) with
      | error e => rfl
      | ok cmp =>
        dsimp only
        rw [side_bind_run hl]
        cases lhs.read with
        | error e => rfl
        | ok left =>
          dsimp only
          rw [side_bind_run hr]
          cases rhs.read <;> rfl

/-- A line assembles to the same if its operands are counted and then read one after another: there is
a word whenever one is asked for, and none is left in the end. -/
theorem assembleInOrder_eq (l : Line) : assembleInOrder l = (assembleLine l).leaving [] := by
  rw [assembleInOrder, assembleLine]
  cases l.words.find? fun w => w.value.kind = .stray with
  | some w => rfl
  | none =>
    cases Opcode.ofMnemonic? l.head.value.text with
    | none => rfl
    | some op =>
      dsimp only
      by_cases hcount : l.tail.length = operandCount op l.tail
      · obtain ⟨r, hread, hrun⟩ := exists_readOperandWords? hcount
        rw [if_pos hcount, hrun, hread]
      · rw [if_neg hcount, readOperandWords?_eq_none_iff.2 hcount]
        rfl

end Running

section Faults

/-- The text that a fault quotes, if it is about a single word. -/
def Fault.quoted? : Fault → Option Text
  | .unknownMnemonic name _ | .unknownOperand _ name _ => some name
  | .badLiteral _ text _ _ | .badCharacter text => some text
  | .argCount .. => none

/-- A fault is about a word: it is where the word is, and quotes it. -/
def Word.IsBlamed (w : Word) (f : Spanned Fault) : Prop :=
  f.span = w.span ∧ f.value.quoted? = some w.value.text

/-- A reader finds fault with words that it is given only, and leaves only such words. -/
def WordReader.Blames {α : Type} (r : WordReader α) : Prop :=
  ∀ ws, (∀ f, r.run ws = .error (some f) → ∃ w ∈ ws, w.IsBlamed f) ∧
    ∀ a rest, r.run ws = .ok (a, rest) → rest ⊆ ws

namespace WordReader.Blames

variable {α β : Type}

/-- A reader that takes nothing finds no fault. -/
theorem pure (a : α) : (pure a : WordReader α).Blames := by
  intro ws
  refine ⟨fun _ h => (nomatch h), fun b rest h => ?_⟩
  obtain ⟨-, rfl⟩ := Prod.mk.inj (Except.ok.inj h)
  exact List.Subset.refl _

/-- A reader of one word finds fault with that word if reading it does. -/
theorem next {read : Word → WordResult α} (hread : ∀ w f, read w = .error f → w.IsBlamed f) :
    (next read).Blames := by
  intro ws
  cases ws with
  | nil => exact ⟨fun _ h => (nomatch h), fun _ _ h => (nomatch h)⟩
  | cons w ws =>
    have hrun : (WordReader.next read).run (w :: ws) = (read w).leaving ws := rfl
    rw [hrun]
    cases h : read w with
    | error e =>
      refine ⟨fun f hf => ⟨w, List.mem_cons_self, ?_⟩, fun _ _ h => (nomatch h)⟩
      obtain rfl := Option.some.inj (Except.error.inj hf)
      exact hread w e h
    | ok a =>
      refine ⟨fun _ h => (nomatch h), fun b rest hb => ?_⟩
      obtain ⟨-, rfl⟩ := Prod.mk.inj (Except.ok.inj hb)
      exact List.subset_cons_self w ws

/-- A reader followed by others that find fault with their words only does so too. -/
theorem bind {r : WordReader α} {f : α → WordReader β} (hr : r.Blames) (hf : ∀ a, (f a).Blames) :
    (r >>= f).Blames := by
  intro ws
  have hrun : (r >>= f).run ws = r.run ws >>= fun p => (f p.1).run p.2 := rfl
  rw [hrun]
  cases h : r.run ws with
  | error e =>
    refine ⟨fun g hg => (hr ws).1 g ?_, fun _ _ h => (nomatch h)⟩
    rw [h, Except.error.inj hg]
  | ok p =>
    obtain ⟨a, rest⟩ := p
    have hsub := (hr ws).2 a rest h
    refine ⟨fun g hg => ?_, fun b last hb => ?_⟩
    · obtain ⟨w, hw, hblamed⟩ := (hf a rest).1 g hg
      exact ⟨w, hsub hw, hblamed⟩
    · exact List.Subset.trans ((hf a rest).2 b last hb) hsub

end WordReader.Blames

/-- A name that is not on its list is blamed. -/
theorem isBlamed_of_readName {α : Type} [Labelled α] {role : Role} (w : Word) (f : Spanned Fault)
    (h : (readName role w : WordResult α) = .error f) : w.IsBlamed f := by
  rw [readName] at h
  split at h
  · cases h
  · cases h
    exact ⟨rfl, rfl⟩

/-- An integer that is out of its range is blamed. -/
theorem isBlamed_of_readInteger {α : Type} {role : Role} {least greatest : Nat}
    {ofValue? : Nat → Option α} (w : Word) (f : Spanned Fault)
    (h : readInteger role least greatest ofValue? w = .error f) : w.IsBlamed f := by
  rw [readInteger] at h
  split at h
  · cases h
  · cases h
    exact ⟨rfl, rfl⟩

namespace WordReader

/-- The reader of a side finds fault with its words only. -/
theorem blames_side : side.Blames :=
  .bind (.next isBlamed_of_readName) fun kind =>
    match kind with
    | .imm => .bind (.next isBlamed_of_readInteger) fun _ => .pure _
    | .statOf =>
      .bind (.next isBlamed_of_readName) fun _ => .bind (.next isBlamed_of_readName) fun _ => .pure _

/-- The reader of an instruction finds fault with its words only. -/
theorem blames_instruction (op : Opcode) : (instruction op).Blames := by
  cases op with
  | damage | heal =>
    exact .bind (.next isBlamed_of_readName) fun _ =>
      .bind (.next isBlamed_of_readInteger) fun _ => .pure _
  | buffStat | debuffStat =>
    exact .bind (.next isBlamed_of_readName) fun _ =>
      .bind (.next isBlamed_of_readName) fun _ =>
        .bind (.next isBlamed_of_readInteger) fun _ => .pure _
  | draw | discard | createToken =>
    exact .bind (.next isBlamed_of_readInteger) fun _ => .pure _
  | destroy | whenEvent =>
    exact .bind (.next isBlamed_of_readName) fun _ => .pure _
  | ifTest =>
    exact .bind (.next isBlamed_of_readName) fun _ =>
      .bind blames_side fun _ => .bind blames_side fun _ => .pure _
  | elseMark | endIf | endWhen | stop => exact .pure _

end WordReader

/-- What is wrong with a line is a word of it, or that it has too many or too few operands. -/
theorem isBlamed_of_assembleLine {l : Line} {f : Spanned Fault} (h : assembleLine l = .error f) :
    (∃ w ∈ l.words, w.IsBlamed f) ∨ ∃ op expected, expected ≠ l.tail.length ∧
      f = ⟨.argCount op expected l.tail.length, l.span⟩ := by
  have horder : assembleInOrder l = .error (some f) := by
    rw [assembleInOrder_eq, h]
    rfl
  rw [assembleInOrder] at horder
  split at horder
  case h_1 w hw =>
    obtain rfl := Option.some.inj (Except.error.inj horder)
    exact .inl ⟨w, List.mem_of_find?_eq_some hw, rfl, rfl⟩
  case h_2 =>
    split at horder
    case h_1 =>
      obtain rfl := Option.some.inj (Except.error.inj horder)
      exact .inl ⟨l.head, List.mem_cons_self, rfl, rfl⟩
    case h_2 op _ =>
      split at horder
      case isTrue =>
        obtain ⟨w, hw, hblamed⟩ := (WordReader.blames_instruction op l.tail).1 f horder
        exact .inl ⟨w, List.mem_cons_of_mem _ hw, hblamed⟩
      case isFalse hcount =>
        obtain rfl := Option.some.inj (Except.error.inj horder)
        exact .inr ⟨op, _, Ne.symm hcount, rfl⟩

end Faults

end AbilityScript
