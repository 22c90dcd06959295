import AbilityScript.Assembly.Fault
import AbilityScript.Instruction.Basic
import AbilityScript.Source.Line
import AbilityScript.Text.Numeral
import AbilityScript.Text.Similarity

/-!
# Lines as instructions

A line of mnemonic text is a mnemonic and its operands, in the order in which they are stored. Words
are taken letter for letter: a mnemonic is the label of its opcode or its longer name, a named operand
its label, and a number an integer in range.

## Main definitions

* `readOperandWords?`: the instruction of a mnemonic and operand words, if there are as many as it
  takes.
* `assembleLine`: the instruction of a line, or what is wrong with it.
-/

set_option autoImplicit false

namespace AbilityScript

open Similarity (closest)

/-- What came of words: a result, or what is wrong with them and where. -/
abbrev WordResult (α : Type) : Type :=
  Except (Spanned Fault) α

/-- Finds fault with a word. -/
def Word.reject {α : Type} (w : Word) (f : Fault) : WordResult α :=
  .error ⟨f, w.span⟩

/-- The member that a word is the label of. -/
def readName {α : Type} [Labelled α] (role : Role) (w : Word) : WordResult α :=
  match Labelled.ofName? w.value.text with
  | some a => .ok a
  | none =>
    w.reject (.unknownOperand role w.value.text (closest w.value.text (Labelled.labels α)))

/-- The value of a word that is an integer and fits into a byte. -/
def Lexeme.byteValue? (l : Lexeme) : Option Nat :=
  match l.kind with
  | .integer => Numeral.value? l.text
  | .name | .stray => none

/-- What a word stands for that should be an integer in a range. -/
def readInteger {α : Type} (role : Role) (least greatest : Nat) (ofValue? : Nat → Option α)
    (w : Word) : WordResult α :=
  match w.value.byteValue?.bind ofValue? with
  | some a => .ok a
  | none => w.reject (.badLiteral role w.value.text least greatest)

/-- Reads the name of a target. -/
def readTarget : Word → WordResult Target := readName .target

/-- Reads the name of a stat. -/
def readStat : Word → WordResult Stat := readName .stat

/-- Reads an amount, which has to lie in its range. -/
def readAmount : Word → WordResult Amount :=
  readInteger .amount Amount.least Amount.greatest Amount.ofValue?

/-- Reads a constant of a comparison, which has to lie in its range. -/
def readImmediate : Word → WordResult Immediate :=
  readInteger .immediate 0 Immediate.greatest Immediate.ofValue?

/-- Whether a word announces the stat of a target. -/
def isStatOf (w : Word) : Bool :=
  w.value.text == Labelled.name SideKind.statOf

/-- The words of one side of a comparison. What does not announce a stat is taken for a constant. -/
inductive SideWords where
  /-- A kind and a constant. -/
  | imm (kind value : Word)
  /-- A target and a stat, after their kind. -/
  | statOf (target stat : Word)

namespace SideWords

/-- The words of one side at the front of others, and the others. -/
def take? : List Word → Option (SideWords × List Word)
  | k :: v :: rest =>
    if isStatOf k then
      match rest with
      | s :: rest => some (.statOf v s, rest)
      | [] => none
    else some (.imm k v, rest)
  | _ => none

/-- The side that words describe. -/
def read : SideWords → WordResult Side
  | .imm k v => do
    let _ ← (readName .sideKind k : WordResult SideKind)
    return .imm (← readImmediate v)
  | .statOf t s => return .statOf (← readTarget t) (← readStat s)

end SideWords

/-- The instruction of an opcode and operand words, unless there are too many or too few of them. -/
def readOperandWords? : Opcode → List Word → Option (WordResult Instruction)
  | .damage, [t, n] => some do return .action (.damage (← readTarget t) (← readAmount n))
  | .heal, [t, n] => some do return .action (.heal (← readTarget t) (← readAmount n))
  | .buffStat, [t, s, n] =>
    some do return .action (.buffStat (← readTarget t) (← readStat s) (← readAmount n))
  | .debuffStat, [t, s, n] =>
    some do return .action (.debuffStat (← readTarget t) (← readStat s) (← readAmount n))
  | .draw, [n] => some do return .action (.draw (← readAmount n))
  | .discard, [n] => some do return .action (.discard (← readAmount n))
  | .createToken, [n] => some do return .action (.createToken (← readAmount n))
  | .destroy, [t] => some do return .action (.destroy (← readTarget t))
  | .ifTest, c :: ws =>
    match SideWords.take? ws with
    | some (lhs, ws) =>
      match SideWords.take? ws with
      | some (rhs, []) => some do
        return .ifTest ⟨← readName .comparator c, ← lhs.read, ← rhs.read⟩
      | _ => none
    | none => none
  | .elseMark, [] => some (.ok .elseMark)
  | .endIf, [] => some (.ok .endIf)
  | .whenEvent, [e] => some do return .whenEvent (← readName .event e)
  | .endWhen, [] => some (.ok .endWhen)
  | .stop, [] => some (.ok .stop)
  | _, _ => none

/-- The number of words that one side of a comparison takes whose first word is known. -/
def sideCount (kind : Option Word) : Nat :=
  if kind.any isStatOf then Opcode.sideBytes else Opcode.sideBytes - 1

/-- The number of words that a mnemonic takes, one for each byte. With `IF` it depends on the words
that stand where the kinds of the two sides should be. -/
def operandCount (op : Opcode) (ws : List Word) : Nat :=
  if op = .ifTest then
    let lhs := sideCount ws[1]?
    1 + lhs + sideCount ws[1 + lhs]?
  else op.argCount

/-- The instruction of a line. Stray characters are reported before anything else, then the mnemonic,
then the number of operands, then the first operand that is wrong. -/
def assembleLine (l : Line) : WordResult Instruction :=
  match l.words.find? fun w => w.value.kind = .stray with
  | some w => w.reject (.badCharacter w.value.text)
  | none =>
    match Opcode.ofMnemonic? l.head.value.text with
    | none =>
      l.head.reject (.unknownMnemonic l.head.value.text
        (closest l.head.value.text (Labelled.labels Opcode)))
    | some op =>
      match readOperandWords? op l.tail with
      | some r => r
      | none => .error ⟨.argCount op (operandCount op l.tail) l.tail.length, l.span⟩

end AbilityScript
