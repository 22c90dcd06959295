import AbilityScript.Instruction.Opcode
import AbilityScript.Instruction.Operand

/-!
# Instructions

An instruction is an opcode with its operands. The eight actions do something to the game and are
what programs are made of; the other six give a program its block structure and its end.

## Main definitions

* `Action`, `Comparison`, `Instruction`.
* `Instruction.text`: the line of mnemonic text that stands for an instruction.
* `Located`: an instruction at a byte offset.
-/

set_option autoImplicit false

namespace AbilityScript

/-- One side of a comparison. -/
inductive Side where
  | imm (value : Immediate)
  | statOf (target : Target) (stat : Stat)
deriving DecidableEq, Repr

namespace Side

/-- What a side is made of. -/
def kind : Side → SideKind
  | .imm _ => .imm
  | .statOf _ _ => .statOf

/-- Whether a side is a constant. -/
def isImmediate (s : Side) : Bool :=
  s.kind == .imm

/-- The words of a side: its kind, then what the kind calls for. -/
def words : Side → List Text
  | .imm v => [Labelled.name SideKind.imm, v.text]
  | .statOf t s => [Labelled.name SideKind.statOf, Labelled.name t, Labelled.name s]

/-- A side as it is printed, its words with spaces between them. -/
def text (s : Side) : Text :=
  Text.unwords s.words

end Side

/-- What a conditional tests. -/
structure Comparison where
  cmp : Comparator
  lhs : Side
  rhs : Side
deriving DecidableEq, Repr

namespace Comparison

/-- Whether the outcome is fixed before the card is played: both sides are constants. -/
def isConstant (c : Comparison) : Bool :=
  c.lhs.isImmediate && c.rhs.isImmediate

end Comparison

/-- An instruction that changes the game. -/
inductive Action where
  | damage (target : Target) (amount : Amount)
  | heal (target : Target) (amount : Amount)
  | buffStat (target : Target) (stat : Stat) (amount : Amount)
  | debuffStat (target : Target) (stat : Stat) (amount : Amount)
  | draw (amount : Amount)
  | discard (amount : Amount)
  | createToken (amount : Amount)
  | destroy (target : Target)
deriving DecidableEq, Repr

/-- What an action does, whatever its operands are. -/
inductive ActionKind where
  | damage
  | heal
  | buffStat
  | debuffStat
  | draw
  | discard
  | createToken
  | destroy
deriving DecidableEq, Repr

namespace ActionKind

/-- The opcode of the actions of a kind. -/
def opcode : ActionKind → Opcode
  | .damage => .damage
  | .heal => .heal
  | .buffStat => .buffStat
  | .debuffStat => .debuffStat
  | .draw => .draw
  | .discard => .discard
  | .createToken => .createToken
  | .destroy => .destroy

end ActionKind

namespace Action

/-- The kind of an action, which is the action without its operands. -/
def kind : Action → ActionKind
  | .damage .. => .damage
  | .heal .. => .heal
  | .buffStat .. => .buffStat
  | .debuffStat .. => .debuffStat
  | .draw _ => .draw
  | .discard _ => .discard
  | .createToken _ => .createToken
  | .destroy _ => .destroy

/-- The opcode of an action, which depends on its kind only. -/
def opcode (a : Action) : Opcode :=
  a.kind.opcode

/-- The operands of an action as words. -/
def words : Action → List Text
  | .damage t n | .heal t n => [Labelled.name t, n.text]
  | .buffStat t s n | .debuffStat t s n => [Labelled.name t, Labelled.name s, n.text]
  | .draw n | .discard n | .createToken n => [n.text]
  | .destroy t => [Labelled.name t]

end Action

/-- An opcode with its operands. -/
inductive Instruction where
  | action (a : Action)
  | ifTest (c : Comparison)
  | elseMark
  | endIf
  | whenEvent (e : Event)
  | endWhen
  | stop
deriving DecidableEq, Repr

namespace Instruction

/-- The opcode of an instruction. -/
def opcode : Instruction → Opcode
  | .action a => a.opcode
  | .ifTest _ => .ifTest
  | .elseMark => .elseMark
  | .endIf => .endIf
  | .whenEvent _ => .whenEvent
  | .endWhen => .endWhen
  | .stop => .stop

/-- The operands of an instruction as words, in the order in which they are stored. -/
def operandWords : Instruction → List Text
  | .action a => a.words
  | .ifTest c => Labelled.name c.cmp :: c.lhs.words ++ c.rhs.words
  | .whenEvent e => [Labelled.name e]
  | .elseMark | .endIf | .endWhen | .stop => []

/-- The line that stands for an instruction: its label and its operands, separated by spaces. -/
def text (i : Instruction) : Text :=
  Text.unwords (Labelled.name i.opcode :: i.operandWords)

end Instruction

/-- An instruction and the offset of its opcode in the bytecode it was read from. -/
structure Located where
  pc : Nat
  instr : Instruction
deriving DecidableEq, Repr

namespace Located

/-- Whether a located instruction is an `END`. -/
def isStop (l : Located) : Bool :=
  l.instr == .stop

end Located

end AbilityScript
