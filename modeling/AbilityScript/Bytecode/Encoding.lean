import AbilityScript.Instruction.Basic

/-!
# Writing bytecode

An instruction is written as its opcode and one byte for each operand, in order. A comparison side is
written as its kind and what the kind calls for, so a conditional takes six, seven or eight bytes.
-/

set_option autoImplicit false

namespace AbilityScript

open ByteCoded (toByte)

/-- The bytes of one side of a comparison. -/
def Side.encode : Side → Bytes
  | .imm v => [toByte SideKind.imm, toByte v]
  | .statOf t s => [toByte SideKind.statOf, toByte t, toByte s]

/-- The operand bytes of an action, in the order in which it names them. An amount comes last. -/
def Action.encodeOperands : Action → Bytes
  | .damage t n | .heal t n => [toByte t, toByte n]
  | .buffStat t s n | .debuffStat t s n => [toByte t, toByte s, toByte n]
  | .draw n | .discard n | .createToken n => [toByte n]
  | .destroy t => [toByte t]

namespace Instruction

/-- The operand bytes of an instruction. A conditional has its comparator in front of its two sides. -/
def encodeOperands : Instruction → Bytes
  | .action a => a.encodeOperands
  | .ifTest c => toByte c.cmp :: c.lhs.encode ++ c.rhs.encode
  | .whenEvent e => [toByte e]
  | .elseMark | .endIf | .endWhen | .stop => []

/-- An instruction as it is written: the byte of its opcode and those of its operands. -/
def encode (i : Instruction) : Bytes :=
  toByte i.opcode :: i.encodeOperands

/-- The number of bytes an instruction takes. -/
def size (i : Instruction) : Nat :=
  i.encode.length

/-- An instruction takes at least the byte of its opcode. -/
theorem size_pos (i : Instruction) : 0 < i.size := by
  simp [size, encode]

end Instruction

/-- The bytecode of a program with the given header byte. -/
def bytecode (header : UInt8) (is : List Instruction) : Bytes :=
  header :: is.flatMap Instruction.encode

end AbilityScript
