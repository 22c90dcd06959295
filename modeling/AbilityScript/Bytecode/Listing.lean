import AbilityScript.Instruction.Basic

/-!
# Listings

A listing shows one instruction a line, as it was read: its offset, its opcode byte and label, and
its operands with the names of their roles.
-/

set_option autoImplicit false

namespace AbilityScript

/-- An operand with the name of its role. -/
def listed (role : String) (value : Text) : Text :=
  ' ' :: role.toList ++ '=' :: value

/-- The operands of an action, each with its role. -/
def Action.listing : Action → Text
  | .damage t n | .heal t n => listed "target" (Labelled.name t) ++ listed "amount" n.text
  | .buffStat t s n | .debuffStat t s n =>
    listed "target" (Labelled.name t) ++ listed "stat" (Labelled.name s) ++ listed "amount" n.text
  | .draw n | .discard n | .createToken n => listed "amount" n.text
  | .destroy t => listed "target" (Labelled.name t)

/-- The operands of an instruction, each with its role. -/
def Instruction.listing : Instruction → Text
  | .action a => a.listing
  | .ifTest c =>
    listed "cmp" (Labelled.name c.cmp) ++ listed "lhs" c.lhs.text ++ listed "rhs" c.rhs.text
  | .whenEvent e => listed "event" (Labelled.name e)
  | .elseMark | .endIf | .endWhen | .stop => []

/-- The line of a listing. The offset takes at least three characters and the label twelve. -/
def Located.listing (l : Located) : Text :=
  "PC ".toList ++ Text.padLeft 3 (Text.ofNat l.pc) ++ ": ".toList ++
    Text.ofByte (ByteCoded.toByte l.instr.opcode) ++
    ' ' :: Text.padRight 12 (Labelled.name l.instr.opcode) ++ l.instr.listing

end AbilityScript
