import AbilityScript.Instruction.Opcode
import AbilityScript.Source.Span

/-!
# What can be wrong with a line

The faults of a line of mnemonic text, and their wording. A misspelled word comes with a suggestion
where one is close enough.
-/

set_option autoImplicit false

namespace AbilityScript

/-- What an operand word is supposed to be. -/
inductive Role where
  | target
  | stat
  | amount
  | event
  | comparator
  | sideKind
  | immediate
deriving DecidableEq, Repr

namespace Role

/-- What an operand in this role is called in messages. -/
def name : Role → String
  | .target => "target"
  | .stat => "stat"
  | .amount => "amount"
  | .event => "event"
  | .comparator => "comparator"
  | .sideKind => "comparison operand kind"
  | .immediate => "immediate"

end Role

/-- What is wrong with a line. -/
inductive Fault where
  | unknownMnemonic (name : Text) (suggestion : Option String)
  | unknownOperand (role : Role) (name : Text) (suggestion : Option String)
  | badLiteral (role : Role) (text : Text) (least greatest : Nat)
  | argCount (mnemonic : Opcode) (expected found : Nat)
  | badCharacter (text : Text)
deriving DecidableEq, Repr

namespace Fault

/-- The word to use instead, if one is close enough. -/
def suggestion? : Fault → Option String
  | .unknownMnemonic _ suggestion | .unknownOperand _ _ suggestion => suggestion
  | .badLiteral .. | .argCount .. | .badCharacter _ => none

/-- The text of a fault. -/
def message : Fault → String
  | .unknownMnemonic name _ => s!"unknown mnemonic '{String.ofList name}'"
  | .unknownOperand role name _ => s!"unknown {role.name} '{String.ofList name}'"
  | .badLiteral role text least greatest =>
    s!"{role.name} must be an integer from {least} to {greatest}, got '{String.ofList text}'"
  | .argCount mnemonic expected found =>
    s!"{Labelled.label mnemonic} takes {expected} operand(s) but {found} were given"
  | .badCharacter text => s!"unexpected character(s) '{String.ofList text}'"

end Fault

/-- A fault and where it is. -/
structure AssemblyError where
  line : Nat
  span : Span
  fault : Fault
deriving DecidableEq, Repr

namespace AssemblyError

/-- What an error says and in which line it is. -/
def text (e : AssemblyError) : String :=
  s!"line {e.line}: {e.fault.message}"

end AssemblyError

end AbilityScript
