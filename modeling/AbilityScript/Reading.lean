import AbilityScript.Bytecode.Decoding
import AbilityScript.Program.Blocks
import AbilityScript.Program.Layout
import AbilityScript.Program.Legality

/-!
# Reading bytecode as an ability

The way from bytecode to a program and its text in one step, and the question whether bytecode is a
legal ability.

## Main definitions

* `disassemble`: bytecode as mnemonic text.
* `validate`: whether bytecode is a legal ability, and otherwise which stage found a problem first.
-/

set_option autoImplicit false

namespace AbilityScript

/-- Bytecode as mnemonic text. -/
structure Disassembly where
  /-- The lines of the program. There are none if there is no program. -/
  lines : List Text
  program : Option Program
  decodeErrors : List DecodeError
  parseErrors : List ParseError
deriving DecidableEq, Repr

namespace Disassembly

/-- Whether nothing was wrong with the bytecode or its block structure. -/
def isOk (d : Disassembly) : Bool :=
  d.decodeErrors.isEmpty && d.parseErrors.isEmpty

/-- The lines, each followed by a line break. -/
def text (d : Disassembly) : Text :=
  Text.unlines d.lines

end Disassembly

/-- Reads bytecode as mnemonic text. -/
def disassemble (config : DecodeConfig) (bs : Bytes) : Disassembly :=
  let decoded := decode config bs
  let parsed := parse decoded.instrs
  { lines := (parsed.program.map Program.formatted).getD []
    program := parsed.program
    decodeErrors := decoded.errors
    parseErrors := parsed.errors }

/-- The steps in which bytecode is examined. -/
inductive Stage where
  | decode
  | parse
  | semantic
deriving DecidableEq, Repr

namespace Stage

/-- The name of a stage in messages. -/
def name : Stage → String
  | .decode => "decode"
  | .parse => "parse"
  | .semantic => "semantic"

end Stage

/-- Whether bytecode is a legal ability. -/
inductive Validity where
  /-- A stage found a problem that no earlier one had found. -/
  | invalid (stage : Stage)
  | valid (p : Program)
deriving DecidableEq, Repr

namespace Validity

/-- The program of a legal ability. -/
def program? : Validity → Option Program
  | .valid p => some p
  | .invalid _ => none

/-- The stage that found a problem. -/
def stage? : Validity → Option Stage
  | .valid _ => none
  | .invalid s => some s

/-- Whether the ability is legal. -/
def isValid (v : Validity) : Bool :=
  v.program?.isSome

/-- Whether the ability is legal and does anything at all. -/
def hasStatements (v : Validity) : Bool :=
  v.program?.any fun p => !p.topLevel.isEmpty

end Validity

/-- Decides whether bytecode is a legal ability. -/
def validate (config : DecodeConfig) (bs : Bytes) : Validity :=
  let decoded := decode config bs
  if decoded.isOk then
    match parse decoded.instrs with
    | { program := some p, errors := [] } =>
      if p.check.isEmpty then .valid p else .invalid .semantic
    | _ => .invalid .parse
  else .invalid .decode

end AbilityScript
