import AbilityScript.Assembly.Line
import AbilityScript.Bytecode.Decoding
import AbilityScript.Bytecode.Encoding
import AbilityScript.Program.Blocks
import AbilityScript.Program.Layout

/-!
# Assembling mnemonic text

Every line of a source text that is an instruction becomes bytes, and every other line an error, so
that one bad line does not hide another. If there is no bad line, the bytecode is read back, which
brings to light what no single line shows: blocks that are not closed, or a conditional that the end
of the data cuts short.

## Main definitions

* `Assembled`: bytecode, errors, and which bytes came from where.
* `assemble`: assembles a source text.
-/

set_option autoImplicit false

namespace AbilityScript

/-- What is wrong with bytecode that was just assembled. -/
inductive SelfCheckError where
  | decode (e : DecodeError)
  | parse (e : ParseError)
deriving DecidableEq, Repr

namespace SelfCheckError

/-- The offset that an error is about, if it is about one place. -/
def pc? : SelfCheckError → Option Nat
  | .decode e => e.pc?
  | .parse e => e.pc?

/-- The text of an error. It says at which step bytecode that was just assembled is refused. -/
def message : SelfCheckError → String
  | .decode e => s!"assembled bytecode does not decode cleanly: {e.message}"
  | .parse e => s!"assembled bytecode does not parse: {e.message}"

end SelfCheckError

/-- What came of assembling a source text. -/
structure Assembled where
  /-- The header and the bytes of the good lines. -/
  bytecode : Bytes
  errors : List AssemblyError
  /-- The lines of the program that the bytecode holds. There are none if a line is bad. -/
  disassembly : List Text
  /-- What is wrong with the bytecode as a whole. Nothing is if a line is bad. -/
  selfCheckErrors : List SelfCheckError
  /-- The offset of each instruction and the words it came from. -/
  sourceMap : List (Nat × Span)
deriving DecidableEq, Repr

namespace Assembled

/-- Whether all lines are good and the bytecode holds a program. -/
def isOk (a : Assembled) : Bool :=
  a.errors.isEmpty && a.selfCheckErrors.isEmpty

/-- The words that the instruction at an offset came from. -/
def spanAtPc (a : Assembled) (pc : Nat) : Option Span :=
  (a.sourceMap.find? fun entry => entry.1 == pc).map (·.2)

end Assembled

/-- A line that became an instruction. -/
structure AssembledLine where
  span : Span
  instr : Instruction
deriving DecidableEq, Repr

/-- The lines that become instructions, in order. Bad lines are left out. -/
def goodLines (ls : List Line) : List AssembledLine :=
  ls.filterMap fun l => (assembleLine l).toOption.map fun i => ⟨l.span, i⟩

/-- The error of a line, if it is bad. -/
def lineError? (l : Line) : Option AssemblyError :=
  match assembleLine l with
  | .ok _ => none
  | .error f => some ⟨l.number, f.span, f.value⟩

/-- The offsets of instructions of which the first one begins at `pc`, and where they came from. -/
def mapSource (pc : Nat) : List AssembledLine → List (Nat × Span)
  | [] => []
  | l :: ls => (pc, l.span) :: mapSource (pc + l.instr.size) ls

/-- What is wrong with bytecode, and the lines of the program it holds. -/
def selfCheck (version : UInt8) (bs : Bytes) : List SelfCheckError × List Text :=
  let decoded := decode { version } bs
  let parsed := parse decoded.instrs
  (decoded.errors.map .decode ++ parsed.errors.map .parse,
    (parsed.program.map Program.formatted).getD [])

/-- Assembles a source text to bytecode with a header byte. -/
def assemble (version : UInt8) (source : Text) : Assembled :=
  let lines := sourceLines source
  let good := goodLines lines
  let errors := lines.filterMap lineError?
  let bytes := bytecode version (good.map AssembledLine.instr)
  let (selfCheckErrors, disassembly) :=
    if errors.isEmpty then selfCheck version bytes else ([], [])
  { bytecode := bytes, errors, disassembly, selfCheckErrors, sourceMap := mapSource 1 good }

end AbilityScript
