import AbilityScript.Reading
import AbilityScript.Report.Shape

/-!
# Examining bytecode

All that the stages of reading find in bytecode, side by side, and the report of it as a document.

## Main definitions

* `Examination`: what every stage found.
* `examine`: runs all stages.
* `Examination.json`: the report.
-/

set_option autoImplicit false

namespace AbilityScript

/-- What every stage of reading found in bytecode. -/
structure Examination where
  decoded : Decoded
  parsed : Parsed
  /-- What is not legal in the program. Nothing is if there is no program. -/
  semanticErrors : List SemanticError
deriving DecidableEq, Repr

/-- Runs all stages of reading, also after one that found a problem. -/
def examine (config : DecodeConfig) (bs : Bytes) : Examination :=
  let decoded := decode config bs
  let parsed := parse decoded.instrs
  { decoded, parsed, semanticErrors := (parsed.program.map Program.check).getD [] }

namespace Examination

/-- Whether no stage found a problem. -/
def isValid (x : Examination) : Bool :=
  x.decoded.isOk && x.parsed.isOk && x.semanticErrors.isEmpty

end Examination

/-- An error of legality as a document. -/
def SemanticError.json (e : SemanticError) : Json :=
  .obj [("message", .str e.message), ("pc", .num e.pc)]

/-- The report on an examination. Whether the ability is legal comes last. -/
def Examination.json (x : Examination) : Json :=
  .obj [("header", .ofOption (fun b => .num b.toNat) x.decoded.header),
    ("tokens", .arr (x.decoded.instrs.map Located.json)),
    ("decode_errors", .arr (x.decoded.errors.map fun e => .str e.message)),
    ("program", .ofOption Program.json x.parsed.program),
    ("parse_errors", .arr (x.parsed.errors.map fun e => .str e.message)),
    ("semantic_errors", .arr (x.semanticErrors.map SemanticError.json)),
    ("valid", .bool x.isValid)]

end AbilityScript
