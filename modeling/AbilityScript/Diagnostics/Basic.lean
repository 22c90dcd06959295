import AbilityScript.Assembly.Basic
import AbilityScript.Program.Legality
import AbilityScript.Reading

/-!
# Diagnostics

Everything that can be wrong, in one form fit to be shown: a message of some severity, the places in
the source text that it is about, and notes. Bytecode has no source text, so what is wrong with it is
located by a note that gives the byte offset. If the bytecode was assembled from a source text, the
offset leads back to a line of it.

## Main definitions

* `Diagnostic`: what is shown.
* `DecodeError.diagnostic`, `ParseError.diagnostic`, `SelfCheckError.diagnostic`,
  `SemanticError.diagnostic`, `AssemblyError.diagnostic`: the errors of all stages in that form.
* `Diagnostic.locate`: points a diagnostic at the source line of an offset.
-/

set_option autoImplicit false

namespace AbilityScript

/-- How bad something is. -/
inductive Severity where
  /-- A mistake in this program itself. -/
  | bug
  | error
  | warning
  | note
  | help
deriving DecidableEq, Repr

namespace Severity

/-- The word that a message of this severity begins with. -/
def word : Severity → String
  | .bug => "bug"
  | .error => "error"
  | .warning => "warning"
  | .note => "note"
  | .help => "help"

/-- Whether a message of this severity counts as an error. -/
def isError : Severity → Bool
  | .bug | .error => true
  | .warning | .note | .help => false

/-- Whether a message of this severity counts as a warning. -/
def isWarning : Severity → Bool
  | .warning => true
  | .bug | .error | .note | .help => false

end Severity

/-- Something to be shown to whoever wrote the program. -/
structure Diagnostic where
  severity : Severity
  message : String
  labels : List Span := []
  notes : List String := []
deriving DecidableEq, Repr

/-- The note that gives a byte offset. -/
def offsetNotes (pc : Option Nat) : List String :=
  pc.toList.map fun pc => s!"at byte offset {pc}"

namespace DecodeError

/-- The error as it is shown, with its offset as a note. -/
def diagnostic (e : DecodeError) : Diagnostic where
  severity := .error
  message := s!"decode error: {e.message}"
  notes := offsetNotes e.pc?

end DecodeError

namespace ParseError

/-- The error as it is shown, with its offset as a note. -/
def diagnostic (e : ParseError) : Diagnostic where
  severity := .error
  message := s!"parse error: {e.message}"
  notes := offsetNotes e.pc?

end ParseError

namespace SelfCheckError

/-- The error as it is shown where no source text is at hand, with its offset as a note. -/
def diagnostic (e : SelfCheckError) : Diagnostic where
  severity := .error
  message := e.message
  notes := offsetNotes e.pc?

end SelfCheckError

namespace SemanticError

/-- The error as it is shown. It does not keep bytecode from being used, so it is a warning. -/
def diagnostic (e : SemanticError) : Diagnostic where
  severity := .warning
  message := e.message
  notes := offsetNotes (some e.pc)

end SemanticError

namespace AssemblyError

/-- The error as it is shown, at the words that are at fault. -/
def diagnostic (e : AssemblyError) : Diagnostic where
  severity := .error
  message := e.fault.message
  labels := [e.span]
  notes := e.fault.suggestion?.toList.map fun word => s!"did you mean '{word}'?"

end AssemblyError

namespace Diagnostic

/-- Points a diagnostic about an offset at the line that the instruction there came from. -/
def locate (a : Assembled) (pc : Option Nat) (d : Diagnostic) : Diagnostic :=
  match pc.bind a.spanAtPc with
  | some span => { d with labels := d.labels ++ [span] }
  | none => d

end Diagnostic

namespace Assembled

/-- What is wrong with assembled bytecode, pointed at the source text. -/
def selfCheckDiagnostic (a : Assembled) (e : SelfCheckError) : Diagnostic :=
  e.diagnostic.locate a e.pc?

/-- What is not legal in the program of assembled bytecode, pointed at the source text. -/
def semanticDiagnostic (a : Assembled) (e : SemanticError) : Diagnostic :=
  e.diagnostic.locate a (some e.pc)

/-- All that keeps the bytecode from being used. -/
def diagnostics (a : Assembled) : List Diagnostic :=
  a.errors.map AssemblyError.diagnostic ++ a.selfCheckErrors.map a.selfCheckDiagnostic

/-- What is not legal in the program that the bytecode holds, if it holds one. -/
def warnings (a : Assembled) (config : DecodeConfig) : List Diagnostic :=
  match (disassemble config a.bytecode).program with
  | some p => p.check.map a.semanticDiagnostic
  | none => []

end Assembled

namespace Disassembly

/-- All that is wrong with the bytecode. -/
def diagnostics (d : Disassembly) : List Diagnostic :=
  d.decodeErrors.map DecodeError.diagnostic ++ d.parseErrors.map ParseError.diagnostic

/-- What is not legal in the program, if there is one. -/
def warnings (d : Disassembly) : List Diagnostic :=
  match d.program with
  | some p => p.check.map SemanticError.diagnostic
  | none => []

end Disassembly

end AbilityScript
