import AbilityScript.Diagnostics.Snippet

/-!
# Emitting diagnostics

An emitter shows diagnostics about one source file and counts the errors and warnings among them.
-/

set_option autoImplicit false

namespace AbilityScript

/-- What was shown so far about a source file. -/
structure Emitter where
  file : SourceFile
  output : Text := []
  errors : Nat := 0
  warnings : Nat := 0
deriving DecidableEq, Repr

namespace Emitter

/-- Shows one more diagnostic. -/
def emit (e : Emitter) (d : Diagnostic) : Emitter where
  file := e.file
  output := e.output ++ d.render e.file
  errors := if d.severity.isError then e.errors + 1 else e.errors
  warnings := if d.severity.isWarning then e.warnings + 1 else e.warnings

/-- Shows more diagnostics. -/
def emitAll (e : Emitter) (ds : List Diagnostic) : Emitter :=
  ds.foldl emit e

end Emitter

end AbilityScript
