import AbilityScript.Assembly.Basic
import AbilityScript.Bytecode.Listing
import AbilityScript.CommandLine.Arguments
import AbilityScript.CommandLine.Files
import AbilityScript.Diagnostics.Emitter
import AbilityScript.Report.Examination
import AbilityScript.Text.Utf8

/-!
# Running the command line

The first argument chooses what to do with a file. Results go to standard output or to a file,
diagnostics and help to standard error, and the exit code tells whether all went well.

## Main definitions

* `Outcome`: what a run prints and whether it went well.
* `Subcommand.run`: runs a subcommand.
* `run`: runs the command line.
-/

set_option autoImplicit false

namespace AbilityScript

/-- What a run prints and whether it went well. -/
structure Outcome where
  success : Bool := true
  stdout : Text := []
  stderr : Text := []
deriving DecidableEq, Repr

/-- The name of the program in its messages. -/
def programName : String := "cardscript"

/-- The version of the program. -/
def programVersion : String := "0.1.0"

/-- An error that no source file shows. -/
def strayError (message : String) : Text :=
  { severity := .error, message : Diagnostic }.render ⟨"<command line>".toList, []⟩

namespace Outcome

/-- The exit code of a run: zero if all went well, otherwise one. -/
def exitCode (o : Outcome) : Nat :=
  if o.success then 0 else 1

/-- Prints more on standard output. -/
def print (o : Outcome) (t : Text) : Outcome :=
  { o with stdout := o.stdout ++ t }

/-- Ends with an error that no source file shows. -/
def fail (o : Outcome) (message : String) : Outcome :=
  { o with success := false, stderr := o.stderr ++ strayError message }

/-- Ends because a file cannot be read. -/
def failReading (o : Outcome) (name : Text) (e : FileError) : Outcome :=
  o.fail s!"while reading '{String.ofList name}': {e.message}"

/-- Ends because a file cannot be written. -/
def failWriting (o : Outcome) (name : Text) (e : FileError) : Outcome :=
  o.fail s!"while writing '{String.ofList name}': {e.message}"

end Outcome

/-- The text of diagnostics about a source file. -/
def emitted (file : SourceFile) (ds : List Diagnostic) : Text :=
  ({ file : Emitter }.emitAll ds).output

/-- A line in a listing, one level in. -/
def offsetLine (line : Text) : Text :=
  List.replicate indentWidth ' ' ++ line

/-- What assembling prints if it went well. -/
def assembledSummary (r : Assembled) : Text :=
  Text.unlines (s!"assembled {r.bytecode.length} bytes".toList :: [] :: r.disassembly.map offsetLine)

/-- What assembling prints if it did not go well. -/
def assembledFailure (file : SourceFile) (r : Assembled) : Outcome :=
  let e := { file : Emitter }.emitAll r.diagnostics
  { success := false
    stderr := e.output ++ s!"{e.errors} error(s); no bytecode was written\n".toList }

section Subcommands

variable {m : Type → Type} [Monad m]

/-- Assembles a file. Bytecode is written only if all lines are good and form a program; a program
that is not legal is written too. -/
def runAssemble (files : FileAccess m) (a : Arguments) (bs : Bytes) : m Outcome :=
  match Utf8.decode bs with
  | .error e =>
    return ({} : Outcome).fail s!"'{String.ofList a.input}' is not UTF-8 text: {e.message}"
  | .ok source => do
    let file : SourceFile := ⟨a.input, source⟩
    let r := assemble a.config.version source
    if r.isOk then
      let shown : Outcome :=
        { stdout := assembledSummary r
          stderr := emitted file (r.warnings { version := a.config.version }) }
      match a.output with
      | none => return shown
      | some name =>
        match ← files.write name r.bytecode with
        | .ok () => return shown.print s!"\nbytecode written to '{String.ofList name}'\n".toList
        | .error e => return shown.failWriting name e
    else return assembledFailure file r

/-- Disassembles a file. What can be read is shown also when something is wrong. -/
def runDisassemble (files : FileAccess m) (a : Arguments) (bs : Bytes) : m Outcome := do
  let d := disassemble a.config bs
  let shown : Outcome := { success := d.isOk, stderr := emitted ⟨a.input, []⟩ d.diagnostics }
  match a.output with
  | none => return shown.print d.text
  | some name =>
    match ← files.write name d.text.utf8 with
    | .ok () => return shown
    | .error e => return shown.failWriting name e

/-- What every stage of reading a file found. -/
def decodedSummary (a : Arguments) (bs : Bytes) (x : Examination) : Text :=
  let instrs := x.decoded.instrs
  Text.unlines (["input: ".toList ++ a.input, s!"size: {bs.length} bytes".toList,
    "hex: ".toList ++ Text.unwords (bs.map Text.ofByte), [], s!"tokens: {instrs.length}".toList] ++
    instrs.map (fun l => offsetLine l.listing) ++ [[]]) ++
  match x.parsed.program with
  | some p => "program:\n".toList ++ p.printedAt 1
  | none => []

/-- All that the stages of reading found. -/
def Examination.diagnostics (x : Examination) : List Diagnostic :=
  x.decoded.errors.map DecodeError.diagnostic ++ x.parsed.errors.map ParseError.diagnostic ++
    x.semanticErrors.map SemanticError.diagnostic

/-- Shows what every stage of reading a file finds. -/
def runDecode (a : Arguments) (bs : Bytes) : Outcome :=
  let x := examine a.config bs
  if a.json then { stdout := Text.withBreak x.json.pretty }
  else { stdout := decodedSummary a bs x, stderr := emitted ⟨a.input, []⟩ x.diagnostics }

/-- Tells whether a file is a legal ability. -/
def runCheck (a : Arguments) (bs : Bytes) : Outcome :=
  let answer := match validate a.config bs with
    | .valid _ => (true, "valid")
    | .invalid stage => (false, s!"invalid ({stage.name} stage)")
  { success := answer.1, stdout := Text.withBreak (a.input ++ ": ".toList ++ answer.2.toList) }

/-- Runs a subcommand on the file it is given. -/
def Subcommand.runOn (c : Subcommand) (files : FileAccess m) (a : Arguments) : m Outcome := do
  match ← files.read a.input with
  | .error e => return ({} : Outcome).failReading a.input e
  | .ok bs =>
    match c with
    | .assemble => runAssemble files a bs
    | .disassemble => runDisassemble files a bs
    | .decode => return runDecode a bs
    | .check => return runCheck a bs

/-- How a subcommand is used. -/
def Subcommand.brief (c : Subcommand) : Text :=
  s!"Usage: {programName} {c.name} {fileWord} [OPTIONS...]".toList

/-- What is printed when the version is asked for. -/
def versionLine : Text :=
  s!"{programName} {programVersion}\n".toList

/-- Runs a subcommand with its arguments. -/
def Subcommand.run (c : Subcommand) (files : FileAccess m) (args : List Text) : m Outcome :=
  match readArguments c args with
  | .error e =>
    return ({ stderr := c.brief ++ ['\n', '\n'] : Outcome }).fail e.message
  | .ok .help => return { stderr := usage c.brief c.options }
  | .ok .version => return { stdout := versionLine }
  | .ok (.run a) => c.runOn files a

/-- A line of the list of subcommands. -/
def Subcommand.usageLine (lead : String) (c : Subcommand) : Text :=
  s!"{lead} {programName} ".toList ++ Text.padRight 12 c.name.toList ++
    s!" ARGS...    {c.summary}\n".toList

/-- How the program is used: one line for each subcommand. -/
def overview : Text :=
  match Subcommand.all with
  | [] => []
  | c :: cs => c.usageLine "usage: " ++ cs.flatMap (Subcommand.usageLine "       ")

/-- Runs the command line. -/
def run (files : FileAccess m) (args : List Text) : m Outcome :=
  match args with
  | [] => return { success := false, stderr := overview }
  | first :: rest =>
    if first = "--version".toList ∨ first = "-V".toList then return { stdout := versionLine }
    else if first = "--help".toList ∨ first = "-h".toList then return { stderr := overview }
    else
      match Subcommand.ofName? first with
      | some c => c.run files rest
      | none => return { success := false, stderr := overview }

end Subcommands

end AbilityScript
