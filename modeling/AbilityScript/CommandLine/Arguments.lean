import AbilityScript.Bytecode.Decoding
import AbilityScript.CommandLine.Options
import AbilityScript.Text.Numeral
import AbilityScript.Text.Quoted

/-!
# The arguments of the subcommands

Every subcommand reads one file. What else it takes depends on the subcommand, apart from the requests
for help and for the version.

## Main definitions

* `Subcommand`: what can be done with a file.
* `Request`: what the arguments of a subcommand ask for.
* `readArguments`: arguments as a request.
-/

set_option autoImplicit false

namespace AbilityScript

/-- What can be done with a file. -/
inductive Subcommand where
  | assemble
  | disassemble
  | decode
  | check
deriving DecidableEq, Repr

namespace Subcommand

/-- All subcommands, in the order in which they are listed. -/
def all : List Subcommand :=
  [.assemble, .disassemble, .decode, .check]

/-- The word that chooses a subcommand. -/
def name : Subcommand → String
  | .assemble => "assemble"
  | .disassemble => "disassemble"
  | .decode => "decode"
  | .check => "check"

/-- What a subcommand does, as the overview says it. -/
def summary : Subcommand → String
  | .assemble => "compile mnemonic text into bytecode"
  | .disassemble => "turn bytecode back into mnemonic text"
  | .decode => "show every stage of reading a bytecode file"
  | .check => "exit with success iff a bytecode file is a valid program"

/-- The subcommand that a word stands for. -/
def ofName? (t : Text) : Option Subcommand :=
  all.find? fun c => c.name.toList = t

end Subcommand

namespace Options

/-- Asks how a subcommand is used. -/
def help : OptionSpec :=
  { short := some 'h', long := "help", help := "print this help menu" }

/-- Asks for the version of the program. -/
def version : OptionSpec :=
  { short := some 'V', long := "version", help := "print the version and exit" }

/-- Names a file for the result. -/
def output : OptionSpec :=
  { short := some 'o', long := "output", value := some "OUTPUT"
    help := "write the result to a file instead of standard output" }

/-- Asks for a report that programs can read. -/
def json : OptionSpec :=
  { long := "json", help := "print machine-readable JSON" }

/-- Gives the header byte that programs start with. -/
def versionByte : OptionSpec :=
  { long := "version-byte", value := some "NUM"
    help := "header byte that programs start with (default 0x01)" }

/-- Makes another header byte an error. -/
def strictVersion : OptionSpec :=
  { long := "strict-version"
    help := "treat a header byte other than the version byte as an error" }

end Options

/-- The options that a subcommand takes. -/
def Subcommand.options (c : Subcommand) : List OptionSpec :=
  [Options.help, Options.version] ++ match c with
    | .assemble => [Options.output, Options.versionByte]
    | .disassemble => [Options.output, Options.versionByte, Options.strictVersion]
    | .decode => [Options.json, Options.versionByte, Options.strictVersion]
    | .check => [Options.versionByte, Options.strictVersion]

/-- The arguments of a subcommand. What it does not take has its default. -/
structure Arguments where
  input : Text
  output : Option Text := none
  json : Bool := false
  /-- The header byte and whether another one is an error. -/
  config : DecodeConfig := {}
deriving DecidableEq, Repr

/-- What arguments ask for. -/
inductive Request where
  | run (a : Arguments)
  | help
  | version
deriving DecidableEq, Repr

/-- Why arguments ask for nothing. -/
inductive ArgumentError where
  | options (e : OptionError)
  | missingFile
  | badVersionByte (t : Text)
  | unexpected (t : Text)
deriving DecidableEq, Repr

/-- The word that stands for a file. -/
def fileWord : String := "FILE"

namespace ArgumentError

/-- The text of an error. -/
def message : ArgumentError → String
  | .options e => e.message
  | .missingFile => s!"missing required positional arg {fileWord}"
  | .badVersionByte t =>
    s!"invalid --version-byte {String.ofList (Quoted.encode t)}: " ++
      s!"expected a number from 0 to {Numeral.greatest}"
  | .unexpected t => s!"unexpected positional: {String.ofList (Quoted.encode t)}"

end ArgumentError

/-- The header byte that was given, or else the default. -/
def readVersionByte (g : GivenArguments) : Except ArgumentError UInt8 :=
  match g.value? Options.versionByte.long with
  | none => .ok defaultVersion
  | some t =>
    match Numeral.value? t with
    | some n => .ok (UInt8.ofNat n)
    | none => .error (.badVersionByte t)

/-- The arguments of a subcommand from options and files. -/
def ofGiven (g : GivenArguments) : Except ArgumentError Arguments :=
  match g.others with
  | [] => .error .missingFile
  | input :: rest => do
    let version ← readVersionByte g
    match rest with
    | t :: _ => .error (.unexpected t)
    | [] => return {
        input
        output := g.value? Options.output.long
        json := g.has Options.json.long
        config := { version, strict := g.has Options.strictVersion.long } }

/-- What the arguments of a subcommand ask for. Help comes before the version, and both before
anything that is wrong with the other arguments. -/
def readArguments (c : Subcommand) (args : List Text) : Except ArgumentError Request :=
  match readOptions c.options args with
  | .error e => .error (.options e)
  | .ok g =>
    if g.has Options.help.long then .ok .help
    else if g.has Options.version.long then .ok .version
    else (ofGiven g).map .run

end AbilityScript
