import AbilityScript.Text.Wrap

/-!
# Options on a command line

Options and other arguments may be mixed. A long option follows two dashes, and its value an equals
sign or a space; short options of one letter may share a dash, and the value of the last one follows
directly or after a space. Two dashes alone end the options, and one dash alone is no option. No
option may be given twice.

## Main definitions

* `OptionSpec`: an option and its description.
* `readOptions`: takes the options out of arguments.
* `usage`: the table of all options.
-/

set_option autoImplicit false

namespace AbilityScript

/-- An option that a command takes. -/
structure OptionSpec where
  short : Option Char := none
  long : String
  help : String
  /-- What its value stands for, if it takes one. -/
  value : Option String := none
deriving DecidableEq, Repr

/-- Why arguments cannot be taken apart. Options are named as they were typed, except that one given
twice is named by its long name. -/
inductive OptionError where
  | argumentMissing (name : Text)
  | unrecognized (name : Text)
  | duplicated (name : Text)
  | unexpectedArgument (name : Text)
deriving DecidableEq, Repr

namespace OptionError

/-- The text of an error. -/
def message : OptionError → String
  | .argumentMissing name => s!"Argument to option '{String.ofList name}' missing"
  | .unrecognized name => s!"Unrecognized option: '{String.ofList name}'"
  | .duplicated name => s!"Option '{String.ofList name}' given more than once"
  | .unexpectedArgument name => s!"Option '{String.ofList name}' does not take an argument"

end OptionError

/-- An option that was given, with its value. -/
structure GivenOption where
  spec : OptionSpec
  value : Option Text
deriving DecidableEq, Repr

/-- Arguments taken apart. -/
structure GivenArguments where
  options : List GivenOption := []
  others : List Text := []
deriving DecidableEq, Repr

namespace GivenArguments

/-- Whether the option with a long name was given. -/
def has (g : GivenArguments) (long : String) : Bool :=
  g.options.any fun o => o.spec.long == long

/-- The value of the option with a long name, if it was given with one. -/
def value? (g : GivenArguments) (long : String) : Option Text :=
  (g.options.find? fun o => o.spec.long == long).bind GivenOption.value

end GivenArguments

/-- What a single argument is. -/
inductive ArgumentForm where
  /-- It is no option. -/
  | other
  /-- It ends the options. -/
  | endOfOptions
  /-- It holds options with all they need. -/
  | complete (options : List GivenOption)
  /-- It holds options, the last of which has its value in the next argument. -/
  | awaiting (options : List GivenOption) (name : Text) (spec : OptionSpec)
deriving DecidableEq, Repr

/-- The option with this letter. -/
def findShort (specs : List OptionSpec) (c : Char) : Option OptionSpec :=
  specs.find? fun s => s.short = some c

/-- The option with this name after two dashes. A name of one byte is taken for a letter. -/
def findLong (specs : List OptionSpec) (name : Text) : Option OptionSpec :=
  match name with
  | [c] => if c.utf8Size = 1 then findShort specs c else specs.find? fun s => s.long.toList = [c]
  | name => specs.find? fun s => s.long.toList = name

/-- An option with a value that may stand in the same argument. -/
def formOf (before : List GivenOption) (name : Text) (spec : OptionSpec) (value : Option Text) :
    Except OptionError ArgumentForm :=
  match spec.value, value with
  | none, none => .ok (.complete (before ++ [⟨spec, none⟩]))
  | none, some _ => .error (.unexpectedArgument name)
  | some _, some v => .ok (.complete (before ++ [⟨spec, some v⟩]))
  | some _, none => .ok (.awaiting before name spec)

/-- Options by their letters. What follows the letter of an option with a value is its value. -/
def readLetters (specs : List OptionSpec) (before : List GivenOption) :
    Text → Except OptionError ArgumentForm
  | [] => .ok (.complete before)
  | c :: rest =>
    match findShort specs c with
    | none => .error (.unrecognized [c])
    | some spec =>
      if spec.value.isSome then formOf before [c] spec (if rest.isEmpty then none else some rest)
      else readLetters specs (before ++ [⟨spec, none⟩]) rest

/-- An option by its long name, which ends before an equals sign. -/
def readLong (specs : List OptionSpec) (t : Text) : Except OptionError ArgumentForm :=
  let name := t.takeWhile (· != '=')
  let value := match t.dropWhile (· != '=') with
    | [] => none
    | _ :: v => some v
  match findLong specs name with
  | none => .error (.unrecognized name)
  | some spec => formOf [] name spec value

/-- What an argument is. -/
def readForm (specs : List OptionSpec) : Text → Except OptionError ArgumentForm
  | ['-', '-'] => .ok .endOfOptions
  | '-' :: '-' :: t => readLong specs t
  | '-' :: c :: t => readLetters specs [] (c :: t)
  | _ => .ok .other

/-- Takes arguments apart, from left to right. -/
def scanArguments (specs : List OptionSpec) : List Text → Except OptionError GivenArguments
  | [] => .ok {}
  | a :: rest =>
    match readForm specs a with
    | .error e => .error e
    | .ok .endOfOptions => .ok { others := rest }
    | .ok .other => do
      let g ← scanArguments specs rest
      return { g with others := a :: g.others }
    | .ok (.complete options) => do
      let g ← scanArguments specs rest
      return { g with options := options ++ g.options }
    | .ok (.awaiting options name spec) =>
      match rest with
      | [] => .error (.argumentMissing name)
      | v :: rest => do
        let g ← scanArguments specs rest
        return { g with options := options ++ ⟨spec, some v⟩ :: g.options }

/-- Takes the options out of arguments. -/
def readOptions (specs : List OptionSpec) (args : List Text) :
    Except OptionError GivenArguments := do
  let g ← scanArguments specs args
  match specs.find? fun s => 1 < g.options.countP fun o => o.spec = s with
  | some s => .error (.duplicated s.long.toList)
  | none => return g

/-- The column in which the table of options describes them. -/
def usageColumn : Nat := 24

/-- The columns that a description takes. -/
def usageLimit : Nat := 54

namespace OptionSpec

/-- How an option is typed, with room for the letters of others. -/
def form (anyShort : Bool) (s : OptionSpec) : Text :=
  let letter := match s.short with
    | some c => ['-', c, ',', ' ']
    | none => if anyShort then List.replicate 4 ' ' else []
  List.replicate 4 ' ' ++ letter ++ "--".toList ++ s.long.toList ++ ' ' :: (s.value.getD "").toList

/-- The lines of an option in the table. -/
def usage (anyShort : Bool) (s : OptionSpec) : Text :=
  let form := s.form anyShort
  let newRow := '\n' :: List.replicate usageColumn ' '
  let filled :=
    if Text.columns form < usageColumn then Text.padRight usageColumn form else form ++ newRow
  filled ++ newRow.intercalate (Text.wrap usageLimit s.help.toList)

end OptionSpec

/-- The table of options after a line that says how to use a command. -/
def usage (brief : Text) (specs : List OptionSpec) : Text :=
  let anyShort := specs.any fun s => s.short.isSome
  brief ++ "\n\nOptions:\n".toList ++ ['\n'].intercalate (specs.map (OptionSpec.usage anyShort)) ++
    ['\n']

end AbilityScript
