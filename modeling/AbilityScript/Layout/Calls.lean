import AbilityScript.Layout.LineWriter

/-!
# Calls to a line writer

What is added to a line comes in parts, which may be put together from parts. A part that breaks the
line is refused, and the parts behind it are not looked at. Whoever uses a line writer adds such content,
ends lines and changes the level, call by call, until the writer is given up.

## Main definitions

* `Addition`, `Content`: what is added to a line.
* `Call`, `Call.perform`: what can be asked of a line writer, and what comes of it.
* `runCalls`: one call after another.
-/

set_option autoImplicit false

namespace AbilityScript

/-- Text that is added to a line in one piece. Text as such must not break the line; what a value is
displayed as is taken as it is. -/
inductive Addition where
  | text (t : Text)
  | display (t : Text)
deriving DecidableEq, Repr

/-- What is added to a line. -/
inductive Content where
  | single (a : Addition)
  | tuple (parts : List Content)
deriving Repr

/-- Parts separated by spaces. -/
def Content.spaced (first : Content) (others : List Content) : Content :=
  .tuple (first :: others.flatMap fun c => [.single (.text [' ']), c])

section Writing

variable {σ : Type}

/-- Adds one piece to the line. -/
def Addition.write : Addition → Writing σ Unit
  | .text t => LineWriter.text t
  | .display t => LineWriter.display t

mutual

/-- Adds content part by part, up to the first part that is refused. -/
def Content.write : Content → Writing σ Unit
  | .single a => a.write
  | .tuple parts => Content.writeAll parts

/-- Adds content one after the other, up to the first part that is refused. -/
def Content.writeAll : List Content → Writing σ Unit
  | [] => pure ()
  | c :: cs => do
    Content.write c
    Content.writeAll cs

end

end Writing

/-- What can be asked of a line writer, as long as there is one. -/
inductive Call where
  | write (c : Content)
  | nextLine
  | indent
  | dedent
  /-- Puts the lines to come at a level. -/
  | startAt (level : Nat)
deriving Repr

/-- What comes of a call: nothing but that it went well, or why it did not. -/
abbrev Answer := Except WriteError Unit

/-- What a call leaves behind: a writer, or only what it wrote to if the writer was given up. -/
inductive Remains (ω σ : Type) where
  | kept (writer : ω)
  | released (sink : σ)
deriving DecidableEq, Repr

/-- The answers to calls that are made one after another, as long as there is a writer, and what they
leave behind. -/
def runCalls {ω σ : Type} (perform : Call → ω → Answer × Remains ω σ) :
    List Call → ω → List Answer × Remains ω σ
  | [], w => ([], .kept w)
  | c :: cs, w =>
    match perform c w with
    | (answer, .kept w) =>
      let (answers, remains) := runCalls perform cs w
      (answer :: answers, remains)
    | (answer, .released s) => ([answer], .released s)

section Performing

variable {σ : Type} [Sink σ]

/-- What an operation answers, which keeps the writer. -/
def Writing.keeping (op : Writing σ Unit) (w : LineWriter σ) : Answer × Remains (LineWriter σ) σ :=
  let (answer, w) := op.result w
  (answer, .kept w)

/-- The answer to a call and what it leaves behind. -/
def Call.perform : Call → LineWriter σ → Answer × Remains (LineWriter σ) σ
  | .write c, w => c.write.keeping w
  | .nextLine, w => LineWriter.nextLine.keeping w
  | .indent, w => LineWriter.indent.keeping w
  | .dedent, w => LineWriter.dedent.keeping w
  | .startAt level, w =>
    match w.startAt level with
    | .ok w => (.ok (), .kept w)
    | .error (e, s) => (.error e, .released s)

end Performing

end AbilityScript
