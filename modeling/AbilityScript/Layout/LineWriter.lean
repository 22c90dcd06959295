import AbilityScript.Text.Utf8

/-!
# Writing indented lines

A line writer collects a line and hands it to a sink in one piece. It keeps the level of indentation
for the lines to come, which may only change between lines.

A sink may refuse data. A line that is refused when it ends stays where it is, with its line break, but
it does not count as one that something was added to. So ending it again hands it over with a second
line break, and finishing does not hand it over unless something is added first.

## Main definitions

* `Sink`: what finished lines are handed to.
* `LineWriter`, `Writing`: the writer and the operations on it.
* `LineWriter.finish`: hands over what is left and gives the sink back.
* `LineWriter.stringify`: the text that an operation writes.
-/

set_option autoImplicit false

namespace AbilityScript

/-- Something that takes data or refuses it as a whole. -/
class Sink (σ : Type) where
  /-- All data that was taken. -/
  received : σ → Bytes
  /-- Offers data; the answer tells whether it was taken. -/
  offer : Bytes → σ → Bool × σ
  /-- What is taken is added at the end, and what is refused changes nothing. -/
  received_offer : ∀ d s,
    received (offer d s).2 = if (offer d s).1 then received s ++ d else received s

/-- A sink in memory that may have a limit. -/
structure Store where
  limit : Option Nat := none
  contents : Bytes := []
deriving DecidableEq, Repr

instance : Sink Store where
  received := Store.contents
  offer d s :=
    match s.limit with
    | some n => if n < s.contents.length + d.length then (false, s)
      else (true, { s with contents := s.contents ++ d })
    | none => (true, { s with contents := s.contents ++ d })
  received_offer d s := by
    cases s.limit with
    | none => rfl
    | some n => by_cases h : n < s.contents.length + d.length <;> simp [h]

/-- Why an operation on a line writer failed. -/
inductive WriteError where
  | levelWithinLine
  | levelBelowMargin
  | breakWithinLine
  | refused
deriving DecidableEq, Repr

namespace WriteError

/-- Whether the operation was called for when it should not be. -/
def isMisuse : WriteError → Bool
  | .refused => false
  | _ => true

/-- The text of an error. -/
def message : WriteError → String
  | .levelWithinLine => "Attempted to change indent mid-line. This is a bug!"
  | .levelBelowMargin => "Attempted to dedent past 0. This is a bug!"
  | .breakWithinLine => "Tried to append newline to line. This is a bug!"
  | .refused => "writer full"

end WriteError

/-- A writer of indented lines. -/
structure LineWriter (σ : Type) where
  sink : σ
  level : Nat := 0
  /-- Whether something was added to the line. -/
  pending : Bool := false
  /-- The line so far, with its indentation. -/
  line : Bytes := []
deriving DecidableEq, Repr

/-- The columns that one level takes. -/
def indentWidth : Nat := 4

/-- The indentation of a line at a level. -/
def margin (level : Nat) : Bytes :=
  List.replicate (indentWidth * level) (' ').toUInt8

/-- An operation on a line writer. What it did before it failed is not undone. -/
abbrev Writing (σ α : Type) : Type :=
  ExceptT WriteError (StateM (LineWriter σ)) α

/-- What an operation answers and the writer after it. -/
def Writing.result {σ α : Type} (op : Writing σ α) (w : LineWriter σ) :
    Except WriteError α × LineWriter σ :=
  (op.run.run w).run

namespace LineWriter

variable {σ : Type} [Sink σ]

/-- A line cut or filled up with spaces to the width of the margin at a level. -/
def fitted (level : Nat) (line : Bytes) : Bytes :=
  line.take (indentWidth * level) ++ (margin level).drop line.length

/-- Puts the lines to come at a level. The line so far is cut or filled up to its margin. -/
def setLevel (level : Nat) (w : LineWriter σ) : LineWriter σ :=
  { w with level, line := fitted level w.line }

/-- Adds bytes to the line. -/
def append (bs : Bytes) : Writing σ Unit :=
  modify fun w => { w with pending := true, line := w.line ++ bs }

/-- Adds text to the line as it is. -/
def display (t : Text) : Writing σ Unit :=
  append t.utf8

/-- Adds text without line breaks to the line. -/
def text (t : Text) : Writing σ Unit := do
  if t.contains '\n' then throw .breakWithinLine
  display t

/-- Ends the line and begins another at the same level. -/
def nextLine : Writing σ Unit := do
  modify fun w => { w with pending := false, line := w.line ++ Text.utf8 ['\n'] }
  let w ← get
  let (taken, sink) := Sink.offer w.line w.sink
  set { w with sink }
  if !taken then throw .refused
  modify fun w => { w with line := margin w.level }

/-- Goes one level in. -/
def indent : Writing σ Unit := do
  let w ← get
  if w.pending then throw .levelWithinLine
  set (w.setLevel (w.level + 1))

/-- Goes one level out. -/
def dedent : Writing σ Unit := do
  let w ← get
  if w.pending then throw .levelWithinLine
  if w.level = 0 then throw .levelBelowMargin
  set (w.setLevel (w.level - 1))

/-- Writes at one level further in. -/
def indented (body : Writing σ Unit) : Writing σ Unit := do
  indent
  body
  dedent

/-- Hands over an unfinished line, and tells whether it was taken. -/
def flush (w : LineWriter σ) : Bool × LineWriter σ :=
  if w.pending then
    let (taken, sink) := Sink.offer w.line w.sink
    (taken, { w with sink, pending := !taken })
  else (true, w)

/-- Gives the sink back after an attempt to hand over an unfinished line. -/
def abandon (w : LineWriter σ) : σ :=
  w.flush.2.sink

/-- Hands over an unfinished line and gives the sink back. If the line is refused, it is offered once
more before it is lost. -/
def finish (w : LineWriter σ) : Bool × σ :=
  let (taken, w) := w.flush
  (taken, if taken then w.sink else w.abandon)

/-- Puts the lines to come at a level. Within a line that is refused, and the writer is abandoned. -/
def startAt (level : Nat) (w : LineWriter σ) : Except (WriteError × σ) (LineWriter σ) :=
  if w.pending then .error (.levelWithinLine, w.abandon) else .ok (w.setLevel level)

/-- The text that was written once a writer is given up. There is none if its last line is refused. -/
def written (w : LineWriter Store) : Text :=
  let (taken, s) := w.finish
  Utf8.decodeLossy (if taken then s.contents else [])

/-- The text that an operation writes. -/
def stringify (op : Writing Store Unit) : Text :=
  (op.result { sink := {} }).2.written

end LineWriter

end AbilityScript
