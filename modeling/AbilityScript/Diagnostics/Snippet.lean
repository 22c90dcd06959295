import AbilityScript.Diagnostics.Basic
import AbilityScript.Source.File
import AbilityScript.Text.Columns
import AbilityScript.Text.Space

/-!
# Showing diagnostics

A diagnostic is shown as its message, the rows of the source text that its labels cover, and its
notes. A label within one row is underlined with carets:

      ┌─ name:1:6
      │
    1 │ DRAW five
      │      ^^^^

A label over several rows is a bracket in a column of its own, left of the text:

      ┌─ name:1:6
      │
    1 │   DRAW five
      │ ╭──────^
    2 │ │ END
      │ ╰───^

Of a long label the first rows and the last ones are shown, and a gap of more than one row is marked.

## Main definitions

* `Mark`, `Extent`: a label within one row, and one over several rows.
* `Snippet`: the rows and the labels on them.
* `Diagnostic.render`: the whole text of a diagnostic.
-/

set_option autoImplicit false

namespace AbilityScript

/-- A label within one row, in bytes from the start of the row. -/
structure Mark where
  row : Nat
  start : Nat
  /-- Where it ends. Even an empty label covers something. -/
  stop : Nat
deriving DecidableEq, Repr

/-- A label over several rows. -/
structure Extent where
  first : Nat
  start : Nat
  last : Nat
  stop : Nat
deriving DecidableEq, Repr

/-- What a label over several rows does in one of them. -/
inductive Edge where
  /-- It begins after so many bytes. -/
  | top (start : Nat)
  /-- It passes. -/
  | left
  /-- It ends after so many bytes. -/
  | bottom (stop : Nat)
deriving DecidableEq, Repr

namespace Extent

/-- What the label does in a row. -/
def edge? (e : Extent) (row : Nat) : Option Edge :=
  if row = e.first then some (.top e.start)
  else if row = e.last then some (.bottom e.stop)
  else if e.first < row && row < e.last then some .left
  else none

/-- How many rows after the first one are shown of a long label. -/
def contextAfterFirst : Nat := 3

/-- How many rows before the last one are shown of a long label. -/
def contextBeforeLast : Nat := 1

/-- Whether the label calls for a row to be shown. -/
def shows (e : Extent) (row : Nat) : Bool :=
  match e.edge? row with
  | none => false
  | some .left => row ≤ e.first + contextAfterFirst || e.last ≤ row + contextBeforeLast
  | some _ => true

end Extent

/-- The rows of a source text with the labels on them. -/
structure Snippet where
  rows : List SourceRow
  marks : List Mark
  /-- The labels over several rows, in the order of their columns. -/
  extents : List Extent
deriving DecidableEq, Repr

/-- Where a label comes to lie. -/
def placeLabel (f : SourceFile) (s : Span) : Mark ⊕ Extent :=
  let first := f.rowAt s.start
  let last := f.rowAt s.stop
  let start := s.start - first.start
  if first.index = last.index then
    .inl ⟨first.index, start, max (s.stop - first.start) (start + 1)⟩
  else .inr ⟨first.index, start, last.index, s.stop - last.start⟩

/-- The snippet that shows labels. -/
def Snippet.ofLabels (f : SourceFile) (labels : List Span) : Snippet :=
  let places := labels.map (placeLabel f)
  { rows := f.rows
    marks := places.filterMap fun p => p.getLeft?
    extents := places.filterMap fun p => p.getRight? }

/-- What is left of the text of a row: two columns for each label over several rows. -/
abbrev Gutter := List (Option Edge)

namespace Gutter

/-- The columns in a row of source text. A label that begins in the indentation begins here. -/
def beside (indent : Nat) (g : Gutter) : Text :=
  g.flatMap fun
    | some (.top start) => if start ≤ indent then [' ', '╭'] else [' ', ' ']
    | some .left | some (.bottom _) => [' ', '│']
    | none => [' ', ' ']

/-- The columns in a row below source text. -/
def below (g : Gutter) : Text :=
  g.flatMap fun
    | some .left | some (.bottom _) => [' ', '│']
    | some (.top _) | none => [' ', ' ']

/-- The columns before one whose label begins or ends. -/
def before (g : Gutter) : Text :=
  g.flatMap fun
    | some .left | some (.top _) => [' ', '│']
    | some (.bottom _) | none => [' ', ' ']

/-- The columns after one whose label begins or ends, crossed by a line to the text. -/
def after (g : Gutter) : Text :=
  g.flatMap fun
    | some .left | some (.bottom _) => ['─', '│']
    | some (.top _) | none => ['─', '─']

end Gutter

/-- The characters of a row with their offsets and the columns they take. -/
def measured (offset : Nat) : List (Char × Nat) → List (Nat × Char × Nat)
  | [] => []
  | (c, n) :: rest => (offset, c, n) :: measured (offset + c.utf8Size) rest

/-- The characters of a text with their offsets and the columns they take. -/
def measure (t : Text) : List (Nat × Char × Nat) :=
  measured 0 (withColumns 0 t)

/-- A text with tabs spread out. -/
def spread (t : Text) : Text :=
  (withColumns 0 t).flatMap fun p => if p.1 = '\t' then List.replicate p.2 ' ' else [p.1]

/-- The columns of the characters that begin before an offset. -/
def columnsBefore (offset : Nat) (t : Text) : Nat :=
  ((measure t).filter fun p => p.1 < offset).foldr (fun p n => p.2.2 + n) 0

/-- Carets below the characters that marks cover, and below the place after the last character. -/
def carets (marks : List Mark) (t : Text) : Text :=
  let last := (marks.map Mark.stop).foldl max 0
  let cell (start stop columns : Nat) : Text :=
    if marks.any fun m => max m.start start < min m.stop stop then List.replicate columns '^'
    else if start < last then List.replicate columns ' '
    else []
  ((measure t).flatMap fun p => cell p.1 (p.1 + p.2.1.utf8Size) p.2.2) ++
    cell (Text.width t) (Text.width t + 1) 1

/-- The number of bytes of white space that a text begins with. -/
def indentation (t : Text) : Nat :=
  Text.width (t.takeWhile isWhiteSpace)

namespace Snippet

/-- Whether a row is shown. -/
def shows (s : Snippet) (row : Nat) : Bool :=
  s.marks.any (fun m => m.row == row) || s.extents.any fun e => e.shows row

/-- The gutter of a row. -/
def gutter (s : Snippet) (row : Nat) : Gutter :=
  s.extents.map fun e => e.edge? row

/-- A line of a snippet without a number. -/
def bare (padding : Nat) (border : Char) (content : Text) : Text :=
  List.replicate padding ' ' ++ ' ' :: border :: content

/-- An empty line of a snippet. -/
def blank (padding : Nat) (s : Snippet) : Text :=
  bare padding '│' (List.replicate (2 * s.extents.length) ' ')

/-- The lines that begin or end labels over several rows below a row. `done` holds the columns to the
left. -/
def edgeLines (padding : Nat) (t : Text) (done : Gutter) : Gutter → List Text
  | [] => []
  | e :: rest =>
    let line (corner : Char) (columns : Nat) : Text :=
      bare padding '│' (Gutter.before done ++ ' ' :: corner :: Gutter.after rest ++
        List.replicate columns '─' ++ ['^'])
    let here := match e with
      | some (.top start) =>
        if start ≤ indentation t then [] else [line '╭' (columnsBefore (start + 1) t)]
      | some (.bottom stop) => [line '╰' (columnsBefore stop t)]
      | some .left | none => []
    here ++ edgeLines padding t (done ++ [e]) rest

/-- A row of source text and what is below it. -/
def rowLines (padding : Nat) (s : Snippet) (r : SourceRow) : List Text :=
  let t := r.shown
  let g := s.gutter r.index
  let marks := s.marks.filter fun m => m.row == r.index
  let source := Text.padLeft padding (Text.ofNat r.number) ++ " │".toList ++
    g.beside (indentation t) ++ ' ' :: spread t
  let underlined := if marks.isEmpty then []
    else [bare padding '│' (g.below ++ ' ' :: carets marks t)]
  source :: underlined ++ edgeLines padding t [] g

/-- What stands between two rows that are shown, if they do not follow one another. -/
def gapLines (padding : Nat) (s : Snippet) (r next : SourceRow) : List Text :=
  if next.index = r.index + 1 then []
  else if next.index = r.index + 2 then
    match s.rows[r.index + 1]? with
    | some between => rowLines padding s between
    | none => []
  else [bare padding '·' (s.gutter r.index).below]

/-- Rows that are shown and what stands between them. -/
def shownLines (padding : Nat) (s : Snippet) : List SourceRow → List Text
  | [] => []
  | [r] => rowLines padding s r
  | r :: next :: rest =>
    rowLines padding s r ++ gapLines padding s r next ++ shownLines padding s (next :: rest)

/-- The lines of a snippet. -/
def lines (padding : Nat) (s : Snippet) : List Text :=
  shownLines padding s (s.rows.filter fun r => s.shows r.index)

end Snippet

/-- The lines of a note. -/
def noteLines (padding : Nat) (note : String) : List Text :=
  match Text.lines note.toList with
  | [] => []
  | first :: rest =>
    Snippet.bare padding '=' (' ' :: first) ::
      rest.map fun l => Snippet.bare padding ' ' (' ' :: l)

namespace Diagnostic

/-- The line that a diagnostic begins with. -/
def header (d : Diagnostic) : Text :=
  d.severity.word.toList ++ ": ".toList ++ d.message.toList

/-- The width that line numbers take. -/
def padding (f : SourceFile) (d : Diagnostic) : Nat :=
  (d.labels.map fun s => (Text.ofNat (f.rowAt s.stop).number).length).foldl max 0

/-- The lines that show the labels of a diagnostic. -/
def snippetLines (f : SourceFile) (d : Diagnostic) : List Text :=
  match (d.labels.map Span.start).min? with
  | none => []
  | some start =>
    let padding := d.padding f
    let snippet := Snippet.ofLabels f d.labels
    (List.replicate padding ' ' ++ " ┌─ ".toList ++ f.position start) ::
      snippet.blank padding :: snippet.lines padding ++
      if d.notes.isEmpty then [] else [snippet.blank padding]

/-- The text that shows a diagnostic about a source file. -/
def render (f : SourceFile) (d : Diagnostic) : Text :=
  Text.unlines (d.header :: d.snippetLines f ++ d.notes.flatMap (noteLines (d.padding f)) ++ [[]])

end Diagnostic

end AbilityScript
