import AbilityScript.Source.Span

/-!
# Source files

A named source text by rows. Only a line feed ends a row, and the row after the last line feed counts
even if it is empty. An offset past the end belongs to the last row.

## Main definitions

* `SourceFile`, `SourceFile.rows`: a source text and its rows.
* `SourceFile.rowAt`, `SourceFile.position`: the row of an offset, and its line and column.
-/

set_option autoImplicit false

namespace AbilityScript

/-- A named source text. -/
structure SourceFile where
  name : Text
  text : Text
deriving DecidableEq, Repr

/-- A row of a source text. -/
structure SourceRow where
  /-- How many rows come before it. -/
  index : Nat
  start : Nat
  /-- Its characters, without the line feed. -/
  text : Text
deriving DecidableEq, Repr

namespace SourceRow

/-- The number of the row, counted from one. -/
def number (r : SourceRow) : Nat :=
  r.index + 1

/-- Whether a character at the end of a row is not shown. -/
def isHidden (c : Char) : Bool :=
  c == '\n' || c == '\r' || c == '\x00'

/-- The characters of a row that are shown. -/
def shown (r : SourceRow) : Text :=
  (r.text.reverse.dropWhile isHidden).reverse

end SourceRow

/-- Lines as rows, of which the first one has an index and begins at an offset. -/
def numberRows (index start : Nat) : List Text → List SourceRow
  | [] => []
  | l :: ls => ⟨index, start, l⟩ :: numberRows (index + 1) (start + Text.width l + 1) ls

/-- How many characters of a text that begins at `start` end at or before an offset. -/
def charsBefore (offset start : Nat) : Text → Nat
  | [] => 0
  | c :: t =>
    if start + c.utf8Size ≤ offset then charsBefore offset (start + c.utf8Size) t + 1 else 0

namespace SourceFile

/-- The rows of a source text. There is at least one. -/
def rows (f : SourceFile) : List SourceRow :=
  numberRows 0 0 (Text.splitLines [] f.text)

/-- The row of an offset. -/
def rowAt (f : SourceFile) (offset : Nat) : SourceRow :=
  ((f.rows.takeWhile fun r => r.start ≤ offset).getLast?).getD ⟨0, 0, []⟩

/-- The column of an offset in its row, counted in characters from one. -/
def columnAt (f : SourceFile) (offset : Nat) : Nat :=
  let row := f.rowAt offset
  charsBefore offset row.start row.text + 1

/-- The name of the file with the line and column of an offset. -/
def position (f : SourceFile) (offset : Nat) : Text :=
  f.name ++ ':' :: Text.ofNat (f.rowAt offset).number ++ ':' :: Text.ofNat (f.columnAt offset)

end SourceFile

end AbilityScript
