import AbilityScript.Text.Basic

/-!
# Pieces of source text

Source text falls apart into names, integers, line breaks, blank space, comments and characters that
fit nowhere. Each piece is as long as it can be, and the pieces in order are the whole text.

## Main definitions

* `Piece`, `pieces`: a piece, and the pieces of a text.
* `joinStray`: takes characters that fit nowhere together where they stand side by side.
-/

set_option autoImplicit false

namespace AbilityScript

/-- What a piece of source text is. -/
inductive PieceKind where
  /-- A letter or underscore, then letters, digits and underscores. -/
  | name
  /-- Decimal digits, or `0x` and hexadecimal digits. -/
  | integer
  /-- A line feed, or a carriage return and a line feed. -/
  | lineBreak
  /-- Spaces, tabs and form feeds. -/
  | blank
  /-- A semicolon and the rest of its line. -/
  | comment
  | stray
deriving DecidableEq, Repr

/-- A piece of source text. -/
structure Piece where
  kind : PieceKind
  text : Text
deriving DecidableEq, Repr

/-- Whether a name may begin with a character. -/
def isNameStart (c : Char) : Bool :=
  c.isAlpha || c == '_'

/-- Whether a name may go on with a character. -/
def isNameChar (c : Char) : Bool :=
  c.isAlphanum || c == '_'

/-- Whether a character is a hexadecimal digit. -/
def isHexDigit (c : Char) : Bool :=
  c.isDigit || ('a' ≤ c && c ≤ 'f') || ('A' ≤ c && c ≤ 'F')

/-- Whether a character is blank space within a line. -/
def isBlank (c : Char) : Bool :=
  c == ' ' || c == '\t' || c == '\x0c'

/-- Whether a comment may go on with a character. -/
def isCommentChar (c : Char) : Bool :=
  c != '\r' && c != '\n'

/-- Whether a character marks the digits after a zero as hexadecimal. -/
def isHexMark (c : Char) : Bool :=
  c == 'x' || c == 'X'

/-- Whether a text begins with a hexadecimal digit. -/
def beginsHex : Text → Bool
  | [] => false
  | c :: _ => isHexDigit c

/-- A piece of the given characters and of those after them that fit. -/
def Piece.run (kind : PieceKind) (front : Text) (fits : Char → Bool) (rest : Text) : Piece × Text :=
  (⟨kind, front ++ rest.takeWhile fits⟩, rest.dropWhile fits)

/-- The first piece of a text that begins with a digit. -/
def firstInteger (c : Char) : Text → Piece × Text
  | x :: rest =>
    if c == '0' && isHexMark x && beginsHex rest then Piece.run .integer [c, x] isHexDigit rest
    else Piece.run .integer [c] Char.isDigit (x :: rest)
  | [] => (⟨.integer, [c]⟩, [])

/-- The first piece of a text, and the text after it. -/
def firstPiece (c : Char) (rest : Text) : Piece × Text :=
  if isNameStart c then Piece.run .name [c] isNameChar rest
  else if c.isDigit then firstInteger c rest
  else if isBlank c then Piece.run .blank [c] isBlank rest
  else if c == ';' then Piece.run .comment [c] isCommentChar rest
  else if c == '\n' then (⟨.lineBreak, [c]⟩, rest)
  else
    match c, rest with
    | '\r', '\n' :: rest => (⟨.lineBreak, ['\r', '\n']⟩, rest)
    | c, rest => (⟨.stray, [c]⟩, rest)

/-- A run of characters takes nothing away. -/
theorem Piece.run_append (kind : PieceKind) (front : Text) (fits : Char → Bool) (rest : Text) :
    (Piece.run kind front fits rest).1.text ++ (Piece.run kind front fits rest).2 =
      front ++ rest := by
  simp [Piece.run, List.takeWhile_append_dropWhile]

/-- The integer that a text begins with and the text after it are the whole text. -/
theorem firstInteger_append (c : Char) (rest : Text) :
    (firstInteger c rest).1.text ++ (firstInteger c rest).2 = c :: rest := by
  cases rest with
  | nil => rfl
  | cons x rest =>
    simp only [firstInteger]
    split <;> simp [Piece.run_append]

/-- The first piece and the text after it are the whole text. -/
theorem firstPiece_append (c : Char) (rest : Text) :
    (firstPiece c rest).1.text ++ (firstPiece c rest).2 = c :: rest := by
  unfold firstPiece
  repeat' split
  all_goals simp [Piece.run_append, firstInteger_append]

/-- No piece is empty, so cutting a text into pieces comes to an end. -/
theorem firstPiece_text_ne_nil (c : Char) (rest : Text) : (firstPiece c rest).1.text ≠ [] := by
  unfold firstPiece firstInteger
  repeat' split
  all_goals simp [Piece.run]

/-- A piece takes something off the front. -/
theorem length_firstPiece_lt (c : Char) (rest : Text) :
    (firstPiece c rest).2.length < (c :: rest).length := by
  have h := congrArg List.length (firstPiece_append c rest)
  have := List.length_pos_iff.2 (firstPiece_text_ne_nil c rest)
  simp only [List.length_append] at h
  omega

/-- The pieces of a text. -/
def pieces : Text → List Piece
  | [] => []
  | c :: rest => (firstPiece c rest).1 :: pieces (firstPiece c rest).2
termination_by t => t.length
decreasing_by exact length_firstPiece_lt c rest

/-- Puts a piece in front of others. Characters that fit nowhere go together with such after them. -/
def Piece.consJoining (p : Piece) (ps : List Piece) : List Piece :=
  match ps with
  | q :: rest =>
    if p.kind = .stray ∧ q.kind = .stray then ⟨.stray, p.text ++ q.text⟩ :: rest else p :: q :: rest
  | [] => [p]

/-- Pieces of which no two in a row are characters that fit nowhere. -/
def joinStray (ps : List Piece) : List Piece :=
  ps.foldr Piece.consJoining []

end AbilityScript
