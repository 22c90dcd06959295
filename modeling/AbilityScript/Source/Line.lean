import AbilityScript.Source.Piece
import AbilityScript.Source.Span

/-!
# Lines of words

The names, integers and stray characters of a source text are its words. Words in one line belong
together; lines without words do not count, though they are numbered.

## Main definitions

* `Word`, `Line`: a word with its place, and the words of a line.
* `sourceLines`: the lines of a text that hold words.
-/

set_option autoImplicit false

namespace AbilityScript

/-- What a word is. -/
inductive WordKind where
  | name
  | integer
  | stray
deriving DecidableEq, Repr

/-- A word wherever it stands. -/
structure Lexeme where
  kind : WordKind
  text : Text
deriving DecidableEq, Repr

/-- A word and its place. -/
abbrev Word := Spanned Lexeme

/-- The word that a piece is, if it counts as one. -/
def Piece.lexeme? (p : Piece) : Option Lexeme :=
  match p.kind with
  | .name => some ⟨.name, p.text⟩
  | .integer => some ⟨.integer, p.text⟩
  | .stray => some ⟨.stray, p.text⟩
  | .lineBreak | .blank | .comment => none

/-- The words of a line that holds any. -/
structure Line where
  /-- The number of the line, counted from one. -/
  number : Nat
  head : Word
  tail : List Word
deriving DecidableEq, Repr

namespace Line

/-- All words of a line, in order. -/
def words (l : Line) : List Word :=
  l.head :: l.tail

/-- From the first word of a line to the last one. -/
def span (l : Line) : Span :=
  l.head.span.merge ((l.tail.getLast?.getD l.head).span)

end Line

/-- The words among pieces that begin at an offset in a line, each with the number of its line. -/
def numberedWords (offset number : Nat) : List Piece → List (Nat × Word)
  | [] => []
  | p :: ps =>
    let here := p.lexeme?.map fun l =>
      (number, (⟨l, ⟨offset, offset + Text.width p.text, Nat.le_add_right ..⟩⟩ : Word))
    let later := numberedWords (offset + Text.width p.text)
      (if p.kind = .lineBreak then number + 1 else number) ps
    here.toList ++ later

/-- Puts a word in front of the lines after it. -/
def consWord (w : Nat × Word) (ls : List Line) : List Line :=
  match ls with
  | l :: rest =>
    if l.number = w.1 then ⟨l.number, w.2, l.words⟩ :: rest else ⟨w.1, w.2, []⟩ :: l :: rest
  | [] => [⟨w.1, w.2, []⟩]

/-- Words with the numbers of their lines, line by line. -/
def groupLines (ws : List (Nat × Word)) : List Line :=
  ws.foldr consWord []

/-- The lines of a source text that hold words. -/
def sourceLines (t : Text) : List Line :=
  groupLines (numberedWords 0 1 (joinStray (pieces t)))

end AbilityScript
