import AbilityScript.Text.Columns
import AbilityScript.Text.Space

/-!
# Wrapping text

A text is broken into lines between words, and a line ends only where the next word would not fit.
-/

set_option autoImplicit false

namespace AbilityScript.Text

/-- The columns that a text takes from the beginning of a line on. -/
def columns (t : Text) : Nat :=
  (withColumns 0 t).foldr (fun p n => p.2 + n) 0

/-- The words of a text, between white space; `word` is the one under way, last character first. -/
def splitWords (word : Text) : Text → List Text
  | [] => if word.isEmpty then [] else [word.reverse]
  | c :: t =>
    if isWhiteSpace c then
      if word.isEmpty then splitWords [] t else word.reverse :: splitWords [] t
    else splitWords (c :: word) t

/-- Lines of at most `limit` columns, unless a single word is longer; `line` is the one under way. -/
def fill (limit : Nat) (line : Text) : List Text → List Text
  | [] => [line]
  | w :: ws =>
    if line.isEmpty then fill limit w ws
    else if columns line + 1 + columns w ≤ limit then fill limit (line ++ ' ' :: w) ws
    else line :: fill limit w ws

/-- A text as lines of at most `limit` columns. -/
def wrap (limit : Nat) (t : Text) : List Text :=
  fill limit [] (splitWords [] t)

end AbilityScript.Text
