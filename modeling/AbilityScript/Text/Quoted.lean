import AbilityScript.Text.Basic
import AbilityScript.Text.Property

/-!
# Quoted text

Text in double quotes, for messages about input that may hold anything. What would be invisible or
would run into its neighbour is written by its code point.
-/

set_option autoImplicit false

namespace AbilityScript.Quoted

/-- A character by its code point. -/
def byCodePoint (c : Char) : Text :=
  "\\u\x7b".toList ++ Text.hexOfNat c.toNat ++ ['\x7d']

/-- Whether a character is shown as itself. -/
def isPlain (c : Char) : Bool :=
  !CharProperty.holds CharProperty.obscure c

/-- A character inside quotes. -/
def escape (c : Char) : Text :=
  match c with
  | '\x00' => ['\\', '0']
  | '\t' => ['\\', 't']
  | '\r' => ['\\', 'r']
  | '\n' => ['\\', 'n']
  | '"' => ['\\', '"']
  | '\\' => ['\\', '\\']
  | c => if isPlain c then [c] else byCodePoint c

/-- A text in quotes. -/
def encode (t : Text) : Text :=
  '"' :: t.flatMap escape ++ ['"']

end AbilityScript.Quoted
