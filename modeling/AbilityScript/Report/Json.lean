import AbilityScript.Text.Basic

/-!
# JSON documents

Values for machine-readable reports, and their text spread over lines: every member on a line of its
own, two columns further in than the brackets around it. Members keep the order they are given in.

## Main definitions

* `Json`: documents without fractions or negative numbers.
* `Json.pretty`: the text of a document.
-/

set_option autoImplicit false

namespace AbilityScript

/-- A document. -/
inductive Json where
  | null
  | bool (b : Bool)
  | num (n : Nat)
  | str (s : String)
  | arr (items : List Json)
  | obj (fields : List (String × Json))
deriving Repr

namespace Json

/-- A value that may be absent. -/
def ofOption {α : Type} (f : α → Json) : Option α → Json
  | none => null
  | some a => f a

/-- A character inside a quoted string. -/
def escape (c : Char) : Text :=
  match c with
  | '"' => ['\\', '"']
  | '\\' => ['\\', '\\']
  | '\n' => ['\\', 'n']
  | '\r' => ['\\', 'r']
  | '\t' => ['\\', 't']
  | '\x08' => ['\\', 'b']
  | '\x0c' => ['\\', 'f']
  | c => if c.toNat < 0x20 then "\\u00".toList ++ Text.ofByte (UInt8.ofNat c.toNat) else [c]

/-- A string in quotes, as it stands in a document. -/
def quoted (s : String) : Text :=
  '"' :: s.toList.flatMap escape ++ ['"']

/-- The beginning of a line at a level. -/
def lineStart (level : Nat) : Text :=
  '\n' :: List.replicate (2 * level) ' '

mutual

/-- The text of a document that stands at a level. -/
def prettyAt (level : Nat) : Json → Text
  | null => "null".toList
  | bool b => (if b then "true" else "false").toList
  | num n => Text.ofNat n
  | str s => quoted s
  | arr [] => "[]".toList
  | arr (j :: js) =>
    '[' :: lineStart (level + 1) ++ prettyAt (level + 1) j ++ prettyItems (level + 1) js ++
      lineStart level ++ [']']
  | obj [] => "\x7b\x7d".toList
  | obj (f :: fs) =>
    '\x7b' :: lineStart (level + 1) ++ prettyField (level + 1) f ++ prettyFields (level + 1) fs ++
      lineStart level ++ ['\x7d']

/-- The items after the first one. -/
def prettyItems (level : Nat) : List Json → Text
  | [] => []
  | j :: js => ',' :: lineStart level ++ prettyAt level j ++ prettyItems level js

/-- A named value of an object at a level. -/
def prettyField (level : Nat) : String × Json → Text
  | (name, j) => quoted name ++ ": ".toList ++ prettyAt level j

/-- The named values after the first one. -/
def prettyFields (level : Nat) : List (String × Json) → Text
  | [] => []
  | f :: fs => ',' :: lineStart level ++ prettyField level f ++ prettyFields level fs

end

/-- The text of a document. -/
def pretty (j : Json) : Text :=
  j.prettyAt 0

end Json

end AbilityScript
