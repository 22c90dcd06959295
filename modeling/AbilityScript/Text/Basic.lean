/-!
# Text and bytes

Source text, mnemonic lines and messages in the making are lists of characters, so that they can be
taken apart by recursion; finished messages are strings. Offsets into a text count the bytes of its
UTF-8 form.

## Main definitions

* `Text`, `Bytes`: lists of characters and of bytes.
* `Text.width`: the number of bytes a text takes in UTF-8.
* `Text.lines`: the lines of a text, without their line breaks.
-/

set_option autoImplicit false

namespace AbilityScript

/-- Text is a list of characters. -/
abbrev Text := List Char

/-- Data is a list of bytes. -/
abbrev Bytes := List UInt8

namespace Text

/-- The number of bytes a text takes in UTF-8. -/
def width (t : Text) : Nat :=
  t.foldr (fun c n => c.utf8Size + n) 0

/-- An empty text takes no bytes. -/
@[simp] theorem width_nil : width [] = 0 := rfl

/-- A character takes the bytes of its encoding. -/
@[simp] theorem width_cons (c : Char) (t : Text) : width (c :: t) = c.utf8Size + width t := rfl

/-- Texts side by side take the bytes of both. -/
@[simp] theorem width_append (s t : Text) : width (s ++ t) = width s + width t := by
  induction s with
  | nil => simp
  | cons c s ih => rw [List.cons_append, width_cons, width_cons, ih, Nat.add_assoc]

/-- A text followed by a line break. -/
def withBreak (t : Text) : Text :=
  t ++ ['\n']

/-- The text of several lines, each followed by a line break. -/
def unlines (ls : List Text) : Text :=
  ls.flatMap withBreak

/-- Drops one carriage return at the end, which belongs to the line break after it. -/
def chopReturn (t : Text) : Text :=
  if t.getLast? = some '\r' then t.dropLast else t

/-- The pieces between the line feeds; `line` is the piece under way, last character first. -/
def splitLines (line : Text) : Text → List Text
  | [] => [line.reverse]
  | '\n' :: t => line.reverse :: splitLines [] t
  | c :: t => splitLines (c :: line) t

/-- The lines of a text. A line feed, or a carriage return and a line feed, ends a line; no line
follows the last line break. -/
def lines (t : Text) : List Text :=
  let pieces := splitLines [] t
  let ended := pieces.dropLast.map chopReturn
  match pieces.getLast? with
  | none | some [] => ended
  | some last => ended ++ [last]

/-- The decimal digits of a number. -/
def ofNat (n : Nat) : Text :=
  Nat.toDigits 10 n

/-- Words with single spaces between them. -/
def unwords : List Text → Text
  | [] => []
  | [w] => w
  | w :: ws => w ++ ' ' :: unwords ws

/-- A text moved right with spaces until it takes `n` characters. -/
def padLeft (n : Nat) (t : Text) : Text :=
  List.replicate (n - t.length) ' ' ++ t

/-- A text filled up with spaces on the right until it takes `n` characters. -/
def padRight (n : Nat) (t : Text) : Text :=
  t ++ List.replicate (n - t.length) ' '

/-- The digit for a value below sixteen, in lower case. -/
def hexDigit (n : Nat) : Char :=
  Nat.digitChar n

/-- A byte as two lower-case hexadecimal digits. -/
def ofByte (b : UInt8) : Text :=
  [hexDigit (b.toNat / 16), hexDigit (b.toNat % 16)]

/-- The hexadecimal digits of a number, without leading zeros. -/
def hexOfNat (n : Nat) : Text :=
  Nat.toDigits 16 n

end Text

end AbilityScript
