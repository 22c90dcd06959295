import AbilityScript.Text.Basic
import AbilityScript.Text.Property

/-!
# Columns

How many columns of a terminal a character takes.
-/

set_option autoImplicit false

namespace AbilityScript

/-- Whether a character is a control character. -/
def isControl (c : Char) : Bool :=
  c.toNat < 0x20 || 0x7F ≤ c.toNat && c.toNat < 0xA0

/-- How many columns apart tab stops are. -/
def tabStop : Nat := 4

/-- The Khmer sign for `et cetera`. It is written with three letters, side by side. -/
def beyyal : Char := '\u17D8'

/-- The columns that a character takes which begins at a column. A tab reaches to the next stop. -/
def columnsAt (column : Nat) (c : Char) : Nat :=
  if c = '\t' then tabStop - column % tabStop
  else if isControl c then 0
  else if c.toNat < 0x7F then 1
  else if c = beyyal then 3
  else if CharProperty.holds CharProperty.zeroWidth c then 0
  else if CharProperty.holds CharProperty.wide c then 2
  else 1

/-- The characters of a text with the columns they take, where the first one begins at a column. -/
def withColumns (column : Nat) : Text → List (Char × Nat)
  | [] => []
  | c :: t => (c, columnsAt column c) :: withColumns (column + columnsAt column c) t

end AbilityScript
