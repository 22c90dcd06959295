import AbilityScript.Text.Basic

/-!
# Numerals for bytes

A numeral is decimal, or hexadecimal after `0x` or `0X`. The digits may follow a plus sign, and any
number of zeros may precede the others. Only values that fit into a byte are read.
-/

set_option autoImplicit false

namespace AbilityScript.Numeral

/-- The value of a digit in bases up to sixteen. -/
def digitValue (c : Char) : Option Nat :=
  if '0' ≤ c ∧ c ≤ '9' then some (c.toNat - '0'.toNat)
  else if 'a' ≤ c ∧ c ≤ 'f' then some (c.toNat - 'a'.toNat + 10)
  else if 'A' ≤ c ∧ c ≤ 'F' then some (c.toNat - 'A'.toNat + 10)
  else none

/-- The value of a digit in a base. -/
def digitIn (base : Nat) (c : Char) : Option Nat :=
  (digitValue c).filter (· < base)

/-- The greatest value of a numeral, which is that of a byte. -/
def greatest : Nat := 255

/-- The value of digits that follow others of value `acc`, as long as it does not get too large. -/
def accumulate (base acc : Nat) : Text → Option Nat
  | [] => some acc
  | c :: cs =>
    match digitIn base c with
    | some d => if acc * base + d ≤ greatest then accumulate base (acc * base + d) cs else none
    | none => none

/-- The value of at least one digit. -/
def ofDigits (base : Nat) : Text → Option Nat
  | [] => none
  | cs => accumulate base 0 cs

/-- The value of digits that may follow a plus sign. -/
def ofSigned (base : Nat) : Text → Option Nat
  | '+' :: cs => ofDigits base cs
  | cs => ofDigits base cs

/-- The value of a numeral, if it fits into a byte. -/
def value? : Text → Option Nat
  | '0' :: 'x' :: cs => ofSigned 16 cs
  | '0' :: 'X' :: cs => ofSigned 16 cs
  | cs => ofSigned 10 cs

end AbilityScript.Numeral
