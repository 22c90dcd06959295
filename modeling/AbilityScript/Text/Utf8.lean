import AbilityScript.Text.Basic

/-!
# UTF-8

Text as bytes and back. The first byte of a character fixes how many bytes follow it and the range of
the first of them; all others lie between `80` and `BF`. What does not fit is measured by how far it
does: a broken sequence ends in front of the first byte that cannot continue it.

## Main definitions

* `Text.utf8`: the bytes of a text.
* `Utf8.front`: what data begins with.
* `Utf8.decode`, `Utf8.decodeLossy`: the text of data, or where it stops to be text; the text of data
  with replacement characters for what is broken.
-/

set_option autoImplicit false

namespace AbilityScript

/-- The bytes of a text. -/
def Text.utf8 (t : Text) : Bytes :=
  t.flatMap String.utf8EncodeChar

namespace Utf8

/-- What data begins with. -/
inductive Front where
  | char (c : Char)
  /-- Bytes that begin no character, in front of a byte that cannot continue them. -/
  | broken
  /-- The beginning of a character, then the end of the data. -/
  | cut
deriving DecidableEq, Repr

/-- A range of bytes. -/
structure ByteRange where
  low : UInt8
  high : UInt8

namespace ByteRange

/-- Whether a byte lies in a range. -/
def contains (r : ByteRange) (b : UInt8) : Bool :=
  r.low ≤ b && b ≤ r.high

/-- The bytes that continue a character. -/
def tail : ByteRange := ⟨0x80, 0xBF⟩

end ByteRange

/-- The ranges of the bytes that have to follow the first byte of a character, or nothing if no
character begins with it. -/
def following (b : UInt8) : Option (List ByteRange) :=
  if b ≤ 0x7F then some []
  else if 0xC2 ≤ b && b ≤ 0xDF then some [.tail]
  else if b == 0xE0 then some [⟨0xA0, 0xBF⟩, .tail]
  else if b == 0xED then some [⟨0x80, 0x9F⟩, .tail]
  else if 0xE1 ≤ b && b ≤ 0xEF then some [.tail, .tail]
  else if b == 0xF0 then some [⟨0x90, 0xBF⟩, .tail, .tail]
  else if 0xF1 ≤ b && b ≤ 0xF3 then some [.tail, .tail, .tail]
  else if b == 0xF4 then some [⟨0x80, 0x8F⟩, .tail, .tail]
  else none

/-- The part of the code point that the first of `n + 1` bytes holds. -/
def leadBits (b : UInt8) (n : Nat) : Nat :=
  if n = 0 then b.toNat else b.toNat % Nat.pow 2 (6 - n)

/-- What data begins with whose first byte was taken, the bytes taken in all and the data after them.
`bits` is the code point so far and `size` the number of bytes taken. -/
def resume (ranges : List ByteRange) (bits size : Nat) (bs : Bytes) : Front × Nat × Bytes :=
  match ranges, bs with
  | [], bs => (.char (Char.ofNat bits), size, bs)
  | _ :: _, [] => (.cut, size, [])
  | r :: ranges, b :: bs =>
    if r.contains b then resume ranges (bits * 64 + b.toNat % 64) (size + 1) bs
    else (.broken, size, b :: bs)

/-- What data begins with that is not empty, how many bytes that takes, and the data after them. -/
def front (b : UInt8) (bs : Bytes) : Front × Nat × Bytes :=
  match following b with
  | none => (.broken, 1, bs)
  | some ranges => resume ranges (leadBits b ranges.length) 1 bs

/-- Going on with a character leaves no more data than there was. -/
theorem length_resume_le (ranges : List ByteRange) (bits size : Nat) (bs : Bytes) :
    (resume ranges bits size bs).2.2.length ≤ bs.length := by
  fun_induction resume ranges bits size bs <;> grind

/-- Reading a character leaves no more data than there was. -/
theorem length_front_le (b : UInt8) (bs : Bytes) : (front b bs).2.2.length ≤ bs.length := by
  unfold front
  split
  · exact Nat.le_refl _
  · exact length_resume_le ..

/-- Why data is no text. -/
inductive Error where
  /-- So many bytes from an offset begin no character. -/
  | invalid (size offset : Nat)
  /-- The data ends in the character that begins at an offset. -/
  | incomplete (offset : Nat)
deriving DecidableEq, Repr

namespace Error

/-- The text of an error. -/
def message : Error → String
  | .invalid size offset => s!"invalid utf-8 sequence of {size} bytes from index {offset}"
  | .incomplete offset => s!"incomplete utf-8 byte sequence from index {offset}"

end Error

/-- The text of data that begins at an offset. -/
def decodeFrom (offset : Nat) : Bytes → Except Error Text
  | [] => .ok []
  | b :: bs =>
    match _h : front b bs with
    | (.char c, size, rest) => do
      let t ← decodeFrom (offset + size) rest
      .ok (c :: t)
    | (.broken, size, _) => .error (.invalid size offset)
    | (.cut, _, _) => .error (.incomplete offset)
termination_by bs => bs.length
decreasing_by
  have := length_front_le b bs
  simp only [_h, List.length_cons] at *
  omega

/-- The text of data. -/
def decode (bs : Bytes) : Except Error Text :=
  decodeFrom 0 bs

/-- The character that stands for what is broken. -/
def replacement : Char := '\uFFFD'

/-- The text of data, with one replacement character for each stretch that is broken. -/
def decodeLossy : Bytes → Text
  | [] => []
  | b :: bs =>
    match _h : front b bs with
    | (.char c, _, rest) => c :: decodeLossy rest
    | (_, _, rest) => replacement :: decodeLossy rest
termination_by bs => bs.length
decreasing_by
  all_goals
    have := length_front_le b bs
    simp only [_h, List.length_cons] at *
    omega

end Utf8

end AbilityScript
