import AbilityScript.Text.Quoted

/-!
# Places in a source text

A place in a source text is a range of byte offsets. It may be empty but never runs backwards.
-/

set_option autoImplicit false

namespace AbilityScript

/-- A range of byte offsets, without the last one. -/
structure Span where
  start : Nat
  stop : Nat
  start_le_stop : start ≤ stop := by omega
deriving DecidableEq, Repr

namespace Span

/-- The range with these bounds, unless it runs backwards. -/
def ofBounds? (start stop : Nat) : Option Span :=
  if h : start ≤ stop then some ⟨start, stop, h⟩ else none

/-- What is said of bounds that run backwards. -/
def backwardsMessage (start stop : Nat) : String :=
  s!"backwards span {start}..{stop}. This is a bug!"

/-- The least range that covers both. -/
def merge (a b : Span) : Span where
  start := min a.start b.start
  stop := max a.stop b.stop
  start_le_stop := by
    have := a.start_le_stop
    omega

/-- A span as it is printed in messages. -/
def text (s : Span) : Text :=
  Text.ofNat s.start ++ "..".toList ++ Text.ofNat s.stop

end Span

/-- A value and the place it was read from. -/
structure Spanned (α : Type) where
  value : α
  span : Span
deriving DecidableEq, Repr

namespace Spanned

/-- Whether two values are the same, wherever they were read. -/
def agrees {α : Type} [DecidableEq α] (a b : Spanned α) : Bool :=
  a.value == b.value

/-- A quoted text and its place. -/
def quoted (a : Spanned Text) : Text :=
  Quoted.encode a.value ++ " @ ".toList ++ a.span.text

end Spanned

end AbilityScript
