import AbilityScript.Source.Span
import AbilityScript.Text.Utf8

/-!
# Slices of a text

Offsets into a text count bytes, but a text can only be cut between characters. A slice is taken with
both checks: its bounds have to lie in the text, and a character has to begin or the text to end at
each of them. So a slice that exists is part of the text, and its place is told by the widths of what
is before it and of itself.

A line feed is one byte and occurs in no other character, so line feeds can be counted in the bytes
before an offset.

## Main definitions

* `Text.cut?`, `Span.slice?`: a text cut at an offset, and the part of a text in a range.
* `Span.ofText`: the range that a text takes up.
* `Text.feedsBefore`: the number of line feeds before an offset.

## Main statements

* `Text.cut?_eq_some_iff`, `Span.slice?_eq_some_iff`: which cuts and slices exist, and what they are.
* `Text.feedsBefore_append`: line feeds before an offset at which a text can be cut.
-/

set_option autoImplicit false

namespace AbilityScript

namespace Text

/-- The parts of a text before and after an offset, if the text can be cut there. -/
def cut? : Nat → Text → Option (Text × Text)
  | 0, t => some ([], t)
  | _ + 1, [] => none
  | n + 1, c :: t =>
    if c.utf8Size ≤ n + 1 then (cut? (n + 1 - c.utf8Size) t).map fun s => (c :: s.1, s.2) else none

/-- The number of line feeds among the bytes before an offset. -/
def feedsBefore (t : Text) (n : Nat) : Nat :=
  (t.utf8.take n).count 0x0A

/-- A text that is not empty has a width. -/
theorem width_pos {t : Text} (h : t ≠ []) : 0 < width t := by
  cases t with
  | nil => exact absurd rfl h
  | cons c t => exact Nat.lt_of_lt_of_le c.utf8Size_pos (Nat.le_add_right _ _)

/-- A text can be cut where its front ends. -/
theorem cut?_append (a b : Text) : cut? (width a) (a ++ b) = some (a, b) := by
  induction a with
  | nil => cases b <;> rfl
  | cons c a ih =>
    have hpos := c.utf8Size_pos
    obtain ⟨n, hn⟩ : ∃ n, width (c :: a) = n + 1 :=
      Nat.exists_eq_add_one_of_ne_zero (by rw [width_cons]; omega)
    have hrest : n + 1 - c.utf8Size = width a := by
      rw [← hn, width_cons]
      omega
    have hle : c.utf8Size ≤ n + 1 := by
      rw [← hn, width_cons]
      omega
    rw [hn, List.cons_append, cut?, if_pos hle, hrest, ih]
    rfl

/-- A text can be cut where one part of it ends and the other begins. -/
theorem cut?_eq_some_iff {n : Nat} {t a b : Text} :
    cut? n t = some (a, b) ↔ t = a ++ b ∧ width a = n := by
  constructor
  · intro h
    induction t generalizing n a with
    | nil =>
      cases n with
      | zero =>
        obtain ⟨rfl, rfl⟩ := Prod.mk.inj (Option.some.inj h)
        exact ⟨rfl, rfl⟩
      | succ n => cases h
    | cons c t ih =>
      cases n with
      | zero =>
        obtain ⟨rfl, rfl⟩ := Prod.mk.inj (Option.some.inj h)
        exact ⟨rfl, rfl⟩
      | succ n =>
        rw [cut?] at h
        split at h
        case isTrue hle =>
          obtain ⟨⟨a', b'⟩, hcut, hparts⟩ := Option.map_eq_some_iff.1 h
          obtain ⟨rfl, rfl⟩ := Prod.mk.inj hparts
          obtain ⟨rfl, hwidth⟩ := ih hcut
          refine ⟨rfl, ?_⟩
          rw [width_cons, hwidth]
          omega
        case isFalse => cases h
  · rintro ⟨rfl, rfl⟩
    exact cut?_append a b

/-- Of two cuts of a text the later one has the part between them in front of it. -/
theorem exists_append_of_width_le {a b a' b' : Text} (h : a ++ b = a' ++ b')
    (hle : width a ≤ width a') : ∃ c, a' = a ++ c := by
  obtain ⟨c, rfl, -⟩ | ⟨c, rfl, -⟩ := List.append_eq_append_iff.1 h
  · exact ⟨c, rfl⟩
  · cases c with
    | nil => exact ⟨[], by simp⟩
    | cons x c =>
      have hpos := x.utf8Size_pos
      rw [width_append, width_cons] at hle
      omega

section Bytes

/-- The encoded text is as long as the text is wide. -/
theorem length_utf8 (t : Text) : t.utf8.length = width t := by
  induction t with
  | nil => rfl
  | cons c t ih =>
    rw [width_cons, ← ih, ← String.length_utf8EncodeChar, ← List.length_append]
    rfl

/-- Texts are encoded one after the other. -/
theorem utf8_append (a b : Text) : utf8 (a ++ b) = utf8 a ++ utf8 b :=
  List.flatMap_append

/-- The byte of a line feed belongs to no other character. -/
theorem count_feed_utf8EncodeChar (c : Char) :
    (String.utf8EncodeChar c).count 0x0A = if c = '\n' then 1 else 0 := by
  by_cases hc : c = '\n'
  · subst hc
    rfl
  · have hfeed : c.val.toNat ≠ 10 := by
      rw [← Char.val_inj, ← UInt32.toNat_inj] at hc
      exact hc
    rw [if_neg hc, List.count_eq_zero]
    intro hmem
    unfold String.utf8EncodeChar at hmem
    have hbyte : (0x0A : UInt8).toNat = 10 := rfl
    generalize c.val.toNat = v at hfeed hmem
    dsimp only at hmem
    -- every byte of a character of several bytes is at least 128
    repeat' split at hmem
    all_goals
      simp only [List.mem_cons, List.not_mem_nil, or_false, ← UInt8.toNat_inj, hbyte,
        UInt8.toNat_ofNat'] at hmem
      omega

/-- Every line feed of a text is one byte of the encoded text, and no other byte is one. -/
theorem count_feed_utf8 (t : Text) : t.utf8.count 0x0A = t.count '\n' := by
  induction t with
  | nil => rfl
  | cons c t ih =>
    have hcons : utf8 (c :: t) = String.utf8EncodeChar c ++ utf8 t := rfl
    rw [hcons, List.count_append, count_feed_utf8EncodeChar, ih, List.count_cons]
    simp only [beq_iff_eq]
    omega

/-- The line feeds before an offset are those of the part that ends there. -/
theorem feedsBefore_append (a b : Text) : feedsBefore (a ++ b) (width a) = a.count '\n' := by
  rw [feedsBefore, utf8_append, ← length_utf8, List.take_left, count_feed_utf8]

end Bytes

end Text

namespace Span

/-- The range that a text takes up from an offset on. -/
def ofText (offset : Nat) (t : Text) : Span :=
  ⟨offset, offset + Text.width t, Nat.le_add_right ..⟩

/-- The part of a text in a range, if the text can be cut at both ends. -/
def slice? (s : Span) (t : Text) : Option Text :=
  (t.cut? s.stop).bind fun cut => (Text.cut? s.start cut.1).map Prod.snd

/-- A slice is what lies between the parts before and after it. -/
theorem slice?_eq_some_iff {s : Span} {t part : Text} :
    s.slice? t = some part ↔
      ∃ before after, t = before ++ part ++ after ∧ Text.width before = s.start ∧
        Text.width (before ++ part) = s.stop := by
  rw [slice?, Option.bind_eq_some_iff]
  constructor
  · rintro ⟨⟨front, after⟩, hfront, h⟩
    obtain ⟨⟨before, part⟩, hpart, rfl⟩ := Option.map_eq_some_iff.1 h
    obtain ⟨rfl, hstop⟩ := Text.cut?_eq_some_iff.1 hfront
    obtain ⟨rfl, hstart⟩ := Text.cut?_eq_some_iff.1 hpart
    exact ⟨before, after, rfl, hstart, hstop⟩
  · rintro ⟨before, after, rfl, hstart, hstop⟩
    refine ⟨(before ++ part, after), Text.cut?_eq_some_iff.2 ⟨rfl, hstop⟩, ?_⟩
    rw [← hstart, Text.cut?_append]
    rfl

end Span

end AbilityScript
