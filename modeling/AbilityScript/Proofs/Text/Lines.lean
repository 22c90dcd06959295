import AbilityScript.Text.Utf8

/-!
# Lines put together and taken apart

Lines that hold no line feed and do not end in a carriage return are what the text falls apart into in
which each of them is followed by a line break. A text whose characters take one byte each is read back
from its bytes.

## Main statements

* `Text.lines_unlines`: the lines of a text that was put together from lines.
* `Utf8.decodeLossy_utf8`: the text of the bytes of a text.
-/

set_option autoImplicit false

namespace AbilityScript

namespace Text

/-- The piece under way comes in front of the pieces behind it. -/
theorem splitLines_append_feed {line t : Text} (ht : '\n' ∉ t) (rest : Text) :
    splitLines line (t ++ '\n' :: rest) = (line.reverse ++ t) :: splitLines [] rest := by
  induction t generalizing line with
  | nil => rw [List.nil_append, splitLines, List.append_nil]
  | cons c t ih =>
    have hc : c ≠ '\n' := fun h => ht (h ▸ List.mem_cons_self)
    have hrest : '\n' ∉ t := fun h => ht (List.mem_cons_of_mem c h)
    rw [List.cons_append, splitLines, ih hrest, List.reverse_cons, List.append_assoc,
      List.singleton_append]
    exact hc

/-- Lines that are written out are read back, with the empty text behind the last line feed. -/
theorem splitLines_unlines {ls : List Text} (h : ∀ l ∈ ls, '\n' ∉ l) :
    splitLines [] (unlines ls) = ls ++ [[]] := by
  induction ls with
  | nil => rfl
  | cons l ls ih =>
    have hunlines : unlines (l :: ls) = l ++ '\n' :: unlines ls := by
      simp [unlines, withBreak]
    rw [hunlines, splitLines_append_feed (h l List.mem_cons_self),
      ih fun l hl => h l (List.mem_cons_of_mem _ hl)]
    rfl

/-- Lines without line feeds that do not end in carriage returns are found again. -/
theorem lines_unlines {ls : List Text} (hfeed : ∀ l ∈ ls, '\n' ∉ l)
    (hreturn : ∀ l ∈ ls, l.getLast? ≠ some '\r') : lines (unlines ls) = ls := by
  have hchop : ls.map chopReturn = ls := by
    refine (List.map_congr_left fun l hl => ?_).trans (List.map_id ls)
    exact if_neg (hreturn l hl)
  unfold lines
  simp only [splitLines_unlines hfeed, List.dropLast_concat, List.getLast?_concat, hchop]

end Text

namespace Utf8

/-- Characters below 128 take one byte each. -/
theorem utf8_of_ascii {t : Text} (h : ∀ c ∈ t, c.toNat < 128) : t.utf8 = t.map Char.toUInt8 := by
  induction t with
  | nil => rfl
  | cons c t ih =>
    have hsize : c.utf8Size = 1 := by
      rw [Char.utf8Size_eq_one_iff]
      exact UInt32.le_iff_toNat_le.2 (Nat.le_of_lt_succ (h c List.mem_cons_self))
    have ht := ih fun d hd => h d (List.mem_cons_of_mem _ hd)
    rw [Text.utf8] at ht ⊢
    rw [List.flatMap_cons, String.utf8EncodeChar_eq_singleton hsize, ht]
    rfl

/-- A byte below 128 is a character. -/
theorem front_of_ascii {c : Char} (h : c.toNat < 128) (bs : Bytes) :
    front c.toUInt8 bs = (.char c, 1, bs) := by
  have hbyte : c.toUInt8.toNat = c.toNat := by
    have hmod : c.toUInt8.toNat = c.toNat % 256 := UInt32.toNat_toUInt8 c.val
    rw [hmod]
    exact Nat.mod_eq_of_lt (by omega)
  have hfollowing : following c.toUInt8 = some [] := by
    rw [following, if_pos]
    rw [UInt8.le_iff_toNat_le, hbyte]
    exact Nat.le_of_lt_succ h
  unfold front
  rw [hfollowing]
  show (Front.char (Char.ofNat c.toUInt8.toNat), 1, bs) = _
  rw [hbyte, Char.ofNat_toNat]

/-- The text of the bytes of a text whose characters take one byte each. -/
theorem decodeLossy_utf8 {t : Text} (h : ∀ c ∈ t, c.toNat < 128) : decodeLossy t.utf8 = t := by
  rw [utf8_of_ascii h]
  induction t with
  | nil => rw [List.map_nil, decodeLossy]
  | cons c t ih =>
    have hc := h c List.mem_cons_self
    have ht := ih fun d hd => h d (List.mem_cons_of_mem _ hd)
    rw [List.map_cons, decodeLossy]
    split
    case h_1 d size rest hfront =>
      obtain ⟨hd, hrest⟩ := Prod.mk.inj ((front_of_ascii hc _).symm.trans hfront)
      rw [← Front.char.inj hd, ← (Prod.mk.inj hrest).2, ht]
    case h_2 hne hfront =>
      have hchar := (Prod.mk.inj (hfront.symm.trans (front_of_ascii hc _))).1
      exact absurd hchar (hne c)

end Utf8

end AbilityScript
