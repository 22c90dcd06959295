import AbilityScript.Proofs.Source.Slices
import AbilityScript.Source.File

/-!
# The row of an offset

Where a source text is shown, the row of an offset is found among the starts of all rows. It has the
number that counting line feeds before the offset gives, whether or not the offset is within the text
or at a character.

## Main statements

* `index_getLast?_takeWhile`: the last row that begins at or before an offset.
* `SourceFile.number_rowAt`: the number of the row of an offset.
-/

set_option autoImplicit false

namespace AbilityScript

namespace Text

/-- A text is as wide backwards. -/
theorem width_reverse (t : Text) : width t.reverse = width t := by
  induction t with
  | nil => rfl
  | cons c t ih =>
    rw [List.reverse_cons, width_append, ih, width_cons, width_cons, width_nil]
    omega

/-- No offset within a character is behind a line feed in it. -/
theorem feedsBefore_cons (c : Char) (t : Text) (n : Nat) :
    feedsBefore (c :: t) n =
      (if c = '\n' ∧ 0 < n then 1 else 0) + feedsBefore t (n - c.utf8Size) := by
  have hbytes : utf8 (c :: t) = String.utf8EncodeChar c ++ utf8 t := rfl
  rw [feedsBefore, hbytes, List.take_append, List.count_append, String.length_utf8EncodeChar,
    feedsBefore, Nat.add_right_cancel_iff]
  by_cases hc : c = '\n'
  · subst hc
    cases n with
    | zero => rfl
    | succ n => simp [String.utf8EncodeChar]
  · have hnone : (String.utf8EncodeChar c).count 0x0A = 0 := by
      rw [count_feed_utf8EncodeChar, if_neg hc]
    have hle := (List.take_sublist n (String.utf8EncodeChar c)).count_le (0x0A : UInt8)
    simp only [hc, false_and, if_false]
    omega

end Text

section Rows

/-- No row begins before the offset from which rows are numbered. -/
theorem le_start_of_mem_numberRows {index start : Nat} {ls : List Text} {r : SourceRow}
    (h : r ∈ numberRows index start ls) : start ≤ r.start := by
  induction ls generalizing index start with
  | nil => cases h
  | cons l ls ih =>
    obtain rfl | h := List.mem_cons.1 h
    · exact Nat.le_refl _
    · have := ih h
      omega

/-- The last row that begins at or before an offset comes behind as many line feeds as there are
before the offset. -/
theorem index_getLast?_takeWhile {n start : Nat} (index : Nat) (line t : Text) (hn : start ≤ n) :
    (((numberRows index start (Text.splitLines line t)).takeWhile fun r =>
      r.start ≤ n).getLast?).map SourceRow.index =
        some (index + t.feedsBefore (n - (start + Text.width line))) := by
  induction t generalizing index start line with
  | nil => simp [Text.splitLines, numberRows, hn, Text.feedsBefore, Text.utf8]
  | cons c t ih =>
    by_cases hc : c = '\n'
    · subst hc
      have hrows : numberRows index start (Text.splitLines line ('\n' :: t)) =
          ⟨index, start, line.reverse⟩ ::
            numberRows (index + 1) (start + Text.width line + 1) (Text.splitLines [] t) := by
        rw [Text.splitLines, numberRows, Text.width_reverse]
      rw [hrows, List.takeWhile_cons_of_pos (by simpa using hn), Text.feedsBefore_cons]
      -- the row behind the line feed begins in time only if the offset is behind the line feed
      by_cases hnext : start + Text.width line + 1 ≤ n
      · have hbehind : n - (start + Text.width line) - Char.utf8Size '\n' =
            n - (start + Text.width line + 1 + Text.width []) := by
          show n - (start + Text.width line) - 1 = n - (start + Text.width line + 1 + 0)
          omega
        have hpos : 0 < n - (start + Text.width line) := by omega
        have hlater := ih (index + 1) [] hnext
        obtain ⟨r, hr, hindex⟩ := Option.map_eq_some_iff.1 hlater
        rw [List.getLast?_cons, hr, hbehind, if_pos ⟨rfl, hpos⟩, Option.map_some, Option.getD_some,
          hindex, Nat.add_assoc]
      · have hnone : (numberRows (index + 1) (start + Text.width line + 1)
            (Text.splitLines [] t)).takeWhile (fun r => r.start ≤ n) = [] := by
          cases hrest : numberRows (index + 1) (start + Text.width line + 1)
            (Text.splitLines [] t) with
          | nil => rfl
          | cons r rs =>
            have hstart := le_start_of_mem_numberRows (hrest ▸ List.mem_cons_self)
            exact List.takeWhile_cons_of_neg (by simp; omega)
        have hzero : n - (start + Text.width line) = 0 := by omega
        rw [hnone, hzero]
        simp [Text.feedsBefore]
    · have hrows : Text.splitLines line (c :: t) = Text.splitLines (c :: line) t := by
        simp [Text.splitLines]
      have hbehind : n - (start + (c.utf8Size + Text.width line)) =
          n - (start + Text.width line) - c.utf8Size := by omega
      rw [hrows, ih _ _ hn, Text.feedsBefore_cons, Text.width_cons, hbehind, if_neg (fun h => hc h.1),
        Nat.zero_add]

end Rows

/-- The row of an offset is found by counting line feeds. -/
theorem SourceFile.number_rowAt (f : SourceFile) (n : Nat) :
    (f.rowAt n).number = 1 + f.text.feedsBefore n := by
  have hindex := index_getLast?_takeWhile 0 [] f.text (Nat.zero_le n)
  obtain ⟨r, hr, hindex⟩ := Option.map_eq_some_iff.1 hindex
  rw [rowAt, rows, hr, Option.getD_some, SourceRow.number, hindex, Text.width_nil, Nat.sub_zero]
  omega

end AbilityScript
