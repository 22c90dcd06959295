import AbilityScript.Source.Line

/-!
# Reading a source text line by line

A line break is never part of a longer piece, so a source text can be cut at a line feed: the pieces
of both parts, with the line feed between them, are the pieces of the whole. The words of the second
part are those that it has by itself, further on in the text and in later lines.

The one exception is a carriage return in front of the line feed, which belongs to the line break.

## Main definitions

* `Line.shift`: a line that stands further on in a text.
* `Line.numbered`: the words of a line with its number.

## Main statements

* `pieces_append_break`: the pieces of a text that is cut at a line feed.
* `sourceLines_append_break`: its lines.
-/

set_option autoImplicit false

namespace AbilityScript

section Pieces

/-- What a text takes of fitting characters ends before the first one that does not fit, whatever is
behind. -/
theorem takeWhile_append_cons {fits : Char → Bool} {b : Char} (hb : fits b = false)
    (rest u : Text) : (rest ++ b :: u).takeWhile fits = rest.takeWhile fits := by
  induction rest with
  | nil => simp [hb]
  | cons c rest ih => cases h : fits c <;> simp [h, ih]

/-- The fitting characters in front of a text end before the first one that does not fit, and what is
behind stays. -/
theorem dropWhile_append_cons {fits : Char → Bool} {b : Char} (hb : fits b = false)
    (rest u : Text) : (rest ++ b :: u).dropWhile fits = rest.dropWhile fits ++ b :: u := by
  induction rest with
  | nil => simp [hb]
  | cons c rest ih => cases h : fits c <;> simp [h, ih]

/-- A run of characters does not go past one that does not fit. -/
theorem Piece.run_append_cons (kind : PieceKind) (front : Text) {fits : Char → Bool} {b : Char}
    (hb : fits b = false) (rest u : Text) :
    Piece.run kind front fits (rest ++ b :: u) =
      ((Piece.run kind front fits rest).1, (Piece.run kind front fits rest).2 ++ b :: u) := by
  simp only [Piece.run, takeWhile_append_cons hb, dropWhile_append_cons hb]

/-- A numeral does not go across a line feed. -/
theorem firstInteger_append_break (c : Char) (rest u : Text) :
    firstInteger c (rest ++ '\n' :: u) =
      ((firstInteger c rest).1, (firstInteger c rest).2 ++ '\n' :: u) := by
  match rest with
  | [] =>
    have hmark : isHexMark '\n' = false := rfl
    simp [firstInteger, hmark, Piece.run]
  | [x] =>
    have hhex : beginsHex ('\n' :: u) = false := rfl
    have hempty : beginsHex [] = false := rfl
    simp only [firstInteger, List.cons_append, List.nil_append, hhex, hempty, Bool.and_false]
    exact Piece.run_append_cons .integer [c] rfl [x] u
  | x :: y :: rest =>
    simp only [firstInteger, List.cons_append, beginsHex]
    by_cases hhex : (c == '0' && isHexMark x && isHexDigit y) = true
    · simp only [hhex, if_true]
      exact Piece.run_append_cons .integer [c, x] rfl (y :: rest) u
    · simp only [hhex]
      exact Piece.run_append_cons .integer [c] rfl (x :: y :: rest) u

/-- The first piece ends before a line feed, unless it is a carriage return. -/
theorem firstPiece_append_break {c : Char} {rest : Text} (h : (c :: rest).getLast? ≠ some '\r')
    (u : Text) :
    firstPiece c (rest ++ '\n' :: u) =
      ((firstPiece c rest).1, (firstPiece c rest).2 ++ '\n' :: u) := by
  unfold firstPiece
  split
  · exact Piece.run_append_cons .name [c] rfl rest u
  split
  · exact firstInteger_append_break c rest u
  split
  · exact Piece.run_append_cons .blank [c] rfl rest u
  split
  · exact Piece.run_append_cons .comment [c] rfl rest u
  split
  · rfl
  match rest with
  | [] =>
    have hc : c ≠ '\r' := by simpa using h
    split <;> simp_all
  | x :: rest =>
    rw [List.cons_append]
    split <;> split <;> simp_all

/-- The rest behind a first piece ends in a carriage return only if the text does. -/
theorem getLast?_firstPiece {c : Char} {rest : Text} (h : (c :: rest).getLast? ≠ some '\r') :
    (firstPiece c rest).2.getLast? ≠ some '\r' := by
  intro hlast
  rw [← firstPiece_append, List.getLast?_append, hlast] at h
  exact h rfl

/-- A text can be cut at a line feed. -/
theorem pieces_append_break {t : Text} (h : t.getLast? ≠ some '\r') (u : Text) :
    pieces (t ++ '\n' :: u) = pieces t ++ ⟨.lineBreak, ['\n']⟩ :: pieces u := by
  induction t using pieces.induct with
  | case1 =>
    rw [List.nil_append, pieces]
    simp [firstPiece, isNameStart, isBlank, pieces]
  | case2 c rest ih =>
    rw [List.cons_append, pieces, firstPiece_append_break h u, pieces, ih (getLast?_firstPiece h),
      List.cons_append]

/-- A piece of another kind than stray stands in front of others as it is. -/
theorem consJoining_of_ne {p : Piece} (hp : p.kind ≠ .stray) (ps : List Piece) :
    p.consJoining ps = p :: ps := by
  cases ps with
  | nil => rfl
  | cons q ps => simp [Piece.consJoining, hp]

/-- Stray characters in a row go together from the back to the front. -/
theorem joinStray_cons (p : Piece) (ps : List Piece) :
    joinStray (p :: ps) = p.consJoining (joinStray ps) := rfl

/-- Characters that fit nowhere are not taken together across another piece. -/
theorem joinStray_append_cons {p : Piece} (hp : p.kind ≠ .stray) (ps qs : List Piece) :
    joinStray (ps ++ p :: qs) = joinStray ps ++ p :: joinStray qs := by
  induction ps with
  | nil => exact consJoining_of_ne hp _
  | cons q ps ih =>
    rw [List.cons_append, joinStray_cons, joinStray_cons, ih]
    cases joinStray ps with
    | nil => simp [Piece.consJoining, hp]
    | cons r rs =>
      simp only [Piece.consJoining, List.cons_append]
      split <;> rfl

/-- The text that pieces were cut from. -/
def spelled (ps : List Piece) : Text :=
  ps.flatMap Piece.text

/-- The number of line breaks among pieces. -/
def breaks (ps : List Piece) : Nat :=
  ps.countP fun p => p.kind = .lineBreak

/-- The pieces in order are the text. -/
theorem spelled_pieces (t : Text) : spelled (pieces t) = t := by
  induction t using pieces.induct with
  | case1 => simp [pieces, spelled]
  | case2 c rest ih =>
    rw [pieces]
    simp only [spelled, List.flatMap_cons] at ih ⊢
    rw [ih, firstPiece_append]

/-- Taking stray characters together leaves the text as it is. -/
theorem spelled_consJoining (p : Piece) (ps : List Piece) :
    spelled (p.consJoining ps) = p.text ++ spelled ps := by
  cases ps with
  | nil => rfl
  | cons q ps =>
    simp only [Piece.consJoining]
    split <;> simp [spelled]

/-- Pieces spell the same text after their stray characters are taken together. -/
theorem spelled_joinStray (ps : List Piece) : spelled (joinStray ps) = spelled ps := by
  induction ps with
  | nil => rfl
  | cons p ps ih =>
    rw [joinStray_cons, spelled_consJoining, ih]
    rfl

/-- Taking stray characters together leaves the number of line breaks as it is. -/
theorem breaks_consJoining (p : Piece) (ps : List Piece) :
    breaks (p.consJoining ps) = breaks (p :: ps) := by
  cases ps with
  | nil => rfl
  | cons q ps =>
    simp only [Piece.consJoining]
    split
    · rename_i h
      simp [breaks, h.1, h.2]
    · rfl

/-- Pieces hold as many line breaks after their stray characters are taken together. -/
theorem breaks_joinStray (ps : List Piece) : breaks (joinStray ps) = breaks ps := by
  induction ps with
  | nil => rfl
  | cons p ps ih =>
    rw [joinStray_cons, breaks_consJoining]
    simp only [breaks, List.countP_cons] at ih ⊢
    rw [ih]

/-- A run of characters none of which is a line feed spells no line feed. -/
theorem count_run (kind : PieceKind) (front : Text) {fits : Char → Bool}
    (hfits : fits '\n' = false) (hfront : '\n' ∉ front) (rest : Text) :
    (Piece.run kind front fits rest).1.text.count '\n' = 0 := by
  rw [List.count_eq_zero]
  intro hmem
  obtain hmem | hmem := List.mem_append.1 hmem
  · exact hfront hmem
  · rw [List.all_eq_true.1 List.all_takeWhile _ hmem] at hfits
    exact absurd hfits (by decide)

/-- A line break contains one line feed, and no other piece contains any. -/
theorem count_firstPiece (c : Char) (rest : Text) :
    (firstPiece c rest).1.text.count '\n' =
      if (firstPiece c rest).1.kind = .lineBreak then 1 else 0 := by
  by_cases hc : c = '\n'
  · subst hc
    rfl
  · have hfront : '\n' ∉ [c] := by simpa using Ne.symm hc
    unfold firstPiece
    split
    · exact count_run .name [c] rfl hfront rest
    split
    · cases rest with
      | nil => exact List.count_eq_zero.2 hfront
      | cons x rest =>
        simp only [firstInteger]
        split
        · rename_i hhex
          refine count_run .integer [c, x] rfl ?_ rest
          intro hmem
          obtain rfl : '\n' = x := by simpa [Ne.symm hc] using hmem
          simp [isHexMark] at hhex
        · exact count_run .integer [c] rfl hfront _
    split
    · exact count_run .blank [c] rfl hfront rest
    split
    · exact count_run .comment [c] rfl hfront rest
    split
    · simp_all
    · split <;> simp_all

/-- The line breaks of a text are its line feeds. -/
theorem breaks_pieces (t : Text) : breaks (pieces t) = t.count '\n' := by
  induction t using pieces.induct with
  | case1 => simp [pieces, breaks]
  | case2 c rest ih =>
    have hcount := congrArg (List.count '\n') (firstPiece_append c rest)
    rw [List.count_append, count_firstPiece, ← ih] at hcount
    rw [← hcount, pieces, Nat.add_comm]
    simp [breaks, List.countP_cons]

end Pieces

namespace Span

/-- A range that begins `d` bytes further on. -/
def shift (d : Nat) (s : Span) : Span where
  start := s.start + d
  stop := s.stop + d
  start_le_stop := Nat.add_le_add_right s.start_le_stop d

end Span

namespace Spanned

/-- A value that stands `d` bytes further on. -/
def shift {α : Type} (d : Nat) (a : Spanned α) : Spanned α :=
  ⟨a.value, a.span.shift d⟩

end Spanned

namespace Line

/-- A line that stands `d` bytes and `k` lines further on. -/
def shift (d k : Nat) (l : Line) : Line where
  number := l.number + k
  head := l.head.shift d
  tail := l.tail.map (Spanned.shift d)

/-- The words of a line, each with the number of the line. -/
def numbered (l : Line) : List (Nat × Word) :=
  l.words.map fun w => (l.number, w)

/-- The words of a moved line are its words, each moved. -/
theorem words_shift (d k : Nat) (l : Line) :
    (l.shift d k).words = l.words.map (Spanned.shift d) := rfl

end Line

section Numbering

/-- Behind a line break a new line begins, and behind any other piece the line goes on. -/
theorem add_breaks_cons (number : Nat) (p : Piece) (ps : List Piece) :
    number + breaks (p :: ps) = (if p.kind = .lineBreak then number + 1 else number) + breaks ps := by
  simp only [breaks, List.countP_cons, decide_eq_true_eq]
  split <;> omega

/-- The words among two runs of pieces are those of the first and then those of the second, which begins
where the first ends. -/
theorem numberedWords_append (offset number : Nat) (ps qs : List Piece) :
    numberedWords offset number (ps ++ qs) =
      numberedWords offset number ps ++
        numberedWords (offset + Text.width (spelled ps)) (number + breaks ps) qs := by
  induction ps generalizing offset number with
  | nil => simp [numberedWords, spelled, breaks]
  | cons p ps ih =>
    have hspelled : Text.width (spelled (p :: ps)) = Text.width p.text + Text.width (spelled ps) := by
      simp [spelled]
    simp only [List.cons_append, numberedWords, ih, List.append_assoc, hspelled, add_breaks_cons,
      Nat.add_assoc]

/-- Pieces that stand further on make the same words further on. -/
theorem numberedWords_add (offset number d k : Nat) (ps : List Piece) :
    numberedWords (offset + d) (number + k) ps =
      (numberedWords offset number ps).map fun w => (w.1 + k, w.2.shift d) := by
  induction ps generalizing offset number with
  | nil => rfl
  | cons p ps ih =>
    have hoffset : offset + d + Text.width p.text = offset + Text.width p.text + d := by omega
    have hnumber : (if p.kind = .lineBreak then number + k + 1 else number + k) =
        (if p.kind = .lineBreak then number + 1 else number) + k := by
      split <;> omega
    simp only [numberedWords, hoffset, hnumber, ih, List.map_append]
    congr 1
    cases p.lexeme? with
    | none => rfl
    | some l => simp [Spanned.shift, Span.shift]

/-- Words stand in the lines that their pieces extend over. -/
theorem mem_numberedWords {offset number : Nat} {ps : List Piece} {w : Nat × Word}
    (h : w ∈ numberedWords offset number ps) : number ≤ w.1 ∧ w.1 ≤ number + breaks ps := by
  induction ps generalizing offset number with
  | nil => simp [numberedWords] at h
  | cons p ps ih =>
    simp only [numberedWords, List.mem_append, Option.mem_toList, Option.map_eq_some_iff] at h
    obtain ⟨l, -, rfl⟩ | h := h
    · exact ⟨Nat.le_refl _, Nat.le_add_right ..⟩
    · obtain ⟨hle, hge⟩ := ih h
      rw [add_breaks_cons]
      refine ⟨Nat.le_trans ?_ hle, hge⟩
      split <;> omega

/-- The lines of words are those of the words behind the first, with the first put in front. -/
theorem groupLines_cons (w : Nat × Word) (ws : List (Nat × Word)) :
    groupLines (w :: ws) = consWord w (groupLines ws) := rfl

/-- Words in lines, with the numbers of these, are the words that were put there, in order. -/
theorem flatMap_numbered_groupLines (ws : List (Nat × Word)) :
    (groupLines ws).flatMap Line.numbered = ws := by
  induction ws with
  | nil => rfl
  | cons w ws ih =>
    rw [groupLines_cons]
    cases hlines : groupLines ws with
    | nil =>
      rw [hlines] at ih
      rw [← ih]
      rfl
    | cons l ls =>
      rw [hlines] at ih
      rw [consWord]
      split
      case isTrue hnumber =>
        rw [← ih]
        show (l.number, w.2) :: (l :: ls).flatMap Line.numbered = w :: (l :: ls).flatMap Line.numbered
        rw [hnumber]
      case isFalse =>
        rw [← ih]
        rfl

/-- The number of a line is that of one of its words. -/
theorem mem_groupLines {ws : List (Nat × Word)} {l : Line} (h : l ∈ groupLines ws) :
    ∃ w ∈ ws, l.number = w.1 := by
  refine ⟨(l.number, l.head), ?_, rfl⟩
  rw [← flatMap_numbered_groupLines ws]
  exact List.mem_flatMap.2 ⟨l, h, List.mem_cons_self⟩

/-- Words in later lines do not go into the lines of the words before them. -/
theorem groupLines_append {ws vs : List (Nat × Word)} (h : ∀ w ∈ ws, ∀ v ∈ vs, w.1 < v.1) :
    groupLines (ws ++ vs) = groupLines ws ++ groupLines vs := by
  induction ws with
  | nil => rfl
  | cons w ws ih =>
    rw [List.cons_append, groupLines_cons, groupLines_cons,
      ih fun x hx => h x (List.mem_cons_of_mem _ hx)]
    cases groupLines ws with
    | cons l ls =>
      simp only [consWord, List.cons_append]
      split <;> rfl
    | nil =>
      cases hg : groupLines vs with
      | nil => rfl
      | cons l ls =>
        obtain ⟨v, hv, hnumber⟩ := mem_groupLines (hg ▸ List.mem_cons_self : l ∈ groupLines vs)
        have hne : l.number ≠ w.1 := by
          have := h w List.mem_cons_self v hv
          omega
        simp [consWord, hne]

/-- Words that are all moved by as much make the same lines, moved by as much. -/
theorem groupLines_map_shift (d k : Nat) (ws : List (Nat × Word)) :
    groupLines (ws.map fun w => (w.1 + k, w.2.shift d)) = (groupLines ws).map (Line.shift d k) := by
  induction ws with
  | nil => rfl
  | cons w ws ih =>
    rw [List.map_cons, groupLines_cons, groupLines_cons, ih]
    cases groupLines ws with
    | nil => rfl
    | cons l ls =>
      simp only [consWord, List.map_cons, Line.shift, Nat.add_right_cancel_iff]
      split <;> rfl

end Numbering

/-- The lines of a text that is cut at a line feed are the lines of both parts, those of the second
part further on. -/
theorem sourceLines_append_break {t : Text} (h : t.getLast? ≠ some '\r') (u : Text) :
    sourceLines (t ++ '\n' :: u) =
      sourceLines t ++ (sourceLines u).map (Line.shift (Text.width t + 1) (t.count '\n' + 1)) := by
  have hspelled : Text.width (spelled (joinStray (pieces t))) = Text.width t := by
    rw [spelled_joinStray, spelled_pieces]
  have hbreaks : breaks (joinStray (pieces t)) = t.count '\n' := by
    rw [breaks_joinStray, breaks_pieces]
  have hfeed : ∀ offset number ps, numberedWords offset number (⟨.lineBreak, ['\n']⟩ :: ps) =
      numberedWords (offset + 1) (number + 1) ps := fun _ _ _ => rfl
  have hlater : numberedWords 0 1 (joinStray (pieces (t ++ '\n' :: u))) =
      numberedWords 0 1 (joinStray (pieces t)) ++
        (numberedWords 0 1 (joinStray (pieces u))).map fun w =>
          (w.1 + (t.count '\n' + 1), w.2.shift (Text.width t + 1)) := by
    rw [pieces_append_break h, joinStray_append_cons (by decide), numberedWords_append, hspelled,
      hbreaks, hfeed, ← numberedWords_add, Nat.add_assoc, Nat.add_assoc]
  unfold sourceLines
  rw [hlater, groupLines_append, groupLines_map_shift]
  intro w hw v hv
  obtain ⟨x, hx, rfl⟩ := List.mem_map.1 hv
  have hw := (mem_numberedWords hw).2
  have hx := (mem_numberedWords hx).1
  rw [hbreaks] at hw
  show w.1 < x.1 + (t.count '\n' + 1)
  omega

end AbilityScript
