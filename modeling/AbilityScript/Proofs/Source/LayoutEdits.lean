import AbilityScript.Proofs.Source.UniqueCut

/-!
# Layout does not matter

Where no word and no line break goes across the place at which two texts meet, the words of both
together are those of the one and those of the other, apart from a comment of the first text that the
second one begins with the rest of. So nothing that is written at such a place has an influence on the
words before it or behind it, and blank space and comments have none of their own.

## Main definitions

* `numberedLexemes`: the words among pieces with the numbers of their lines, wherever they stand.
* `IsSeam`, `behind`: where two texts may be parted, and what the second is without the rest of a
  comment.
* `LayoutEdit`: a text with more blank space, another comment or another spelling of a line break.

## Main statements

* `textLexemes_append`: the words of two texts that meet at a seam.
* `LayoutEdit.map_content_sourceLines`: the lines of an edited text hold the same words.
-/

set_option autoImplicit false

namespace AbilityScript

/-- The words among pieces that begin in a line, each with the number of its line. -/
def numberedLexemes (number : Nat) : List Piece → List (Nat × Lexeme)
  | [] => []
  | p :: ps =>
    (p.lexeme?.map fun l => (number, l)).toList ++
      numberedLexemes (if p.kind = .lineBreak then number + 1 else number) ps

/-- The words of a text that begins in a line, each with the number of its line. -/
def textLexemes (number : Nat) (t : Text) : List (Nat × Lexeme) :=
  numberedLexemes number (joinStray (pieces t))

/-- Whether a word may contain a character. -/
def isWordChar (c : Char) : Bool :=
  isNameChar c || isStrayChar c

/-- Whether a text ends in a comment that goes on behind it. -/
def endsInComment (t : Text) : Bool :=
  (joinStray (pieces t)).getLast?.any fun p => p.kind = .comment

/-- A text that comes behind another one, without the rest of a comment in which that one ends. -/
def behind (a b : Text) : Text :=
  if endsInComment a then b.dropWhile isCommentChar else b

/-- No word and no line break goes across the place where two texts meet. -/
structure IsSeam (a b : Text) : Prop where
  word : ∀ w ∈ sourceWords (a ++ b), ¬(w.span.start < Text.width a ∧ Text.width a < w.span.stop)
  lineBreak : ¬(a.getLast? = some '\r' ∧ b.head? = some '\n')

/-- A line break begins behind a text. -/
def BreaksBehind (a b : Text) : Prop :=
  (a.getLast? ≠ some '\r' ∧ b.head? = some '\n') ∨ ∃ rest, b = '\r' :: '\n' :: rest

/-- Changes to a text that concern its layout only. -/
inductive LayoutEdit : Text → Text → Prop where
  /-- Blank space is inserted, but not within a word or a line break. -/
  | blank {a b space : Text} (hspace : space.all isBlank = true) (hseam : IsSeam a b) :
    LayoutEdit (a ++ b) (a ++ (space ++ b))
  /-- A comment is inserted at the end of a line. -/
  | comment {a b cs : Text} (hcs : cs.all isCommentChar = true) (hend : b = [] ∨ BreaksBehind a b) :
    LayoutEdit (a ++ b) (a ++ (';' :: cs ++ b))
  /-- A line feed that ends a line by itself is replaced by a carriage return and a line feed. -/
  | returnFeed {a b : Text} (h : a.getLast? ≠ some '\r') :
    LayoutEdit (a ++ '\n' :: b) (a ++ '\r' :: '\n' :: b)

section Lexemes

variable {number : Nat} {p : Piece} {ps qs : List Piece}

/-- The words among pieces with the numbers of their lines do not depend on where the pieces begin. -/
theorem map_value_numberedWords (offset number : Nat) (ps : List Piece) :
    (numberedWords offset number ps).map (fun w => (w.1, w.2.value)) = numberedLexemes number ps := by
  induction ps generalizing offset number with
  | nil => rfl
  | cons p ps ih =>
    rw [numberedWords, List.map_append, ih, numberedLexemes]
    cases p.lexeme? <;> rfl

/-- The words among two runs of pieces are those of the first and then those of the second, whose line
the breaks of the first count up to. -/
theorem numberedLexemes_append (number : Nat) (ps qs : List Piece) :
    numberedLexemes number (ps ++ qs) =
      numberedLexemes number ps ++ numberedLexemes (number + breaks ps) qs := by
  rw [← map_value_numberedWords 0, numberedWords_append, List.map_append, map_value_numberedWords,
    map_value_numberedWords]

/-- Blank space and comments have no influence on the words. -/
theorem numberedLexemes_cons_of_kind (h : p.kind = .blank ∨ p.kind = .comment) :
    numberedLexemes number (p :: ps) = numberedLexemes number ps := by
  obtain ⟨kind, text⟩ := p
  obtain rfl | rfl : kind = .blank ∨ kind = .comment := h <;> rfl

/-- Cut pieces are the pieces of their text. -/
theorem IsCut.textLexemes_eq (h : IsCut ps) (number : Nat) :
    textLexemes number (spelled ps) = numberedLexemes number ps := by
  rw [textLexemes, h.joinStray_pieces_eq]

/-- A cut text ends in an open comment exactly if its last piece is a comment. -/
theorem IsCut.endsInComment_eq (h : IsCut ps) :
    endsInComment (spelled ps) = ps.getLast?.any fun p => p.kind = .comment := by
  rw [endsInComment, h.joinStray_pieces_eq]

end Lexemes

section Characters

variable {c : Char} {l : Lexeme}

/-- A word is made of characters that words may hold. -/
theorem Lexeme.HasShape.isWordChar (h : l.HasShape) (hc : c ∈ l.text) : isWordChar c = true := by
  obtain ⟨kind, text⟩ := l
  rw [AbilityScript.isWordChar, Bool.or_eq_true]
  cases kind with
  | name =>
    have hname : isName text = true := h
    exact .inl (isNameChar_of_mem (by rw [isPrintable, hname, Bool.true_or]) hc)
  | integer => exact .inl (isNameChar_of_mem_of_isInteger h hc)
  | stray => exact .inr (List.all_eq_true.1 h.2 c hc)

/-- Only stray characters may end in a carriage return. -/
theorem Piece.HasShape.kind_eq_stray {p : Piece} (h : p.HasShape) (hlast : p.text.getLast? = some '\r') :
    p.kind = .stray := by
  obtain ⟨kind, text⟩ := p
  have hmem : '\r' ∈ text := List.mem_of_getLast? hlast
  cases kind with
  | stray => rfl
  | name =>
    have hname : isName text = true := h
    have hc := isNameChar_of_mem (by rw [isPrintable, hname, Bool.true_or]) hmem
    exact absurd hc (by decide)
  | integer => exact absurd (isNameChar_of_mem_of_isInteger h hmem) (by decide)
  | lineBreak =>
    obtain rfl | rfl : text = ['\n'] ∨ text = ['\r', '\n'] := h <;> exact absurd hlast (by decide)
  | blank => exact absurd (List.all_eq_true.1 h.2 _ hmem) (by decide)
  | comment =>
    obtain ⟨cs, rfl, hcs⟩ : ∃ cs, text = ';' :: cs ∧ cs.all isCommentChar = true := h
    obtain hmem | hmem := List.mem_cons.1 hmem
    · exact absurd hmem (by decide)
    · exact absurd (List.all_eq_true.1 hcs _ hmem) (by decide)

/-- No blank belongs to a word. -/
theorem isWordChar_of_isBlank (h : isBlank c = true) : isWordChar c = false := by
  simp only [isBlank, Bool.or_eq_true, beq_iff_eq] at h
  obtain (rfl | rfl) | rfl := h <;> decide

/-- A comment may go on with a blank. -/
theorem isCommentChar_of_isBlank (h : isBlank c = true) : isCommentChar c = true := by
  simp only [isBlank, Bool.or_eq_true, beq_iff_eq] at h
  obtain (rfl | rfl) | rfl := h <;> rfl

end Characters

section Seams

variable {a b : Text} {c : Char}

/-- A word that goes across a place is a piece of which both texts hold a part. -/
theorem exists_parts_of_crosses {w : Word} (hw : w ∈ sourceWords (a ++ b))
    (hstart : w.span.start < Text.width a) (hstop : Text.width a < w.span.stop) :
    ∃ front p back x y, joinStray (pieces (a ++ b)) = front ++ p :: back ∧
      (∀ c ∈ p.text, isWordChar c = true) ∧ p.text = x ++ y ∧ x ≠ [] ∧ y ≠ [] ∧
      spelled front ++ x = a ∧ y ++ spelled back = b := by
  obtain ⟨front, p, back, number, h⟩ := mem_sourceWords_iff.1 hw
  have htext : spelled front ++ (p.text ++ spelled back) = a ++ b := by
    rw [← List.append_assoc, ← h.hasShape.1]
    exact h.text_eq.symm
  rw [h.start_eq] at hstart
  rw [h.stop_eq, ← Text.width_append] at hstop
  obtain ⟨x, rfl⟩ := Text.exists_append_of_width_le htext (Nat.le_of_lt hstart)
  have hrest : spelled front ++ x ++ b = spelled front ++ p.text ++ spelled back := by
    rw [← htext, List.append_assoc]
  obtain ⟨y, hy⟩ := Text.exists_append_of_width_le hrest (Nat.le_of_lt hstop)
  have hp : p.text = x ++ y := by
    rw [List.append_assoc] at hy
    exact List.append_cancel_left hy
  refine ⟨front, p, back, x, y, h.pieces_eq, fun c hc => ?_, hp, ?_, ?_, rfl, ?_⟩
  · rw [← h.hasShape.1] at hc
    exact h.hasShape.2.1.isWordChar hc
  · rintro rfl
    rw [List.append_nil] at hstart
    exact Nat.lt_irrefl _ hstart
  · rintro rfl
    rw [hy, List.append_nil] at hstop
    exact Nat.lt_irrefl _ hstop
  · rw [hp, ← List.append_assoc, List.append_assoc] at hrest
    rw [List.append_assoc, List.append_assoc] at hrest
    exact (List.append_cancel_left (List.append_cancel_left hrest)).symm

/-- What a piece is that goes across a seam. -/
theorem IsSeam.kind_eq (h : IsSeam a b) {front back : List Piece} {p : Piece} {x y : Text}
    (hpieces : joinStray (pieces (a ++ b)) = front ++ p :: back) (hp : p.text = x ++ y) (hx : x ≠ [])
    (hy : y ≠ []) (ha : spelled front ++ x = a) (hb : y ++ spelled back = b) :
    p.kind = .blank ∨ p.kind = .comment := by
  have hshape : p.HasShape := by
    apply (wellCut_joinStray_pieces (a ++ b)).hasShape
    rw [hpieces]
    exact List.mem_append_right _ List.mem_cons_self
  cases hl : p.lexeme? with
  | some l =>
    let s : Span := .ofText (Text.width (spelled front)) p.text
    have hword : WordAt (a ++ b) front p back (1 + breaks front) ⟨l, s⟩ := ⟨hpieces, hl, rfl, rfl⟩
    have hxpos := Text.width_pos hx
    have hypos := Text.width_pos hy
    refine absurd ⟨?_, ?_⟩ (h.word ⟨l, s⟩ (mem_sourceWords_iff.2 ⟨front, p, back, _, hword⟩))
    · rw [← ha, Text.width_append]
      exact Nat.lt_add_of_pos_right hxpos
    · show Text.width a < Text.width (spelled front) + Text.width p.text
      rw [← ha, hp, Text.width_append, Text.width_append]
      omega
  | none =>
    obtain ⟨kind, text⟩ := p
    cases kind with
    | name | integer | stray => cases hl
    | blank => exact .inl rfl
    | comment => exact .inr rfl
    | lineBreak =>
      -- only a carriage return and a line feed can be parted
      have hparted : x = ['\r'] ∧ y = ['\n'] := by
        obtain rfl : text = x ++ y := hp
        obtain ⟨c, x, rfl⟩ := List.exists_cons_of_ne_nil hx
        obtain ⟨d, y, rfl⟩ := List.exists_cons_of_ne_nil hy
        obtain htext | htext : c :: x ++ d :: y = ['\n'] ∨ c :: x ++ d :: y = ['\r', '\n'] := hshape
        · simp at htext
        · cases x with
          | nil => simp_all
          | cons e x => simp at htext
      obtain ⟨rfl, rfl⟩ := hparted
      exact absurd ⟨by rw [← ha, List.getLast?_concat], by rw [← hb]; rfl⟩ h.lineBreak

/-- A character that no word contains may stand behind a text, if it is not the end of a line break. -/
theorem IsSeam.of_head (hc : isWordChar c = false) (hbreak : ¬(a.getLast? = some '\r' ∧ c = '\n')) :
    IsSeam a (c :: b) where
  word := by
    rintro w hw ⟨hstart, hstop⟩
    obtain ⟨front, p, back, x, y, -, hchars, hp, -, hy, -, hb⟩ := exists_parts_of_crosses hw hstart hstop
    obtain ⟨d, y, rfl⟩ := List.exists_cons_of_ne_nil hy
    obtain ⟨rfl, -⟩ := List.cons.inj hb
    have hd := hchars d (by rw [hp]; exact List.mem_append_right _ List.mem_cons_self)
    exact Bool.noConfusion (hd.symm.trans hc)
  lineBreak := by
    rintro ⟨hlast, hhead⟩
    exact hbreak ⟨hlast, Option.some.inj hhead⟩

/-- Anything may stand behind a text that ends in a character that no word contains. -/
theorem IsSeam.of_getLast? (h : ∀ c ∈ a.getLast?, isWordChar c = false) : IsSeam a b where
  word := by
    rintro w hw ⟨hstart, hstop⟩
    obtain ⟨front, p, back, x, y, -, hchars, hp, hx, -, ha, -⟩ := exists_parts_of_crosses hw hstart hstop
    have hlast := List.getLast?_eq_getLast_of_ne_nil hx
    have hc := h (x.getLast hx) (by rw [← ha, List.getLast?_append_of_ne_nil _ hx, hlast]; rfl)
    have hd := hchars (x.getLast hx) (by rw [hp]; exact List.mem_append_left _ (List.getLast_mem hx))
    exact Bool.noConfusion (hd.symm.trans hc)
  lineBreak := by
    rintro ⟨hlast, -⟩
    exact absurd (h '\r' hlast) (by decide)

/-- Nothing goes across the end of a text. -/
theorem IsSeam.nil (a : Text) : IsSeam a [] where
  word := by
    rintro w hw ⟨hstart, hstop⟩
    obtain ⟨front, p, back, x, y, -, -, -, -, hy, -, hb⟩ := exists_parts_of_crosses hw hstart hstop
    exact hy (List.append_eq_nil_iff.1 hb).1
  lineBreak h := nomatch h.2

/-- A line break of two characters may stand behind any text. -/
theorem IsSeam.returnFeed (a rest : Text) : IsSeam a ('\r' :: '\n' :: rest) where
  word := by
    rintro w hw ⟨hstart, hstop⟩
    obtain ⟨front, p, back, x, y, hpieces, hchars, hp, -, hy, -, hb⟩ :=
      exists_parts_of_crosses hw hstart hstop
    obtain ⟨c, y, rfl⟩ := List.exists_cons_of_ne_nil hy
    obtain ⟨rfl, hrest⟩ := List.cons.inj hb
    cases y with
    | cons d y =>
      obtain ⟨rfl, -⟩ := List.cons.inj hrest
      have hd := hchars '\n' (by rw [hp]; simp)
      exact absurd hd (by decide)
    | nil =>
      -- the word would end in a carriage return in front of a line feed
      have hcut := isCut_joinStray_pieces (a ++ '\r' :: '\n' :: rest)
      rw [hpieces] at hcut
      have hlast : p.text.getLast? = some '\r' := by rw [hp, List.getLast?_concat]
      have hhead : (spelled back).head? = some '\n' := by
        rw [show spelled back = '\n' :: rest from hrest]
        rfl
      have hstray := (hcut.hasShape p (List.mem_append_right _ List.mem_cons_self)).kind_eq_stray hlast
      have hends := hcut.right_of_append.ends.1
      rw [Piece.EndsBefore, hstray] at hends
      exact hends ⟨hlast, hhead⟩
  lineBreak h := by
    cases Option.some.inj h.2

/-- A text meets one behind a line break without anything going across. -/
theorem IsSeam.of_breaksBehind (h : BreaksBehind a b) : IsSeam a b := by
  obtain ⟨hlast, hhead⟩ | ⟨rest, rfl⟩ := h
  · obtain ⟨rest, rfl⟩ := List.head?_eq_some_iff.1 hhead
    exact .of_head (by decide) fun h => hlast h.1
  · exact .returnFeed a rest

end Seams

section Splitting

variable {a b : Text} {number : Nat}

/-- Nothing is dropped from a text that does not begin with a fitting character. -/
theorem dropWhile_of_head? {fits : Char → Bool} {t : Text} (h : ∀ c ∈ t.head?, fits c = false) :
    t.dropWhile fits = t := by
  cases t with
  | nil => rfl
  | cons c t => simp [h c rfl]

/-- A comment that ends where a text begins does not go on in it. -/
theorem behind_of_isCut {front back : List Piece} (h : IsCut (front ++ back)) :
    behind (spelled front) (spelled back) = spelled back := by
  unfold behind
  split
  case isFalse => rfl
  case isTrue hcomment =>
    rw [h.left_of_append.endsInComment_eq] at hcomment
    obtain ⟨p, hlast, hkind⟩ := (Option.any_eq_true _ _).1 hcomment
    obtain ⟨init, rfl⟩ := List.getLast?_eq_some_iff.1 hlast
    rw [List.append_assoc] at h
    have hends := h.right_of_append.ends.1
    rw [Piece.EndsBefore, of_decide_eq_true hkind] at hends
    exact dropWhile_of_head? hends

section Parted

variable {front back : List Piece} {kind : PieceKind} {x y : Text}

/-- A text that ends within blank space or a comment, as a part of the text that goes on there. -/
theorem textLexemes_of_parted (hcut : IsCut (front ++ ⟨kind, x ++ y⟩ :: back))
    (hkind : kind = .blank ∨ kind = .comment) (hx : Piece.HasShape ⟨kind, x⟩) (number : Nat) :
    textLexemes number (spelled front ++ x) = numberedLexemes number front ∧
      endsInComment (spelled front ++ x) = decide (kind = .comment) ∧
      (spelled front ++ x).count '\n' = breaks front := by
  have hspelled : spelled front ++ x = spelled (front ++ [⟨kind, x⟩]) :=
    (spelled_concat front ⟨kind, x⟩).symm
  have hcutx : IsCut (front ++ [⟨kind, x⟩]) := hcut.shorten_last hx rfl rfl
  have hskip : numberedLexemes (number + breaks front) [⟨kind, x⟩] = [] :=
    numberedLexemes_cons_of_kind hkind
  have hbreak : breaks [⟨kind, x⟩] = 0 := by
    obtain rfl | rfl := hkind <;> rfl
  rw [hspelled, hcutx.textLexemes_eq, hcutx.endsInComment_eq, numberedLexemes_append, hskip,
    List.append_nil, List.getLast?_concat, ← breaks_eq_count hcutx.hasShape, breaks_append]
  exact ⟨rfl, rfl, congrArg (breaks front + ·) hbreak⟩

/-- What comes behind a place within blank space or a comment holds the words behind these. -/
theorem textLexemes_behind_of_parted (hcut : IsCut (front ++ ⟨kind, x ++ y⟩ :: back))
    (hkind : kind = .blank ∨ kind = .comment) (hx : x ≠ []) (hy : y ≠ []) (number : Nat) :
    Piece.HasShape ⟨kind, x⟩ ∧
      textLexemes number (if kind = .comment then (y ++ spelled back).dropWhile isCommentChar
        else y ++ spelled back) = numberedLexemes number back := by
  have hshape := hcut.hasShape _ (List.mem_append_right _ List.mem_cons_self)
  have hends := hcut.right_of_append.ends.1
  obtain rfl | rfl := hkind
  · have hall : (x ++ y).all isBlank = true := hshape.2
    rw [List.all_append, Bool.and_eq_true] at hall
    have hback : IsCut (⟨.blank, y⟩ :: back) :=
      hcut.right_of_append.replace_head ⟨hy, hall.2⟩ rfl hends
    refine ⟨⟨hx, hall.1⟩, ?_⟩
    rw [if_neg (by decide), ← spelled_cons ⟨.blank, y⟩, hback.textLexemes_eq,
      numberedLexemes_cons_of_kind (.inl rfl)]
  · obtain ⟨c, x, rfl⟩ := List.exists_cons_of_ne_nil hx
    obtain ⟨cs, htext, hcs⟩ : ∃ cs, c :: (x ++ y) = ';' :: cs ∧ cs.all isCommentChar = true := hshape
    obtain ⟨rfl, rfl⟩ := List.cons.inj htext
    rw [List.all_append, Bool.and_eq_true] at hcs
    refine ⟨⟨x, rfl, hcs.1⟩, ?_⟩
    rw [if_pos rfl, List.dropWhile_append_of_pos (List.all_eq_true.1 hcs.2), dropWhile_of_head? hends,
      hcut.right_of_append.tail.textLexemes_eq]

end Parted

/-- The words of two texts that meet at a seam are those of the one and those of the other, without the
rest of a comment. -/
theorem textLexemes_append (h : IsSeam a b) (number : Nat) :
    textLexemes number (a ++ b) =
      textLexemes number a ++ textLexemes (number + a.count '\n') (behind a b) := by
  have hcut := isCut_joinStray_pieces (a ++ b)
  obtain ⟨front, back, hpieces, rfl, rfl⟩ | ⟨front, p, back, x, y, hpieces, hp, hx, hy, rfl, rfl⟩ :=
    exists_meeting (spelled_joinStray_pieces (a ++ b))
  · rw [hpieces] at hcut
    rw [textLexemes, hpieces, behind_of_isCut hcut, numberedLexemes_append,
      hcut.right_of_append.textLexemes_eq, hcut.left_of_append.textLexemes_eq,
      breaks_eq_count hcut.left_of_append.hasShape]
  · have hkind := h.kind_eq hpieces hp hx hy rfl rfl
    rw [hpieces] at hcut
    obtain ⟨kind, text⟩ := p
    obtain rfl : text = x ++ y := hp
    obtain ⟨hxshape, hback⟩ :=
      textLexemes_behind_of_parted hcut hkind hx hy (number + breaks front)
    obtain ⟨hfront, hcomment, hcount⟩ := textLexemes_of_parted hcut hkind hxshape number
    rw [textLexemes, hpieces, numberedLexemes_append, numberedLexemes_cons_of_kind hkind, hfront, hcount,
      behind, hcomment, ← hback]
    simp only [decide_eq_true_eq]

end Splitting

section Edits

variable {a b b' t u : Text} {number : Nat}

/-- A text that is all blank space or all comment has no words. -/
theorem textLexemes_of_kind {p : Piece} (hp : p.HasShape) (hkind : p.kind = .blank ∨ p.kind = .comment)
    (number : Nat) : textLexemes number p.text = [] ∧ p.text.count '\n' = 0 ∧
      endsInComment p.text = decide (p.kind = .comment) := by
  have hcut : IsCut [p] := ⟨by simpa using hp, ⟨.nil p, trivial⟩, .singleton p⟩
  have hspelled : spelled [p] = p.text := List.append_nil _
  refine ⟨?_, ?_, ?_⟩
  · rw [← hspelled, hcut.textLexemes_eq]
    exact numberedLexemes_cons_of_kind hkind
  · rw [hp.count_newline, if_neg]
    obtain h | h := hkind <;> rw [h] <;> decide
  · rw [← hspelled, hcut.endsInComment_eq]
    rfl

/-- Blanks in front of a text add no word and move none into another line. -/
theorem textLexemes_space_append {space : Text} (h : space.all isBlank = true) (b : Text) (number : Nat) :
    textLexemes number (space ++ b) = textLexemes number b := by
  by_cases hne : space = []
  · rw [hne, List.nil_append]
  · have hseam : IsSeam space b := by
      apply IsSeam.of_getLast?
      intro c hc
      exact isWordChar_of_isBlank (List.all_eq_true.1 h c (List.mem_of_getLast? hc))
    obtain ⟨hwords, hcount, hcomment⟩ :=
      textLexemes_of_kind (p := ⟨.blank, space⟩) ⟨hne, h⟩ (.inl rfl) number
    rw [textLexemes_append hseam, hwords, hcount, behind, hcomment]
    rfl

/-- A comment in front of a line break or of the end of the text adds no word. -/
theorem textLexemes_comment_append {cs : Text} (h : cs.all isCommentChar = true)
    (hb : b = [] ∨ BreaksBehind (';' :: cs) b) (number : Nat) :
    textLexemes number (';' :: cs ++ b) = textLexemes number b := by
  have hseam : IsSeam (';' :: cs) b := by
    obtain rfl | hb := hb
    · exact .nil _
    · exact .of_breaksBehind hb
  have hend : ∀ c ∈ b.head?, isCommentChar c = false := by
    obtain rfl | ⟨-, hhead⟩ | ⟨rest, rfl⟩ := hb
    · exact fun c hc => nomatch hc
    · intro c hc
      obtain rfl := Option.some.inj (hhead.symm.trans hc)
      rfl
    · intro c hc
      obtain rfl := Option.some.inj hc
      rfl
  obtain ⟨hwords, hcount, hcomment⟩ :=
    textLexemes_of_kind (p := ⟨.comment, ';' :: cs⟩) ⟨cs, rfl, h⟩ (.inr rfl) number
  rw [textLexemes_append hseam, hwords, hcount, behind, hcomment, if_pos (decide_eq_true rfl),
    dropWhile_of_head? hend]
  rfl

/-- What stands at a seam may be replaced if the words behind it stay the same. -/
theorem textLexemes_congr (hb : IsSeam a b) (hb' : IsSeam a b')
    (h : ∀ n, textLexemes n (behind a b') = textLexemes n (behind a b)) (number : Nat) :
    textLexemes number (a ++ b') = textLexemes number (a ++ b) := by
  rw [textLexemes_append hb, textLexemes_append hb', h]

/-- What holds no words holds none as the rest of a comment either. -/
theorem textLexemes_behind_append {skipped : Text} (hskipped : skipped.all isCommentChar = true)
    (h : textLexemes number (skipped ++ b) = textLexemes number b) :
    textLexemes number (behind a (skipped ++ b)) = textLexemes number (behind a b) := by
  rw [behind, behind]
  split
  · rw [List.dropWhile_append_of_pos (List.all_eq_true.1 hskipped)]
  · exact h

/-- A carriage return with its line feed separates lines like the line feed alone. -/
theorem textLexemes_returnFeed (b : Text) (number : Nat) :
    textLexemes number ('\r' :: '\n' :: b) = textLexemes number ('\n' :: b) := by
  have hfeed : pieces ('\n' :: b) = ⟨.lineBreak, ['\n']⟩ :: pieces b := by
    rw [pieces]
    rfl
  have hreturn : pieces ('\r' :: '\n' :: b) = ⟨.lineBreak, ['\r', '\n']⟩ :: pieces b := by
    rw [pieces]
    rfl
  rw [textLexemes, textLexemes, hfeed, hreturn, joinStray_cons, joinStray_cons,
    consJoining_of_ne (by decide), consJoining_of_ne (by decide)]
  rfl

/-- An edited text has the same words in the same lines. -/
theorem LayoutEdit.textLexemes_eq (h : LayoutEdit t u) (number : Nat) :
    textLexemes number u = textLexemes number t := by
  cases h with
  | @blank a b space hspace hseam =>
    by_cases hne : space = []
    · rw [hne, List.nil_append]
    obtain ⟨c, cs, rfl⟩ := List.exists_cons_of_ne_nil hne
    have hc : isBlank c = true := List.all_eq_true.1 hspace c List.mem_cons_self
    refine textLexemes_congr hseam (.of_head (isWordChar_of_isBlank hc) ?_) (fun n => ?_) number
    · rintro ⟨-, rfl⟩
      exact absurd hc (by decide)
    · have hskipped : (c :: cs).all isCommentChar = true :=
        List.all_eq_true.2 fun d hd => isCommentChar_of_isBlank (List.all_eq_true.1 hspace d hd)
      exact textLexemes_behind_append hskipped (textLexemes_space_append hspace b n)
  | @comment a b cs hcs hend =>
    have hseam : IsSeam a b := by
      obtain rfl | hend := hend
      · exact .nil a
      · exact .of_breaksBehind hend
    have hbreak : b = [] ∨ BreaksBehind (';' :: cs) b := by
      refine hend.imp_right ?_
      rintro (⟨-, hhead⟩ | hreturn)
      · refine .inl ⟨fun hlast => ?_, hhead⟩
        obtain hmem | hmem := List.mem_cons.1 (List.mem_of_getLast? hlast)
        · exact absurd hmem (by decide)
        · exact absurd (List.all_eq_true.1 hcs _ hmem) (by decide)
      · exact .inr hreturn
    refine textLexemes_congr hseam (.of_head (by decide) (by simp)) (fun n => ?_) number
    have hskipped : (';' :: cs).all isCommentChar = true := by
      rw [List.all_cons, hcs]
      rfl
    exact textLexemes_behind_append hskipped (textLexemes_comment_append hcs hbreak n)
  | @returnFeed a b hlast =>
    refine textLexemes_congr (.of_head (by decide) fun h => hlast h.1) (.returnFeed a b) (fun n => ?_)
      number
    unfold behind
    split
    · rw [dropWhile_of_head? (by simp [isCommentChar]), dropWhile_of_head? (by simp [isCommentChar]),
        textLexemes_returnFeed]
    · exact textLexemes_returnFeed b n

end Edits

section Lines

/-- The number of a line and its words, wherever they stand. -/
def Line.content (l : Line) : Nat × List Lexeme :=
  (l.number, l.lexemes)

/-- Puts a word in front of the contents of the lines after it. -/
def consContent (w : Nat × Lexeme) : List (Nat × List Lexeme) → List (Nat × List Lexeme)
  | [] => [(w.1, [w.2])]
  | l :: ls => if l.1 = w.1 then (l.1, w.2 :: l.2) :: ls else (w.1, [w.2]) :: l :: ls

/-- Putting a word in front of lines puts its content in front of theirs. -/
theorem map_content_consWord (w : Nat × Word) (ls : List Line) :
    (consWord w ls).map Line.content = consContent (w.1, w.2.value) (ls.map Line.content) := by
  cases ls with
  | nil => rfl
  | cons l ls =>
    rw [consWord, List.map_cons, consContent]
    have hnumber : l.content.1 = l.number := rfl
    rw [hnumber, apply_ite (List.map Line.content)]
    rfl

/-- What lines contain depends only on the words and their numbers. -/
theorem map_content_groupLines (ws : List (Nat × Word)) :
    (groupLines ws).map Line.content =
      (ws.map fun w => (w.1, w.2.value)).foldr consContent [] := by
  induction ws with
  | nil => rfl
  | cons w ws ih => rw [groupLines_cons, map_content_consWord, ih, List.map_cons, List.foldr_cons]

/-- Texts of the same words in the same lines have lines that contain the same. -/
theorem map_content_sourceLines_congr {t u : Text} (h : textLexemes 1 u = textLexemes 1 t) :
    (sourceLines u).map Line.content = (sourceLines t).map Line.content := by
  unfold sourceLines
  rw [map_content_groupLines, map_content_groupLines, map_value_numberedWords, map_value_numberedWords]
  exact congrArg (List.foldr consContent []) h

/-- The lines of an edited text hold the same words. -/
theorem LayoutEdit.map_content_sourceLines {t u : Text} (h : LayoutEdit t u) :
    (sourceLines u).map Line.content = (sourceLines t).map Line.content :=
  map_content_sourceLines_congr (h.textLexemes_eq 1)

end Lines

end AbilityScript
