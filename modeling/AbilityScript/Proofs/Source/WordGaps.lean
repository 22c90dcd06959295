import AbilityScript.Proofs.Source.LayoutEdits

/-!
# Between the words of a line

A comment ends where its line does, so between two words of a line there is nothing but blank space. There
may be none. A word goes on for as long as it can, which keeps a name apart from whatever could be a part
of it, and an integer from a digit. But an integer ends where a name begins with anything else than a
digit, a mark or a hexadecimal letter. Blank space between the two has no influence on what they are.

## Main statements

* `exists_wordAt_of_words_eq`: what there is between two words of a line.
* `IsCut.all_isBlank`: it is blank, in front of a word that is not stray.
* `IsCut.kinds_of_touching`: two words touch only if they are an integer and a name.
* `map_content_sourceLines_touching`: then the blank space between them could as well not be there.
-/

set_option autoImplicit false

namespace AbilityScript

section Consecutive

variable {t : Text} {l : Line} {v w : Word} {vs ws : List Word}

/-- Where there are no words among pieces, none of the pieces counts as one. -/
theorem lexeme?_eq_none_of_numberedWords_eq_nil {offset number : Nat} {ps : List Piece}
    (h : numberedWords offset number ps = []) : ∀ p ∈ ps, p.lexeme? = none := by
  intro p hp
  cases hl : p.lexeme? with
  | none => rfl
  | some x =>
    obtain ⟨front, back, rfl⟩ := List.append_of_mem hp
    rw [numberedWords_append, List.append_eq_nil_iff, numberedWords, hl] at h
    exact absurd h.2 (List.cons_ne_nil _ _)

/-- Two words that follow each other in a line do so among the words of the text. -/
theorem exists_numberedWords_eq (hl : l ∈ sourceLines t) (hwords : l.words = vs ++ v :: w :: ws) :
    ∃ before after, numberedWords 0 1 (joinStray (pieces t)) =
      before ++ (l.number, v) :: (l.number, w) :: after := by
  obtain ⟨ls, ms, hlines⟩ := List.append_of_mem hl
  have hflat := flatMap_numbered_groupLines (numberedWords 0 1 (joinStray (pieces t)))
  rw [show groupLines _ = ls ++ l :: ms from hlines, List.flatMap_append, List.flatMap_cons,
    Line.numbered, hwords, List.map_append, List.map_cons, List.map_cons] at hflat
  refine ⟨ls.flatMap Line.numbered ++ vs.map (fun w => (l.number, w)),
    ws.map (fun w => (l.number, w)) ++ ms.flatMap Line.numbered, ?_⟩
  rw [← hflat]
  simp

/-- Between two words of a line there are only blank space and comments. -/
theorem exists_wordAt_of_words_eq (hl : l ∈ sourceLines t) (hwords : l.words = vs ++ v :: w :: ws) :
    ∃ front p mid q back, WordAt t front p (mid ++ q :: back) l.number v ∧
      WordAt t (front ++ p :: mid) q back l.number w ∧
        ∀ r ∈ mid, r.kind = .blank ∨ r.kind = .comment := by
  obtain ⟨before, after, hsplit⟩ := exists_numberedWords_eq hl hwords
  obtain ⟨front, p, back, hpieces, hp, -, hback⟩ := exists_of_numberedWords_eq hsplit
  have hnext : numberedWords _ _ back = [] ++ (l.number, w) :: after := hback
  obtain ⟨mid, q, back, rfl, hq, hmid, -⟩ := exists_of_numberedWords_eq hnext
  have hv : WordAt t front p (mid ++ q :: back) l.number v := .of_word? hpieces hp
  have hw : WordAt t (front ++ p :: mid) q back l.number w := by
    refine .of_word? (by rw [hpieces, List.append_assoc, List.cons_append]) ?_
    rwa [Nat.add_assoc, ← Text.width_append, ← spelled_append, Nat.add_assoc, ← breaks_append,
      List.append_assoc, List.singleton_append] at hq
  refine ⟨front, p, mid, q, back, hv, hw, fun r hr => ?_⟩
  have hbreak : r.kind ≠ .lineBreak := by
    have hnumber := hv.number_eq.symm.trans hw.number_eq
    rw [List.append_cons, breaks_append, breaks_append] at hnumber
    have hnone : breaks mid = 0 := by omega
    simpa using List.countP_eq_zero.1 hnone r hr
  have hlexeme := lexeme?_eq_none_of_numberedWords_eq_nil hmid r hr
  rw [Piece.lexeme?] at hlexeme
  cases hkind : r.kind with
  | blank => exact .inl rfl
  | comment => exact .inr rfl
  | lineBreak => exact absurd hkind hbreak
  | name | integer | stray =>
    rw [hkind] at hlexeme
    cases hlexeme

end Consecutive

section Touching

variable {c : Char} {p q : Piece} {front mid back : List Piece} {a : Text}

/-- A comment may go on with any character of a name. -/
theorem isCommentChar_of_isNameChar (h : isNameChar c = true) : isCommentChar c = true := by
  have hreturn : c ≠ '\r' := by
    rintro rfl
    exact absurd h (by decide)
  have hfeed : c ≠ '\n' := by
    rintro rfl
    exact absurd h (by decide)
  simp [isCommentChar, hreturn, hfeed]

/-- Names and integers begin with what a name may go on with. -/
theorem Piece.HasShape.exists_nameChar (h : p.HasShape) (hkind : p.kind = .name ∨ p.kind = .integer) :
    ∃ c cs, p.text = c :: cs ∧ isNameChar c = true := by
  obtain ⟨c, cs, htext⟩ := List.exists_cons_of_ne_nil h.text_ne_nil
  refine ⟨c, cs, htext, ?_⟩
  obtain ⟨kind, text⟩ := p
  obtain rfl : text = c :: cs := htext
  obtain rfl | rfl : kind = .name ∨ kind = .integer := hkind
  · have hname : isName (c :: cs) = true := h
    rw [isName, Bool.and_eq_true] at hname
    exact isNameChar_of_isNameStart hname.1
  · exact isNameChar_of_isDigit (isDigit_of_isInteger h)

/-- A comment would go on with any piece but a line break and stray characters. -/
theorem Piece.HasShape.exists_commentChar (h : p.HasShape) (hbreak : p.kind ≠ .lineBreak)
    (hstray : p.kind ≠ .stray) : ∃ c cs, p.text = c :: cs ∧ isCommentChar c = true := by
  obtain ⟨kind, text⟩ := p
  cases kind with
  | name =>
    obtain ⟨c, cs, htext, hc⟩ := h.exists_nameChar (.inl rfl)
    exact ⟨c, cs, htext, isCommentChar_of_isNameChar hc⟩
  | integer =>
    obtain ⟨c, cs, htext, hc⟩ := h.exists_nameChar (.inr rfl)
    exact ⟨c, cs, htext, isCommentChar_of_isNameChar hc⟩
  | blank =>
    obtain ⟨hne, hall⟩ : text ≠ [] ∧ text.all isBlank = true := h
    obtain ⟨c, cs, rfl⟩ := List.exists_cons_of_ne_nil hne
    exact ⟨c, cs, rfl, isCommentChar_of_isBlank (List.all_eq_true.1 hall c List.mem_cons_self)⟩
  | comment =>
    obtain ⟨cs, rfl, -⟩ : ∃ cs, text = ';' :: cs ∧ cs.all isCommentChar = true := h
    exact ⟨';', cs, rfl, rfl⟩
  | lineBreak => exact absurd rfl hbreak
  | stray => exact absurd rfl hstray

/-- In front of a word that is not stray, there is no comment in its line. -/
theorem IsCut.all_isBlank (h : IsCut (mid ++ q :: back))
    (hmid : ∀ r ∈ mid, r.kind = .blank ∨ r.kind = .comment)
    (hq : q.kind = .name ∨ q.kind = .integer) : (spelled mid).all isBlank = true := by
  induction mid with
  | nil => rfl
  | cons r mid ih =>
    have htail : IsCut (mid ++ q :: back) := h.tail
    have hlater := fun x hx => hmid x (List.mem_cons_of_mem r hx)
    rw [spelled_cons, List.all_append, ih htail hlater, Bool.and_true]
    have hr := h.hasShape r List.mem_cons_self
    have hends : r.EndsBefore (spelled (mid ++ q :: back)) := h.ends.1
    obtain ⟨kind, text⟩ := r
    obtain rfl | rfl : kind = .blank ∨ kind = .comment := hmid _ List.mem_cons_self
    · exact hr.2
    · -- the comment would go on with the next piece
      obtain ⟨s, ss, hnext, hbreak, hstray⟩ : ∃ s ss, mid ++ q :: back = s :: ss ∧
          s.kind ≠ .lineBreak ∧ s.kind ≠ .stray := by
        cases mid with
        | nil => exact ⟨q, back, rfl, by obtain hq | hq := hq <;> simp [hq]⟩
        | cons s mid =>
          have hs := hlater s List.mem_cons_self
          exact ⟨s, mid ++ q :: back, rfl, by obtain hs | hs := hs <;> simp [hs]⟩
      have hshape := htail.hasShape s (by rw [hnext]; exact List.mem_cons_self)
      obtain ⟨c, cs, htext, hc⟩ := hshape.exists_commentChar hbreak hstray
      rw [hnext, spelled_cons, htext] at hends
      exact Bool.noConfusion ((hends c rfl).symm.trans hc)

/-- Something stands between two pieces if any piece does. -/
theorem eq_nil_of_spelled_eq_nil (h : ∀ r ∈ mid, r.HasShape) (hnil : spelled mid = []) : mid = [] := by
  cases mid with
  | nil => rfl
  | cons r mid =>
    rw [spelled_cons, List.append_eq_nil_iff] at hnil
    exact absurd hnil.1 (h r List.mem_cons_self).text_ne_nil

/-- Words that are not stray touch only if they are an integer and a name. -/
theorem IsCut.kinds_of_touching (h : IsCut (p :: q :: back))
    (hp : p.kind = .name ∨ p.kind = .integer) (hq : q.kind = .name ∨ q.kind = .integer) :
    p.kind = .integer ∧ q.kind = .name := by
  have hshape := h.hasShape q (by simp)
  obtain ⟨c, cs, htext, hc⟩ := hshape.exists_nameChar hq
  have hhead : (spelled (q :: back)).head? = some c := by
    rw [spelled_cons, htext]
    rfl
  have hends := h.ends.1
  unfold Piece.EndsBefore at hends
  obtain hp | hp := hp
  · rw [hp] at hends
    exact Bool.noConfusion ((hends c hhead).symm.trans hc)
  · refine ⟨hp, hq.resolve_right fun hq => ?_⟩
    rw [Piece.HasShape, hq, htext] at hshape
    have hdigit := isDigit_of_isInteger hshape
    rw [hp] at hends
    have hstop := hends.1 c hhead
    split at hstop
    case isTrue => exact Bool.noConfusion (hstop.symm.trans (Numeral.isHexDigit_of_isDigit hdigit))
    case isFalse => exact Bool.noConfusion (hstop.symm.trans hdigit)

/-- A piece looks no further than two characters, and not past a single one that is no mark. -/
theorem Piece.EndsBefore.extend (h : p.EndsBefore a) (ha : a ≠ [])
    (hmark : ∀ x, a = [x] → isHexMark x = false) (b : Text) : p.EndsBefore (a ++ b) := by
  obtain ⟨x, rest, rfl⟩ := List.exists_cons_of_ne_nil ha
  unfold EndsBefore at h ⊢
  split at h
  · exact h
  · refine ⟨h.1, fun hzero => ?_⟩
    have hmarked := h.2 hzero
    cases rest with
    | nil => simp [beginsMarked, hmark x rfl]
    | cons d rest => exact hmarked
  · trivial
  · exact h
  · exact h
  · exact h

/-- Pieces up to one and pieces from that one on can be put together at it. -/
theorem IsCut.join (hfront : IsCut (front ++ [p])) (hback : IsCut (p :: back))
    (hmark : ∀ x, p.text = [x] → isHexMark x = false) : IsCut (front ++ p :: back) where
  hasShape r hr := by
    obtain hr | hr := List.mem_append.1 hr
    · exact hfront.hasShape r (List.mem_append_left _ hr)
    · exact hback.hasShape r hr
  ends := by
    have hends := hfront.ends
    have hne := (hback.hasShape p List.mem_cons_self).text_ne_nil
    clear hfront
    induction front with
    | nil => exact hback.ends
    | cons r front ih =>
      refine ⟨?_, ih hends.2⟩
      show r.EndsBefore (spelled (front ++ p :: back))
      have hr : r.EndsBefore (spelled (front ++ [p])) := hends.1
      rw [spelled_concat] at hr
      rw [spelled_append, spelled_cons, ← List.append_assoc]
      refine hr.extend (List.append_ne_nil_of_right_ne_nil _ hne) (fun x hx => ?_) _
      obtain ⟨-, hp⟩ | ⟨-, hp⟩ := List.append_eq_singleton_iff.1 hx
      · exact hmark x hp
      · exact absurd hp hne
  separated := List.isChain_split.2 ⟨hfront.separated, hback.separated⟩

/-- What is between an integer and a word that begins with neither a mark nor a hexadecimal digit may be
left out. -/
theorem IsCut.drop_between (h : IsCut (front ++ p :: (mid ++ q :: back))) (hp : p.kind = .integer)
    (hq : ∀ c ∈ q.text.head?, isHexDigit c = false ∧ isHexMark c = false) :
    IsCut (front ++ p :: q :: back) := by
  have hlater : IsCut (q :: back) := h.right_of_append.tail.right_of_append
  have hpshape := h.right_of_append.hasShape p List.mem_cons_self
  obtain ⟨c, cs, htext⟩ :=
    List.exists_cons_of_ne_nil (hlater.hasShape q List.mem_cons_self).text_ne_nil
  obtain ⟨hdigit, hmark⟩ := hq c (by rw [htext]; rfl)
  rw [List.append_cons] at h
  refine h.left_of_append.join ⟨?_, ⟨?_, hlater.ends⟩, ?_⟩ fun x hx => ?_
  · intro r hr
    obtain rfl | hr := List.mem_cons.1 hr
    · exact hpshape
    · exact hlater.hasShape r hr
  · rw [spelled_cons, htext, List.cons_append, Piece.EndsBefore, hp]
    refine ⟨fun d hd => ?_, fun _ => ?_⟩
    · obtain rfl := Option.some.inj hd
      split
      case isTrue => exact hdigit
      case isFalse =>
        cases hdecimal : c.isDigit with
        | false => rfl
        | true => exact Bool.noConfusion (hdigit.symm.trans (Numeral.isHexDigit_of_isDigit hdecimal))
    · rw [beginsMarked, hmark, Bool.false_and]
  · refine .cons_cons (fun hstray => ?_) hlater.separated
    cases hp.symm.trans hstray
  · rw [Piece.HasShape, hp, hx] at hpshape
    exact isHexMark_of_isDigit (isDigit_of_isInteger hpshape)

end Touching

section Gaps

variable {t : Text} {number : Nat} {v w : Word} {front mid back : List Piece} {p q : Piece}

/-- Blanks and comments add no word and move none into another line. -/
theorem numberedLexemes_append_of_kind (hmid : ∀ r ∈ mid, r.kind = .blank ∨ r.kind = .comment)
    (ps : List Piece) : numberedLexemes number (mid ++ ps) = numberedLexemes number ps := by
  induction mid with
  | nil => rfl
  | cons r mid ih =>
    rw [List.cons_append, numberedLexemes_cons_of_kind (hmid r List.mem_cons_self)]
    exact ih fun s hs => hmid s (List.mem_cons_of_mem r hs)

/-- The blank space between an integer and a word that begins with neither a mark nor a hexadecimal digit
has no influence on the words. -/
theorem WordAt.map_content_sourceLines (hv : WordAt t front p (mid ++ q :: back) number v)
    (hmid : ∀ r ∈ mid, r.kind = .blank ∨ r.kind = .comment) (hinteger : v.value.kind = .integer)
    (hq : ∀ c ∈ q.text.head?, isHexDigit c = false ∧ isHexMark c = false) :
    (sourceLines (spelled (front ++ [p]) ++ spelled (q :: back))).map Line.content =
      (sourceLines t).map Line.content := by
  have hcut := isCut_joinStray_pieces t
  rw [hv.pieces_eq] at hcut
  have hkind : p.kind = .integer := by
    rw [hv.kind_eq, hinteger]
    rfl
  have hwords : ∀ n, numberedLexemes n (p :: (mid ++ q :: back)) = numberedLexemes n (p :: q :: back) := by
    intro n
    rw [numberedLexemes, numberedLexemes, numberedLexemes_append_of_kind hmid]
  apply map_content_sourceLines_congr
  rw [← spelled_append, List.append_assoc, List.singleton_append,
    (hcut.drop_between hkind hq).textLexemes_eq, textLexemes, hv.pieces_eq, numberedLexemes_append,
    numberedLexemes_append, hwords]

end Gaps

end AbilityScript
