import AbilityScript.Proofs.Source.Pieces
import AbilityScript.Proofs.Source.Slices
import Mathlib.Data.List.Chain

/-!
# Every byte of a source text accounted for

The pieces of a text lie side by side and cover it, so every byte belongs to one of them. Those that
count as words keep their places when they are sorted into lines: a word is the slice of the text in
its range, and the number of its line counts the line feeds before it. What is not part of a word is
blank space, a comment or a line break.

## Main definitions

* `WordAt`: a word is a piece of a text, behind the pieces before it.
* `sourceWords`: the words of all lines of a text.
* `IsGap`: the runs of characters that may stand between words.

## Main statements

* `mem_numberedWords_iff`: the numbered words of a text are its pieces that count as words.
* `exists_wordAt`: so are the words of its lines.
* `sourceLines_account`: where words and lines stand in a text, and what is between them.
-/

set_option autoImplicit false

namespace AbilityScript

section Splitting

/-- Two members of a list are the same one, or one of them comes first. -/
theorem append_cons_cases {α : Type} {front back front' back' : List α} {a a' : α}
    (h : front ++ a :: back = front' ++ a' :: back') :
    (front = front' ∧ a = a') ∨ (∃ mid, front' = front ++ a :: mid ∧ back = mid ++ a' :: back') ∨
      ∃ mid, front = front' ++ a' :: mid ∧ back' = mid ++ a :: back := by
  obtain ⟨mid, rfl, hback⟩ | ⟨mid, rfl, hback⟩ := List.append_eq_append_iff.1 h
  · cases mid with
    | nil =>
      obtain ⟨rfl, -⟩ := List.cons.inj hback
      exact .inl ⟨(List.append_nil _).symm, rfl⟩
    | cons b mid =>
      obtain ⟨rfl, rfl⟩ := List.cons.inj hback
      exact .inr (.inl ⟨mid, rfl, rfl⟩)
  · cases mid with
    | nil =>
      obtain ⟨rfl, -⟩ := List.cons.inj hback
      exact .inl ⟨List.append_nil _, rfl⟩
    | cons b mid =>
      obtain ⟨rfl, rfl⟩ := List.cons.inj hback
      exact .inr (.inr ⟨mid, rfl, rfl⟩)

/-- Pieces spell their texts one after the other. -/
theorem spelled_append (ps qs : List Piece) : spelled (ps ++ qs) = spelled ps ++ spelled qs :=
  List.flatMap_append

/-- Pieces begin with the text of the first one. -/
theorem spelled_cons (p : Piece) (ps : List Piece) : spelled (p :: ps) = p.text ++ spelled ps := rfl

/-- Pieces end with the text of the last one. -/
theorem spelled_concat (ps : List Piece) (p : Piece) : spelled (ps ++ [p]) = spelled ps ++ p.text := by
  rw [spelled_append, spelled_cons]
  exact congrArg _ (List.append_nil _)

/-- The line breaks of two runs of pieces add up. -/
theorem breaks_append (ps qs : List Piece) : breaks (ps ++ qs) = breaks ps + breaks qs :=
  List.countP_append

variable {ps front back : List Piece} {p : Piece}

/-- Any one of well-cut pieces has its shape and goes on for as long as it can. -/
theorem WellCut.of_append_cons (h : WellCut (front ++ p :: back)) :
    p.HasShape ∧ ∀ c ∈ (spelled back).head?, p.kind.goesOn c = false := by
  induction front with
  | nil => exact ⟨h.1, h.2.1⟩
  | cons q front ih => exact ih h.2.2

/-- Well cut pieces have the shapes of their kinds. -/
theorem WellCut.hasShape (h : WellCut ps) : ∀ p ∈ ps, p.HasShape := by
  intro p hp
  obtain ⟨front, back, rfl⟩ := List.append_of_mem hp
  exact h.of_append_cons.1

/-- The line breaks among pieces are the line feeds in their text. -/
theorem breaks_eq_count (h : ∀ p ∈ ps, p.HasShape) : breaks ps = (spelled ps).count '\n' := by
  induction ps with
  | nil => rfl
  | cons p ps ih =>
    have hp := (h p List.mem_cons_self).count_newline
    have hps := ih fun q hq => h q (List.mem_cons_of_mem _ hq)
    rw [spelled_cons, List.count_append, hp, ← hps, Nat.add_comm]
    simp [breaks, List.countP_cons]

/-- Every offset inside the text of pieces is inside one of them. -/
theorem exists_append_cons_of_lt {offset n : Nat} (hle : offset ≤ n)
    (hlt : n < offset + Text.width (spelled ps)) :
    ∃ front p back, ps = front ++ p :: back ∧ offset + Text.width (spelled front) ≤ n ∧
      n < offset + Text.width (spelled front) + Text.width p.text := by
  induction ps generalizing offset with
  | nil =>
    rw [spelled, List.flatMap_nil, Text.width_nil] at hlt
    omega
  | cons p ps ih =>
    by_cases hp : n < offset + Text.width p.text
    · exact ⟨[], p, ps, rfl, hle, hp⟩
    · rw [spelled_cons, Text.width_append, ← Nat.add_assoc] at hlt
      obtain ⟨front, q, back, rfl, hfront, hq⟩ := ih (Nat.not_lt.1 hp) hlt
      refine ⟨p :: front, q, back, rfl, ?_, ?_⟩ <;> rw [spelled_cons, Text.width_append] <;> omega

end Splitting

section Numbering

variable {offset number : Nat} {ps : List Piece}

/-- What a piece is that counts as a word. -/
def WordKind.pieceKind : WordKind → PieceKind
  | .name => .name
  | .integer => .integer
  | .stray => .stray

/-- Words of different kinds are pieces of different kinds. -/
theorem WordKind.pieceKind_injective : Function.Injective WordKind.pieceKind := by
  intro k l h
  cases k <;> cases l <;> first | rfl | cases h

/-- The word that a piece is at an offset in a line. -/
def Piece.word? (offset number : Nat) (p : Piece) : Option (Nat × Word) :=
  p.lexeme?.map fun l => (number, ⟨l, .ofText offset p.text⟩)

/-- The words among pieces are the word of the first one, if it is one, and the words among the others
behind it. -/
theorem numberedWords_cons (offset number : Nat) (p : Piece) (ps : List Piece) :
    numberedWords offset number (p :: ps) =
      (p.word? offset number).toList ++ numberedWords (offset + Text.width p.text)
        (if p.kind = .lineBreak then number + 1 else number) ps := rfl

/-- A word among those of pieces is one of the pieces. The words in front of it are those of the pieces in
front of that, and the words behind it are those of the others. -/
theorem exists_of_numberedWords_eq {w : Nat × Word} {before after : List (Nat × Word)}
    (h : numberedWords offset number ps = before ++ w :: after) : ∃ front p back,
      ps = front ++ p :: back ∧
        p.word? (offset + Text.width (spelled front)) (number + breaks front) = some w ∧
        numberedWords offset number front = before ∧
        numberedWords (offset + Text.width (spelled (front ++ [p]))) (number + breaks (front ++ [p]))
          back = after := by
  induction ps generalizing offset number before with
  | nil => exact absurd h.symm (List.append_ne_nil_of_right_ne_nil _ (List.cons_ne_nil _ _))
  | cons p ps ih =>
    -- the word is among those behind the first piece
    have hlater {before : List (Nat × Word)} (h : numberedWords (offset + Text.width p.text)
        (if p.kind = .lineBreak then number + 1 else number) ps = before ++ w :: after) :
        ∃ front q back, p :: ps = front ++ q :: back ∧
          q.word? (offset + Text.width (spelled front)) (number + breaks front) = some w ∧
          numberedWords offset number front = (p.word? offset number).toList ++ before ∧
          numberedWords (offset + Text.width (spelled (front ++ [q])))
            (number + breaks (front ++ [q])) back = after := by
      obtain ⟨front, q, back, rfl, hq, hfront, hback⟩ := ih h
      refine ⟨p :: front, q, back, rfl, ?_, ?_, ?_⟩
      · rwa [spelled_cons, Text.width_append, ← Nat.add_assoc, add_breaks_cons]
      · rw [numberedWords_cons, hfront]
      · rwa [List.cons_append, spelled_cons, Text.width_append, ← Nat.add_assoc, add_breaks_cons]
    rw [numberedWords_cons] at h
    cases hp : p.word? offset number with
    | none =>
      rw [hp] at h hlater
      exact hlater h
    | some v =>
      rw [hp] at h hlater
      cases before with
      | nil =>
        obtain ⟨rfl, rfl⟩ := List.cons.inj h
        refine ⟨[], p, ps, rfl, hp, rfl, ?_⟩
        rw [List.nil_append, add_breaks_cons]
        simp [spelled, breaks]
      | cons b before =>
        obtain ⟨rfl, hrest⟩ := List.cons.inj h
        exact hlater hrest

/-- The words among pieces are those pieces that count as one, where the pieces before them end. -/
theorem mem_numberedWords_iff {w : Nat × Word} :
    w ∈ numberedWords offset number ps ↔ ∃ front p back, ps = front ++ p :: back ∧
      p.word? (offset + Text.width (spelled front)) (number + breaks front) = some w := by
  constructor
  · intro h
    obtain ⟨before, after, hsplit⟩ := List.append_of_mem h
    obtain ⟨front, p, back, hps, hp, -⟩ := exists_of_numberedWords_eq hsplit
    exact ⟨front, p, back, hps, hp⟩
  · rintro ⟨front, p, back, rfl, hp⟩
    rw [numberedWords_append]
    exact List.mem_append_right _ (List.mem_append_left _ (Option.mem_toList.2 hp))

/-- The kind of a word is that of its piece. -/
theorem Piece.kind_of_lexeme? {p : Piece} {l : Lexeme} (h : p.lexeme? = some l) :
    p.kind = l.kind.pieceKind := by
  obtain ⟨kind, text⟩ := p
  cases kind with
  | name | integer | stray =>
    obtain rfl := Option.some.inj h
    rfl
  | lineBreak | blank | comment => cases h

/-- Only a stray piece is a stray word. -/
theorem Piece.kind_eq_stray_of_lexeme? {p : Piece} {l : Lexeme} (h : p.lexeme? = some l)
    (hstray : l.kind = .stray) : p.kind = .stray := by
  rw [Piece.kind_of_lexeme? h, hstray]
  rfl

/-- No word begins before the offset at which the pieces begin. -/
theorem le_start_of_mem_numberedWords {w : Nat × Word} (h : w ∈ numberedWords offset number ps) :
    offset ≤ w.2.span.start := by
  obtain ⟨front, p, back, -, hp⟩ := mem_numberedWords_iff.1 h
  obtain ⟨l, -, rfl⟩ := Option.map_eq_some_iff.1 hp
  exact Nat.le_add_right ..

/-- Words come one after another, in lines that come one after another. -/
theorem pairwise_numberedWords (offset number : Nat) (ps : List Piece) :
    (numberedWords offset number ps).Pairwise fun v w =>
      v.1 ≤ w.1 ∧ v.2.span.stop ≤ w.2.span.start := by
  induction ps generalizing offset number with
  | nil => exact .nil
  | cons p ps ih =>
    refine List.pairwise_append.2 ⟨?_, ih _ _, ?_⟩
    · cases p.lexeme? with
      | none => exact .nil
      | some l => exact List.pairwise_singleton _ _
    · intro v hv w hw
      obtain ⟨l, -, rfl⟩ := Option.map_eq_some_iff.1 (Option.mem_toList.1 hv)
      refine ⟨Nat.le_trans ?_ (mem_numberedWords hw).1, le_start_of_mem_numberedWords hw⟩
      dsimp only
      split <;> omega

end Numbering

section Lines

variable {ws : List (Nat × Word)}

/-- Words in lines are the words, in order. -/
theorem flatMap_words_groupLines (ws : List (Nat × Word)) :
    (groupLines ws).flatMap Line.words = ws.map Prod.snd := by
  have hwords : ∀ l : Line, l.numbered.map Prod.snd = l.words := by
    intro l
    rw [Line.numbered, List.map_map]
    exact List.map_id _
  conv_rhs => rw [← flatMap_numbered_groupLines ws, List.map_flatMap]
  simp only [hwords]

/-- A word is put into the line of its number. -/
theorem mem_of_mem_words {l : Line} (hl : l ∈ groupLines ws) {v : Word} (hv : v ∈ l.words) :
    (l.number, v) ∈ ws := by
  rw [← flatMap_numbered_groupLines ws]
  exact List.mem_flatMap.2 ⟨l, hl, List.mem_map_of_mem hv⟩

/-- No two lines have the same number if the words come line by line. -/
theorem pairwise_groupLines (h : ws.Pairwise fun v w => v.1 ≤ w.1) :
    (groupLines ws).Pairwise fun l m => l.number < m.number := by
  induction ws with
  | nil => exact .nil
  | cons w ws ih =>
    obtain ⟨hw, hws⟩ := List.pairwise_cons.1 h
    have hlines := ih hws
    have hle : ∀ l ∈ groupLines ws, w.1 ≤ l.number := by
      intro l hl
      obtain ⟨v, hv, hnumber⟩ := mem_groupLines hl
      rw [hnumber]
      exact hw v hv
    rw [groupLines_cons]
    cases hgroup : groupLines ws with
    | nil => exact List.pairwise_singleton _ _
    | cons l ls =>
      rw [hgroup] at hlines hle
      obtain ⟨hl, hls⟩ := List.pairwise_cons.1 hlines
      rw [consWord]
      split
      case isTrue => exact .cons hl hls
      case isFalse hne =>
        have hlt : w.1 < l.number := Nat.lt_of_le_of_ne (hle l List.mem_cons_self) (Ne.symm hne)
        refine .cons ?_ hlines
        intro m hm
        obtain rfl | hm := List.mem_cons.1 hm
        · exact hlt
        · exact Nat.lt_trans hlt (hl m hm)

end Lines

/-- The words of all lines of a text, in order. -/
def sourceWords (t : Text) : List Word :=
  (sourceLines t).flatMap Line.words

/-- A word with the number of its line is a piece of a text, behind the pieces in front of it. -/
structure WordAt (t : Text) (front : List Piece) (p : Piece) (back : List Piece) (number : Nat)
    (w : Word) : Prop where
  pieces_eq : joinStray (pieces t) = front ++ p :: back
  lexeme : p.lexeme? = some w.value
  number_eq : number = 1 + breaks front
  span_eq : w.span = .ofText (Text.width (spelled front)) p.text

section Text

variable {t : Text} {front back : List Piece} {p : Piece} {number : Nat} {w : Word}

/-- The pieces of a text spell it. -/
theorem spelled_joinStray_pieces (t : Text) : spelled (joinStray (pieces t)) = t := by
  rw [spelled_joinStray, spelled_pieces]

/-- A piece that counts as a word is the word at its place. -/
theorem WordAt.of_word? (hpieces : joinStray (pieces t) = front ++ p :: back)
    (hp : p.word? (0 + Text.width (spelled front)) (1 + breaks front) = some (number, w)) :
    WordAt t front p back number w := by
  obtain ⟨l, hl, hw⟩ := Option.map_eq_some_iff.1 hp
  obtain ⟨rfl, rfl⟩ := Prod.mk.inj hw
  exact ⟨hpieces, hl, rfl, by rw [Nat.zero_add]⟩

/-- The numbered words of the pieces of a text are those that stand in it behind the pieces in front of
them. -/
theorem mem_numberedWords_iff_wordAt :
    (number, w) ∈ numberedWords 0 1 (joinStray (pieces t)) ↔
      ∃ front p back, WordAt t front p back number w := by
  rw [mem_numberedWords_iff]
  constructor
  · rintro ⟨front, p, back, hpieces, hp⟩
    exact ⟨front, p, back, .of_word? hpieces hp⟩
  · rintro ⟨front, p, back, hpieces, hl, rfl, hspan⟩
    refine ⟨front, p, back, hpieces, ?_⟩
    rw [Piece.word?, hl, Nat.zero_add, ← hspan]
    rfl

/-- The words of all lines are the words among the pieces. -/
theorem sourceWords_eq (t : Text) :
    sourceWords t = (numberedWords 0 1 (joinStray (pieces t))).map Prod.snd :=
  flatMap_words_groupLines _

/-- The words of all lines are those that stand in the text behind some pieces. -/
theorem mem_sourceWords_iff :
    w ∈ sourceWords t ↔ ∃ front p back number, WordAt t front p back number w := by
  rw [sourceWords_eq, List.mem_map]
  constructor
  · rintro ⟨⟨number, w⟩, hw, rfl⟩
    obtain ⟨front, p, back, h⟩ := mem_numberedWords_iff_wordAt.1 hw
    exact ⟨front, p, back, number, h⟩
  · rintro ⟨front, p, back, number, h⟩
    exact ⟨(number, w), mem_numberedWords_iff_wordAt.2 ⟨front, p, back, h⟩, rfl⟩

/-- Every word of a line is a piece of the text, in the line of this number. -/
theorem exists_wordAt {l : Line} (hl : l ∈ sourceLines t) (hw : w ∈ l.words) :
    ∃ front p back, WordAt t front p back l.number w :=
  mem_numberedWords_iff_wordAt.1 (mem_of_mem_words hl hw)

namespace WordAt

variable {front' back' : List Piece} {p' : Piece} {number' : Nat} {w' : Word}

/-- A word begins where the pieces in front of it end. -/
theorem start_eq (h : WordAt t front p back number w) :
    w.span.start = Text.width (spelled front) :=
  congrArg Span.start h.span_eq

/-- A word ends where its piece ends. -/
theorem stop_eq (h : WordAt t front p back number w) :
    w.span.stop = Text.width (spelled front) + Text.width p.text :=
  congrArg Span.stop h.span_eq

/-- The piece of a word has the shape of its kind. -/
theorem piece_hasShape (h : WordAt t front p back number w) : p.HasShape := by
  apply (wellCut_joinStray_pieces t).hasShape
  rw [h.pieces_eq]
  exact List.mem_append_right _ List.mem_cons_self

/-- A word has the text of its piece and the shape of its kind, and is not empty. -/
theorem hasShape (h : WordAt t front p back number w) :
    w.value.text = p.text ∧ w.value.HasShape ∧ p.text ≠ [] := by
  have hp := h.piece_hasShape
  exact ⟨(hp.lexeme h.lexeme).1, (hp.lexeme h.lexeme).2, hp.text_ne_nil⟩

/-- The text of a word is what stands in the text at its place. -/
theorem text_eq (h : WordAt t front p back number w) :
    t = spelled front ++ w.value.text ++ spelled back := by
  rw [h.hasShape.1, List.append_assoc, ← spelled_cons, ← spelled_append, ← h.pieces_eq,
    spelled_joinStray_pieces]

/-- No word has an empty range. -/
theorem start_lt_stop (h : WordAt t front p back number w) : w.span.start < w.span.stop := by
  have hpos := Text.width_pos h.hasShape.2.2
  have hstart := h.start_eq
  have hstop := h.stop_eq
  omega

/-- The text in the range of a word is the text of the word. -/
theorem slice?_eq (h : WordAt t front p back number w) : w.span.slice? t = some w.value.text := by
  rw [Span.slice?_eq_some_iff]
  refine ⟨spelled front, spelled back, h.text_eq, h.start_eq.symm, ?_⟩
  rw [Text.width_append, h.hasShape.1, h.stop_eq]

/-- The number of the line counts the line feeds in front of the word. -/
theorem number_eq_count (h : WordAt t front p back number w) :
    number = 1 + (spelled front).count '\n' := by
  have hfront : ∀ q ∈ front, q.HasShape := by
    intro q hq
    apply (wellCut_joinStray_pieces t).hasShape
    rw [h.pieces_eq]
    exact List.mem_append_left _ hq
  rw [h.number_eq, breaks_eq_count hfront]

/-- The number of the line of a word counts the line feeds in front of the word. -/
theorem number_eq_feedsBefore (h : WordAt t front p back number w) :
    number = 1 + t.feedsBefore w.span.start := by
  have hfeeds := Text.feedsBefore_append (spelled front) (w.value.text ++ spelled back)
  rw [← List.append_assoc, ← h.text_eq] at hfeeds
  rw [h.number_eq_count, h.start_eq, hfeeds]

/-- A word contains no line feed. -/
theorem newline_not_mem (h : WordAt t front p back number w) : '\n' ∉ w.value.text := by
  have hkind : p.kind ≠ .lineBreak := by
    intro hbreak
    have hl := h.lexeme
    rw [Piece.lexeme?, hbreak] at hl
    cases hl
  rw [h.hasShape.1, ← List.count_eq_zero, h.piece_hasShape.count_newline, if_neg hkind]

/-- Of two words behind one another the second one begins behind what is between them. -/
theorem start_eq_of_behind {mid : List Piece} (h : WordAt t front p back number w)
    (h' : WordAt t (front ++ p :: mid) p' back' number' w') :
    w'.span.start = w.span.stop + Text.width (spelled mid) := by
  rw [h'.start_eq, h.stop_eq, spelled_append, spelled_cons, Text.width_append, Text.width_append,
    Nat.add_assoc]

/-- The piece of a word is of the kind of the word. -/
theorem kind_eq (h : WordAt t front p back number w) : p.kind = w.value.kind.pieceKind :=
  Piece.kind_of_lexeme? h.lexeme

/-- The piece of a stray word is stray. -/
theorem kind_eq_stray (h : WordAt t front p back number w) (hstray : w.value.kind = .stray) :
    p.kind = .stray :=
  Piece.kind_eq_stray_of_lexeme? h.lexeme hstray

/-- The piece of any other word is a name or an integer. -/
theorem kind_eq_name_or_integer (h : WordAt t front p back number w)
    (hstray : w.value.kind ≠ .stray) : p.kind = .name ∨ p.kind = .integer := by
  rw [h.kind_eq]
  cases hkind : w.value.kind with
  | name => exact .inl rfl
  | integer => exact .inr rfl
  | stray => exact absurd hkind hstray

/-- Between two words of stray characters there is something else. -/
theorem stop_ne_start_of_stray (h : WordAt t front p back number w)
    (h' : WordAt t front' p' back' number' w') (hstray : w.value.kind = .stray)
    (hstray' : w'.value.kind = .stray) : w.span.stop ≠ w'.span.start := by
  intro htouch
  have hlt := h.start_lt_stop
  have hlt' := h'.start_lt_stop
  obtain ⟨rfl, rfl⟩ | ⟨mid, rfl, rfl⟩ | ⟨mid, rfl, rfl⟩ :=
    append_cons_cases (h.pieces_eq.symm.trans h'.pieces_eq)
  · have hstart := h.start_eq.trans h'.start_eq.symm
    omega
  · have hbehind := h.start_eq_of_behind h'
    cases mid with
    | nil =>
      have hseparated := separated_joinStray (pieces t)
      rw [h.pieces_eq] at hseparated
      have hpair := (List.isChain_append_cons_cons.1 hseparated).2.1
      exact hpair (h.kind_eq_stray hstray) (h'.kind_eq_stray hstray')
    | cons q mid =>
      have hq : q.HasShape := by
        apply (wellCut_joinStray_pieces t).hasShape
        rw [h.pieces_eq]
        simp
      have hpos := Text.width_pos hq.text_ne_nil
      rw [spelled_cons, Text.width_append] at hbehind
      omega
  · have hbehind := h'.start_eq_of_behind h
    omega

end WordAt

end Text

section Gaps

/-- The runs of characters that may stand between words, and what may follow a comment. -/
inductive IsGap : Text → Text → Prop where
  | blank {run : Text} (after : Text) (h : run.all isBlank = true) : IsGap run after
  /-- A comment extends to the end of its line. -/
  | comment {cs after : Text} (h : cs.all isCommentChar = true)
      (hafter : ∀ c ∈ after.head?, c = '\r' ∨ c = '\n') : IsGap (';' :: cs) after
  | lineFeed (after : Text) : IsGap ['\n'] after
  | returnFeed (after : Text) : IsGap ['\r', '\n'] after

/-- A range of a text is a run of characters as it may stand between words. -/
def Span.IsGapOf (s : Span) (t : Text) : Prop :=
  ∃ before run after, t = before ++ run ++ after ∧ Text.width before = s.start ∧
    Text.width (before ++ run) = s.stop ∧ IsGap run after

variable {t : Text} {front back : List Piece} {p : Piece}

/-- A piece that does not count as a word is a run of characters between words. -/
theorem isGap_of_lexeme?_eq_none (h : joinStray (pieces t) = front ++ p :: back)
    (hp : p.lexeme? = none) : IsGap p.text (spelled back) := by
  have hcut := wellCut_joinStray_pieces t
  rw [h] at hcut
  obtain ⟨hshape, hends⟩ := hcut.of_append_cons
  obtain ⟨kind, text⟩ := p
  cases kind with
  | name | integer | stray => cases hp
  | blank => exact .blank _ hshape.2
  | lineBreak =>
    obtain rfl | rfl : text = ['\n'] ∨ text = ['\r', '\n'] := hshape
    · exact .lineFeed _
    · exact .returnFeed _
  | comment =>
    obtain ⟨cs, rfl, hcs⟩ : ∃ cs, text = ';' :: cs ∧ cs.all isCommentChar = true := hshape
    refine .comment hcs fun c hc => ?_
    have hend : isCommentChar c = false := hends c hc
    simpa [isCommentChar, Classical.or_iff_not_imp_left] using hend

/-- Every byte of a text is in a word or in a run of characters between words. -/
theorem mem_word_or_gap {n : Nat} (hn : n < Text.width t) :
    (∃ w ∈ sourceWords t, w.span.start ≤ n ∧ n < w.span.stop) ∨
      ∃ s : Span, s.start ≤ n ∧ n < s.stop ∧ s.IsGapOf t ∧
        ∀ w ∈ sourceWords t, w.span.stop ≤ s.start ∨ s.stop ≤ w.span.start := by
  have hwidth : n < 0 + Text.width (spelled (joinStray (pieces t))) := by
    rw [spelled_joinStray_pieces, Nat.zero_add]
    exact hn
  obtain ⟨front, p, back, hpieces, hle, hlt⟩ := exists_append_cons_of_lt (Nat.zero_le n) hwidth
  rw [Nat.zero_add] at hle hlt
  let s : Span := .ofText (Text.width (spelled front)) p.text
  cases hp : p.lexeme? with
  | some l =>
    have hword : WordAt t front p back (1 + breaks front) ⟨l, s⟩ := ⟨hpieces, hp, rfl, rfl⟩
    exact .inl ⟨⟨l, s⟩, mem_sourceWords_iff.2 ⟨front, p, back, _, hword⟩, hle, hlt⟩
  | none =>
    refine .inr ⟨s, hle, hlt, ⟨spelled front, p.text, spelled back, ?_, rfl, ?_, ?_⟩, ?_⟩
    · rw [List.append_assoc, ← spelled_cons, ← spelled_append, ← hpieces, spelled_joinStray_pieces]
    · exact Text.width_append _ _
    · exact isGap_of_lexeme?_eq_none hpieces hp
    · intro w hw
      obtain ⟨front', p', back', number, h⟩ := mem_sourceWords_iff.1 hw
      have hstart := h.start_eq
      have hstop := h.stop_eq
      obtain ⟨-, rfl⟩ | ⟨mid, rfl, -⟩ | ⟨mid, rfl, -⟩ :=
        append_cons_cases (hpieces.symm.trans h.pieces_eq)
      · exact absurd (h.lexeme.symm.trans hp) (Option.some_ne_none _)
      · right
        rw [hstart, spelled_append, spelled_cons, Text.width_append, Text.width_append]
        exact Nat.add_le_add_left (Nat.le_add_right _ _) _
      · left
        show w.span.stop ≤ Text.width (spelled (front' ++ p' :: mid))
        rw [hstop, spelled_append, spelled_cons, Text.width_append, Text.width_append]
        exact Nat.add_le_add_left (Nat.le_add_right _ _) _

end Gaps

/-- The words of a text stand behind one another. -/
theorem pairwise_sourceWords (t : Text) :
    (sourceWords t).Pairwise fun v w => v.span.stop ≤ w.span.start := by
  rw [sourceWords_eq, List.pairwise_map]
  exact (pairwise_numberedWords 0 1 _).imp And.right

/-- The lines of a text are in the order of their numbers. -/
theorem pairwise_sourceLines (t : Text) :
    (sourceLines t).Pairwise fun l m => l.number < m.number :=
  pairwise_groupLines ((pairwise_numberedWords 0 1 _).imp And.left)

/-- The words of a text in the order of its lines take up ranges that are not empty and come one after
another; each of them is the slice of the text in its range, and looks like what it is. Every byte
that is in no word is in a run of blank space, in a comment that extends to the end of its line, or in
a line break. Lines hold words and have increasing numbers, which count the line feeds before each of
their words. Words of stray characters never touch. -/
theorem sourceLines_account (t : Text) :
    (∀ w ∈ sourceWords t, w.span.start < w.span.stop ∧ w.span.slice? t = some w.value.text ∧
      w.value.HasShape) ∧
    ((sourceWords t).Pairwise fun v w => v.span.stop ≤ w.span.start) ∧
    (∀ n < Text.width t,
      (∃ w ∈ sourceWords t, w.span.start ≤ n ∧ n < w.span.stop) ∨
        ∃ s : Span, s.start ≤ n ∧ n < s.stop ∧ s.IsGapOf t ∧
          ∀ w ∈ sourceWords t, w.span.stop ≤ s.start ∨ s.stop ≤ w.span.start) ∧
    (∀ l ∈ sourceLines t, l.words ≠ [] ∧
      ∀ w ∈ l.words, l.number = 1 + t.feedsBefore w.span.start) ∧
    ((sourceLines t).Pairwise fun l m => l.number < m.number) ∧
    ∀ v ∈ sourceWords t, ∀ w ∈ sourceWords t, v.value.kind = .stray → w.value.kind = .stray →
      v.span.stop ≠ w.span.start := by
  refine ⟨?_, pairwise_sourceWords t, fun n => mem_word_or_gap, ?_, pairwise_sourceLines t, ?_⟩
  · intro w hw
    obtain ⟨front, p, back, number, h⟩ := mem_sourceWords_iff.1 hw
    exact ⟨h.start_lt_stop, h.slice?_eq, h.hasShape.2.1⟩
  · intro l hl
    refine ⟨List.cons_ne_nil _ _, fun w hw => ?_⟩
    obtain ⟨front, p, back, h⟩ := exists_wordAt hl hw
    exact h.number_eq_feedsBefore
  · intro v hv w hw hstray hstray'
    obtain ⟨front, p, back, number, h⟩ := mem_sourceWords_iff.1 hv
    obtain ⟨front', p', back', number', h'⟩ := mem_sourceWords_iff.1 hw
    exact h.stop_ne_start_of_stray h' hstray hstray'

/-- Stray characters of four bytes touch a zero, which touches a name. The comment behind them ends in
front of a line break of two characters, and its second character has two bytes. -/
theorem sourceLines_account_stray_and_comment :
    let t : Text := "é$\r0xg ;é\r\n\tIF".toList
    let stray : Word := ⟨⟨.stray, "é$\r".toList⟩, ⟨0, 4, by decide⟩⟩
    let last : Word := ⟨⟨.name, "IF".toList⟩, ⟨14, 16, by decide⟩⟩
    stray ∈ sourceWords t ∧ stray.span.slice? t = some "é$\r".toList ∧ stray.value.HasShape ∧
      last ∈ sourceWords t ∧
      ⟨2, last, []⟩ ∈ sourceLines t ∧ 2 = 1 + t.feedsBefore 14 ∧
      10 < Text.width t ∧ ∃ s : Span, s.start ≤ 10 ∧ 10 < s.stop ∧ s.IsGapOf t := by
  intro t stray last
  have hwords : ∀ w ∈ sourceWords t, w.span.stop ≤ 7 ∨ 14 ≤ w.span.start := by decide +kernel
  have hstray : stray ∈ sourceWords t := by decide +kernel
  have hlast : last ∈ sourceWords t := by decide +kernel
  have hline : (⟨2, last, []⟩ : Line) ∈ sourceLines t := by decide +kernel
  have hwidth : 10 < Text.width t := by decide +kernel
  obtain ⟨hword, -, hcover, hlines, -⟩ := sourceLines_account t
  refine ⟨hstray, (hword stray hstray).2.1, (hword stray hstray).2.2, hlast, hline,
    (hlines _ hline).2 last List.mem_cons_self, hwidth, ?_⟩
  obtain ⟨w, hw, hle, hlt⟩ | ⟨s, hle, hlt, hgap, -⟩ := hcover 10 hwidth
  · have := hwords w hw
    omega
  · exact ⟨s, hle, hlt, hgap⟩

end AbilityScript
