import AbilityScript.Proofs.Text.Numerals

/-!
# The shapes of pieces

What a piece of source text looks like depends on its kind, and a piece goes on for as long as its
characters fit. After stray characters that stand side by side are taken together, no two pieces in a
row are stray.

## Main definitions

* `Piece.HasShape`, `Lexeme.HasShape`: what a piece or a word looks like.
* `PieceKind.goesOn`: the characters that a piece does not leave behind.
* `WellCut`: pieces of the right shapes that go on for as long as they can.

## Main statements

* `wellCut_joinStray_pieces`: so are the pieces of every text.
* `separated_joinStray`: no two of them in a row are stray.
-/

set_option autoImplicit false

namespace AbilityScript

/-- Whether a character begins no other piece than a stray one, or a line break at most. -/
def isStrayChar (c : Char) : Bool :=
  !(isNameStart c || c.isDigit || isBlank c || c == ';' || c == '\n')

/-- What a piece looks like. -/
def Piece.HasShape (p : Piece) : Prop :=
  match p.kind with
  | .name => isName p.text = true
  | .integer => isInteger p.text = true
  | .lineBreak => p.text = ['\n'] ∨ p.text = ['\r', '\n']
  | .blank => p.text ≠ [] ∧ p.text.all isBlank = true
  | .comment => ∃ cs, p.text = ';' :: cs ∧ cs.all isCommentChar = true
  | .stray => p.text ≠ [] ∧ p.text.all isStrayChar = true

/-- What a word looks like. -/
def Lexeme.HasShape (l : Lexeme) : Prop :=
  match l.kind with
  | .name => isName l.text = true
  | .integer => isInteger l.text = true
  | .stray => l.text ≠ [] ∧ l.text.all isStrayChar = true

/-- Whether a piece of a kind would rather contain a character than end before it. -/
def PieceKind.goesOn : PieceKind → Char → Bool
  | .name => isNameChar
  | .integer => Char.isDigit
  | .blank => isBlank
  | .comment => isCommentChar
  | .lineBreak | .stray => fun _ => false

/-- Pieces of the shapes of their kinds, each of which ends where it cannot go on. -/
def WellCut : List Piece → Prop
  | [] => True
  | p :: ps => p.HasShape ∧ (∀ c ∈ (spelled ps).head?, p.kind.goesOn c = false) ∧ WellCut ps

/-- Pieces of which no two in a row are stray. -/
def Separated (ps : List Piece) : Prop :=
  ps.IsChain fun p q => p.kind = .stray → q.kind ≠ .stray

section Shapes

variable {p : Piece} {l : Lexeme}

/-- No piece is empty. -/
theorem Piece.HasShape.text_ne_nil (h : p.HasShape) : p.text ≠ [] := by
  intro hnil
  obtain ⟨kind, text⟩ := p
  obtain rfl : text = [] := hnil
  cases kind <;> simp [HasShape, isName, isInteger, isDecimal, isHexadecimal] at h

/-- The word that a piece is has the text of the piece, and its shape. -/
theorem Piece.HasShape.lexeme (h : p.HasShape) (hl : p.lexeme? = some l) :
    l.text = p.text ∧ l.HasShape := by
  obtain ⟨kind, text⟩ := p
  cases kind with
  | name | integer | stray =>
    obtain rfl := Option.some.inj hl
    exact ⟨rfl, h⟩
  | lineBreak | blank | comment => cases hl

/-- A hexadecimal digit may stand in a name. -/
theorem isNameChar_of_isHexDigit {c : Char} (h : isHexDigit c = true) : isNameChar c = true := by
  have hupper : c.isUpper = decide (65 ≤ c.toNat ∧ c.toNat ≤ 90) := rfl
  have hlower : c.isLower = (decide (97 ≤ c.toNat) && decide (c.toNat ≤ 122)) := rfl
  have hletter : c.isAlpha = (c.isUpper || c.isLower) := rfl
  rw [Numeral.isHexDigit_iff] at h
  obtain h | h | h := h
  · exact isNameChar_of_isDigit ((Numeral.isDigit_iff c).2 h)
  · have halpha : c.isLower = true := by
      rw [hlower, Bool.and_eq_true, decide_eq_true_eq, decide_eq_true_eq]
      omega
    simp [isNameChar, Char.isAlphanum, hletter, halpha]
  · have halpha : c.isUpper = true := by
      rw [hupper, decide_eq_true_eq]
      omega
    simp [isNameChar, Char.isAlphanum, hletter, halpha]

/-- Integers begin with a decimal digit, the hexadecimal ones with a zero. -/
theorem isDigit_of_isInteger {c : Char} {cs : Text} (h : isInteger (c :: cs) = true) :
    c.isDigit = true := by
  rw [isInteger, Bool.or_eq_true] at h
  obtain h | h := h
  · rw [isDecimal, Bool.and_eq_true] at h
    exact h.1
  · obtain ⟨x, d, ds, htext, -⟩ := isHexadecimal_iff.1 h
    rw [(List.cons.inj htext).1]
    rfl

/-- Integers contain nothing that a name could not. -/
theorem isNameChar_of_mem_of_isInteger {t : Text} {c : Char} (ht : isInteger t = true) (hc : c ∈ t) :
    isNameChar c = true := by
  rw [isInteger, Bool.or_eq_true] at ht
  obtain ht | ht := ht
  · exact isNameChar_of_mem (by rw [isPrintable, ht, Bool.or_true]) hc
  · obtain ⟨x, d, cs, rfl, hx, hd, hcs⟩ := isHexadecimal_iff.1 ht
    simp only [List.mem_cons] at hc
    obtain rfl | rfl | rfl | hc := hc
    · decide
    · obtain rfl | rfl := hx <;> decide
    · exact isNameChar_of_isHexDigit hd
    · exact isNameChar_of_isHexDigit (List.all_eq_true.1 hcs c hc)

/-- A text of characters that fit has no line feed if none of them is one. -/
theorem count_newline_of_forall {fits : Char → Bool} (hfits : fits '\n' = false) {t : Text}
    (h : ∀ c ∈ t, fits c = true) : t.count '\n' = 0 := by
  rw [List.count_eq_zero]
  intro hmem
  exact Bool.noConfusion ((h _ hmem).symm.trans hfits)

/-- A line break contains one line feed, and no other piece contains any. -/
theorem Piece.HasShape.count_newline (h : p.HasShape) :
    p.text.count '\n' = if p.kind = .lineBreak then 1 else 0 := by
  obtain ⟨kind, text⟩ := p
  cases kind with
  | name =>
    have hname : isName text = true := h
    have hprintable : isPrintable text = true := by rw [isPrintable, hname, Bool.true_or]
    exact count_newline_of_forall (by decide) fun c hc => isNameChar_of_mem hprintable hc
  | integer =>
    exact count_newline_of_forall (by decide) fun c hc => isNameChar_of_mem_of_isInteger h hc
  | lineBreak =>
    obtain rfl | rfl : text = ['\n'] ∨ text = ['\r', '\n'] := h <;> rfl
  | blank => exact count_newline_of_forall (by decide : isBlank '\n' = false) (List.all_eq_true.1 h.2)
  | comment =>
    obtain ⟨cs, rfl, hcs⟩ : ∃ cs, text = ';' :: cs ∧ cs.all isCommentChar = true := h
    rw [List.count_cons_of_ne (by decide)]
    exact count_newline_of_forall (by decide : isCommentChar '\n' = false) (List.all_eq_true.1 hcs)
  | stray =>
    exact count_newline_of_forall (by decide : isStrayChar '\n' = false) (List.all_eq_true.1 h.2)

end Shapes

section Cutting

/-- The first piece of a text that begins with a digit is a numeral as its kind asks for. -/
theorem hasShape_firstInteger {c : Char} (hc : c.isDigit = true) (rest : Text) :
    (firstInteger c rest).1.HasShape := by
  have hdecimal (u : Text) : isInteger (c :: u.takeWhile Char.isDigit) = true := by
    rw [isInteger, isDecimal, hc, List.all_takeWhile]
    rfl
  cases rest with
  | nil => exact hdecimal []
  | cons x rest =>
    rw [firstInteger]
    split
    case isTrue hhex =>
      cases rest with
      | nil => simp [beginsHex] at hhex
      | cons d rest =>
        simp only [beginsHex, Bool.and_eq_true] at hhex
        obtain ⟨⟨hzero, hx⟩, hd⟩ := hhex
        show isInteger (c :: x :: (d :: rest).takeWhile isHexDigit) = true
        rw [List.takeWhile_cons_of_pos hd, isInteger, isHexadecimal, hzero, hx, hd, List.all_takeWhile,
          Bool.or_eq_true]
        exact .inr rfl
    case isFalse => exact hdecimal (x :: rest)

/-- The first piece of a text looks like its kind. -/
theorem hasShape_firstPiece (c : Char) (rest : Text) : (firstPiece c rest).1.HasShape := by
  unfold firstPiece
  split
  case isTrue hname =>
    show isName (c :: rest.takeWhile isNameChar) = true
    rw [isName, hname, List.all_takeWhile]
    rfl
  case isFalse hname =>
    split
    case isTrue hdigit => exact hasShape_firstInteger hdigit rest
    case isFalse hdigit =>
      split
      case isTrue hblank =>
        refine ⟨List.cons_ne_nil _ _, ?_⟩
        show (c :: rest.takeWhile isBlank).all isBlank = true
        rw [List.all_cons, hblank, List.all_takeWhile]
        rfl
      case isFalse hblank =>
        split
        case isTrue hcomment =>
          rw [beq_iff_eq] at hcomment
          subst hcomment
          exact ⟨_, rfl, List.all_takeWhile⟩
        case isFalse hcomment =>
          split
          case isTrue hfeed =>
            rw [beq_iff_eq] at hfeed
            subst hfeed
            exact .inl rfl
          case isFalse hfeed =>
            have hstray : isStrayChar c = true := by
              simp_all [isStrayChar]
            split
            · exact .inr rfl
            · exact ⟨List.cons_ne_nil _ _, by simpa using hstray⟩

/-- A run of characters goes on to one that does not fit. -/
theorem fits_head?_run (kind : PieceKind) (front : Text) (fits : Char → Bool) (rest : Text) :
    ∀ b ∈ (Piece.run kind front fits rest).2.head?, fits b = false := by
  intro b hb
  have hhead := List.head?_dropWhile_not fits rest
  rw [show (rest.dropWhile fits).head? = some b from hb] at hhead
  exact hhead

/-- A numeral ends where it cannot go on. -/
theorem goesOn_firstInteger (c : Char) (rest : Text) :
    ∀ b ∈ (firstInteger c rest).2.head?, (firstInteger c rest).1.kind.goesOn b = false := by
  match rest with
  | [] => simp [firstInteger]
  | x :: rest =>
    rw [firstInteger]
    split
    case isTrue =>
      intro b hb
      have hhex := fits_head?_run .integer [c, x] isHexDigit rest b hb
      show b.isDigit = false
      cases hdigit : b.isDigit with
      | false => rfl
      | true => rw [Numeral.isHexDigit_of_isDigit hdigit] at hhex; exact absurd hhex (by decide)
    case isFalse => exact fits_head?_run .integer [c] Char.isDigit (x :: rest)

/-- The first piece of a text goes on for as long as it can. -/
theorem goesOn_firstPiece (c : Char) (rest : Text) :
    ∀ b ∈ (firstPiece c rest).2.head?, (firstPiece c rest).1.kind.goesOn b = false := by
  unfold firstPiece
  split
  · exact fits_head?_run .name [c] isNameChar rest
  split
  · exact goesOn_firstInteger c rest
  split
  · exact fits_head?_run .blank [c] isBlank rest
  split
  · exact fits_head?_run .comment [c] isCommentChar rest
  split
  · exact fun _ _ => rfl
  split <;> exact fun _ _ => rfl

/-- The pieces of a text have the shapes of their kinds and end where they cannot go on. -/
theorem wellCut_pieces (t : Text) : WellCut (pieces t) := by
  induction t using pieces.induct with
  | case1 =>
    rw [pieces]
    trivial
  | case2 c rest ih =>
    rw [pieces]
    refine ⟨hasShape_firstPiece c rest, ?_, ih⟩
    rw [spelled_pieces]
    exact goesOn_firstPiece c rest

end Cutting

section Joining

variable {p : Piece} {ps : List Piece}

/-- A piece that is put in front, together with stray characters behind it, leaves pieces well cut. -/
theorem wellCut_consJoining (h : WellCut (p :: ps)) : WellCut (p.consJoining ps) := by
  cases ps with
  | nil => exact h
  | cons q ps =>
    rw [Piece.consJoining]
    split
    case isTrue hkinds =>
      obtain ⟨hp, -, hq, -, hps⟩ := h
      rw [Piece.HasShape, hkinds.1] at hp
      rw [Piece.HasShape, hkinds.2] at hq
      refine ⟨⟨?_, ?_⟩, fun _ _ => rfl, hps⟩
      · exact List.append_ne_nil_of_left_ne_nil hp.1 _
      · rw [List.all_append, hp.2, hq.2]
        rfl
    case isFalse => exact h

/-- Taking stray characters together leaves pieces well cut. -/
theorem wellCut_joinStray (h : WellCut ps) : WellCut (joinStray ps) := by
  induction ps with
  | nil => trivial
  | cons p ps ih =>
    obtain ⟨hp, hends, hps⟩ := h
    rw [joinStray_cons]
    exact wellCut_consJoining ⟨hp, by rwa [spelled_joinStray], ih hps⟩

/-- The pieces of every text look like their kinds, and each goes on for as long as it can. -/
theorem wellCut_joinStray_pieces (t : Text) : WellCut (joinStray (pieces t)) :=
  wellCut_joinStray (wellCut_pieces t)

/-- A piece that is put in front goes together with stray characters behind it, so that no two in a row
are stray. -/
theorem separated_consJoining (p : Piece) (h : Separated ps) : Separated (p.consJoining ps) := by
  cases ps with
  | nil => exact .singleton p
  | cons q ps =>
    rw [Piece.consJoining]
    split
    case isTrue hkinds =>
      cases ps with
      | nil => exact .singleton _
      | cons r ps =>
        obtain ⟨hqr, hps⟩ := List.isChain_cons_cons.1 h
        exact .cons_cons (fun _ => hqr hkinds.2) hps
    case isFalse hkinds => exact .cons_cons (fun hp hq => hkinds ⟨hp, hq⟩) h

/-- Stray pieces do not stand side by side once they are taken together. -/
theorem separated_joinStray (ps : List Piece) : Separated (joinStray ps) := by
  induction ps with
  | nil => exact .nil
  | cons p ps ih => exact separated_consJoining p ih

end Joining

end AbilityScript
