import AbilityScript.Proofs.Source.LineBreaks

/-!
# Reading printed words

A printed line is some indentation and then words with single spaces between them, where each word
is a name or a decimal numeral. Such a line is read as these words.

## Main definitions

* `isPrintable`: whether a text is a name or a decimal numeral.
* `Line.lexemes`: the words of a line without their places.

## Main statements

* `lexemes_sourceLines_of_words`: the words of a printed line are read back.
-/

set_option autoImplicit false

namespace AbilityScript

/-- Whether a text is a name. -/
def isName : Text → Bool
  | [] => false
  | c :: cs => isNameStart c && cs.all isNameChar

/-- Whether a text is a decimal numeral. -/
def isDecimal : Text → Bool
  | [] => false
  | c :: cs => c.isDigit && cs.all Char.isDigit

/-- Whether a text is a word as it may be printed. -/
def isPrintable (t : Text) : Bool :=
  isName t || isDecimal t

/-- What a printed word is read as. -/
def Lexeme.ofPrinted (t : Text) : Lexeme where
  kind := if isName t then .name else .integer
  text := t

/-- The piece that a printed word is. -/
def Piece.ofPrinted (t : Text) : Piece where
  kind := if isName t then .name else .integer
  text := t

/-- The piece that a printed word is counts as the word that it is read as. -/
theorem lexeme?_ofPrinted (t : Text) :
    (Piece.ofPrinted t).lexeme? = some (Lexeme.ofPrinted t) := by
  by_cases h : isName t = true <;> simp [Piece.ofPrinted, Piece.lexeme?, Lexeme.ofPrinted, h]

/-- A printed word is no stray piece. -/
theorem kind_ofPrinted (t : Text) : (Piece.ofPrinted t).kind ≠ .stray := by
  by_cases h : isName t = true <;> simp [Piece.ofPrinted, h]

namespace Line

/-- The words of a line, wherever they stand. -/
def lexemes (l : Line) : List Lexeme :=
  l.words.map Spanned.value

/-- A moved line has the same words. -/
@[simp] theorem lexemes_shift (d k : Nat) (l : Line) : (l.shift d k).lexemes = l.lexemes := by
  simp only [lexemes, words_shift, List.map_map]
  rfl

end Line

section Characters

variable {c : Char} {t : Text}

/-- No name begins with a digit. -/
theorem isNameStart_of_isDigit (h : c.isDigit = true) : isNameStart c = false := by
  have hne : c ≠ '_' := by
    rintro rfl
    exact absurd h (by decide)
  have hdigit : c.isDigit = (decide (48 ≤ c.toNat) && decide (c.toNat ≤ 57)) := rfl
  have hupper : c.isUpper = decide (65 ≤ c.toNat ∧ c.toNat ≤ 90) := rfl
  have hlower : c.isLower = (decide (97 ≤ c.toNat) && decide (c.toNat ≤ 122)) := rfl
  have halpha : c.isAlpha = (c.isUpper || c.isLower) := rfl
  rw [hdigit, Bool.and_eq_true, decide_eq_true_eq, decide_eq_true_eq] at h
  simp only [isNameStart, halpha, hupper, hlower, Bool.or_eq_false_iff, Bool.and_eq_false_iff,
    decide_eq_false_iff_not, beq_eq_false_iff_ne]
  refine ⟨⟨?_, ?_⟩, hne⟩ <;> omega

/-- A character that begins a name may also stand within it. -/
theorem isNameChar_of_isNameStart (h : isNameStart c = true) : isNameChar c = true := by
  simp only [isNameStart, Bool.or_eq_true] at h
  simp only [isNameChar, Char.isAlphanum, Bool.or_eq_true]
  obtain h | h := h
  · exact .inl (.inl h)
  · exact .inr h

/-- A name may go on with a digit. -/
theorem isNameChar_of_isDigit (h : c.isDigit = true) : isNameChar c = true := by
  simp [isNameChar, Char.isAlphanum, h]

/-- A printed word contains nothing but letters, digits and underscores. -/
theorem isNameChar_of_mem (ht : isPrintable t = true) (hc : c ∈ t) : isNameChar c = true := by
  cases t with
  | nil => exact absurd hc List.not_mem_nil
  | cons d cs =>
    simp only [isPrintable, isName, isDecimal, Bool.or_eq_true, Bool.and_eq_true,
      List.all_eq_true] at ht
    obtain ⟨hd, hcs⟩ | ⟨hd, hcs⟩ := ht
    · obtain rfl | hc := List.mem_cons.1 hc
      · exact isNameChar_of_isNameStart hd
      · exact hcs c hc
    · obtain rfl | hc := List.mem_cons.1 hc
      · exact isNameChar_of_isDigit hd
      · exact isNameChar_of_isDigit (hcs c hc)

/-- What is printed in a line are letters, digits, underscores and spaces. -/
theorem mem_unwords {ws : List Text} (hws : ∀ w ∈ ws, isPrintable w = true)
    (hc : c ∈ Text.unwords ws) : c = ' ' ∨ isNameChar c = true := by
  match ws with
  | [] => exact absurd hc List.not_mem_nil
  | [w] => exact .inr (isNameChar_of_mem (hws w List.mem_cons_self) hc)
  | w :: v :: ws =>
    simp only [Text.unwords, List.mem_append, List.mem_cons] at hc
    obtain hc | rfl | hc := hc
    · exact .inr (isNameChar_of_mem (hws w List.mem_cons_self) hc)
    · exact .inl rfl
    · exact mem_unwords (fun x hx => hws x (List.mem_cons_of_mem _ hx)) hc

end Characters

section Pieces

/-- A run of characters that all fit, up to where none fits. -/
theorem Piece.run_of_all (kind : PieceKind) (front : Text) {fits : Char → Bool} {cs rest : Text}
    (hcs : cs.all fits = true) (hrest : ∀ b ∈ rest.head?, fits b = false) :
    Piece.run kind front fits (cs ++ rest) = (⟨kind, front ++ cs⟩, rest) := by
  have hcs := List.all_eq_true.1 hcs
  have htake : rest.takeWhile fits = [] := by
    cases rest with
    | nil => rfl
    | cons b u => simp [hrest b rfl]
  have hdrop : rest.dropWhile fits = rest := by
    cases rest with
    | nil => rfl
    | cons b u => simp [hrest b rfl]
  rw [Piece.run, List.takeWhile_append_of_pos hcs, List.dropWhile_append_of_pos hcs, htake, hdrop,
    List.append_nil]

/-- Digits up to a space or the end of the text are one decimal numeral. -/
theorem firstInteger_of_all {c : Char} {cs rest : Text} (hcs : cs.all Char.isDigit = true)
    (hrest : ∀ b ∈ rest.head?, b = ' ') :
    firstInteger c (cs ++ rest) = (⟨.integer, c :: cs⟩, rest) := by
  have hdigit : ∀ b ∈ rest.head?, b.isDigit = false := by
    intro b hb
    rw [hrest b hb]
    rfl
  have hmark : ∀ x u, cs ++ rest = x :: u → isHexMark x = false := by
    intro x u hx
    cases cs with
    | nil =>
      rw [List.nil_append] at hx
      rw [hrest x (by rw [hx]; rfl)]
      rfl
    | cons d ds =>
      obtain ⟨rfl, -⟩ := List.cons.inj hx
      rw [List.all_cons, Bool.and_eq_true] at hcs
      cases hx : isHexMark d with
      | false => rfl
      | true =>
        simp only [isHexMark, Bool.or_eq_true, beq_iff_eq] at hx
        obtain rfl | rfl := hx
        · exact absurd hcs.1 (by decide)
        · exact absurd hcs.1 (by decide)
  have hrun := Piece.run_of_all .integer [c] hcs hdigit
  cases hsplit : cs ++ rest with
  | nil =>
    obtain ⟨rfl, rfl⟩ := List.append_eq_nil_iff.1 hsplit
    rfl
  | cons x u =>
    rw [hsplit] at hrun
    simp only [firstInteger, hmark x u hsplit, Bool.and_false, Bool.false_and, Bool.false_eq_true,
      if_false]
    exact hrun

/-- A printed word is one piece where a space or nothing follows it. -/
theorem pieces_append_of_isPrintable {w rest : Text} (hw : isPrintable w = true)
    (hrest : ∀ b ∈ rest.head?, b = ' ') :
    pieces (w ++ rest) = Piece.ofPrinted w :: pieces rest := by
  cases w with
  | nil => exact absurd hw (by decide)
  | cons c cs =>
    have hfirst : firstPiece c (cs ++ rest) = (Piece.ofPrinted (c :: cs), rest) := by
      by_cases hname : isName (c :: cs) = true
      · have hchars := hname
        simp only [isName, Bool.and_eq_true] at hchars
        have hspace : ∀ b ∈ rest.head?, isNameChar b = false := by
          intro b hb
          rw [hrest b hb]
          rfl
        simp only [firstPiece, hchars.1, if_true, Piece.ofPrinted, hname]
        exact Piece.run_of_all .name [c] hchars.2 hspace
      · simp only [isPrintable, hname, Bool.false_or, isDecimal, Bool.and_eq_true] at hw
        simp only [firstPiece, isNameStart_of_isDigit hw.1, hw.1, if_true, Bool.false_eq_true,
          if_false, Piece.ofPrinted, hname]
        exact firstInteger_of_all hw.2 hrest
    rw [List.cons_append, pieces, hfirst]

/-- Spaces in front of something else are one piece. -/
theorem pieces_replicate_append (n : Nat) {rest : Text}
    (hrest : ∀ b ∈ rest.head?, isBlank b = false) :
    pieces (List.replicate (n + 1) ' ' ++ rest) =
      ⟨.blank, List.replicate (n + 1) ' '⟩ :: pieces rest := by
  have hall : (List.replicate n ' ').all isBlank = true := by
    rw [List.all_eq_true]
    intro c hc
    rw [List.eq_of_mem_replicate hc]
    rfl
  have hfirst : firstPiece ' ' (List.replicate n ' ' ++ rest) =
      (⟨.blank, List.replicate (n + 1) ' '⟩, rest) :=
    Piece.run_of_all .blank [' '] hall hrest
  rw [List.replicate_succ, List.cons_append, pieces, hfirst, List.replicate_succ]

end Pieces

/-- Pieces without stray characters have nothing to take together. -/
theorem joinStray_eq_self {ps : List Piece} (h : ∀ p ∈ ps, p.kind ≠ .stray) : joinStray ps = ps := by
  induction ps with
  | nil => rfl
  | cons p ps ih =>
    rw [joinStray_cons, ih fun q hq => h q (List.mem_cons_of_mem _ hq),
      consJoining_of_ne (h p List.mem_cons_self)]

/-- The words of pieces, wherever they stand. -/
theorem values_numberedWords (offset number : Nat) (ps : List Piece) :
    (numberedWords offset number ps).map (fun w => w.2.value) = ps.filterMap Piece.lexeme? := by
  induction ps generalizing offset number with
  | nil => rfl
  | cons p ps ih =>
    simp only [numberedWords, List.map_append, ih, List.filterMap_cons]
    cases p.lexeme? <;> rfl

/-- Words with the same number make one line. -/
theorem groupLines_of_forall {n : Nat} {w : Nat × Word} {ws : List (Nat × Word)}
    (h : ∀ v ∈ w :: ws, v.1 = n) : groupLines (w :: ws) = [⟨n, w.2, ws.map Prod.snd⟩] := by
  induction ws generalizing w with
  | nil =>
    have hw := h w List.mem_cons_self
    simp [groupLines, consWord, hw]
  | cons v vs ih =>
    have hw := h w List.mem_cons_self
    rw [groupLines_cons, ih fun x hx => h x (List.mem_cons_of_mem _ hx)]
    simp [consWord, hw, Line.words]

/-- A text without line feeds has one line, unless it holds no words. -/
theorem lexemes_sourceLines_of_not_mem {t : Text} (ht : '\n' ∉ t) :
    (sourceLines t).map Line.lexemes =
      match (joinStray (pieces t)).filterMap Piece.lexeme? with
      | [] => []
      | l :: ls => [l :: ls] := by
  have hbreaks : breaks (joinStray (pieces t)) = 0 := by
    rw [breaks_joinStray, breaks_pieces, List.count_eq_zero.2 ht]
  have hone : ∀ w ∈ numberedWords 0 1 (joinStray (pieces t)), w.1 = 1 := by
    intro w hw
    have hbounds := mem_numberedWords hw
    omega
  rw [← values_numberedWords 0 1, sourceLines]
  cases hws : numberedWords 0 1 (joinStray (pieces t)) with
  | nil => rfl
  | cons w ws =>
    rw [hws] at hone
    rw [groupLines_of_forall hone]
    simp [Line.lexemes, Line.words, Function.comp_def]

/-- A text without stray characters that holds these words. -/
structure HoldsWords (t : Text) (ls : List Lexeme) : Prop where
  kind_ne : ∀ p ∈ pieces t, p.kind ≠ .stray
  lexemes_eq : (pieces t).filterMap Piece.lexeme? = ls

namespace HoldsWords

variable {t w : Text} {ls : List Lexeme}

/-- The empty text holds no words. -/
theorem nil : HoldsWords [] [] :=
  ⟨by simp [pieces], by simp [pieces]⟩

/-- A printed word in front of a space or of the end adds itself to the words. -/
theorem word (hw : isPrintable w = true) (ht : ∀ b ∈ t.head?, b = ' ') (h : HoldsWords t ls) :
    HoldsWords (w ++ t) (Lexeme.ofPrinted w :: ls) := by
  constructor
  · rw [pieces_append_of_isPrintable hw ht]
    intro p hp
    obtain rfl | hp := List.mem_cons.1 hp
    · exact kind_ofPrinted w
    · exact h.kind_ne p hp
  · rw [pieces_append_of_isPrintable hw ht, List.filterMap_cons, lexeme?_ofPrinted, h.lexemes_eq]

/-- Spaces in front of what is no blank add no words. -/
theorem spaces (n : Nat) (ht : ∀ b ∈ t.head?, isBlank b = false) (h : HoldsWords t ls) :
    HoldsWords (List.replicate n ' ' ++ t) ls := by
  cases n with
  | zero => exact h
  | succ n =>
    constructor
    · rw [pieces_replicate_append n ht]
      intro p hp
      obtain rfl | hp := List.mem_cons.1 hp
      · show PieceKind.blank ≠ .stray
        decide
      · exact h.kind_ne p hp
    · rw [pieces_replicate_append n ht, List.filterMap_cons]
      exact h.lexemes_eq

end HoldsWords

/-- A text that begins with a printed word does not begin with a blank. -/
theorem isBlank_head?_of_isPrintable {w t : Text} (hw : isPrintable w = true) :
    ∀ b ∈ (w ++ t).head?, isBlank b = false := by
  intro b hb
  cases w with
  | nil => exact absurd hw (by decide)
  | cons c cs =>
    obtain rfl := Option.some.inj hb
    have hc := isNameChar_of_mem hw List.mem_cons_self
    cases hblank : isBlank c with
    | false => rfl
    | true =>
      simp only [isBlank, Bool.or_eq_true, beq_iff_eq] at hblank
      obtain (rfl | rfl) | rfl := hblank <;> exact absurd hc (by decide)

/-- Words with single spaces between them. -/
theorem holdsWords_unwords {ws : List Text} (hws : ∀ w ∈ ws, isPrintable w = true) :
    HoldsWords (Text.unwords ws) (ws.map Lexeme.ofPrinted) ∧
      ∀ b ∈ (Text.unwords ws).head?, isBlank b = false := by
  match ws with
  | [] => exact ⟨HoldsWords.nil, by simp [Text.unwords]⟩
  | [w] =>
    have hw := hws w List.mem_cons_self
    have hword := HoldsWords.word hw (by simp) HoldsWords.nil
    have hhead := isBlank_head?_of_isPrintable (t := []) hw
    rw [List.append_nil] at hword hhead
    exact ⟨hword, hhead⟩
  | w :: v :: ws =>
    have hw := hws w List.mem_cons_self
    obtain ⟨htail, hhead⟩ := holdsWords_unwords fun x hx => hws x (List.mem_cons_of_mem _ hx)
    exact ⟨.word hw (by simp) (htail.spaces 1 hhead), isBlank_head?_of_isPrintable hw⟩

/-- A printed line is read as the words that are printed. -/
theorem lexemes_sourceLines_of_words (n : Nat) {ws : List Text} (hne : ws ≠ [])
    (hws : ∀ w ∈ ws, isPrintable w = true) :
    (sourceLines (List.replicate n ' ' ++ Text.unwords ws)).map Line.lexemes =
      [ws.map Lexeme.ofPrinted] := by
  obtain ⟨hholds, hhead⟩ := holdsWords_unwords hws
  have hline := hholds.spaces n hhead
  have hfeed : '\n' ∉ List.replicate n ' ' ++ Text.unwords ws := by
    intro hmem
    obtain hmem | hmem := List.mem_append.1 hmem
    · exact absurd (List.eq_of_mem_replicate hmem) (by decide)
    · exact absurd (mem_unwords hws hmem) (by decide)
  rw [lexemes_sourceLines_of_not_mem hfeed, joinStray_eq_self hline.kind_ne, hline.lexemes_eq]
  cases ws with
  | nil => exact absurd rfl hne
  | cons w ws => rfl

end AbilityScript
