import AbilityScript.Proofs.Source.Tiling

/-!
# The one way to cut a text

What a piece may not be followed by depends on its kind: a name by no character that it could go on
with, a zero by no mark with a hexadecimal digit, a carriage return that fits nowhere by no line feed.
If pieces have the shapes of their kinds and none is followed by what it may not be followed by, there
is no other way to cut their text. So pieces of which we only know that are the pieces of their text,
and any of them in a row can be looked at by themselves.

## Main definitions

* `Piece.EndsBefore`: what may follow a piece.
* `IsCut`: pieces none of which could be cut otherwise.

## Main statements

* `isCut_joinStray_pieces`: the pieces of a text are such.
* `IsCut.joinStray_pieces_eq`: and no others are.
* `exists_meeting`: where two texts meet, two pieces meet or one goes across.
-/

set_option autoImplicit false

namespace AbilityScript

/-- Whether a text begins with a mark and a hexadecimal digit. -/
def beginsMarked : Text → Bool
  | [] => false
  | x :: rest => isHexMark x && beginsHex rest

/-- Whether a piece ends where a text follows it. -/
def Piece.EndsBefore (p : Piece) (rest : Text) : Prop :=
  match p.kind with
  | .name => ∀ c ∈ rest.head?, isNameChar c = false
  | .integer =>
    (∀ c ∈ rest.head?, (if isHexadecimal p.text then isHexDigit c else c.isDigit) = false) ∧
      (p.text = ['0'] → beginsMarked rest = false)
  | .lineBreak => True
  | .blank => ∀ c ∈ rest.head?, isBlank c = false
  | .comment => ∀ c ∈ rest.head?, isCommentChar c = false
  | .stray => ¬(p.text.getLast? = some '\r' ∧ rest.head? = some '\n')

/-- Pieces each of which ends where the others follow it. -/
def EndInTurn : List Piece → Prop
  | [] => True
  | p :: ps => p.EndsBefore (spelled ps) ∧ EndInTurn ps

/-- Pieces that are what their text falls apart into. -/
structure IsCut (ps : List Piece) : Prop where
  hasShape : ∀ p ∈ ps, p.HasShape
  ends : EndInTurn ps
  separated : Separated ps

section FirstPiece

variable {c : Char} {cs rest : Text} {p : Piece}

/-- No digit marks the digits behind it as hexadecimal. -/
theorem isHexMark_of_isDigit (h : c.isDigit = true) : isHexMark c = false := by
  cases hmark : isHexMark c with
  | false => rfl
  | true =>
    simp only [isHexMark, Bool.or_eq_true, beq_iff_eq] at hmark
    obtain rfl | rfl := hmark <;> exact absurd h (by decide)

/-- A decimal numeral is not a hexadecimal one. -/
theorem isHexadecimal_of_isDecimal {t : Text} (h : isDecimal t = true) : isHexadecimal t = false := by
  cases hhex : isHexadecimal t with
  | false => rfl
  | true =>
    obtain ⟨x, d, ds, rfl, hx, -, -⟩ := isHexadecimal_iff.1 hhex
    simp only [isDecimal, List.all_cons, Bool.and_eq_true] at h
    have hmark := isHexMark_of_isDigit h.2.1
    obtain rfl | rfl := hx <;> exact absurd hmark (by decide)

/-- A decimal numeral goes on to the last digit, unless it is a zero in front of a mark. -/
theorem firstInteger_of_isDecimal (hc : isDecimal (c :: cs) = true)
    (hdigit : ∀ b ∈ rest.head?, b.isDigit = false)
    (hmark : c :: cs = ['0'] → beginsMarked rest = false) :
    firstInteger c (cs ++ rest) = (⟨.integer, c :: cs⟩, rest) := by
  simp only [isDecimal, Bool.and_eq_true] at hc
  have hrun := Piece.run_of_all .integer [c] hc.2 hdigit
  cases hsplit : cs ++ rest with
  | nil =>
    obtain ⟨rfl, rfl⟩ := List.append_eq_nil_iff.1 hsplit
    rfl
  | cons x u =>
    rw [hsplit] at hrun
    have hplain : (c == '0' && isHexMark x && beginsHex u) = false := by
      cases cs with
      | nil =>
        obtain rfl : rest = x :: u := hsplit
        by_cases hzero : c = '0'
        · subst hzero
          exact hmark rfl
        · simp [hzero]
      | cons d ds =>
        obtain ⟨rfl, -⟩ := List.cons.inj hsplit
        rw [List.all_cons, Bool.and_eq_true] at hc
        simp [isHexMark_of_isDigit hc.2.1]
    rw [firstInteger, hplain]
    exact hrun

/-- A hexadecimal numeral goes on to the last digit. -/
theorem firstInteger_of_isHexadecimal (hc : isHexadecimal (c :: cs) = true)
    (hdigit : ∀ b ∈ rest.head?, isHexDigit b = false) :
    firstInteger c (cs ++ rest) = (⟨.integer, c :: cs⟩, rest) := by
  obtain ⟨x, d, ds, htext, hx, hd, hds⟩ := isHexadecimal_iff.1 hc
  obtain ⟨rfl, rfl⟩ := List.cons.inj htext
  have hmark : isHexMark x = true := by
    obtain rfl | rfl := hx <;> rfl
  have hall : (d :: ds).all isHexDigit = true := by
    rw [List.all_cons, hd, hds]
    rfl
  have hhex : ('0' == '0' && isHexMark x && beginsHex (d :: ds ++ rest)) = true := by
    simp [hmark, beginsHex, hd]
  rw [List.cons_append, firstInteger, if_pos hhex]
  exact Piece.run_of_all .integer ['0', x] hall hdigit

/-- A text that begins with a digit begins with a numeral. -/
theorem firstPiece_of_isDigit (h : c.isDigit = true) : firstPiece c rest = firstInteger c rest := by
  unfold firstPiece
  rw [isNameStart_of_isDigit h, h]
  rfl

/-- A text that begins with a blank begins with all blanks there. -/
theorem firstPiece_of_isBlank (h : isBlank c = true) :
    firstPiece c rest = Piece.run .blank [c] isBlank rest := by
  simp only [isBlank, Bool.or_eq_true, beq_iff_eq] at h
  obtain (rfl | rfl) | rfl := h <;> rfl

/-- A stray character is a piece by itself, unless it is a carriage return in front of a line feed. -/
theorem firstPiece_of_isStrayChar (h : isStrayChar c = true)
    (hrest : ¬(c = '\r' ∧ rest.head? = some '\n')) : firstPiece c rest = (⟨.stray, [c]⟩, rest) := by
  simp only [isStrayChar, Bool.not_eq_true', Bool.or_eq_false_iff] at h
  obtain ⟨⟨⟨⟨hname, hdigit⟩, hblank⟩, hcomment⟩, hfeed⟩ := h
  unfold firstPiece
  rw [hname, hdigit, hblank, hcomment, hfeed]
  simp only [Bool.false_eq_true, if_false]
  split
  · exact absurd ⟨rfl, rfl⟩ hrest
  · rfl

/-- A piece that looks like its kind and ends where the rest of a text follows it is the first piece of
that text. -/
theorem firstPiece_of_endsBefore (hshape : p.HasShape) (hends : p.EndsBefore rest)
    (htext : p.text = c :: cs) (hstray : p.kind = .stray → cs = []) :
    firstPiece c (cs ++ rest) = (p, rest) := by
  obtain ⟨kind, text⟩ := p
  obtain rfl : text = c :: cs := htext
  cases kind with
  | name =>
    have hname : (isNameStart c && cs.all isNameChar) = true := hshape
    obtain ⟨hc, hcs⟩ := Bool.and_eq_true_iff.1 hname
    unfold firstPiece
    rw [if_pos hc]
    exact Piece.run_of_all .name [c] hcs hends
  | integer =>
    have hinteger : isInteger (c :: cs) = true := hshape
    rw [firstPiece_of_isDigit (isDigit_of_isInteger hinteger)]
    obtain ⟨hdigit, hmark⟩ : (∀ b ∈ rest.head?,
        (if isHexadecimal (c :: cs) then isHexDigit b else b.isDigit) = false) ∧
        (c :: cs = ['0'] → beginsMarked rest = false) := hends
    rw [isInteger, Bool.or_eq_true] at hinteger
    obtain hdecimal | hhex := hinteger
    · rw [isHexadecimal_of_isDecimal hdecimal] at hdigit
      exact firstInteger_of_isDecimal hdecimal hdigit hmark
    · rw [hhex] at hdigit
      exact firstInteger_of_isHexadecimal hhex hdigit
  | lineBreak =>
    obtain h | h : c :: cs = ['\n'] ∨ c :: cs = ['\r', '\n'] := hshape
    · obtain ⟨rfl, rfl⟩ := List.cons.inj h
      rfl
    · obtain ⟨rfl, rfl⟩ := List.cons.inj h
      rfl
  | blank =>
    have hall : (c :: cs).all isBlank = true := hshape.2
    rw [List.all_cons, Bool.and_eq_true] at hall
    rw [firstPiece_of_isBlank hall.1]
    exact Piece.run_of_all .blank [c] hall.2 hends
  | comment =>
    obtain ⟨ds, h, hds⟩ : ∃ ds, c :: cs = ';' :: ds ∧ ds.all isCommentChar = true := hshape
    obtain ⟨rfl, rfl⟩ := List.cons.inj h
    exact Piece.run_of_all .comment [';'] hds hends
  | stray =>
    obtain rfl := hstray rfl
    have hc : isStrayChar c = true := by simpa using hshape.2
    have hbreak : ¬([c].getLast? = some '\r' ∧ rest.head? = some '\n') := hends
    exact firstPiece_of_isStrayChar hc (by simpa using hbreak)

/-- The numeral at the beginning of a text ends where the rest follows it. -/
theorem endsBefore_firstInteger (hc : c.isDigit = true) (rest : Text) :
    (firstInteger c rest).1.EndsBefore (firstInteger c rest).2 := by
  have hdecimal (u : Text) : isHexadecimal (c :: u.takeWhile Char.isDigit) = false := by
    apply isHexadecimal_of_isDecimal
    rw [isDecimal, hc, List.all_takeWhile]
    rfl
  cases rest with
  | nil => exact ⟨by simp [firstInteger], fun _ => rfl⟩
  | cons x rest =>
    rw [firstInteger]
    split
    case isTrue hhex =>
      have hshape : isHexadecimal (c :: x :: rest.takeWhile isHexDigit) = true := by
        cases rest with
        | nil => simp [beginsHex] at hhex
        | cons d rest =>
          simp only [beginsHex, Bool.and_eq_true] at hhex
          rw [List.takeWhile_cons_of_pos hhex.2, isHexadecimal, hhex.1.1, hhex.1.2, hhex.2,
            List.all_takeWhile]
          rfl
      refine ⟨fun b hb => ?_, fun h => ?_⟩
      · show (if isHexadecimal (c :: x :: rest.takeWhile isHexDigit) then _ else _) = false
        rw [hshape]
        exact fits_head?_run .integer [c, x] isHexDigit rest b hb
      · cases (List.cons.inj h).2
    case isFalse hplain =>
      refine ⟨fun b hb => ?_, fun h => ?_⟩
      · show (if isHexadecimal (c :: (x :: rest).takeWhile Char.isDigit) then _ else _) = false
        rw [hdecimal]
        exact fits_head?_run .integer [c] Char.isDigit (x :: rest) b hb
      · obtain ⟨hzero, htake⟩ : c = '0' ∧ (x :: rest).takeWhile Char.isDigit = [] := List.cons.inj h
        have hdrop : (x :: rest).dropWhile Char.isDigit = x :: rest := by
          have hsplit := List.takeWhile_append_dropWhile (p := Char.isDigit) (l := x :: rest)
          rwa [htake, List.nil_append] at hsplit
        show beginsMarked ((x :: rest).dropWhile Char.isDigit) = false
        rw [hdrop]
        simpa [hzero, beginsMarked] using hplain

/-- The first piece of a text ends where the rest of the text follows it. -/
theorem endsBefore_firstPiece (c : Char) (rest : Text) :
    (firstPiece c rest).1.EndsBefore (firstPiece c rest).2 := by
  unfold firstPiece
  split
  · exact fits_head?_run .name [c] isNameChar rest
  split
  case isTrue hdigit => exact endsBefore_firstInteger hdigit rest
  split
  · exact fits_head?_run .blank [c] isBlank rest
  split
  · exact fits_head?_run .comment [c] isCommentChar rest
  split
  · trivial
  split
  · trivial
  case h_2 hbreak =>
    rintro ⟨hlast, hhead⟩
    obtain ⟨rest', rfl⟩ : ∃ rest', rest = '\n' :: rest' := List.head?_eq_some_iff.1 hhead
    obtain rfl : c = '\r' := by simpa using hlast
    exact hbreak rest' rfl rfl

end FirstPiece

section Parts

variable {p : Piece} {a b : Text}

/-- The front of a text that does not begin with a mark and a digit does not do so either. -/
theorem beginsMarked_of_append (h : beginsMarked (a ++ b) = false) : beginsMarked a = false := by
  match a with
  | [] => rfl
  | [x] => exact Bool.and_false _
  | x :: d :: a => exact h

/-- What the first character of a text does not fit, that of its front does not fit either. -/
theorem head?_of_append {fits : Char → Bool} (h : ∀ c ∈ (a ++ b).head?, fits c = false) :
    ∀ c ∈ a.head?, fits c = false := by
  intro c hc
  apply h
  rw [List.head?_append, Option.mem_def.1 hc]
  rfl

/-- A piece that ends in front of a text ends in front of any beginning of it. -/
theorem Piece.EndsBefore.of_append (h : p.EndsBefore (a ++ b)) : p.EndsBefore a := by
  unfold EndsBefore at h ⊢
  split at h
  · exact head?_of_append h
  · exact ⟨head?_of_append h.1, fun hzero => beginsMarked_of_append (h.2 hzero)⟩
  · trivial
  · exact head?_of_append h
  · exact head?_of_append h
  · rintro ⟨hlast, hhead⟩
    apply h
    rw [List.head?_append, hhead]
    exact ⟨hlast, rfl⟩

/-- At the end of the text every piece ends. -/
theorem Piece.EndsBefore.nil (p : Piece) : p.EndsBefore [] := by
  unfold EndsBefore
  split <;> simp [beginsMarked]

end Parts

section Turns

variable {p : Piece} {ps front back back' : List Piece}

/-- Pieces each of which ends in its turn do so without those in front of them. -/
theorem EndInTurn.of_append (h : EndInTurn (front ++ back)) : EndInTurn back := by
  induction front with
  | nil => exact h
  | cons p front ih => exact ih h.2

/-- The last pieces may be replaced by others if these begin the text of the former. -/
theorem EndInTurn.replace (h : EndInTurn (front ++ back)) (hback : EndInTurn back') {rest : Text}
    (htext : spelled back = spelled back' ++ rest) : EndInTurn (front ++ back') := by
  induction front with
  | nil => exact hback
  | cons p front ih =>
    refine ⟨Piece.EndsBefore.of_append (b := rest) ?_, ih h.2⟩
    have hp : p.EndsBefore (spelled (front ++ back)) := h.1
    rwa [spelled_append, htext, ← List.append_assoc, ← spelled_append] at hp

/-- Each piece of a text ends where the rest of the text follows it. -/
theorem endInTurn_pieces (t : Text) : EndInTurn (pieces t) := by
  induction t using pieces.induct with
  | case1 =>
    rw [pieces]
    trivial
  | case2 c rest ih =>
    rw [pieces]
    refine ⟨?_, ih⟩
    rw [spelled_pieces]
    exact endsBefore_firstPiece c rest

/-- A piece that is put in front, together with stray characters behind it, ends where the others follow
it. -/
theorem endInTurn_consJoining (h : EndInTurn (p :: ps)) (hps : ∀ q ∈ ps, q.text ≠ []) :
    EndInTurn (p.consJoining ps) := by
  cases ps with
  | nil => exact h
  | cons q ps =>
    rw [Piece.consJoining]
    split
    case isTrue hkinds =>
      obtain ⟨-, hq, hrest⟩ := h
      rw [Piece.EndsBefore, hkinds.2] at hq
      refine ⟨?_, hrest⟩
      rintro ⟨hlast, hhead⟩
      rw [List.getLast?_append_of_ne_nil _ (hps q List.mem_cons_self)] at hlast
      exact hq ⟨hlast, hhead⟩
    case isFalse => exact h

/-- Taking stray characters together leaves each piece ending where the others follow it. -/
theorem endInTurn_joinStray (h : EndInTurn ps) (hcut : WellCut ps) : EndInTurn (joinStray ps) := by
  induction ps with
  | nil => trivial
  | cons p ps ih =>
    rw [joinStray_cons]
    apply endInTurn_consJoining
    · exact ⟨by rw [spelled_joinStray]; exact h.1, ih h.2 hcut.2.2⟩
    · exact fun q hq => ((wellCut_joinStray hcut.2.2).hasShape q hq).text_ne_nil

end Turns

/-- What a text falls apart into could not be cut otherwise. -/
theorem isCut_joinStray_pieces (t : Text) : IsCut (joinStray (pieces t)) where
  hasShape := (wellCut_joinStray_pieces t).hasShape
  ends := endInTurn_joinStray (endInTurn_pieces t) (wellCut_pieces t)
  separated := separated_joinStray (pieces t)

section Uniqueness

variable {p : Piece} {ps front back : List Piece}

/-- Stray characters side by side become one piece, if what comes behind them is no part of it. -/
theorem joinStray_pieces_of_stray {run rest : Text} (hne : run ≠ [])
    (hrun : run.all isStrayChar = true)
    (hbreak : ¬(run.getLast? = some '\r' ∧ rest.head? = some '\n'))
    (hrest : ∀ q ∈ (joinStray (pieces rest)).head?, q.kind ≠ .stray) :
    joinStray (pieces (run ++ rest)) = ⟨.stray, run⟩ :: joinStray (pieces rest) := by
  induction run with
  | nil => exact absurd rfl hne
  | cons c run ih =>
    rw [List.all_cons, Bool.and_eq_true] at hrun
    rw [List.cons_append, pieces]
    cases run with
    | nil =>
      rw [List.nil_append, firstPiece_of_isStrayChar hrun.1 (by simpa using hbreak), joinStray_cons]
      cases hlater : joinStray (pieces rest) with
      | nil => rfl
      | cons q qs =>
        rw [hlater] at hrest
        exact if_neg fun hkinds => hrest q rfl hkinds.2
    | cons d run =>
      have hfeed : ¬(c = '\r' ∧ (d :: run ++ rest).head? = some '\n') := by
        rintro ⟨-, hd⟩
        obtain rfl : d = '\n' := Option.some.inj hd
        simp [isStrayChar] at hrun
      rw [firstPiece_of_isStrayChar hrun.1 hfeed, joinStray_cons,
        ih (List.cons_ne_nil _ _) hrun.2 (by rwa [List.getLast?_cons_cons] at hbreak)]
      rw [Piece.consJoining, if_pos ⟨rfl, rfl⟩]
      rfl

/-- Pieces that could not be cut otherwise are what their text falls apart into. -/
theorem IsCut.joinStray_pieces_eq (h : IsCut ps) : joinStray (pieces (spelled ps)) = ps := by
  obtain ⟨hshape, hends, hseparated⟩ := h
  induction ps with
  | nil =>
    rw [spelled, List.flatMap_nil, pieces]
    rfl
  | cons p ps ih =>
    obtain ⟨hhead, htail⟩ := List.isChain_cons.1 hseparated
    have hlater := ih (fun q hq => hshape q (List.mem_cons_of_mem _ hq)) hends.2 htail
    have hp := hshape p List.mem_cons_self
    obtain ⟨c, cs, htext⟩ := List.exists_cons_of_ne_nil hp.text_ne_nil
    rw [spelled_cons]
    by_cases hstray : p.kind = .stray
    · obtain ⟨kind, text⟩ := p
      obtain rfl : kind = .stray := hstray
      rw [joinStray_pieces_of_stray hp.1 hp.2 hends.1 (by rw [hlater]; exact fun q hq => hhead q hq rfl),
        hlater]
    · rw [htext, List.cons_append, pieces,
        firstPiece_of_endsBefore hp hends.1 htext (fun h => absurd h hstray), joinStray_cons, hlater,
        consJoining_of_ne hstray]

/-- What a text falls apart into is, from any piece on, what the rest falls apart into. -/
theorem IsCut.right_of_append (h : IsCut (front ++ back)) : IsCut back where
  hasShape p hp := h.hasShape p (List.mem_append_right _ hp)
  ends := h.ends.of_append
  separated := h.separated.right_of_append

/-- What a text falls apart into is, without the first piece, what the rest falls apart into. -/
theorem IsCut.tail (h : IsCut (p :: ps)) : IsCut ps :=
  IsCut.right_of_append (show IsCut ([p] ++ ps) from h)

/-- What a text falls apart into is, up to any piece, what the front falls apart into. -/
theorem IsCut.left_of_append (h : IsCut (front ++ back)) : IsCut front where
  hasShape p hp := h.hasShape p (List.mem_append_left _ hp)
  ends := by
    have hends : EndInTurn (front ++ []) := h.ends.replace trivial rfl
    rwa [List.append_nil] at hends
  separated := h.separated.left_of_append

/-- Whether stray pieces stand in a row is a matter of the kinds alone. -/
theorem separated_iff_isChain_map :
    Separated ps ↔ (ps.map Piece.kind).IsChain fun k l => k = .stray → l ≠ .stray := by
  rw [List.isChain_map]
  rfl

variable {q : Piece}

/-- A piece may be cut off in the middle, with everything behind it. -/
theorem IsCut.shorten_last (h : IsCut (front ++ p :: back)) (hq : q.HasShape) (hkind : q.kind = p.kind)
    {rest : Text} (htext : p.text = q.text ++ rest) : IsCut (front ++ [q]) where
  hasShape r hr := by
    obtain hr | hr := List.mem_append.1 hr
    · exact h.hasShape r (List.mem_append_left _ hr)
    · rwa [List.mem_singleton.1 hr]
  ends := by
    have htail : spelled (p :: back) = spelled [q] ++ (rest ++ spelled back) := by
      rw [spelled_cons, spelled_cons, htext, List.append_assoc, List.append_assoc]
      rfl
    exact h.ends.replace ⟨.nil q, trivial⟩ htail
  separated := by
    have hkinds := separated_iff_isChain_map.1 h.separated
    rw [List.map_append, List.map_cons, ← hkind, List.append_cons] at hkinds
    rw [separated_iff_isChain_map, List.map_append]
    exact hkinds.left_of_append

/-- The first piece may be replaced by another one of its kind that ends there. -/
theorem IsCut.replace_head (h : IsCut (p :: back)) (hq : q.HasShape) (hkind : q.kind = p.kind)
    (hends : q.EndsBefore (spelled back)) : IsCut (q :: back) where
  hasShape r hr := by
    obtain rfl | hr := List.mem_cons.1 hr
    · exact hq
    · exact h.hasShape r (List.mem_cons_of_mem _ hr)
  ends := ⟨hends, h.ends.2⟩
  separated := by
    have hkinds := separated_iff_isChain_map.1 h.separated
    rw [List.map_cons, ← hkind] at hkinds
    exact separated_iff_isChain_map.2 hkinds

end Uniqueness

/-- Where two texts meet in pieces, one piece ends and another begins, or the texts share one. -/
theorem exists_meeting {ps : List Piece} {a b : Text} (h : spelled ps = a ++ b) :
    (∃ front back, ps = front ++ back ∧ spelled front = a ∧ spelled back = b) ∨
      ∃ front p back x y, ps = front ++ p :: back ∧ p.text = x ++ y ∧ x ≠ [] ∧ y ≠ [] ∧
        spelled front ++ x = a ∧ y ++ spelled back = b := by
  induction ps generalizing a with
  | nil =>
    obtain ⟨rfl, rfl⟩ := List.append_eq_nil_iff.1 h.symm
    exact .inl ⟨[], [], rfl, rfl, rfl⟩
  | cons p ps ih =>
    rw [spelled_cons] at h
    obtain ⟨a', rfl, hrest⟩ | ⟨y, hp, rfl⟩ := List.append_eq_append_iff.1 h
    · obtain ⟨front, back, rfl, rfl, rfl⟩ | ⟨front, q, back, x, y, rfl, hq, hx, hy, rfl, rfl⟩ := ih hrest
      · exact .inl ⟨p :: front, back, rfl, rfl, rfl⟩
      · exact .inr ⟨p :: front, q, back, x, y, rfl, hq, hx, hy, List.append_assoc .., rfl⟩
    · by_cases hx : a = []
      · subst hx
        exact .inl ⟨[], p :: ps, rfl, rfl, by rw [spelled_cons, hp]; rfl⟩
      by_cases hy : y = []
      · subst hy
        exact .inl ⟨[p], ps, rfl, by simp [spelled, hp], rfl⟩
      exact .inr ⟨[], p, ps, a, y, rfl, hp, hx, hy, rfl, rfl⟩

end AbilityScript
