import AbilityScript.Proofs.Source.Tiling

/-!
# Reading the lines of a text in one pass

Pieces can be read one after another, with the words of the line that is read kept until a line break.
A stray piece is taken together with the word before it, if that is stray and they touch. Every range
that is made on the way has its bounds checked, and no check ever fails: the pass comes to the lines
that `sourceLines` puts together afterwards.

Two stray pieces in a row can be taken together before they are read. After that no two pieces in a
row are stray, so that nothing is left to take together.

## Main definitions

* `Span.merge?`: the least range that covers two, with its bounds checked.
* `LineScan`, `LineScan.step?`, `LineScan.run?`: what is known while pieces are read.
* `scanLines?`: the lines that one pass over a text finds, if no check fails.

## Main statements

* `LineScan.run?_joinStray`: stray pieces may be taken together before they are read.
* `LineScan.lines_run?`: what a run adds to the lines.
* `scanLines?_eq`: one pass finds the lines of a text.
-/

set_option autoImplicit false

namespace AbilityScript

/-- The least range that covers both, with its bounds checked. -/
def Span.merge? (a b : Span) : Option Span :=
  ofBounds? (min a.start b.start) (max a.stop b.stop)

/-- What is known while pieces are read one after another. -/
structure LineScan where
  /-- The lines that are read, as far as they hold words. -/
  finished : List Line
  /-- The number of the line that is being read. -/
  number : Nat
  /-- The words of that line. -/
  words : List Word
deriving DecidableEq, Repr

/-- The words of a line after stray characters are read. They go together with the word before them
if that one is stray and ends where they begin. -/
def addStray? (ws : List Word) (text : Text) (span : Span) : Option (List Word) :=
  match ws.getLast? with
  | some v =>
    if v.value.kind = .stray ∧ v.span.stop = span.start then do
      let merged ← v.span.merge? span
      return ws.dropLast ++ [⟨⟨.stray, v.value.text ++ text⟩, merged⟩]
    else some (ws ++ [⟨⟨.stray, text⟩, span⟩])
  | none => some (ws ++ [⟨⟨.stray, text⟩, span⟩])

namespace LineScan

/-- Before anything is read. -/
def initial : LineScan :=
  ⟨[], 1, []⟩

/-- The lines up to here. A line without words does not count. -/
def lines (s : LineScan) : List Line :=
  match s.words with
  | [] => s.finished
  | w :: ws => s.finished ++ [⟨s.number, w, ws⟩]

/-- Finishes the line that is being read. -/
def nextLine (s : LineScan) : LineScan :=
  ⟨s.lines, s.number + 1, []⟩

/-- Takes a word into the line that is being read. -/
def push (s : LineScan) (w : Word) : LineScan :=
  { s with words := s.words ++ [w] }

/-- Reads a piece that begins at an offset. -/
def step? (s : LineScan) (offset : Nat) (p : Piece) : Option LineScan := do
  let span ← Span.ofBounds? offset (offset + Text.width p.text)
  match p.kind with
  | .lineBreak => return s.nextLine
  | .blank | .comment => return s
  | .name => return s.push ⟨⟨.name, p.text⟩, span⟩
  | .integer => return s.push ⟨⟨.integer, p.text⟩, span⟩
  | .stray => (addStray? s.words p.text span).map fun ws => { s with words := ws }

/-- Reads pieces of which the first one begins at an offset. -/
def run? (s : LineScan) (offset : Nat) : List Piece → Option LineScan
  | [] => some s
  | p :: ps => (s.step? offset p).bind fun s => run? s (offset + Text.width p.text) ps

end LineScan

/-- The lines that one pass over the pieces of a text finds, unless some range runs backwards. -/
def scanLines? (t : Text) : Option (List Line) :=
  (LineScan.initial.run? 0 (pieces t)).map LineScan.lines

/-- Bounds in order make a range. -/
theorem Span.ofBounds?_of_le {start stop : Nat} (h : start ≤ stop) :
    ofBounds? start stop = some ⟨start, stop, h⟩ :=
  dif_pos h

/-- Ranges can always be merged. -/
theorem Span.merge?_eq (a b : Span) : a.merge? b = some (a.merge b) :=
  ofBounds?_of_le (a.merge b).start_le_stop

section Stray

variable {ws : List Word} {v : Word} {span : Span}

/-- Stray characters that touch a stray word go together with it. -/
theorem addStray?_concat (hkind : v.value.kind = .stray) (htouch : v.span.stop = span.start)
    (text : Text) :
    addStray? (ws ++ [v]) text span =
      some (ws ++ [⟨⟨.stray, v.value.text ++ text⟩, v.span.merge span⟩]) := by
  rw [addStray?, List.getLast?_concat]
  dsimp only
  rw [if_pos ⟨hkind, htouch⟩, Span.merge?_eq, List.dropLast_concat]
  rfl

/-- Stray characters that do not touch a stray word become a word. -/
theorem addStray?_of_apart
    (h : ¬∃ v ∈ ws.getLast?, v.value.kind = .stray ∧ v.span.stop = span.start) (text : Text) :
    addStray? ws text span = some (ws ++ [⟨⟨.stray, text⟩, span⟩]) := by
  rw [addStray?]
  cases hlast : ws.getLast? with
  | none => rfl
  | some v =>
    rw [hlast] at h
    exact if_neg fun hv => h ⟨v, rfl, hv⟩

/-- It does not matter whether stray characters are read at once or in two steps. -/
theorem addStray?_bind (ws : List Word) (offset : Nat) (a b : Text) :
    ((addStray? ws a (.ofText offset a)).bind fun us =>
      addStray? us b (.ofText (offset + Text.width a) b)) =
      addStray? ws (a ++ b) (.ofText offset (a ++ b)) := by
  by_cases h : ∃ v ∈ ws.getLast?, v.value.kind = .stray ∧ v.span.stop = offset
  · obtain ⟨v, hv, hkind, htouch⟩ := h
    obtain ⟨front, rfl⟩ := List.getLast?_eq_some_iff.1 hv
    have hle := v.span.start_le_stop
    have hmerged : (v.span.merge (.ofText offset a)).stop = offset + Text.width a := by
      show max v.span.stop (offset + Text.width a) = offset + Text.width a
      omega
    have hspan : (v.span.merge (.ofText offset a)).merge (.ofText (offset + Text.width a) b) =
        v.span.merge (.ofText offset (a ++ b)) := by
      simp only [Span.merge, Span.ofText, Span.mk.injEq, Text.width_append]
      omega
    rw [addStray?_concat hkind htouch, Option.bind_some, addStray?_concat rfl hmerged, hspan,
      addStray?_concat hkind htouch, List.append_assoc]
  · have hspan : (Span.ofText offset a).merge (.ofText (offset + Text.width a) b) =
        .ofText offset (a ++ b) := by
      simp only [Span.merge, Span.ofText, Span.mk.injEq, Text.width_append]
      omega
    rw [addStray?_of_apart h, Option.bind_some, addStray?_concat rfl rfl, hspan,
      addStray?_of_apart h]

end Stray

namespace LineScan

/-- The words of the line that is being read, with its number. -/
def pending (s : LineScan) : List (Nat × Word) :=
  s.words.map fun w => (s.number, w)

/-- The words that are pending are in the line that is being read. -/
theorem fst_of_mem_pending {s : LineScan} {w : Nat × Word} (h : w ∈ s.pending) :
    w.1 = s.number := by
  obtain ⟨v, -, rfl⟩ := List.mem_map.1 h
  rfl

/-- The lines so far are the finished ones and the one that is being read, if it has a word. -/
theorem lines_eq (s : LineScan) : s.lines = s.finished ++ groupLines s.pending := by
  have hnumber : ∀ w ∈ s.pending, w.1 = s.number := fun w => fst_of_mem_pending
  unfold lines
  unfold pending at hnumber ⊢
  cases hwords : s.words with
  | nil => exact (List.append_nil _).symm
  | cons w ws =>
    rw [hwords] at hnumber
    rw [List.map_cons, groupLines_of_forall hnumber, List.map_map]
    exact congrArg (fun us => s.finished ++ [⟨s.number, w, us⟩]) (List.map_id _).symm

/-- The range of a piece never runs backwards. -/
theorem step?_eq (s : LineScan) (offset : Nat) (p : Piece) :
    s.step? offset p =
      match p.kind with
      | .lineBreak => some s.nextLine
      | .blank | .comment => some s
      | .name => some (s.push ⟨⟨.name, p.text⟩, .ofText offset p.text⟩)
      | .integer => some (s.push ⟨⟨.integer, p.text⟩, .ofText offset p.text⟩)
      | .stray =>
        (addStray? s.words p.text (.ofText offset p.text)).map fun ws => { s with words := ws } := by
  rw [step?, Span.ofBounds?_of_le (Nat.le_add_right ..)]
  cases p.kind <;> rfl

/-- Stray characters read one after another leave the loop as if they were read at once. -/
theorem step?_stray_bind (s : LineScan) (offset : Nat) (a b : Text) :
    ((s.step? offset ⟨.stray, a⟩).bind fun s => s.step? (offset + Text.width a) ⟨.stray, b⟩) =
      s.step? offset ⟨.stray, a ++ b⟩ := by
  simp only [step?_eq]
  rw [← addStray?_bind, Option.bind_map, Option.map_bind]
  rfl

/-- Stray pieces may be taken together before they are read. -/
theorem run?_joinStray (s : LineScan) (offset : Nat) (ps : List Piece) :
    s.run? offset (joinStray ps) = s.run? offset ps := by
  induction ps generalizing s offset with
  | nil => rfl
  | cons p ps ih =>
    have hcons : s.run? offset (p :: joinStray ps) = s.run? offset (p :: ps) := by
      simp only [run?, ih]
    rw [joinStray_cons, ← hcons]
    cases joinStray ps with
    | nil => rfl
    | cons q qs =>
      rw [Piece.consJoining]
      split
      case isFalse => rfl
      case isTrue hstray =>
        obtain ⟨_, a⟩ := p
        obtain ⟨_, b⟩ := q
        obtain ⟨rfl, rfl⟩ := hstray
        simp only [run?]
        rw [← step?_stray_bind, Option.bind_assoc, Text.width_append, ← Nat.add_assoc]

section Run

/-- The next piece is not to be taken together with the last word. -/
def IsClear (s : LineScan) (offset : Nat) (ps : List Piece) : Prop :=
  ∀ v ∈ s.words.getLast?, v.span.stop ≤ offset ∧
    (v.value.kind = .stray → v.span.stop = offset → ∀ p ∈ ps.head?, p.kind ≠ .stray)

/-- The line that is being read after a piece is added to it that does not end it. -/
def add (s : LineScan) (offset : Nat) (p : Piece) : LineScan :=
  { s with words :=
      s.words ++ (p.lexeme?.map fun l => (⟨l, .ofText offset p.text⟩ : Word)).toList }

/-- A piece that is not taken together with the last word is added to the line, or ends it. -/
theorem step?_of_isClear {s : LineScan} {offset : Nat} {p : Piece} {ps : List Piece}
    (hclear : s.IsClear offset (p :: ps)) :
    s.step? offset p = some (if p.kind = .lineBreak then s.nextLine else s.add offset p) := by
  obtain ⟨kind, text⟩ := p
  rw [step?_eq]
  cases kind with
  | name | integer | lineBreak => rfl
  | blank | comment => simp [add, Piece.lexeme?]
  | stray =>
    have hapart : ¬∃ v ∈ s.words.getLast?, v.value.kind = .stray ∧ v.span.stop = offset := by
      rintro ⟨v, hv, hkind, hstop⟩
      exact (hclear v hv).2 hkind hstop _ rfl rfl
    dsimp only
    rw [addStray?_of_apart hapart]
    rfl

/-- A piece that is added brings its word to the pending ones, if it is one. -/
theorem pending_add (s : LineScan) (offset : Nat) (p : Piece) :
    (s.add offset p).pending = s.pending ++ (p.word? offset s.number).toList := by
  rw [pending, pending, add, Piece.word?]
  dsimp only
  rw [List.map_append]
  cases p.lexeme? <;> rfl

/-- After a piece is added the next one is again not to be taken together with the last word. -/
theorem isClear_add {s : LineScan} {offset : Nat} {p : Piece} {ps : List Piece}
    (hclear : s.IsClear offset (p :: ps)) (hp : p.HasShape) (hps : Separated (p :: ps)) :
    (s.add offset p).IsClear (offset + Text.width p.text) ps := by
  have hpos := Text.width_pos hp.text_ne_nil
  intro v hv
  rw [add] at hv
  cases hl : p.lexeme? with
  | none =>
    rw [hl] at hv
    have hstop := (hclear v (by simpa using hv)).1
    exact ⟨by omega, fun _ htouch => by omega⟩
  | some l =>
    rw [hl] at hv
    obtain rfl : ⟨l, .ofText offset p.text⟩ = v := by simpa using hv
    refine ⟨Nat.le_refl _, fun hstray _ q hq => ?_⟩
    exact (List.isChain_cons.1 hps).1 q hq (Piece.kind_eq_stray_of_lexeme? hl hstray)

/-- A run adds the words of its pieces to those of the line that is being read. -/
theorem lines_run? {s : LineScan} {offset : Nat} {ps : List Piece} (hclear : s.IsClear offset ps)
    (hshape : ∀ p ∈ ps, p.HasShape) (hps : Separated ps) :
    (s.run? offset ps).map lines =
      some (s.finished ++ groupLines (s.pending ++ numberedWords offset s.number ps)) := by
  induction ps generalizing s offset with
  | nil =>
    rw [run?, Option.map_some, lines_eq, numberedWords, List.append_nil]
  | cons p ps ih =>
    have hp := hshape p List.mem_cons_self
    have hlater : ∀ q ∈ ps, q.HasShape := fun q hq => hshape q (List.mem_cons_of_mem _ hq)
    have hrest := (List.isChain_cons.1 hps).2
    rw [run?, step?_of_isClear hclear, Option.bind_some, numberedWords_cons]
    split
    case isTrue hbreak =>
      -- the words of later lines have greater numbers, so they do not go into this line
      have hnone : p.word? offset s.number = none := by simp [Piece.word?, Piece.lexeme?, hbreak]
      have hnext : s.nextLine.IsClear (offset + Text.width p.text) ps := by
        intro v hv
        cases hv
      rw [ih hnext hlater hrest, hnone]
      have happend : ∀ w ∈ s.pending, ∀ v ∈ numberedWords (offset + Text.width p.text)
          (s.number + 1) ps, w.1 < v.1 := by
        intro w hw v hv
        rw [fst_of_mem_pending hw]
        exact (mem_numberedWords hv).1
      rw [Option.toList_none, List.nil_append, groupLines_append happend, ← List.append_assoc,
        ← lines_eq]
      rfl
    case isFalse =>
      rw [ih (isClear_add hclear hp hps) hlater hrest, pending_add, List.append_assoc]
      rfl

end Run

end LineScan

/-- One pass over the pieces of a text finds its lines, and no check on a range fails. -/
theorem scanLines?_eq (t : Text) : scanLines? t = some (sourceLines t) := by
  have hclear : LineScan.initial.IsClear 0 (joinStray (pieces t)) := by
    intro v hv
    cases hv
  rw [scanLines?, ← LineScan.run?_joinStray, LineScan.lines_run? hclear
    (wellCut_joinStray_pieces t).hasShape (separated_joinStray _)]
  rfl

end AbilityScript
