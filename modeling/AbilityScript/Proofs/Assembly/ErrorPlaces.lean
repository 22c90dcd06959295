import AbilityScript.Assembly.Basic
import AbilityScript.Proofs.Assembly.OperandWords
import AbilityScript.Proofs.Source.Rows
import AbilityScript.Proofs.Source.TokenLoop

/-!
# Where errors are

An error of the assembler is about one word, or about a line from its first word to its last one. Both
are ranges between words of one line, and what lies between two words of a line is a slice of the text
without a line feed. The line number of an error is the one under which its place is shown.

Assembly makes ranges, and cuts the text of stray characters out of the source. It does so with every
check here, and no check fails on any text.

## Main definitions

* `assembleChecked?`: assembles a source text, unless a range runs backwards or a cut is no slice.
* `AssemblyError.PointsAt`: an error is about a part of the text.

## Main statements

* `exists_slice?_between`: the text from one word of a line to another one.
* `assembleChecked?_eq`: no check fails.
* `errors_assemble_placed`: where the errors of a text are.
-/

set_option autoImplicit false

namespace AbilityScript

/-- From the first word of a line to the last one, with the bounds checked. -/
def Line.span? (l : Line) : Option Span :=
  l.head.span.merge? (l.tail.getLast?.getD l.head).span

/-- What comes of a line, with the bounds of its range checked, and the text of stray characters cut
out of the source. -/
def checkedLine? (t : Text) (l : Line) : Option (AssembledLine ⊕ AssemblyError) :=
  match l.words.find? fun w => w.value.kind = .stray with
  | some w => (w.span.slice? t).map fun text => .inr ⟨l.number, w.span, .badCharacter text⟩
  | none =>
    l.span?.map fun span =>
      match assembleLine l with
      | .ok i => .inl ⟨span, i⟩
      | .error f => .inr ⟨l.number, f.span, f.value⟩

/-- Assembles a source text in one pass, unless a range runs backwards or a cut is no slice. -/
def assembleChecked? (version : UInt8) (t : Text) : Option Assembled := do
  let results ← (← scanLines? t).mapM (checkedLine? t)
  let good := results.filterMap Sum.getLeft?
  let errors := results.filterMap Sum.getRight?
  let bytes := bytecode version (good.map AssembledLine.instr)
  let (selfCheckErrors, disassembly) :=
    if errors.isEmpty then selfCheck version bytes else ([], [])
  return { bytecode := bytes, errors, disassembly, selfCheckErrors, sourceMap := mapSource 1 good }

section Between

variable {t : Text} {l : Line} {v w : Word}

/-- What lies between two words of a line, with both of them, is a slice of the text without a line
feed: as many are in front of one word as in front of the other. -/
theorem exists_slice?_between (hl : l ∈ sourceLines t) (hv : v ∈ l.words) (hw : w ∈ l.words)
    (hle : v.span.start ≤ w.span.start) {s : Span} (hstart : s.start = v.span.start)
    (hstop : s.stop = w.span.stop) :
    s.start < s.stop ∧ (∃ shown, s.slice? t = some shown ∧ '\n' ∉ shown) ∧
      l.number = 1 + t.feedsBefore s.start := by
  obtain ⟨front, p, back, hvAt⟩ := exists_wordAt hl hv
  obtain ⟨front', p', back', hwAt⟩ := exists_wordAt hl hw
  have hlt := hwAt.start_lt_stop
  refine ⟨by omega, ?_, hstart ▸ hvAt.number_eq_feedsBefore⟩
  have htext : spelled front ++ (v.value.text ++ spelled back) =
      (spelled front' ++ w.value.text) ++ spelled back' := by
    rw [← List.append_assoc, ← hvAt.text_eq, ← hwAt.text_eq]
  have hwidth : Text.width (spelled front' ++ w.value.text) = w.span.stop := by
    rw [Text.width_append, hwAt.hasShape.1, hwAt.stop_eq]
  obtain ⟨shown, hshown⟩ := Text.exists_append_of_width_le htext (by rw [hwidth, ← hvAt.start_eq]; omega)
  refine ⟨shown, Span.slice?_eq_some_iff.2 ⟨spelled front, spelled back', ?_, ?_, ?_⟩, ?_⟩
  · rw [← hshown, ← hwAt.text_eq]
  · rw [hstart, hvAt.start_eq]
  · rw [← hshown, hwidth, hstop]
  · -- both words are in this line, so no line feed comes between them
    have hnumber := hvAt.number_eq_count.symm.trans hwAt.number_eq_count
    have hcount := congrArg (List.count '\n') hshown
    rw [List.count_append, List.count_append, List.count_eq_zero.2 hwAt.newline_not_mem] at hcount
    rw [← List.count_eq_zero]
    omega

end Between

section Lines

variable {t : Text} {l : Line}

/-- The last word of a line is the last one after the mnemonic, or else the mnemonic. -/
theorem Line.getLast?_words (l : Line) : l.words.getLast? = some (l.tail.getLast?.getD l.head) :=
  List.getLast?_cons

/-- The last word of a line is one of its words. -/
theorem Line.last_mem_words (l : Line) : l.tail.getLast?.getD l.head ∈ l.words :=
  List.mem_of_getLast? l.getLast?_words

/-- The words of a line stand behind one another. -/
theorem Line.pairwise_words (hl : l ∈ sourceLines t) :
    l.words.Pairwise fun v w => v.span.stop ≤ w.span.start := by
  have hsub : l.words.Sublist (sourceWords t) :=
    List.sublist_flatten_of_mem (List.mem_map_of_mem hl)
  exact (pairwise_sourceWords t).sublist hsub

/-- A line extends from the start of its first word to the end of its last one. -/
theorem Line.span_bounds (hl : l ∈ sourceLines t) :
    l.head.span.start ≤ (l.tail.getLast?.getD l.head).span.start ∧
      l.span.start = l.head.span.start ∧ l.span.stop = (l.tail.getLast?.getD l.head).span.stop := by
  have hhead := l.head.span.start_le_stop
  have hlast := (l.tail.getLast?.getD l.head).span.start_le_stop
  have hle : l.tail.getLast?.getD l.head = l.head ∨
      l.head.span.stop ≤ (l.tail.getLast?.getD l.head).span.start := by
    cases htail : l.tail.getLast? with
    | none => exact .inl rfl
    | some w => exact .inr ((List.pairwise_cons.1 (pairwise_words hl)).1 w (List.mem_of_getLast? htail))
  show _ ∧ min _ _ = _ ∧ max _ _ = _
  obtain hle | hle := hle
  · simp [hle]
  · omega

end Lines

section Checks

variable {t : Text} {l : Line}

/-- What comes of a line: an instruction or an error. -/
def lineResult (l : Line) : AssembledLine ⊕ AssemblyError :=
  match assembleLine l with
  | .ok i => .inl ⟨l.span, i⟩
  | .error f => .inr ⟨l.number, f.span, f.value⟩

/-- The good result of a line is its range with the instruction it assembles to. -/
theorem getLeft?_lineResult (l : Line) :
    (lineResult l).getLeft? = (assembleLine l).toOption.map fun i => ⟨l.span, i⟩ := by
  rw [lineResult]
  cases assembleLine l <;> rfl

/-- The bad result of a line is its error. -/
theorem getRight?_lineResult (l : Line) : (lineResult l).getRight? = lineError? l := by
  rw [lineResult, lineError?]
  cases assembleLine l <;> rfl

/-- No check fails on a line of the text. -/
theorem checkedLine?_eq (hl : l ∈ sourceLines t) : checkedLine? t l = some (lineResult l) := by
  rw [checkedLine?, lineResult]
  cases hstray : l.words.find? fun w => w.value.kind = .stray with
  | some w =>
    obtain ⟨front, p, back, hw⟩ := exists_wordAt hl (List.mem_of_find?_eq_some hstray)
    have hreject : assembleLine l = .error ⟨.badCharacter w.value.text, w.span⟩ := by
      rw [assembleLine, hstray]
      rfl
    rw [hreject]
    dsimp only
    rw [hw.slice?_eq]
    rfl
  | none =>
    have hspan : l.span? = some l.span := Span.merge?_eq _ _
    rw [hspan]
    rfl

/-- Steps that all succeed succeed together, with their results in order. -/
theorem mapM_eq_some_map {α β : Type} {f : α → Option β} {g : α → β} {as : List α}
    (h : ∀ a ∈ as, f a = some (g a)) : as.mapM f = some (as.map g) := by
  induction as with
  | nil => rfl
  | cons a as ih =>
    rw [List.mapM_cons, h a List.mem_cons_self, ih fun b hb => h b (List.mem_cons_of_mem _ hb)]
    rfl

/-- No check fails, whatever the text is. -/
theorem assembleChecked?_eq (version : UInt8) (t : Text) :
    assembleChecked? version t = some (assemble version t) := by
  have hresults : (sourceLines t).mapM (checkedLine? t) = some ((sourceLines t).map lineResult) :=
    mapM_eq_some_map fun l hl => checkedLine?_eq hl
  have hgood : ((sourceLines t).map lineResult).filterMap Sum.getLeft? =
      goodLines (sourceLines t) := by
    rw [List.filterMap_map]
    exact congrArg (fun f => (sourceLines t).filterMap f) (funext getLeft?_lineResult)
  have herrors : ((sourceLines t).map lineResult).filterMap Sum.getRight? =
      (sourceLines t).filterMap lineError? := by
    rw [List.filterMap_map]
    exact congrArg (fun f => (sourceLines t).filterMap f) (funext getRight?_lineResult)
  rw [assembleChecked?, scanLines?_eq]
  simp only [Option.bind_eq_bind, Option.bind_some, hresults, hgood, herrors]
  rfl

end Checks

section Errors

variable {t : Text} {l : Line} {e : AssemblyError}

/-- An error is about a part of a text that it shows: it quotes all of it, or it is about the number of
operands and the part is a line of words. -/
structure AssemblyError.PointsAt (e : AssemblyError) (t shown : Text) : Prop where
  start_lt_stop : e.span.start < e.span.stop
  slice?_eq : e.span.slice? t = some shown
  newline_not_mem : '\n' ∉ shown
  line_eq : e.line = 1 + t.feedsBefore e.span.start
  about : e.fault.quoted? = some shown ∨ ∃ op expected found, e.fault = .argCount op expected found ∧
    ∃ l ∈ sourceLines t, l.number = e.line ∧ e.span.start = l.head.span.start ∧
      ∃ last, l.words.getLast? = some last ∧ e.span.stop = last.span.stop

/-- A line has an error exactly if it does not assemble, and then the error is about its number and its
fault. -/
theorem lineError?_eq_some_iff :
    lineError? l = some e ↔ ∃ f, assembleLine l = .error f ∧ e = ⟨l.number, f.span, f.value⟩ := by
  rw [lineError?]
  cases assembleLine l with
  | ok i => simp
  | error f => simp [eq_comm]

/-- The error of a line is about one of its words, or about all of them. -/
theorem exists_pointsAt (hl : l ∈ sourceLines t) (he : lineError? l = some e) :
    ∃ shown, e.PointsAt t shown := by
  obtain ⟨⟨fault, span⟩, hf, rfl⟩ := lineError?_eq_some_iff.1 he
  obtain ⟨w, hw, hspan, hquoted⟩ | ⟨op, expected, -, hf⟩ := isBlamed_of_assembleLine hf
  · obtain rfl : span = w.span := hspan
    obtain ⟨hlt, -, hnumber⟩ := exists_slice?_between hl hw hw (Nat.le_refl _) rfl rfl
    obtain ⟨front, p, back, hwAt⟩ := exists_wordAt hl hw
    exact ⟨w.value.text, hlt, hwAt.slice?_eq, hwAt.newline_not_mem, hnumber, .inl hquoted⟩
  · obtain ⟨rfl, rfl⟩ := Spanned.mk.inj hf
    obtain ⟨hle, hstart, hstop⟩ := Line.span_bounds hl
    obtain ⟨hlt, ⟨shown, hslice, hnewline⟩, hnumber⟩ :=
      exists_slice?_between hl List.mem_cons_self l.last_mem_words hle hstart hstop
    exact ⟨shown, hlt, hslice, hnewline, hnumber,
      .inr ⟨op, expected, _, rfl, l, hl, rfl, hstart, _, l.getLast?_words, hstop⟩⟩

/-- The errors of a text are in the order of their lines, at most one for each. -/
theorem pairwise_errors (version : UInt8) (t : Text) :
    (assemble version t).errors.Pairwise fun e f => e.line < f.line := by
  show ((sourceLines t).filterMap lineError?).Pairwise _
  rw [List.pairwise_filterMap]
  refine (pairwise_sourceLines t).imp fun {l m} hlt e he f hf => ?_
  obtain ⟨_, -, rfl⟩ := lineError?_eq_some_iff.1 he
  obtain ⟨_, -, rfl⟩ := lineError?_eq_some_iff.1 hf
  exact hlt

/-- Every error of the assembler is about a part of the text that is not empty and lies within one line,
whose number it gives; where the text is shown, that number stands beside it. An unknown word, a bad
number and stray characters are quoted as they stand in the text, and a wrong number of operands is
about all words of a line. The errors are in the order of their lines, of which none has two, and
assembly comes to an end on every text with all ranges and cuts checked. -/
theorem errors_assemble_placed (version : UInt8) (t : Text) :
    (∀ e ∈ (assemble version t).errors, (∃ shown, e.PointsAt t shown) ∧
      ∀ name, ((⟨name, t⟩ : SourceFile).rowAt e.span.start).number = e.line) ∧
    ((assemble version t).errors.Pairwise fun e f => e.line < f.line) ∧
    assembleChecked? version t = some (assemble version t) := by
  refine ⟨fun e he => ?_, pairwise_errors version t, assembleChecked?_eq version t⟩
  obtain ⟨l, hl, hle⟩ := List.mem_filterMap.1 he
  obtain ⟨shown, hpoints⟩ := exists_pointsAt hl hle
  refine ⟨⟨shown, hpoints⟩, fun name => ?_⟩
  rw [SourceFile.number_rowAt, hpoints.line_eq]

/-- Stray characters of four bytes in front of a comment, a conditional without its second side behind
a line break of two characters, and an amount out of range. -/
theorem errors_assemble_placed_of_three :
    let t : Text := "DRAW é$\r1 ;é\r\n\tIF LT IMM\nDRAW 9".toList
    let stray : AssemblyError := ⟨1, ⟨5, 9, by decide⟩, .badCharacter "é$\r".toList⟩
    let short : AssemblyError := ⟨2, ⟨17, 26, by decide⟩, .argCount .ifTest 5 2⟩
    let large : AssemblyError := ⟨3, ⟨32, 33, by decide⟩, .badLiteral .amount "9".toList 1 4⟩
    (assemble 1 t).errors = [stray, short, large] ∧ stray.PointsAt t "é$\r".toList ∧
      short.PointsAt t "IF LT IMM".toList ∧ large.PointsAt t "9".toList ∧
      ((⟨"source".toList, t⟩ : SourceFile).rowAt 17).number = 2 ∧
      assembleChecked? 1 t = some (assemble 1 t) := by
  intro t stray short large
  have herrors : (assemble 1 t).errors = [stray, short, large] := by decide +kernel
  obtain ⟨hplaced, -, hchecked⟩ := errors_assemble_placed 1 t
  rw [herrors] at hplaced
  have hpoints : ∀ e ∈ [stray, short, large], ∀ shown, e.span.slice? t = some shown →
      e.PointsAt t shown := by
    intro e he shown hslice
    obtain ⟨⟨_, h⟩, -⟩ := hplaced e he
    obtain rfl := Option.some.inj (h.slice?_eq.symm.trans hslice)
    exact h
  exact ⟨herrors, hpoints stray (by simp) _ (by decide +kernel),
    hpoints short (by simp) _ (by decide +kernel), hpoints large (by simp) _ (by decide +kernel),
    (hplaced short (by simp)).2 _, hchecked⟩

end Errors

end AbilityScript
