import AbilityScript.Proofs.Assembly.PrintedInstructions
import AbilityScript.Proofs.Layout.Drafts
import AbilityScript.Proofs.Program.Depths
import AbilityScript.Proofs.Source.Slices
import AbilityScript.Proofs.Text.Lines

/-!
# Programs through a line writer

Whatever is written of a program begins and ends between two lines at the same level: an instruction is
one line, and a block goes one level in and comes back. So nothing that writes a program is ever misuse of
the line writer, and the lines are handed over one by one, those of the rows of the program. As these hold
letters, digits, underscores and spaces only, the text can be taken apart into them again.

## Main definitions

* `LineWriter.between`: a line writer between two lines.
* `Writes`: an operation that hands over lines and ends between lines where it began.

## Main statements

* `Program.writes`: what is written of a program.
* `written_program_lines`: the lines of a program at every level.
-/

set_option autoImplicit false

namespace AbilityScript

section Contents

/-- The letters of content. -/
def Content.letters (c : Content) : Text :=
  c.additions.flatMap Addition.letters

/-- The parts of contents are those of each, in order. -/
theorem Content.additionsAll_eq (cs : List Content) : additionsAll cs = cs.flatMap additions := by
  induction cs with
  | nil => rfl
  | cons c cs ih => rw [additionsAll, ih, List.flatMap_cons]

/-- Words are written with a blank in front of each but the first. -/
theorem Text.unwords_cons (w : Text) (ws : List Text) :
    unwords (w :: ws) = w ++ ws.flatMap fun v => ' ' :: v := by
  induction ws generalizing w with
  | nil => exact (List.append_nil w).symm
  | cons v ws ih =>
    have hunwords : unwords (w :: v :: ws) = w ++ ' ' :: unwords (v :: ws) := rfl
    rw [hunwords, ih, List.flatMap_cons, List.cons_append]

/-- The letters of a single addition are its own. -/
theorem Content.letters_single (a : Addition) : letters (.single a) = a.letters :=
  List.append_nil _

/-- Spaced contents have a blank in front of each but the first. -/
theorem Content.letters_spaced (c : Content) (cs : List Content) :
    letters (.spaced c cs) = c.letters ++ cs.flatMap fun c => ' ' :: c.letters := by
  unfold letters spaced
  rw [additions, additionsAll, additionsAll_eq, List.flatMap_append]
  congr 1
  induction cs with
  | nil => rfl
  | cons d cs ih =>
    rw [List.flatMap_cons, List.flatMap_append, List.flatMap_append, ih, List.flatMap_cons]
    simp [additions, Addition.letters]

/-- A label is written as its name. -/
theorem Content.letters_label {α : Type} [Labelled α] (a : α) :
    letters (.label a) = Labelled.name a :=
  List.append_nil _

/-- A side is written as its words, each with a blank in front. -/
theorem Side.cons_letters_content (s : Side) :
    ' ' :: s.content.letters = s.words.flatMap fun w => ' ' :: w := by
  cases s <;>
    simp [content, words, Content.letters_spaced, Content.letters_label, Content.letters_single,
      Addition.letters]

/-- The operands of an instruction are its words, wherever they are put together. -/
theorem Instruction.flatMap_letters_contents (i : Instruction) :
    (i.contents.flatMap fun c => ' ' :: c.letters) = i.operandWords.flatMap fun w => ' ' :: w := by
  cases i with
  | action a =>
    cases a <;>
      simp [contents, operandWords, Action.contents, Action.words, Content.letters_label,
        Content.letters_single, Addition.letters]
  | ifTest c =>
    simp only [contents, operandWords, List.flatMap_cons, List.flatMap_append, List.flatMap_nil,
      List.append_nil, Side.cons_letters_content, Content.letters_label, List.cons_append]
  | whenEvent e => simp [contents, operandWords, Content.letters_label]
  | elseMark | endIf | endWhen | stop => rfl

/-- Part by part an instruction is written as its line. -/
theorem Instruction.letters_content (i : Instruction) : i.content.letters = i.text := by
  rw [content, Content.letters_spaced, Content.letters_label, flatMap_letters_contents, text,
    Text.unwords_cons]

/-- Only letters, digits, underscores and spaces are written. -/
theorem Row.mem_text {r : Row} {c : Char} (h : c ∈ r.text) : c = ' ' ∨ isNameChar c = true := by
  obtain hmem | hmem := List.mem_append.1 h
  · exact .inl (List.eq_of_mem_replicate hmem)
  · exact mem_unwords r.instr.isPrintable_words hmem

/-- No instruction breaks its line. -/
theorem Instruction.any_breaksLine_content (i : Instruction) :
    i.content.additions.any Addition.breaksLine = false := by
  rw [List.any_eq_false]
  intro a ha hbreaks
  have hmem : '\n' ∈ a.letters := by
    cases a with
    | text t => exact List.contains_iff_mem.1 hbreaks
    | display t => cases hbreaks
  have htext : '\n' ∈ i.text := by
    rw [← i.letters_content]
    exact List.mem_flatMap_of_mem ha hmem
  have hchar := mem_unwords i.isPrintable_words htext
  exact absurd hchar (by decide)

end Contents

section Writes

variable {σ : Type} [Sink σ]

/-- A line writer between two lines at a level. -/
def LineWriter.between (level : Nat) (s : σ) : LineWriter σ where
  sink := s
  level := level
  pending := false
  line := margin level

omit [Sink σ] in
/-- A writer between lines has any other margin once its level is set. -/
theorem LineWriter.setLevel_between (level level' : Nat) (s : σ) :
    (between level s).setLevel level' = between level' s := by
  unfold setLevel between
  rw [fitted_margin]

/-- A draft without a line under way is a writer between lines. -/
theorem Draft.writer_between (ws : List Bytes) (level : Nat) (s : σ) :
    writer s { writes := ws, level } = LineWriter.between level (Sink.after ws s) := by
  unfold writer line
  rw [List.flatMap_nil, List.append_nil]
  rfl

/-- An operation that hands over lines and ends between lines where it began. -/
def Writes (op : Writing σ Unit) (level : Nat) (ls : List Bytes) : Prop :=
  ∀ s, Sink.Takes ls s →
    op.result (LineWriter.between level s) = (.ok (), LineWriter.between level (Sink.after ls s))

namespace Writes

variable {op op' : Writing σ Unit} {level : Nat} {ls ms : List Bytes}

/-- Doing nothing hands over no lines. -/
theorem nil : Writes (pure () : Writing σ Unit) level [] :=
  fun _ _ => rfl

/-- An operation after another hands over its lines after those of the other. -/
theorem append (h : Writes op level ls) (h' : Writes op' level ms) :
    Writes (do op; op') level (ls ++ ms) := by
  intro s hs
  obtain ⟨hls, hms⟩ := Sink.takes_append.1 hs
  rw [Writing.result_bind_of_ok (h s hls), Sink.after_append]
  exact h' _ hms

/-- An indented operation hands over its lines a level deeper, and goes back. -/
theorem indented (h : Writes op (level + 1) ls) : Writes (LineWriter.indented op) level ls := by
  intro s hs
  have hindent : LineWriter.indent.result (LineWriter.between level s) =
      (.ok (), LineWriter.between (level + 1) s) := by
    rw [LineWriter.indent_result, ← LineWriter.setLevel_between level (level + 1)]
    rfl
  have hdedent : LineWriter.dedent.result (LineWriter.between (level + 1) (Sink.after ls s)) =
      (.ok (), LineWriter.between level (Sink.after ls s)) := by
    rw [LineWriter.dedent_result, ← LineWriter.setLevel_between (level + 1) level]
    rfl
  unfold LineWriter.indented
  rw [Writing.result_bind_of_ok hindent, Writing.result_bind_of_ok (h s hs), hdedent]

end Writes

/-- The bytes of the line that shows a row, with its line break. -/
def Row.bytes (r : Row) : Bytes :=
  r.text.withBreak.utf8

/-- A margin is spaces. -/
theorem margin_eq_utf8 (level : Nat) :
    margin level = Text.utf8 (List.replicate (indentWidth * level) ' ') := by
  rw [Utf8.utf8_of_ascii, List.map_replicate, margin]
  intro c hc
  rw [List.eq_of_mem_replicate hc]
  decide

/-- The letters of all additions make up the line. -/
theorem Draft.line_add_content (i : Instruction) (level : Nat) :
    (Draft.add i.content.additions { level }).line ++ Text.utf8 ['\n'] = Row.bytes ⟨level, i⟩ := by
  have hletters : i.content.additions.flatMap Addition.bytes = i.text.utf8 := by
    rw [← i.letters_content, Content.letters, Text.utf8, List.flatMap_assoc]
    rfl
  unfold Row.bytes Text.withBreak Row.text
  rw [Text.utf8_append, Text.utf8_append, ← margin_eq_utf8, ← hletters]
  rfl

/-- An instruction is written as one line. -/
theorem Instruction.writes (i : Instruction) (level : Nat) :
    Writes (i.write : Writing σ Unit) level [Row.bytes ⟨level, i⟩] := by
  intro s hs
  have hempty : LineWriter.between level s = Draft.writer s { level } :=
    (Draft.writer_between [] level s).symm
  have hcontent := Content.write_result s i.content { level }
  rw [i.any_breaksLine_content, Addition.kept_of_any_eq_false i.any_breaksLine_content] at hcontent
  have hnext := Draft.nextLine_writer (s := s) (d := Draft.add i.content.additions { level })
  unfold Instruction.write
  rw [hempty, Writing.result_bind_of_ok hcontent, hnext]
  · unfold Draft.nextLine
    rw [Draft.line_add_content, ← Draft.writer_between]
    rfl
  · unfold Draft.offers
    rw [Draft.line_add_content]
    exact hs

/-- The lines of a block are those of its rows. -/
theorem Block.writes (b : Block) (level : Nat) :
    Writes (Block.write b : Writing σ Unit) level ((Block.rows level b).map Row.bytes) := by
  induction b using Block.induction generalizing level with
  | nil => exact .nil
  | action pc a rest ih => exact ((Instruction.action a).writes level).append (ih level)
  | ifThen pc c body rest ihbody ih =>
    have hrows : (rows level (.cond pc c body none :: rest)).map Row.bytes =
        ([Row.bytes ⟨level, .ifTest c⟩] ++
          ((rows (level + 1) body).map Row.bytes ++ [Row.bytes ⟨level, .endIf⟩])) ++
        (rows level rest).map Row.bytes := by
      simp [rows, Stmt.rows]
    rw [hrows]
    exact (((Instruction.ifTest c).writes level).append
      ((ihbody (level + 1)).indented.append (Instruction.endIf.writes level))).append (ih level)
  | ifElse pc c body other rest ihbody ihother ih =>
    have hrows : (rows level (.cond pc c body (some other) :: rest)).map Row.bytes =
        ([Row.bytes ⟨level, .ifTest c⟩] ++ ((rows (level + 1) body).map Row.bytes ++
          ([Row.bytes ⟨level, .elseMark⟩] ++ ((rows (level + 1) other).map Row.bytes ++
            [Row.bytes ⟨level, .endIf⟩])))) ++
        (rows level rest).map Row.bytes := by
      simp [rows, Stmt.rows]
    rw [hrows]
    exact (((Instruction.ifTest c).writes level).append ((ihbody (level + 1)).indented.append
      ((Instruction.elseMark.writes level).append ((ihother (level + 1)).indented.append
        (Instruction.endIf.writes level))))).append (ih level)

/-- A member is written as the rows that it has at the level. -/
theorem TopLevel.writes (m : TopLevel) (level : Nat) :
    Writes (m.write : Writing σ Unit) level ((m.rows level).map Row.bytes) := by
  cases m with
  | stmt s =>
    have hblock := Block.writes (σ := σ) [s] level
    have hwrite : (Block.write [s] : Writing σ Unit) = s.write := bind_pure_unit
    rw [hwrite, Block.rows, Block.rows, List.append_nil] at hblock
    exact hblock
  | trigger pc e body =>
    have hrows : ((TopLevel.trigger pc e body).rows level).map Row.bytes =
        [Row.bytes ⟨level, .whenEvent e⟩] ++
          ((Block.rows (level + 1) body).map Row.bytes ++ [Row.bytes ⟨level, .endWhen⟩]) := by
      simp [rows]
    rw [hrows]
    exact ((Instruction.whenEvent e).writes level).append
      ((body.writes (level + 1)).indented.append (Instruction.endWhen.writes level))

/-- What is written of a program are the lines of its rows. -/
theorem Program.writes (p : Program) (level : Nat) :
    Writes (p.write : Writing σ Unit) level ((p.rows level).map Row.bytes) := by
  have hmembers : ∀ ms : List TopLevel,
      Writes (ms.forM TopLevel.write : Writing σ Unit) level
        ((ms.flatMap (TopLevel.rows level)).map Row.bytes) := by
    intro ms
    induction ms with
    | nil => exact .nil
    | cons m ms ih =>
      rw [List.flatMap_cons, List.map_append]
      exact (m.writes level).append ih
  unfold rows
  rw [List.map_append]
  exact (hmembers p.topLevel).append (Instruction.stop.writes level)

end Writes

section Printed

/-- The characters of names are one byte each. -/
theorem toNat_lt_of_isNameChar {c : Char} (h : isNameChar c = true) : c.toNat < 128 := by
  have hbounds : (decide ('A' ≤ c ∧ c ≤ 'Z') || (decide ('a' ≤ c) && decide (c ≤ 'z')) ||
      (decide ('0' ≤ c) && decide (c ≤ '9')) || c == '_') = true := h
  simp only [Bool.or_eq_true, Bool.and_eq_true, decide_eq_true_eq, beq_iff_eq] at hbounds
  obtain ((⟨-, hc⟩ | ⟨-, hc⟩) | ⟨-, hc⟩) | rfl := hbounds
  · exact Nat.lt_of_le_of_lt hc (by decide)
  · exact Nat.lt_of_le_of_lt hc (by decide)
  · exact Nat.lt_of_le_of_lt hc (by decide)
  · decide

/-- The characters of a row are one byte each. -/
theorem Row.toNat_lt_of_mem {r : Row} {c : Char} (h : c ∈ r.text) : c.toNat < 128 := by
  obtain rfl | hc := Row.mem_text h
  · decide
  · exact toNat_lt_of_isNameChar hc

/-- The bytes of rows are those of the text with the rows as its lines. -/
theorem flatten_map_bytes (rs : List Row) :
    (rs.map Row.bytes).flatten = Text.utf8 (Text.unlines (rs.map Row.text)) := by
  induction rs with
  | nil => rfl
  | cons r rs ih =>
    rw [List.map_cons, List.flatten_cons, ih, Row.bytes, ← Text.utf8_append, List.map_cons, Text.unlines,
      Text.unlines, List.flatMap_cons]

/-- A text of rows falls apart into them again. -/
theorem lines_unlines_rows (rs : List Row) :
    Text.lines (Text.unlines (rs.map Row.text)) = rs.map Row.text := by
  apply Text.lines_unlines
  · intro l hl hmem
    obtain ⟨r, -, rfl⟩ := List.mem_map.1 hl
    exact absurd (Row.mem_text hmem) (by decide)
  · intro l hl hlast
    obtain ⟨r, -, rfl⟩ := List.mem_map.1 hl
    exact absurd (Row.mem_text (List.mem_of_getLast? hlast)) (by decide)

namespace Program

/-- A program is printed as its lines, each with a line break, at whatever level these begin. -/
theorem printedAt_eq (p : Program) (n : Nat) : p.printedAt n = Text.unlines (p.linesAt n) := by
  let s := Sink.after ((p.rows n).map Row.bytes) ({} : Store)
  have htaken : Sink.Takes ((p.rows n).map Row.bytes) ({} : Store) := Sink.neverRefuses_store rfl _
  have hstart : LineWriter.startAt n ({ sink := {} } : LineWriter Store) =
      .ok (LineWriter.between n {}) :=
    congrArg Except.ok (LineWriter.setLevel_between 0 n ({} : Store))
  have hwritten : p.write.result (LineWriter.between n ({} : Store)) =
      (.ok (), LineWriter.between n s) := p.writes n ({} : Store) htaken
  have hfinish : (LineWriter.between n s).finish = (true, s) := by
    unfold LineWriter.finish
    rw [LineWriter.flush_of_not_pending rfl]
    rfl
  have hreceived : s.contents = Text.utf8 (Text.unlines (p.linesAt n)) := by
    rw [linesAt, ← flatten_map_bytes]
    exact Sink.received_after htaken
  have hascii : ∀ c ∈ Text.unlines (p.linesAt n), c.toNat < 128 := by
    intro c hc
    obtain ⟨l, hl, hc⟩ := List.mem_flatMap.1 hc
    obtain ⟨r, -, rfl⟩ := List.mem_map.1 hl
    obtain hc | hc := List.mem_append.1 hc
    · exact Row.toNat_lt_of_mem hc
    · rw [List.mem_singleton.1 hc]
      decide
  unfold printedAt LineWriter.written
  simp only [hstart, hwritten, hfinish, if_true]
  rw [hreceived, Utf8.decodeLossy_utf8 hascii]

/-- A program is printed as the text of its lines. -/
theorem printed_eq (p : Program) : p.printed = Text.unlines p.lines :=
  p.printedAt_eq 0

/-- The text of a program falls apart into its lines. -/
theorem formatted_eq (p : Program) : p.formatted = p.lines := by
  rw [formatted, p.printed_eq]
  exact lines_unlines_rows _

/-- A program that begins some levels in has the same lines, moved in. -/
theorem linesAt_eq (p : Program) (n : Nat) :
    p.linesAt n = (p.linesAt 0).map fun l => List.replicate (4 * n) ' ' ++ l := by
  unfold linesAt
  rw [p.rows_deeper n, List.map_map, List.map_map]
  congr 1
  funext r
  show List.replicate (4 * (n + r.depth)) ' ' ++ r.instr.text = List.replicate (4 * n) ' ' ++ r.text
  rw [Nat.mul_add, ← List.replicate_append_replicate, List.append_assoc]
  rfl

end Program

/-- Through a line writer whose sink takes everything a program is written at any level without misuse of
the writer, which ends between lines at that level. The sink is offered one line for each instruction that
spells the program: four spaces for each block that is open there and for each level, the label, the
operands, all separated by spaces, and a line break. So the text of a program falls apart into its lines,
one for each instruction, and the lines at a level are those at the margin moved in. -/
theorem written_program_lines {σ : Type} [Sink σ] {s : σ} (hs : Sink.NeverRefuses s) (p : Program)
    (n : Nat) :
    let offered := (p.linesAt n).map fun l => l.withBreak.utf8
    (∃ w, LineWriter.startAt n { sink := s } = .ok w ∧
      p.write.result w = (.ok (), {
        sink := Sink.after offered s
        level := n
        pending := false
        line := margin n }) ∧
      Sink.received (Sink.after offered s) =
        Sink.received s ++ Text.utf8 (Text.unlines (p.linesAt n))) ∧
    p.linesAt n = (rowsOf n p.flatten).map (fun r => List.replicate (4 * r.depth) ' ' ++
      Text.unwords (Labelled.name r.instr.opcode :: r.instr.operandWords)) ∧
    (rowsOf n p.flatten).map Row.instr = p.flatten ∧
    Text.lines p.printed = p.lines ∧ (Text.lines p.printed).length = p.flatten.length ∧
    Text.unlines (Text.lines p.printed) = p.printed ∧
    p.linesAt n = (p.linesAt 0).map fun l => List.replicate (4 * n) ' ' ++ l := by
  intro offered
  have hoffered : offered = (p.rows n).map Row.bytes := List.map_map
  have hlines : Text.lines p.printed = p.lines := p.formatted_eq
  refine ⟨⟨LineWriter.between n s, ?_, ?_, ?_⟩, ?_, ?_, hlines, ?_, ?_, p.linesAt_eq n⟩
  · exact congrArg Except.ok (LineWriter.setLevel_between 0 n s)
  · rw [hoffered]
    exact p.writes n s (hs _)
  · rw [Sink.received_after (hs offered), hoffered, flatten_map_bytes]
    rfl
  · rw [p.rowsOf_flatten]
    rfl
  · rw [p.rowsOf_flatten, p.map_instr_rows]
  · rw [hlines, ← p.map_instr_rows 0, Program.lines, Program.linesAt, List.length_map,
      List.length_map]
  · rw [hlines, p.printed_eq]

/-- A trigger with a conditional whose alternative is empty, at the first level. -/
theorem written_program_lines_empty_alternative :
    let test : Comparison := ⟨.lt, .imm ⟨3⟩, .statOf .any .health⟩
    let body : Block := [.cond 0 test [.action 0 (.draw ⟨1⟩)] (some [])]
    let p : Program := ⟨[.trigger 0 .onDeath body], 0⟩
    let text := "    WHEN ON_DEATH\n        IF LT IMM 3 STAT_OF ANY HEALTH\n            DRAW 2\n".toList ++
      "        ELSE\n        ENDIF\n    ENDWHEN\n    END\n".toList
    Sink.NeverRefuses ({} : Store) ∧
      ∃ w w', LineWriter.startAt 1 { sink := ({} : Store) } = .ok w ∧ p.write.result w = (.ok (), w') ∧
        w'.level = 1 ∧ w'.pending = false ∧ w'.sink.contents = Text.utf8 text ∧
        (Text.lines p.printed).length = 7 := by
  intro test body p text
  have hs : Sink.NeverRefuses ({} : Store) := Sink.neverRefuses_store rfl
  obtain ⟨⟨w, hw, hwritten, hreceived⟩, -, -, -, hlength, -⟩ := written_program_lines hs p 1
  have htext : Text.unlines (p.linesAt 1) = text := by
    decide +kernel
  refine ⟨hs, w, _, hw, hwritten, rfl, rfl, ?_, hlength⟩
  rw [← htext]
  exact hreceived

end Printed

end AbilityScript
