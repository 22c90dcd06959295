import AbilityScript.Diagnostics.Basic
import AbilityScript.Proofs.Assembly.SelfCheck
import AbilityScript.Proofs.Blocks.Retention
import AbilityScript.Proofs.Bytecode.InPlace
import AbilityScript.Proofs.Program.Relocation
import AbilityScript.Proofs.RoundTrip.Bytes

/-!
# From offsets back to lines

Where an instruction begins is found out twice. The assembler adds up the widths of the instructions it
has written; reading the bytecode goes by the opcodes it comes across. Both lead to the same offsets,
whether or not lines of the text were bad, for what is read are the instructions that were written, up
to where reading ends. It ends at an `END` of the text, at the end of the data, or at a conditional that
the end of the data cuts short. Only at the end of the data does reading arrive at an offset at which
nothing was written.

So everything that is said of an offset can be said of a line. This holds for what is not legal in the
program that is read back and for what the self-check finds, except for an `END` that was put at the end
of the data.

## Main definitions

* `WrittenEnd`: what is left of written instructions where reading ends.
* `IsSourceOf`: an instruction came from a line, and the source map says so.

## Main statements

* `exists_decode_bytecode`: how any written instructions are read.
* `exists_isSourceOf_of_mem_locate`: every instruction that is written has its line.
* `spanAtPc_assemble`: where the instructions and the errors at an offset came from.
-/

set_option autoImplicit false

namespace AbilityScript

section Written

variable {header : UInt8} {config : DecodeConfig} {is : List Instruction}

/-- What is left of written instructions where reading ends, and what is wrong there. -/
inductive WrittenEnd (pc : Nat) : List Instruction → List DecodeError → Prop where
  | exhausted : WrittenEnd pc [] []
  | stopped (rest : List Instruction) : WrittenEnd pc (.stop :: rest) []
  /-- A conditional has too few bytes behind it. -/
  | truncated (c : Comparison) (rest : List Instruction) :
      WrittenEnd pc (.ifTest c :: rest) [.truncated .ifTest pc (7 - bytesBehind c rest)]

/-- Of any written instructions those before the first `END` are read, or those before a conditional
among these that the end of the data cuts short. -/
theorem exists_decode_bytecode (config : DecodeConfig) (header : UInt8) (is : List Instruction) :
    ∃ before after errors, is = before ++ after ∧ .stop ∉ before ∧
      WrittenEnd (1 + (code before).length) after errors ∧
      decode config (bytecode header is) =
        { header := some header
          instrs := locate 1 before ++ [⟨1 + (code before).length, .stop⟩]
          errors := headerErrors config header ++ errors } := by
  have hstop := stop_notMem_takeWhile is
  have hsplit : is.takeWhile (· ≠ .stop) ++ is.dropWhile (· ≠ .stop) = is :=
    List.takeWhile_append_dropWhile
  have hjs := dropWhile_ne_stop is
  generalize is.takeWhile (· ≠ .stop) = front at hstop hsplit
  generalize is.dropWhile (· ≠ .stop) = js at hsplit hjs
  subst hsplit
  by_cases hroom : HasRoom (code js).length front
  · have hread := (readsEnd_code hjs (1 + (code front).length)).reads.code_append hstop hroom
    refine ⟨front, js, [], rfl, hstop, ?_, ?_⟩
    · obtain rfl | ⟨rest, rfl⟩ := hjs
      · exact .exhausted
      · exact .stopped rest
    · rw [bytecode_eq, code_append]
      exact hread.decode_eq config
  · obtain ⟨before, c, after, rfl, hfirst⟩ := exists_firstShort_append js hroom
    have hbefore : .stop ∉ before := by
      intro hmem
      exact hstop (List.mem_append_left _ hmem)
    refine ⟨before, .ifTest c :: (after ++ js), _, ?_, hbefore, .truncated c (after ++ js), ?_⟩
    · rw [List.append_assoc, List.cons_append]
    · rw [List.append_assoc, List.cons_append, bytecode_eq]
      exact (reads_code_of_firstShort 1 hbefore hfirst).decode_eq config

/-- An instruction that is read and stands in the bytecode was written at its offset. -/
theorem mem_locate_of_mem_presentInstrs {l : Located}
    (h : l ∈ presentInstrs config (bytecode header is)) : l ∈ locate 1 is := by
  obtain ⟨before, after, errors, rfl, -, hend, hdecode⟩ := exists_decode_bytecode config header is
  rw [presentInstrs, hdecode, List.mem_filter, List.mem_append, List.mem_singleton] at h
  obtain ⟨hmem | rfl, hpresent⟩ := h
  · rw [locate_append]
    exact List.mem_append_left _ hmem
  · rw [bytecode_eq, code_append, isPresent_stop] at hpresent
    rw [locate_append]
    apply List.mem_append_right
    cases hend with
    | exhausted => simp at hpresent
    | stopped rest => exact List.mem_cons_self
    | truncated c rest => simp [Instruction.encode, Instruction.opcode] at hpresent

end Written

section Entries

variable {pc : Nat} {ls : List AssembledLine}

/-- The offsets of a source map are those of the instructions. -/
theorem map_fst_mapSource (pc : Nat) (ls : List AssembledLine) :
    (mapSource pc ls).map Prod.fst = (locate pc (ls.map AssembledLine.instr)).map Located.pc := by
  induction ls generalizing pc with
  | nil => rfl
  | cons l ls ih => rw [mapSource, List.map_cons, ih, List.map_cons, locate_cons, List.map_cons]

/-- The ranges of a source map are those of the lines, in order. -/
theorem map_snd_mapSource (pc : Nat) (ls : List AssembledLine) :
    (mapSource pc ls).map Prod.snd = ls.map AssembledLine.span := by
  induction ls generalizing pc with
  | nil => rfl
  | cons l ls ih => rw [mapSource, List.map_cons, ih, List.map_cons]

/-- The offsets of a source map increase. -/
theorem pairwise_mapSource (pc : Nat) (ls : List AssembledLine) :
    (mapSource pc ls).Pairwise fun x y => x.1 < y.1 := by
  rw [← List.pairwise_map (R := (· < ·)), map_fst_mapSource, List.pairwise_map]
  exact pairwise_locate pc _

/-- The source map has an entry at the offset of each instruction, with the range of a line that became
it. -/
theorem exists_mem_mapSource {l : Located} (h : l ∈ locate pc (ls.map AssembledLine.instr)) :
    ∃ g ∈ ls, g.instr = l.instr ∧ (l.pc, g.span) ∈ mapSource pc ls := by
  induction ls generalizing pc with
  | nil => cases h
  | cons g ls ih =>
    rw [List.map_cons, locate_cons] at h
    cases h with
    | head => exact ⟨g, List.mem_cons_self, rfl, List.mem_cons_self⟩
    | tail _ h =>
      obtain ⟨g', hg', hinstr, hmem⟩ := ih h
      exact ⟨g', List.mem_cons_of_mem _ hg', hinstr, List.mem_cons_of_mem _ hmem⟩

/-- Each good line comes from a line of the text that assembles to its instruction. -/
theorem exists_line_of_mem_goodLines {lines : List Line} {g : AssembledLine}
    (h : g ∈ goodLines lines) :
    ∃ line ∈ lines, assembleLine line = .ok g.instr ∧ g.span = line.span := by
  obtain ⟨line, hline, hgood⟩ := List.mem_filterMap.1 h
  refine ⟨line, hline, ?_⟩
  cases hassembled : assembleLine line with
  | error f => simp [hassembled, Except.toOption] at hgood
  | ok i =>
    obtain rfl : (⟨line.span, i⟩ : AssembledLine) = g := by
      simpa [hassembled, Except.toOption] using hgood
    exact ⟨rfl, rfl⟩

/-- An entry of a list in which keys increase is found by its key. -/
theorem find?_of_pairwise {entries : List (Nat × Span)} {entry : Nat × Span}
    (hpairwise : entries.Pairwise fun x y => x.1 < y.1) (h : entry ∈ entries) :
    entries.find? (fun x => x.1 == entry.1) = some entry := by
  induction hpairwise with
  | nil => cases h
  | @cons first rest hfirst _ ih =>
    cases h with
    | head => rw [List.find?_cons_of_pos (by simp)]
    | tail _ h =>
      have hlt := hfirst entry h
      rw [List.find?_cons_of_neg (by simp; omega)]
      exact ih h

end Entries

/-- An instruction at an offset came from a line of a text, and the source map leads back to it. -/
structure IsSourceOf (a : Assembled) (source : Text) (l : Located) (line : Line) : Prop where
  mem : line ∈ sourceLines source
  assembles : assembleLine line = .ok l.instr
  spanAtPc : a.spanAtPc l.pc = some line.span

section Assembling

variable {version : UInt8} {source : Text}

/-- The offsets of the source map of a text increase. -/
theorem pairwise_sourceMap (version : UInt8) (source : Text) :
    (assemble version source).sourceMap.Pairwise fun x y => x.1 < y.1 :=
  pairwise_mapSource 1 _

/-- The range of an entry is found at its offset. -/
theorem spanAtPc_of_mem_sourceMap {entry : Nat × Span}
    (h : entry ∈ (assemble version source).sourceMap) :
    (assemble version source).spanAtPc entry.1 = some entry.2 := by
  rw [Assembled.spanAtPc, find?_of_pairwise (pairwise_sourceMap version source) h]
  rfl

/-- Every instruction that is written has its line. -/
theorem exists_isSourceOf_of_mem_locate (version : UInt8) {l : Located}
    (h : l ∈ locate 1 ((goodLines (sourceLines source)).map AssembledLine.instr)) :
    ∃ line, IsSourceOf (assemble version source) source l line := by
  obtain ⟨g, hg, hinstr, hentry⟩ := exists_mem_mapSource h
  obtain ⟨line, hline, hassembled, hspan⟩ := exists_line_of_mem_goodLines hg
  refine ⟨line, hline, hinstr ▸ hassembled, ?_⟩
  rw [← hspan]
  exact spanAtPc_of_mem_sourceMap hentry

/-- The bytecode of a text is that of the instructions of its good lines. -/
theorem bytecode_assemble (version : UInt8) (source : Text) :
    (assemble version source).bytecode =
      bytecode version ((goodLines (sourceLines source)).map AssembledLine.instr) := rfl

/-- Nothing was written at the end of the data. -/
theorem spanAtPc_length (version : UInt8) (source : Text) :
    (assemble version source).spanAtPc (assemble version source).bytecode.length = none := by
  have hpcs : (assemble version source).sourceMap.map Prod.fst =
      (locate 1 ((goodLines (sourceLines source)).map AssembledLine.instr)).map Located.pc :=
    map_fst_mapSource 1 _
  rw [Assembled.spanAtPc, Option.map_eq_none_iff, List.find?_eq_none]
  intro entry hentry heq
  have hmem := List.mem_map_of_mem (f := Prod.fst) hentry
  rw [hpcs, List.mem_map] at hmem
  obtain ⟨l, hl, hpc⟩ := hmem
  have hle := pc_add_size_le_of_mem_locate hl
  have hpos := l.instr.size_pos
  rw [beq_iff_eq, bytecode_assemble, bytecode_eq, List.length_cons] at heq
  omega

/-- A diagnostic without labels gets that of the line at its offset. -/
theorem Diagnostic.locate_of_spanAtPc {a : Assembled} {pc : Nat} {span : Span}
    (h : a.spanAtPc pc = some span) {d : Diagnostic} (hd : d.labels = []) :
    d.locate a (some pc) = { d with labels := [span] } := by
  rw [locate, Option.bind_some, h, hd]
  rfl

section Legality

variable {config : DecodeConfig} {bs : Bytes} {p : Program}

/-- The nodes of a program that is read are instructions that stand in the bytecode. -/
theorem mem_presentInstrs_of_mem_heads (hp : (disassemble config bs).program = some p) {l : Located}
    (h : l ∈ p.heads) : l ∈ presentInstrs config bs := by
  rw [(spelledBy_placedInstrs hp).1.heads_eq, List.mem_filter] at h
  have hread : l ∈ (decode config bs).instrs := (List.mem_filter.1 h.1).1
  have hne : l.instr ≠ .stop := by
    intro hstop
    rw [hstop] at h
    exact absurd h.2 (by decide)
  rw [presentInstrs, List.mem_filter]
  exact ⟨hread, by simp [Located.isPresent, hne]⟩

/-- Whatever is not legal in a program that is read is about a node that begins with an instruction
which stands in the bytecode. -/
theorem exists_mem_presentInstrs_of_mem_check (hp : (disassemble config bs).program = some p)
    {e : SemanticError} (he : e ∈ p.check) :
    ∃ v ∈ p.visits, e.Flags v ∧ ∃ l, v.head? = some l ∧ l.pc = e.pc ∧ l ∈ presentInstrs config bs := by
  obtain ⟨v, hv, hflags⟩ := exists_visit_of_mem_check he
  obtain ⟨l, hl, hpc⟩ := exists_head?_of_flags hflags
  exact ⟨v, hv, hflags, l, hl, hpc,
    mem_presentInstrs_of_mem_heads hp (List.mem_filterMap.2 ⟨v, hv, hl⟩)⟩

end Legality

section SelfCheck

/-- An error in the block structure that is about an offset is about an `END` there. -/
theorem mem_of_mem_parse_errors {is : List Located} {e : ParseError} (h : e ∈ (parse is).errors)
    {pc : Nat} (hpc : e.pc? = some pc) : e = .unexpectedTerminator .stop pc ∧ ⟨pc, .stop⟩ ∈ is := by
  rw [parse_errors_eq, BlockScan.errors, List.mem_append] at h
  cases h with
  | inl h =>
    obtain ⟨l, hl, rfl⟩ := List.mem_map.1 h
    obtain ⟨hstray, hstop⟩ := List.mem_filter.1 hl
    obtain rfl : l.pc = pc := Option.some.inj hpc
    have hmem := (mem_stray hstray).1
    rw [Located.isStop, beq_iff_eq] at hstop
    exact ⟨rfl, hstop ▸ hmem⟩
  | inr h =>
    cases hending : (blockScan [] is).ending with
    | closed => simp [hending] at h
    | exhausted stack =>
      rw [hending, List.mem_append, List.mem_map, List.mem_singleton] at h
      obtain ⟨b, -, rfl⟩ | rfl := h <;> cases hpc

/-- What the self-check finds at an offset is found where an instruction was written, or it is an `END`
that was put at the end of the data. -/
theorem mem_selfCheck {version : UInt8} {is : List Instruction} {e : SelfCheckError}
    (h : e ∈ (selfCheck version (bytecode version is)).1) {pc : Nat} (hpc : e.pc? = some pc) :
    (∃ i, ⟨pc, i⟩ ∈ locate 1 is) ∨
      e = .parse (.unexpectedTerminator .stop pc) ∧ pc = (bytecode version is).length := by
  obtain ⟨before, after, errors, rfl, hstop, hend, hdecode⟩ :=
    exists_decode_bytecode { version } version is
  have hheader : headerErrors { version } version = [] := rfl
  rw [hheader, List.nil_append] at hdecode
  have hlast : (∃ i, ⟨1 + (code before).length, i⟩ ∈ locate 1 (before ++ after)) ∨
      after = [] := by
    rw [locate_append]
    cases after with
    | nil => exact .inr rfl
    | cons i after => exact .inl ⟨i, List.mem_append_right _ List.mem_cons_self⟩
  have hlength : after = [] →
      1 + (code before).length = (bytecode version (before ++ after)).length := by
    rintro rfl
    rw [bytecode_eq, List.append_nil, List.length_cons, Nat.add_comm]
  rw [selfCheck, hdecode, List.mem_append, List.mem_map, List.mem_map] at h
  obtain ⟨d, hd, rfl⟩ | ⟨q, hq, rfl⟩ := h
  · cases hend with
    | exhausted | stopped => cases hd
    | truncated c rest =>
      obtain rfl := List.mem_singleton.1 hd
      obtain rfl : 1 + (code before).length = pc := Option.some.inj hpc
      exact hlast.imp_right fun h => absurd h (List.cons_ne_nil _ _)
  · obtain ⟨rfl, hmem⟩ := mem_of_mem_parse_errors hq hpc
    obtain rfl : pc = 1 + (code before).length := by
      rw [List.mem_append, List.mem_singleton] at hmem
      obtain hmem | hmem := hmem
      · exact absurd (instr_mem_of_mem_locate hmem) hstop
      · exact congrArg Located.pc hmem
    exact hlast.imp_right fun h => ⟨rfl, hlength h⟩

end SelfCheck

/-- The errors that the self check leaves are among those of checking the bytecode. -/
theorem mem_selfCheckErrors {e : SelfCheckError}
    (h : e ∈ (assemble version source).selfCheckErrors) :
    e ∈ (selfCheck version (assemble version source).bytecode).1 := by
  have hcheck := congrArg Prod.fst (assemble_selfCheck version source)
  dsimp only at hcheck
  rw [hcheck] at h
  split at h
  · exact h
  · cases h

/-- The source map of a text, bad lines or not, has the spans of the good lines in order, and the offsets
at which their instructions lie side by side behind the header. These are the offsets that reading the
bytecode comes to: every instruction that is read and stands in the bytecode has an entry, which leads to
the line that it came from; and no offset has two. So whatever is not legal in the program that is read back is shown at
the line of the node that it is about; and what the self-check finds at an offset is shown at a line,
unless it is an `END` that was put at the end of the data inside a block. -/
theorem spanAtPc_assemble (version : UInt8) (source : Text) :
    let a := assemble version source
    let good := goodLines (sourceLines source)
    a.sourceMap.map Prod.snd = good.map AssembledLine.span ∧
    a.sourceMap.map Prod.fst = (locate 1 (good.map AssembledLine.instr)).map Located.pc ∧
    (∀ config, ∀ l ∈ presentInstrs config a.bytecode, ∃ line, IsSourceOf a source l line) ∧
    (a.sourceMap.Pairwise fun x y => x.1 < y.1) ∧
    (∀ entry ∈ a.sourceMap, a.spanAtPc entry.1 = some entry.2) ∧
    (∀ config p, (disassemble config a.bytecode).program = some p → ∀ e ∈ p.check,
      ∃ v ∈ p.visits, e.Flags v ∧ ∃ l line, v.head? = some l ∧ l.pc = e.pc ∧
        IsSourceOf a source l line ∧
        a.semanticDiagnostic e = { e.diagnostic with labels := [line.span] }) ∧
    ∀ e ∈ a.selfCheckErrors, ∀ pc, e.pc? = some pc →
      if e = .parse (.unexpectedTerminator .stop a.bytecode.length) then
        (a.selfCheckDiagnostic e).labels = []
      else ∃ i line, IsSourceOf a source ⟨pc, i⟩ line ∧
        (a.selfCheckDiagnostic e).labels = [line.span] := by
  intro a good
  have hpresent (config : DecodeConfig) (l : Located) (hl : l ∈ presentInstrs config a.bytecode) :
      ∃ line, IsSourceOf a source l line :=
    exists_isSourceOf_of_mem_locate version (mem_locate_of_mem_presentInstrs hl)
  refine ⟨map_snd_mapSource 1 good, map_fst_mapSource 1 good, hpresent,
    pairwise_sourceMap version source, fun _ => spanAtPc_of_mem_sourceMap, ?_, ?_⟩
  · intro config p hp e he
    obtain ⟨v, hv, hflags, l, hhead, hpc, hl⟩ := exists_mem_presentInstrs_of_mem_check hp he
    obtain ⟨line, hline⟩ := hpresent config l hl
    have hspan := hline.spanAtPc
    rw [hpc] at hspan
    exact ⟨v, hv, hflags, l, line, hhead, hpc, hline, Diagnostic.locate_of_spanAtPc hspan rfl⟩
  · intro e he pc hpc
    split
    case isTrue hsynthesized =>
      rw [Assembled.selfCheckDiagnostic, hsynthesized]
      show (Diagnostic.locate a (some a.bytecode.length) _).labels = []
      rw [Diagnostic.locate, Option.bind_some, spanAtPc_length]
      rfl
    case isFalse hwritten =>
      obtain ⟨i, hi⟩ | ⟨rfl, rfl⟩ := mem_selfCheck (mem_selfCheckErrors he) hpc
      · obtain ⟨line, hline⟩ := exists_isSourceOf_of_mem_locate version hi
        refine ⟨i, line, hline, ?_⟩
        rw [Assembled.selfCheckDiagnostic, hpc, Diagnostic.locate_of_spanAtPc hline.spanAtPc rfl]
      · exact absurd rfl hwritten

/-- A second `DRAW` behind a bad line is shown at its own line. An `END` that was put in the place of a
conditional which the end of the data cuts short is shown at the line of that conditional, and one that
was put behind an open trigger is shown nowhere. -/
theorem spanAtPc_assemble_behind_bad_line :
    let bad := "DRAW 1\nHEEL ME 2\nDRAW 2\nEND".toList
    let short := "WHEN ON_CAST\nIF GT IMM 5 IMM 3\nENDIF".toList
    let opened := "WHEN ON_CAST".toList
    let p : Program := ⟨[.stmt (.action 1 (.draw ⟨0⟩)), .stmt (.action 3 (.draw ⟨1⟩))], 5⟩
    let repeated : SemanticError := ⟨.repeated .draw, 3⟩
    let inTrigger : SelfCheckError := .parse (.unexpectedTerminator .stop 3)
    (assemble 1 bad).errors ≠ [] ∧ (disassemble {} (assemble 1 bad).bytecode).program = some p ∧
      repeated ∈ p.check ∧
      (∃ l line, l.pc = 3 ∧ IsSourceOf (assemble 1 bad) bad l line ∧
        (assemble 1 bad).semanticDiagnostic repeated =
          { repeated.diagnostic with labels := [line.span] }) ∧
      inTrigger ∈ (assemble 1 short).selfCheckErrors ∧
      (∃ i line, IsSourceOf (assemble 1 short) short ⟨3, i⟩ line ∧
        ((assemble 1 short).selfCheckDiagnostic inTrigger).labels = [line.span]) ∧
      inTrigger ∈ (assemble 1 opened).selfCheckErrors ∧
      ((assemble 1 opened).selfCheckDiagnostic inTrigger).labels = [] := by
  intro bad short opened p repeated inTrigger
  have herrors : (assemble 1 bad).errors ≠ [] := by decide +kernel
  have hp : (disassemble {} (assemble 1 bad).bytecode).program = some p := by decide +kernel
  have hrepeated : repeated ∈ p.check := by decide +kernel
  have hshort : inTrigger ∈ (assemble 1 short).selfCheckErrors := by decide +kernel
  have hopened : inTrigger ∈ (assemble 1 opened).selfCheckErrors := by decide +kernel
  obtain ⟨-, -, -, -, -, hlegality, -⟩ := spanAtPc_assemble 1 bad
  obtain ⟨-, -, -, l, line, -, hpc, hline, hshown⟩ := hlegality {} p hp repeated hrepeated
  obtain ⟨-, -, -, -, -, -, hcutShort⟩ := spanAtPc_assemble 1 short
  have hcut := hcutShort inTrigger hshort 3 rfl
  rw [if_neg (by decide +kernel)] at hcut
  obtain ⟨-, -, -, -, -, -, hputBehind⟩ := spanAtPc_assemble 1 opened
  have hput := hputBehind inTrigger hopened 3 rfl
  rw [if_pos (by decide +kernel)] at hput
  exact ⟨herrors, hp, hrepeated, ⟨l, line, hpc, hline, hshown⟩, hshort, hcut, hopened, hput⟩

end Assembling

end AbilityScript
