import AbilityScript.Proofs.Assembly.CleanText
import AbilityScript.Proofs.Blocks.Nesting
import AbilityScript.Proofs.Bytecode.Layout
import AbilityScript.Proofs.Layout.ProgramLines

/-!
# When the self-check finds nothing

A text without bad lines passes the self-check exactly if its instructions have a simple form up to the
first `END`. What is read back is cut off at that `END`, so it has to stand outside all blocks. If there
is none, no block may be open at the end, and the data must not be too short for the last conditional.
In both cases every block before is closed, and what closes a conditional and the `END` are bytes
behind it; so the one conditional that can be too close to the end of the data is one on two constants
with nothing behind it but its `ENDIF`.

## Main statements

* `endIf_mem_of_through_eq_nil`: where no block is open, every conditional was closed.
* `hasRoom_iff_of_through_eq_nil`: when closed blocks leave their conditionals too few bytes.
* `selfCheck_eq_nil_iff`: the bytecode of instructions that passes.
* `isOk_assemble_iff`: the texts that assemble to a program.
-/

set_option autoImplicit false

namespace AbilityScript

section Balance

namespace OpenBlock

variable {stack : List OpenBlock} {i : Instruction} {is : List Instruction}

/-- Only an `ENDIF` closes a conditional: after any other instruction one is still open. -/
theorem exists_conditional_step (h : ∃ b ∈ stack, b ≠ .trigger) (hi : i ≠ .endIf) :
    ∃ b ∈ step stack i, b ≠ .trigger := by
  match stack with
  | [] => simp at h
  | b :: stack => cases b <;> cases i <;> simp_all [step, after]

/-- A conditional that is open stays so as long as no `ENDIF` comes. -/
theorem exists_conditional_through (h : ∃ b ∈ stack, b ≠ .trigger) (his : .endIf ∉ is) :
    ∃ b ∈ through stack is, b ≠ .trigger := by
  induction is generalizing stack with
  | nil => exact h
  | cons i is ih =>
    rw [List.mem_cons, not_or] at his
    exact ih (exists_conditional_step h (Ne.symm his.1)) his.2

end OpenBlock

variable {before after : List Instruction} {c : Comparison}

/-- Where no block is open, an `ENDIF` stands behind every conditional. -/
theorem endIf_mem_of_through_eq_nil
    (h : OpenBlock.through [] (before ++ .ifTest c :: after) = []) : .endIf ∈ after := by
  refine Decidable.byContradiction fun hnotMem => ?_
  rw [OpenBlock.through_append, OpenBlock.through_cons] at h
  generalize OpenBlock.through [] before = stack at h
  have hopen : ∃ b ∈ OpenBlock.step stack (.ifTest c), b ≠ .trigger :=
    ⟨.thenBranch, by cases stack <;> simp [OpenBlock.step, OpenBlock.after], by decide⟩
  obtain ⟨b, hb, -⟩ := OpenBlock.exists_conditional_through hopen hnotMem
  rw [h] at hb
  exact absurd hb List.not_mem_nil

/-- Closed blocks with some bytes behind them leave every conditional enough bytes, unless there are no
such bytes and the blocks end in a conditional on constants with nothing in it. -/
theorem hasRoom_iff_of_through_eq_nil {is : List Instruction} (h : OpenBlock.through [] is = [])
    (extra : Nat) :
    HasRoom extra is ↔ ¬(extra = 0 ∧ ∃ front c, is = front ++ [.ifTest c, .endIf] ∧ c.isConstant) := by
  constructor
  · rintro hroom ⟨rfl, front, c, rfl, hc⟩
    have hlt := (bytesBehind_add_lt_iff c (List.cons_ne_nil .endIf []) 0).2 ⟨hc, rfl⟩
    have hle := hroom front c [.endIf] rfl
    omega
  · rintro hshort before c after rfl
    refine Nat.le_of_not_lt fun hlt => hshort ?_
    -- the `ENDIF` is the only byte that follows, in the data as well as among the instructions
    have hmem := endIf_mem_of_through_eq_nil h
    obtain ⟨hc, hone⟩ := (bytesBehind_add_lt_iff c (List.ne_nil_of_mem hmem) extra).1 hlt
    obtain ⟨a, b, rfl⟩ := List.append_of_mem hmem
    have hsize : Instruction.endIf.size = 1 := rfl
    simp only [code_append, code_cons, List.length_append, length_encode, hsize] at hone
    obtain rfl : a = [] := length_code_eq_zero.1 (by omega)
    obtain rfl : b = [] := length_code_eq_zero.1 (by omega)
    exact ⟨by omega, before, c, rfl, hc⟩

end Balance

section Reading

variable {front js : List Instruction}

/-- Where reading ends behind instructions without an `END` if it gets there: at an `END`, or at the end
of the data. -/
theorem readsEnd_code (hjs : js = [] ∨ ∃ rest, js = .stop :: rest) (pc : Nat) :
    ReadsEnd pc (code js) [] := by
  obtain rfl | ⟨rest, rfl⟩ := hjs
  · exact .exhausted pc
  · exact .stopped (ByteCoded.clamp_toByte Opcode.stop)

/-- The bytecode of instructions passes the self-check exactly if no block is open at the first `END` or
at the end, and every conditional before has enough bytes behind it. -/
theorem selfCheck_eq_nil_iff (version : UInt8) (hstop : .stop ∉ front)
    (hjs : js = [] ∨ ∃ rest, js = .stop :: rest) :
    (selfCheck version (bytecode version (front ++ js))).1 = [] ↔
      OpenBlock.through [] front = [] ∧ HasRoom (code js).length front := by
  have hdecode {is : List Located} {errors : List DecodeError}
      (h : Reads 1 (code (front ++ js)) is errors) :
      decode { version } (bytecode version (front ++ js)) =
        { header := some version, instrs := is, errors } := by
    rw [bytecode_eq, h.decode_eq]
    rfl
  have hselfCheck : (selfCheck version (bytecode version (front ++ js))).1 =
      (decode { version } (bytecode version (front ++ js))).errors.map .decode ++
        (parse (decode { version } (bytecode version (front ++ js))).instrs).errors.map .parse := rfl
  rw [hselfCheck]
  by_cases hroom : HasRoom (code js).length front
  · have hread := (readsEnd_code hjs (1 + (code front).length)).reads.code_append hstop hroom
    rw [← code_append] at hread
    have hnotMem : .stop ∉ (locate 1 front).map Located.instr := by rwa [map_instr_locate]
    have hparse := parse_errors_eq_nil_iff hnotMem (1 + (code front).length)
    rw [map_instr_locate] at hparse
    rw [hdecode hread]
    simpa [hroom] using hparse
  · obtain ⟨before, c, after, rfl, hfirst⟩ := exists_firstShort_append js hroom
    have hbefore : .stop ∉ before := fun hmem => hstop (List.mem_append_left _ hmem)
    have hread := reads_code_of_firstShort 1 hbefore hfirst
    rw [← List.cons_append, ← List.append_assoc] at hread
    rw [hdecode hread]
    simp [hroom]

end Reading

section Assembling

/-- No `END` stands in front of the first one. -/
theorem stop_notMem_takeWhile (is : List Instruction) : .stop ∉ is.takeWhile (· ≠ .stop) := by
  intro hmem
  simpa using List.all_eq_true.1 List.all_takeWhile _ hmem

/-- What follows the instructions before the first `END`: nothing, or that `END`. -/
theorem dropWhile_ne_stop (is : List Instruction) :
    is.dropWhile (· ≠ .stop) = [] ∨ ∃ rest, is.dropWhile (· ≠ .stop) = .stop :: rest := by
  induction is with
  | nil => exact .inl rfl
  | cons i is ih =>
    by_cases hi : i = .stop
    · exact .inr ⟨is, by simp [hi]⟩
    · simpa [List.dropWhile_cons, hi] using ih

/-- The bytecode of instructions passes the self-check exactly if no block is open at the first `END`,
or there is none, no block is open at the end, and the instructions do not end in a conditional on
constants with nothing in it. -/
theorem selfCheck_bytecode_eq_nil_iff (version : UInt8) (is : List Instruction) :
    (selfCheck version (bytecode version is)).1 = [] ↔
      (.stop ∈ is ∧ OpenBlock.through [] (is.takeWhile (· ≠ .stop)) = []) ∨
      (.stop ∉ is ∧ OpenBlock.through [] is = [] ∧
        ¬∃ front c, is = front ++ [.ifTest c, .endIf] ∧ c.isConstant) := by
  have hfront := stop_notMem_takeWhile is
  have hsplit : is.takeWhile (· ≠ .stop) ++ is.dropWhile (· ≠ .stop) = is :=
    List.takeWhile_append_dropWhile
  have hiff := selfCheck_eq_nil_iff version hfront (dropWhile_ne_stop is)
  rw [hsplit] at hiff
  rw [hiff]
  obtain hnil | ⟨rest, hrest⟩ := dropWhile_ne_stop is
  · rw [hnil, List.append_nil] at hsplit
    rw [hsplit] at hfront
    rw [hnil, hsplit, code_nil, List.length_nil]
    constructor
    · rintro ⟨hopen, hroom⟩
      exact .inr ⟨hfront, hopen, fun hshort =>
        (hasRoom_iff_of_through_eq_nil hopen 0).1 hroom ⟨rfl, hshort⟩⟩
    · rintro (⟨hmem, -⟩ | ⟨-, hopen, hshort⟩)
      · exact absurd hmem hfront
      · exact ⟨hopen, (hasRoom_iff_of_through_eq_nil hopen 0).2 fun h => hshort h.2⟩
  · have hmem : .stop ∈ is := by
      rw [← hsplit, hrest]
      exact List.mem_append_right _ List.mem_cons_self
    have hpos : (code (is.dropWhile (· ≠ .stop))).length ≠ 0 := by
      rw [hrest, ne_eq, length_code_eq_zero]
      exact List.cons_ne_nil _ _
    constructor
    · rintro ⟨hopen, -⟩
      exact .inl ⟨hmem, hopen⟩
    · rintro (⟨-, hopen⟩ | ⟨hnotMem, -⟩)
      · exact ⟨hopen, (hasRoom_iff_of_through_eq_nil hopen _).2 fun h => hpos h.1⟩
      · exact absurd hmem hnotMem

/-- The last line of a program is `END`. -/
theorem Program.getLast?_lines (p : Program) : p.lines.getLast? = some "END".toList := by
  have hstop : (Row.mk 0 .stop).text = "END".toList := by decide
  simp [lines, linesAt, rows, hstop]

/-- Where the self-check finds nothing, the last line it shows is `END`. -/
theorem getLast?_selfCheck {version : UInt8} {bs : Bytes} (h : (selfCheck version bs).1 = []) :
    (selfCheck version bs).2.getLast? = some "END".toList := by
  rw [selfCheck, List.append_eq_nil_iff, List.map_eq_nil_iff, List.map_eq_nil_iff] at h
  obtain ⟨p, hp⟩ := exists_program_of_parse_errors h.2
  rw [selfCheck, hp]
  show p.formatted.getLast? = some "END".toList
  rw [p.formatted_eq]
  exact p.getLast?_lines

/-- The self-check is made exactly if no line is bad. -/
theorem assemble_selfCheck (version : UInt8) (source : Text) :
    ((assemble version source).selfCheckErrors, (assemble version source).disassembly) =
      if (assemble version source).errors.isEmpty then
        selfCheck version (assemble version source).bytecode
      else ([], []) := rfl

/-- An assembled text is good exactly if neither its lines nor its bytecode have errors. -/
theorem Assembled.isOk_iff {a : Assembled} : a.isOk ↔ a.errors = [] ∧ a.selfCheckErrors = [] := by
  simp [isOk]

/-- If no line of a text is bad, its lines are instructions, and it assembles to a program exactly in
two cases: no block is open at the first `END`; or there is no `END`, no block is open at the end, and
the last two instructions are not a conditional on constants and its `ENDIF`. The last line of the
program is then `END`. If a line is bad, no program is shown and the self-check has nothing to say. -/
theorem isOk_assemble_iff (version : UInt8) (source : Text) :
    let a := assemble version source
    let is := (goodLines (sourceLines source)).map AssembledLine.instr
    (a.errors = [] → (sourceLines source).map assembleLine = is.map .ok ∧
      (a.isOk ↔
        (.stop ∈ is ∧ OpenBlock.through [] (is.takeWhile (· ≠ .stop)) = []) ∨
        (.stop ∉ is ∧ OpenBlock.through [] is = [] ∧
          ¬∃ front c, is = front ++ [.ifTest c, .endIf] ∧ c.isConstant))) ∧
    (a.isOk → a.disassembly.getLast? = some "END".toList) ∧
    (a.errors ≠ [] → a.disassembly = [] ∧ a.selfCheckErrors = []) := by
  intro a is
  have hcheck : (a.selfCheckErrors, a.disassembly) =
      if a.errors.isEmpty then selfCheck version a.bytecode else ([], []) :=
    assemble_selfCheck version source
  have hbytes : a.bytecode = bytecode version is := rfl
  refine ⟨fun herrors => ⟨map_assembleLine_of_filterMap_lineError? herrors, ?_⟩, fun hok => ?_,
    fun herrors => ?_⟩
  · rw [herrors, hbytes] at hcheck
    have hself : a.selfCheckErrors = (selfCheck version (bytecode version is)).1 :=
      congrArg Prod.fst hcheck
    rw [Assembled.isOk_iff, hself, selfCheck_bytecode_eq_nil_iff]
    exact and_iff_right herrors
  · obtain ⟨herrors, hnone⟩ := Assembled.isOk_iff.1 hok
    rw [herrors] at hcheck
    have hself : a.selfCheckErrors = (selfCheck version a.bytecode).1 := congrArg Prod.fst hcheck
    have hshown : a.disassembly = (selfCheck version a.bytecode).2 := congrArg Prod.snd hcheck
    rw [hshown]
    exact getLast?_selfCheck (hself ▸ hnone)
  · rw [if_neg (by simpa using herrors)] at hcheck
    exact (Prod.mk.inj hcheck).symm

/-- A conditional on constants with nothing in it cannot be the last of a text, but its `ENDIF` may be
followed by an `END`. A line that is no instruction leaves nothing to check. -/
theorem isOk_assemble_conditional_on_constants :
    let short := "IF GT IMM 5 IMM 3\nENDIF".toList
    let ended := "IF GT IMM 5 IMM 3\nENDIF\nEND".toList
    let bad := "IF GT IMM 5 IMM 3\nENDIFF\nEND".toList
    (assemble 1 short).errors = [] ∧ (assemble 1 short).isOk = false ∧
      (assemble 1 ended).errors = [] ∧ (assemble 1 ended).isOk = true ∧
      (assemble 1 ended).disassembly.getLast? = some "END".toList ∧
      (assemble 1 bad).errors ≠ [] ∧ (assemble 1 bad).disassembly = [] := by
  intro short ended bad
  have hshort : (assemble 1 short).errors = [] := by decide +kernel
  have hended : (assemble 1 ended).errors = [] := by decide +kernel
  have hbad : (assemble 1 bad).errors ≠ [] := by decide +kernel
  have hrefused : (assemble 1 short).isOk = false := by
    rw [← Bool.not_eq_true, ((isOk_assemble_iff 1 short).1 hshort).2]
    rintro (⟨hstop, -⟩ | ⟨-, -, hlast⟩)
    · exact absurd hstop (by decide +kernel)
    · exact hlast ⟨[], ⟨.gt, .imm ⟨5⟩, .imm ⟨3⟩⟩, by decide +kernel, by decide⟩
  have hok : (assemble 1 ended).isOk = true :=
    ((isOk_assemble_iff 1 ended).1 hended).2.2 (.inl (by decide +kernel))
  exact ⟨hshort, hrefused, hended, hok, (isOk_assemble_iff 1 ended).2.1 hok, hbad,
    ((isOk_assemble_iff 1 bad).2.2 hbad).1⟩

end Assembling

end AbilityScript
