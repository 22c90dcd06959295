import AbilityScript.Proofs.Blocks.Stray
import AbilityScript.Proofs.Bytecode.Layout
import AbilityScript.Proofs.RoundTrip.Text

/-!
# Bytecode in normal form

Any bytes from which a program can be read have a normal form: the bytecode that their text assembles
to. It is read without errors and has the same text. What is lost on the way are the values of bytes
beyond their reduction, the delimiters that fit nowhere, the header, and everything behind the `END`;
an `END` that was only inferred is written out.

## Main definitions

* `normalize`: bytecode in normal form, with a given header byte.
* `IsNormal`: what sets apart bytecode that is in normal form.

## Main statements

* `normalize_eq`: the normal form is the bytecode of the program that was read.
* `isNormal_iff`: bytecode is in normal form exactly if it is its own normal form.
* `disassemble_normalize`: what is read from the normal form.
-/

set_option autoImplicit false

namespace AbilityScript

open ByteCoded (clamp)

/-- The bytecode that the text of bytecode assembles to, with a given header byte. -/
def normalize (config : DecodeConfig) (version : UInt8) (bs : Bytes) : Bytes :=
  (assemble version (disassemble config bs).text).bytecode

/-- The instructions read from bytecode that fit nowhere in the block structure. -/
def strayInstrs (config : DecodeConfig) (bs : Bytes) : List Located :=
  (blockScan [] (decode config bs).instrs).stray

/-- The instructions read from bytecode but for those that fit nowhere. -/
def placedInstrs (config : DecodeConfig) (bs : Bytes) : List Located :=
  (decode config bs).instrs.filter fun l => l ∉ strayInstrs config bs

/-- Bytecode with nothing that normalizing would change. -/
structure IsNormal (config : DecodeConfig) (version : UInt8) (bs : Bytes) : Prop where
  /-- The header is the given one. -/
  header : bs.head? = some version
  /-- Every instruction that is read lies there as it would be written. -/
  encoded : ∀ l ∈ (decode config bs).instrs, l.instr.encode <+: bs.drop l.pc
  /-- The last byte is an `END` that is read. -/
  ends : ∃ front b, bs = front ++ [b] ∧ (clamp b : Opcode) = .stop ∧
    ⟨front.length, .stop⟩ ∈ (decode config bs).instrs
  /-- Every instruction that is read has a place in the block structure. -/
  placed : strayInstrs config bs = []

variable {config : DecodeConfig} {bs : Bytes} {p : Program}

/-- A program is only read from bytecode that has a header. -/
theorem exists_reads_of_program (hp : (disassemble config bs).program = some p) :
    ∃ header tail errors, bs = header :: tail ∧ Reads 1 tail (decode config bs).instrs errors := by
  cases bs with
  | nil =>
    have hempty : parse [] = { program := none, errors := [.missingTerminator] } :=
      (ReadsOutermost.exhausted (.nil .outermost)).parse_eq
    simp [disassemble, decode, hempty] at hp
  | cons header tail =>
    have hread := reads_decodeFrom 1 tail
    refine ⟨header, tail, (decodeFrom 1 tail).2, rfl, ?_⟩
    rw [hread.decode_eq config]
    exact hread

/-- The instructions that have a place spell the program, and the others are delimiters. -/
theorem spelledBy_placedInstrs (hp : (disassemble config bs).program = some p) :
    p.SpelledBy (placedInstrs config bs) ∧
      ∀ l ∈ strayInstrs config bs, l.instr.isDelimiter = true := by
  obtain ⟨header, tail, errors, -, hread⟩ := exists_reads_of_program hp
  obtain ⟨front, last, hsplit, hfront⟩ := hread.ends_in_stop
  have hnodup : (decode config bs).instrs.Nodup := by
    rw [hread.eq_locate]
    exact nodup_locate 1 _
  exact spelledBy_filter_stray hsplit hfront hnodup hp

/-- The lines of what is read are those of the program. -/
theorem lines_of_program (hp : (disassemble config bs).program = some p) :
    (disassemble config bs).lines = p.lines := by
  have hparse : (parse (decode config bs).instrs).program = some p := hp
  show ((parse (decode config bs).instrs).program.map Program.formatted).getD [] = p.lines
  rw [hparse]
  exact p.formatted_eq

/-- The normal form is the bytecode of the program that is read. -/
theorem normalize_eq (version : UInt8) (hp : (disassemble config bs).program = some p) :
    normalize config version bs = bytecode version p.flatten := by
  rw [normalize, Disassembly.text, lines_of_program hp]
  exact (p.assemble_lines version).1

/-- The bytecode of the program that is read is in normal form. -/
theorem isNormal_of_eq {version : UInt8} (hp : (disassemble config bs).program = some p)
    (hbs : bs = bytecode version p.flatten) : IsNormal config version bs := by
  have hinstrs : (decode config bs).instrs = locate 1 p.flatten := by
    rw [hbs, p.decode_bytecode_flatten]
  have hlength : (placedInstrs config bs).length = (decode config bs).instrs.length := by
    have hflatten := (spelledBy_placedInstrs hp).1.map_instr
    rw [hinstrs, ← List.length_map Located.instr, hflatten, ← List.length_map Located.instr,
      map_instr_locate]
  constructor
  · rw [hbs]
    rfl
  · intro l hl
    rw [hinstrs] at hl
    rw [hbs]
    exact encode_prefix_drop [version] hl
  · refine ⟨version :: code (p.topLevel.flatMap TopLevel.flatten), ByteCoded.toByte Opcode.stop, ?_,
      ByteCoded.clamp_toByte Opcode.stop, ?_⟩
    · rw [hbs, bytecode_eq, Program.flatten, code_append]
      rfl
    · rw [hinstrs, Program.flatten, locate_append, List.length_cons, Nat.add_comm]
      exact List.mem_append_right _ List.mem_cons_self
  · rw [placedInstrs, List.length_filter_eq_length_iff] at hlength
    refine List.eq_nil_iff_forall_not_mem.2 fun l hl => ?_
    have hmem : l ∈ (decode config bs).instrs := (mem_stray hl).1
    exact absurd hl (by simpa using hlength l hmem)

/-- Bytecode in normal form is the bytecode of the program that is read. -/
theorem IsNormal.eq {version : UInt8} (h : IsNormal config version bs)
    (hp : (disassemble config bs).program = some p) : bs = bytecode version p.flatten := by
  obtain ⟨header, tail, errors, rfl, hread⟩ := exists_reads_of_program hp
  obtain rfl : header = version := Option.some.inj h.header
  have hflatten : (decode config (header :: tail)).instrs.map Located.instr = p.flatten := by
    have hspelled := (spelledBy_placedInstrs hp).1.map_instr
    rwa [placedInstrs, h.placed, List.filter_eq_self.2 (by simp)] at hspelled
  have hinstrs : (decode config (header :: tail)).instrs = locate 1 p.flatten := by
    rw [← hflatten]
    exact hread.eq_locate
  -- the instructions lie side by side, and the last of them ends at the last byte
  have hprefix : code p.flatten <+: tail := by
    refine code_prefix_of_mem_locate [header] tail fun l hl => ?_
    rw [List.length_singleton, ← hinstrs] at hl
    exact h.encoded l hl
  have hlength : tail.length = (code p.flatten).length := by
    obtain ⟨front, b, hfront, -, hmem⟩ := h.ends
    rw [hinstrs, Program.flatten, locate_append] at hmem
    have hpc : front.length = 1 + (code (p.topLevel.flatMap TopLevel.flatten)).length := by
      obtain hmem | hmem := List.mem_append.1 hmem
      · obtain ⟨m, -, hm⟩ := List.mem_flatMap.1 (instr_mem_of_mem_locate hmem)
        exact absurd hm m.stop_not_mem_flatten
      · exact congrArg Located.pc (List.mem_singleton.1 hmem)
    have hsize : (code [Instruction.stop]).length = 1 := rfl
    have htotal := congrArg List.length hfront
    rw [List.length_cons, List.length_append, List.length_singleton, hpc] at htotal
    rw [Program.flatten, code_append, List.length_append, hsize]
    omega
  rw [bytecode_eq, hprefix.eq_of_length hlength.symm]

/-- Bytecode is its own normal form exactly if nothing in it needs to be changed. -/
theorem isNormal_iff (version : UInt8) (hp : (disassemble config bs).program = some p) :
    normalize config version bs = bs ↔ IsNormal config version bs := by
  rw [normalize_eq version hp]
  exact ⟨fun h => isNormal_of_eq hp h.symm, fun h => (h.eq hp).symm⟩

/-- If a program is read from bytecode, its normal form is read as the same lines, with nothing wrong
but a header that is not the one asked for. The instructions in it are those of the bytecode without
the delimiters that fit nowhere, and they spell the program. Normalizing again changes nothing, and
bytecode is in normal form exactly if its header is the given one, each instruction is as it would be
written, the last byte is an `END` that is read, and nothing is stray. -/
theorem disassemble_normalize (config config' : DecodeConfig) (version : UInt8) (bs : Bytes)
    (p : Program) (hp : (disassemble config bs).program = some p) :
    let n := normalize config version bs
    (disassemble config' n).lines = (disassemble config bs).lines ∧
    (disassemble config' n).parseErrors = [] ∧
    (disassemble config' n).decodeErrors =
      (if config'.strict ∧ version ≠ config'.version then
        [.versionMismatch config'.version version] else []) ∧
    (decode config' n).instrs.map Located.instr =
      (placedInstrs config bs).map Located.instr ∧
    p.SpelledBy (placedInstrs config bs) ∧
    (∀ l ∈ strayInstrs config bs, l.instr.isDelimiter = true) ∧
    normalize config' version n = n ∧
    (n = bs ↔ IsNormal config version bs) := by
  intro n
  have hn : n = bytecode version p.flatten := normalize_eq version hp
  obtain ⟨hspelled, hstray⟩ := spelledBy_placedInstrs hp
  obtain ⟨q, herase, -, hread⟩ := p.exists_disassemble_bytecode config' version
  rw [← hn] at hread
  have hagain : normalize config' version n = n := by
    have hq : (disassemble config' n).program = some q := by rw [hread]
    rw [normalize_eq version hq, Program.flatten_eq_of_erase_eq herase, hn]
  refine ⟨?_, by rw [hread], ?_, ?_, hspelled, hstray, hagain, isNormal_iff version hp⟩
  · rw [hread, lines_of_program hp]
  · rw [hread]
    simp [headerErrors]
  · rw [hn, p.decode_bytecode_flatten, map_instr_locate, hspelled.map_instr]

/-- An `ELSE` and an `ENDIF` without a conditional, and bytes that are too large, do not survive. -/
theorem disassemble_normalize_stray_delimiters :
    let bs : Bytes := [1, 9, 14, 8, 7, 10, 27, 5]
    let p : Program := ⟨[.stmt (.action 2 (.damage .selfCard ⟨3⟩))], 6⟩
    (disassemble {} bs).program = some p ∧
      (disassemble {} (normalize {} 1 bs)).lines = (disassemble {} bs).lines ∧
      p.SpelledBy (placedInstrs {} bs) ∧
      normalize {} 1 (normalize {} 1 bs) = normalize {} 1 bs ∧ normalize {} 1 bs ≠ bs := by
  intro bs p
  have hp : (disassemble {} bs).program = some p := by decide +kernel
  obtain ⟨hlines, -, -, -, hspelled, -, hagain, hiff⟩ := disassemble_normalize {} {} 1 bs p hp
  have hstray : strayInstrs {} bs = [⟨1, .elseMark⟩, ⟨5, .endIf⟩] := by decide +kernel
  refine ⟨hp, hlines, hspelled, hagain, fun h => ?_⟩
  rw [(hiff.1 h).placed] at hstray
  exact absurd hstray (List.cons_ne_nil _ _).symm

/-- A reader that insists on the header of the original finds fault with a normal form that has
another. -/
theorem decodeErrors_normalize_of_other_header :
    let config : DecodeConfig := { version := 1, strict := true }
    (disassemble config [1, 13]).program = some ⟨[], 1⟩ ∧
      normalize config 2 [1, 13] = [2, 13] ∧
      (disassemble config (normalize config 2 [1, 13])).decodeErrors = [.versionMismatch 1 2] := by
  decide +kernel

end AbilityScript
