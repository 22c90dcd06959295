import AbilityScript.Proofs.Program.Relocation
import AbilityScript.Proofs.Reading.Validity
import AbilityScript.Proofs.RoundTrip.Text

/-!
# Legality on the way through text

A program that is written as text, assembled and read back has other offsets and is otherwise the same.
Nothing goes wrong with its bytes or with its blocks on the way, however empty they are, so validation
gets as far as the rules of legality; and these do not look at offsets. What comes back is legal exactly
if the program was, and otherwise it breaks the same rules at the same nodes.

## Main statements

* `validate_bytecode`: validation of the bytecode of a program.
* `legality_roundtrip`: what the check finds at other offsets, and what becomes of it on the way through
  text.
-/

set_option autoImplicit false

namespace AbilityScript

/-- Validation of the bytecode of a program depends only on what the check finds. -/
theorem validate_bytecode {config : DecodeConfig} {header : UInt8} {p q : Program}
    (hheader : config.strict = true → config.version = header) (herase : q.erase = p.erase)
    (hread : (disassemble config (bytecode header p.flatten)).program = some q) :
    validate config (bytecode header p.flatten) =
      if p.check = [] then .valid q else .invalid .semantic := by
  obtain ⟨q', -, -, hdisassemble⟩ := p.exists_disassemble_bytecode config header
  have herrors : (disassemble config (bytecode header p.flatten)).decodeErrors = [] := by
    rw [hdisassemble]
    exact headerErrors_eq_nil hheader
  have hlegal : q.check = [] ↔ p.check = [] := by
    have hsame := congrArg List.length (Program.violations_eq_of_erase_eq herase)
    rw [List.length_map, List.length_map] at hsame
    rw [← List.length_eq_zero_iff, hsame, List.length_eq_zero_iff]
  rw [validate_of_program herrors hread]
  simp only [hlegal]

/-- Programs that differ only in offsets have the same nodes in the same order and break the same rules,
in the same order and at the same nodes. The text of a program, which is the lines that show it, assembles
to bytecode from which such a program is read. Unless another header is asked for, that bytecode is valid if the check finds
nothing in the first program, and otherwise only its legality is at fault. -/
theorem legality_roundtrip (p : Program) (version : UInt8) :
    (∃ marks : List (Violation × Nat), ∀ q : Program, q.erase = p.erase →
      q.heads.map Located.instr = p.heads.map Located.instr ∧
      q.check.map (fun e => (e.violation, some e.pc)) =
        marks.map fun m => (m.1, q.heads[m.2]?.map Located.pc)) ∧
    p.printed = Text.unlines p.lines ∧
    let bs := (assemble version p.printed).bytecode
    ∀ config : DecodeConfig, ∃ q : Program,
      (disassemble config bs).program = some q ∧ q.erase = p.erase ∧
      q.check.map SemanticError.violation = p.check.map SemanticError.violation ∧
      ((config.strict = true → config.version = version) →
        validate config bs = if p.check = [] then .valid q else .invalid .semantic) := by
  refine ⟨?_, p.printed_eq, ?_⟩
  · obtain ⟨marks, hmarks⟩ := p.exists_marks
    exact ⟨marks, fun q herase => ⟨Program.map_instr_heads_of_erase_eq herase, hmarks q herase⟩⟩
  · intro bs config
    have hbytes : bs = bytecode version p.flatten := (p.assemble_printed version).1
    obtain ⟨q, herase, -, hdisassemble⟩ := p.exists_disassemble_bytecode config version
    have hread : (disassemble config (bytecode version p.flatten)).program = some q := by
      rw [hdisassemble]
    rw [hbytes]
    refine ⟨q, hread, herase, Program.violations_eq_of_erase_eq herase, ?_⟩
    intro hheader
    exact validate_bytecode hheader herase hread

/-- A program with all nodes at one offset, which destroys the enemy twice and has an empty branch, comes
back with these errors apart. -/
theorem legality_roundtrip_of_single_offset :
    let c : Comparison := ⟨.gt, .imm ⟨5⟩, .statOf .opponent .attack⟩
    let p : Program :=
      ⟨[.stmt (.action 0 (.destroy .enemy)),
        .trigger 0 .onDeath [.cond 0 c [] none, .action 0 (.destroy .enemy)]],
        0⟩
    let bs := (assemble 1 p.printed).bytecode
    p.check = [⟨.emptyThen, 0⟩, ⟨.repeated .destroy, 0⟩] ∧
      validate {} bs = .invalid .semantic ∧
      ∃ q : Program, (disassemble {} bs).program = some q ∧
        q.check.map SemanticError.violation = [.emptyThen, .repeated .destroy] := by
  intro c p bs
  have hcheck : p.check = [⟨.emptyThen, 0⟩, ⟨.repeated .destroy, 0⟩] := by decide
  obtain ⟨-, -, hread⟩ := legality_roundtrip p 1
  obtain ⟨q, hq, -, hsame, hvalidity⟩ := hread {}
  rw [hcheck] at hsame hvalidity
  exact ⟨hcheck, hvalidity (fun h => nomatch h), q, hq, hsame⟩

end AbilityScript
