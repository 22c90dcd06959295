import AbilityScript.Proofs.Assembly.CleanText
import AbilityScript.Proofs.Assembly.PrintedInstructions
import AbilityScript.Proofs.RoundTrip.Program

/-!
# Programs as text and back

The lines that show a program assemble to its bytecode, and the bytecode is read back as the same
program. Only offsets change: those in the program that is read back are the offsets at which its
instructions lie in the new bytecode. This holds of every tree, whatever offsets it carries and
however deep or empty its blocks are.

## Main statements

* `Program.assemble_lines`, `Program.assemble_printed`: what comes of assembling the text of a program.
* `text_roundtrip`: the way from a program to text, bytecode and back.
-/

set_option autoImplicit false

namespace AbilityScript

/-- The version byte is not complained about unless another one is insisted on. -/
theorem headerErrors_eq_nil {config : DecodeConfig} {header : UInt8}
    (h : config.strict = true → config.version = header) : headerErrors config header = [] := by
  rw [headerErrors]
  split
  · rename_i hstrict
    rw [Bool.and_eq_true, bne_iff_ne] at hstrict
    exact absurd (h hstrict.1).symm hstrict.2
  · rfl

/-- The lines of a program assemble without errors to its bytecode. -/
theorem Program.assemble_lines (p : Program) (version : UInt8) :
    let a := assemble version (Text.unlines p.lines)
    a.bytecode = bytecode version p.flatten ∧ a.errors = [] ∧ a.selfCheckErrors = [] ∧
      a.disassembly = p.lines := by
  have hlines := map_assembleLine_rows (p.rows 0)
  rw [p.map_instr_rows] at hlines
  obtain ⟨q, -, -, hread⟩ := p.exists_disassemble_bytecode { version } version
  have hheader : headerErrors { version } version = [] := headerErrors_eq_nil fun _ => rfl
  rw [hheader] at hread
  rw [Program.lines, Program.linesAt, assemble_of_map_assembleLine version hlines, selfCheck_eq,
    hread]
  exact ⟨rfl, rfl, rfl, rfl⟩

/-- The text that a line writer writes of a program assembles in the same way. -/
theorem Program.assemble_printed (p : Program) (version : UInt8) :
    let a := assemble version p.printed
    a.bytecode = bytecode version p.flatten ∧ a.errors = [] ∧ a.selfCheckErrors = [] ∧
      a.disassembly = p.formatted := by
  rw [p.printed_eq, p.formatted_eq]
  exact p.assemble_lines version

/-- The text that a line writer writes of a program is the lines of the program, each followed by a line
break, and falls apart into them. It assembles without errors to the bytecode of the program, and the
disassembly is the same text. Unless another header is asked for, the bytecode is read without errors as
the instructions that spell the program, each located where its bytes begin, and these are recovered as
the same program with these offsets. -/
theorem text_roundtrip (p : Program) (version : UInt8) :
    let a := assemble version p.printed
    p.printed = Text.unlines p.lines ∧ p.formatted = p.lines ∧
    a.errors = [] ∧ a.selfCheckErrors = [] ∧
    a.bytecode = bytecode version p.flatten ∧
    a.disassembly = p.formatted ∧
    ∀ config : DecodeConfig, (config.strict = true → config.version = version) →
      let decoded := decode config a.bytecode
      decoded.errors = [] ∧
      decoded.instrs = locate 1 p.flatten ∧
      (∀ l ∈ decoded.instrs, l.instr.encode <+: a.bytecode.drop l.pc) ∧
      ∃ q : Program, parse decoded.instrs = { program := some q, errors := [] } ∧
        q.erase = p.erase ∧ q.SpelledBy decoded.instrs := by
  obtain ⟨hbytes, herrors, hcheck, hlines⟩ := p.assemble_printed version
  refine ⟨p.printed_eq, p.formatted_eq, herrors, hcheck, hbytes, hlines, fun config hconfig => ?_⟩
  obtain ⟨q, herase, hspelled⟩ := p.exists_spelledBy_locate 1
  have hparse := hspelled.parse_append []
  rw [List.append_nil] at hparse
  rw [hbytes, p.decode_bytecode_flatten config version, headerErrors_eq_nil hconfig]
  exact ⟨rfl, rfl, fun l hl => encode_prefix_drop [version] hl, q, hparse, herase, hspelled⟩

end AbilityScript
