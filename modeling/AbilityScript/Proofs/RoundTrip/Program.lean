import AbilityScript.Proofs.Blocks.Spelling
import AbilityScript.Proofs.Bytecode.Inverse
import AbilityScript.Proofs.Layout.ProgramLines
import AbilityScript.Reading

/-!
# Programs as bytes and back

The bytecode of a program is read back as that program, with new offsets. It is never too short for
its conditionals: at least the `ENDIF` of a conditional and the `END` of the program follow its
operands.

## Main statements

* `Program.hasRoom_flatten`: the bytecode of a program is long enough.
* `Program.exists_disassemble_bytecode`: what it is read as.
-/

set_option autoImplicit false

namespace AbilityScript

namespace HasRoom

variable {extra : Nat} {i : Instruction} {is js : List Instruction}

/-- Other instructions need no room. -/
theorem cons_of_ne (hi : ∀ c, i ≠ .ifTest c) (h : HasRoom extra is) : HasRoom extra (i :: is) :=
  h.cons fun c hc => absurd hc (hi c)

/-- Conditionals in two parts have their bytes, those in front counting the bytes of the part behind. -/
theorem append (his : HasRoom ((code js).length + extra) is) (hjs : HasRoom extra js) :
    HasRoom extra (is ++ js) := by
  induction is with
  | nil => exact hjs
  | cons i is ih =>
    rw [List.cons_append]
    refine HasRoom.cons (fun c hc => ?_) (ih his.tail)
    subst hc
    have hroom := his.head
    rw [bytesBehind_append]
    omega

end HasRoom

/-- A conditional that an `ENDIF` follows somewhere has room. -/
theorem HasRoom.ifTest_cons {c : Comparison} {is js : List Instruction}
    (h : HasRoom 1 (is ++ .endIf :: js)) : HasRoom 1 (.ifTest c :: (is ++ .endIf :: js)) := by
  refine h.cons fun d _ => ?_
  have hfive := (length_encodeOperands_ifTest d).1
  have hsize := Instruction.endIf.size_pos
  simp only [bytesBehind, code_append, code_cons, List.length_append, length_encode]
  omega

/-- In a block, every conditional has room if one more byte follows the block. -/
theorem Block.hasRoom_flatten (b : Block) : HasRoom 1 (Block.flatten b) := by
  induction b using Block.induction with
  | nil => exact HasRoom.nil
  | action pc a rest ih => exact HasRoom.cons_of_ne (by simp) ih
  | ifThen pc c body rest ihbody ih =>
    have hend : HasRoom 1 (.endIf :: Block.flatten rest) := HasRoom.cons_of_ne (by simp) ih
    have hbody := HasRoom.append (ihbody.mono (Nat.le_add_left 1 _)) hend
    simpa [Stmt.flatten] using hbody.ifTest_cons (c := c)
  | ifElse pc c body other rest ihbody ihother ih =>
    have hend : HasRoom 1 (.endIf :: Block.flatten rest) := HasRoom.cons_of_ne (by simp) ih
    have hother := HasRoom.append (ihother.mono (Nat.le_add_left 1 _)) hend
    have hmark := HasRoom.cons_of_ne (show ∀ c, Instruction.elseMark ≠ .ifTest c by simp) hother
    have hbody : HasRoom 1 ((Block.flatten body ++ .elseMark :: Block.flatten other) ++
        .endIf :: Block.flatten rest) := by
      simpa using HasRoom.append (ihbody.mono (Nat.le_add_left 1 _)) hmark
    simpa [Stmt.flatten] using hbody.ifTest_cons (c := c)

/-- No block contains an `END`. -/
theorem Block.stop_not_mem_flatten (b : Block) : .stop ∉ Block.flatten b := by
  induction b using Block.induction with
  | nil => simp
  | action pc a rest ih => simp [Stmt.flatten, ih]
  | ifThen pc c body rest ihbody ih => simp [Stmt.flatten, ihbody, ih]
  | ifElse pc c body other rest ihbody ihother ih => simp [Stmt.flatten, ihbody, ihother, ih]

namespace TopLevel

/-- In a member, every conditional has room if one more byte follows it. -/
theorem hasRoom_flatten (m : TopLevel) : HasRoom 1 m.flatten := by
  cases m with
  | stmt s =>
    show HasRoom 1 s.flatten
    simpa using Block.hasRoom_flatten [s]
  | trigger pc e body =>
    have hend : HasRoom 1 [.endWhen] := HasRoom.cons_of_ne (by simp) HasRoom.nil
    have hbody := HasRoom.append ((Block.hasRoom_flatten body).mono (Nat.le_add_left 1 _)) hend
    exact HasRoom.cons_of_ne (by simp) hbody

/-- No member contains an `END`. -/
theorem stop_not_mem_flatten (m : TopLevel) : .stop ∉ m.flatten := by
  cases m with
  | stmt s =>
    show .stop ∉ s.flatten
    simpa using Block.stop_not_mem_flatten [s]
  | trigger pc e body => simp [flatten, Block.stop_not_mem_flatten]

end TopLevel

namespace Program

/-- The bytecode of a program is long enough for its conditionals. -/
theorem hasRoom_flatten (p : Program) : HasRoom 0 p.flatten := by
  have hmembers : HasRoom 1 (p.topLevel.flatMap TopLevel.flatten) := by
    induction p.topLevel with
    | nil => exact HasRoom.nil
    | cons m members ih =>
      rw [List.flatMap_cons]
      exact HasRoom.append (m.hasRoom_flatten.mono (Nat.le_add_left 1 _)) ih
  exact HasRoom.append hmembers (HasRoom.cons_of_ne (by simp) HasRoom.nil)

/-- The `END` of a program is its only one. -/
theorem stop_not_mem_dropLast_flatten (p : Program) : .stop ∉ p.flatten.dropLast := by
  rw [flatten, List.dropLast_concat]
  intro hmem
  obtain ⟨m, -, hm⟩ := List.mem_flatMap.1 hmem
  exact m.stop_not_mem_flatten hm

/-- The bytecode of a program is read as the instructions that spell it. -/
theorem decode_bytecode_flatten (p : Program) (config : DecodeConfig) (header : UInt8) :
    decode config (bytecode header p.flatten) =
      { header := some header
        instrs := locate 1 p.flatten
        errors := headerErrors config header } := by
  have hstop : .stop ∈ p.flatten := List.mem_append_right _ List.mem_cons_self
  have hread := reads_code 1 p.stop_not_mem_dropLast_flatten p.hasRoom_flatten
  rw [if_pos hstop, List.append_nil] at hread
  rw [bytecode_eq, hread.decode_eq config, List.append_nil]

/-- The bytecode of a program is read as that program with its new offsets, and shown by the same
lines. Nothing is wrong with it, unless another header is asked for. -/
theorem exists_disassemble_bytecode (p : Program) (config : DecodeConfig) (header : UInt8) :
    ∃ q : Program, q.erase = p.erase ∧ q.SpelledBy (locate 1 p.flatten) ∧
      disassemble config (bytecode header p.flatten) =
        { lines := p.lines
          program := some q
          decodeErrors := headerErrors config header
          parseErrors := [] } := by
  obtain ⟨q, herase, hspelled⟩ := p.exists_spelledBy_locate 1
  have hparse := hspelled.parse_append []
  rw [List.append_nil] at hparse
  refine ⟨q, herase, hspelled, ?_⟩
  rw [disassemble, p.decode_bytecode_flatten config header, hparse]
  simp only [Option.map_some, Option.getD_some, formatted_eq, lines_eq_of_erase_eq herase]

end Program

end AbilityScript
