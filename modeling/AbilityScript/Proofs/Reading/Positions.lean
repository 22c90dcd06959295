import AbilityScript.Proofs.Blocks.Retention
import AbilityScript.Proofs.Reading.Validity

/-!
# Where the nodes of a program lie in its bytecode

A problem with a program is shown at the offset of a node, so the offsets have to be good for that.
Reading places instructions one behind the other. Recovery takes some of them out and keeps the others
in their order, and the nodes are met in the order of the instructions they begin with. So along the
way through a program the offsets increase, and each is that of a byte which stands for the opcode of
its node. They stay below the offset of the `END`, which is the only one that is read and at which no
block is open.

## Main statements

* `exists_laysOut_of_program`: how the bytecode of a program is laid out.
* `heads_positioned`: where the nodes of a program lie.
-/

set_option autoImplicit false

namespace AbilityScript

variable {config : DecodeConfig} {bs : Bytes} {p : Program}

/-- Bytecode that a program is read from is a header and whole instructions up to the `END` of the
program, which lies where reading ends. -/
theorem exists_laysOut_of_program (hp : (disassemble config bs).program = some p) :
    ∃ header raw is tail errors, bs = header :: (raw ++ tail) ∧ LaysOut 1 raw is tail errors ∧
      p.endPc = 1 + raw.length ∧
      (decode config bs).instrs = locate 1 is ++ [⟨p.endPc, .stop⟩] := by
  obtain ⟨header, rest, errors, rfl, hread⟩ := exists_reads_of_program hp
  obtain ⟨raw, is, tail, rfl, hinstrs, hlays⟩ := hread.exists_laysOut
  have hend : p.endPc = 1 + raw.length := by
    obtain ⟨front, -, hplaced⟩ := (spelledBy_placedInstrs hp).1
    have hmem : ⟨p.endPc, .stop⟩ ∈ placedInstrs config (header :: (raw ++ tail)) := by
      rw [hplaced]
      exact List.mem_append_right _ List.mem_cons_self
    have hstop := (List.mem_filter.1 hmem).1
    rw [hinstrs, List.mem_append, List.mem_singleton] at hstop
    cases hstop with
    | inl hbefore => exact absurd rfl (hlays.ne_stop_of_mem hbefore)
    | inr hlast => exact congrArg Located.pc hlast
  refine ⟨header, raw, is, tail, errors, rfl, hlays, hend, ?_⟩
  rw [hend]
  exact hinstrs

/-- The nodes of a program come in the order of the instructions that are read. -/
theorem heads_sublist (hp : (disassemble config bs).program = some p) :
    p.heads.Sublist (decode config bs).instrs := by
  rw [(spelledBy_placedInstrs hp).1.heads_eq]
  exact List.filter_sublist.trans List.filter_sublist

/-- No node of a program begins with an `END`. -/
theorem ne_stop_of_mem_heads (hp : (disassemble config bs).program = some p) {l : Located}
    (hl : l ∈ p.heads) : l.instr ≠ .stop := by
  intro hstop
  rw [(spelledBy_placedInstrs hp).1.heads_eq, List.mem_filter, hstop] at hl
  exact Bool.false_ne_true hl.2

/-- On the way through a program that is read from bytecode the offsets of its triggers and statements
increase strictly, so that no two nodes share one. All lie behind the header and before the `END` of the
program, and that lies in the data or at its end. At the offset of a node there is a byte that stands
for the opcode of the node. The `END` is the last instruction that is read and the only one of its kind,
and no block is open there. -/
theorem heads_positioned (config : DecodeConfig) (bs : Bytes) (p : Program)
    (hp : (disassemble config bs).program = some p) :
    p.heads.Pairwise (fun l m => l.pc < m.pc) ∧ (p.heads.map Located.pc).Nodup ∧
    (∀ l ∈ p.heads, 1 ≤ l.pc ∧ l.pc ≤ p.endPc - 1 ∧
      ∃ b, bs[l.pc]? = some b ∧ b.toNat % 14 = (ByteCoded.index l.instr.opcode).val) ∧
    p.endPc ≤ bs.length ∧
    ∃ front, (decode config bs).instrs = front ++ [⟨p.endPc, .stop⟩] ∧
      (∀ l ∈ front, l.instr ≠ .stop) ∧ OpenBlock.through [] (front.map Located.instr) = [] := by
  obtain ⟨header, raw, is, tail, errors, rfl, hlays, hend, hinstrs⟩ := exists_laysOut_of_program hp
  have hincreasing : p.heads.Pairwise fun l m => l.pc < m.pc := by
    apply List.Pairwise.sublist (heads_sublist hp)
    rw [hinstrs, hend, hlays.locate_stop]
    exact pairwise_locate 1 _
  refine ⟨hincreasing, ?_, ?_, ?_, locate 1 is, hinstrs, fun _ => hlays.ne_stop_of_mem, ?_⟩
  · apply List.Pairwise.map _ _ hincreasing
    intro l m hlt
    exact Nat.ne_of_lt hlt
  · intro l hl
    have hmem : l ∈ locate 1 is := by
      have hread := (heads_sublist hp).subset hl
      rw [hinstrs, List.mem_append, List.mem_singleton] at hread
      apply hread.resolve_right
      rintro rfl
      exact ne_stop_of_mem_heads hp hl rfl
    have hpos := l.instr.size_pos
    have hbehind := pc_add_size_le_of_mem_locate hmem
    rw [← hlays.denotes.length_eq] at hbehind
    obtain ⟨b, hb, hopcode⟩ := hlays.denotes.exists_opcode [header] tail hmem
    exact ⟨le_pc_of_mem_locate hmem, by omega, b, hb, ByteCoded.clamp_eq_iff.1 hopcode⟩
  · rw [hend, List.length_cons, List.length_append]
    omega
  · have hfront : .stop ∉ (locate 1 is).map Located.instr := by
      rw [map_instr_locate]
      exact hlays.stop_notMem
    rw [← parse_errors_eq_nil_iff hfront p.endPc, ← hinstrs]
    exact parseErrors_of_program hp

/-- Of bytes with a stray `ELSE` and a trigger inside a trigger, which break off in a `HEAL`, four nodes
are left. -/
theorem heads_positioned_of_garbage :
    let bs : Bytes := [1, 9, 25, 2, 4, 0, 11, 0, 8, 1, 15, 29, 30, 14, 6, 10, 12, 12, 35, 7, 1, 0]
    let p : Program :=
      ⟨[.trigger 2 .onDeath [.action 4 (.draw ⟨0⟩),
        .cond 8 ⟨.gt, .statOf .allEnemies .attack, .imm ⟨6⟩⟩ [] none],
        .stmt (.action 18 (.destroy .enemy))],
        20⟩
    (disassemble {} bs).program = some p ∧
      p.heads.map Located.pc = [2, 4, 8, 18] ∧ p.heads.Pairwise (fun l m => l.pc < m.pc) ∧
      p.endPc ≤ bs.length := by
  intro bs p
  have hp : (disassemble {} bs).program = some p := by decide +kernel
  obtain ⟨hincreasing, -, -, hend, -⟩ := heads_positioned {} bs p hp
  exact ⟨hp, by decide, hincreasing, hend⟩

end AbilityScript
