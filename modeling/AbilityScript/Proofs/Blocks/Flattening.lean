import AbilityScript.Proofs.Program.Relocation
import AbilityScript.Proofs.RoundTrip.Program

/-!
# From the instructions of a program back to the program

The instructions that spell a program can be listed without looking at its tree again: those that
begin a node lie at the offset of the node, the last one is the `END` at the offset of the program's
end, and the others (`ELSE`, `ENDIF`, `ENDWHEN`) lie anywhere. Recovering the blocks of such a list
leads back to the program and to no other, whatever follows the `END`: no block takes a delimiter that
belongs to a block around it, and none leaves its own delimiter behind.

## Main definitions

* `Program.IsLocated`: instructions are those of a program, its nodes at their own offsets.

## Main statements

* `Program.isLocated_iff`: such instructions are those that spell the program.
* `parse_append_of_isLocated`: the way back.
-/

set_option autoImplicit false

namespace AbilityScript

/-- Whether the instruction divides or closes a block. No node has its offset. -/
def Instruction.isBoundary : Instruction → Bool
  | .elseMark | .endIf | .endWhen => true
  | .action _ | .ifTest _ | .whenEvent _ | .stop => false

/-- Located instructions are those of a program: every node is found at the offset of the instruction
that it begins with, and the end of the program at the offset of its `END`. -/
structure Program.IsLocated (p : Program) (ls : List Located) : Prop where
  instrs : ls.map Located.instr = p.flatten
  heads : ls.filter (fun l => l.instr.beginsNode) = p.heads
  last : ls.getLast? = some ⟨p.endPc, .stop⟩

section Heads

/-- The nodes of a block begin with the instructions that begin a node, in order. -/
theorem Block.map_instr_heads (b : Block) :
    (Block.heads b).map Located.instr = (Block.flatten b).filter fun i => i.beginsNode := by
  induction b using Block.induction with
  | nil => rfl
  | action pc a rest ih => simp [Stmt.flatten, ih]
  | ifThen pc c body rest ihbody ih => simp [Stmt.flatten, ihbody, ih]
  | ifElse pc c body other rest ihbody ihother ih => simp [Stmt.flatten, ihbody, ihother, ih]

/-- The heads of a member are its instructions that begin a node, in order. -/
theorem TopLevel.map_instr_heads (m : TopLevel) :
    m.heads.map Located.instr = m.flatten.filter fun i => i.beginsNode := by
  cases m with
  | stmt s =>
    have hblock := Block.map_instr_heads [s]
    rwa [Block.heads_singleton, Block.flatten_cons, Block.flatten_nil, List.append_nil] at hblock
  | trigger pc e body => simp [TopLevel.flatten, Block.map_instr_heads]

/-- The heads of a program are its instructions that begin a node, in order. -/
theorem Program.map_instr_heads (p : Program) :
    p.heads.map Located.instr = p.flatten.filter fun i => i.beginsNode := by
  rw [Program.heads_eq, Program.flatten, List.filter_append, List.filter_flatMap, List.map_flatMap]
  simp [TopLevel.map_instr_heads]

/-- Located instructions begin as many nodes as the instructions by themselves. -/
theorem length_filter_beginsNode {ls : List Located} {is : List Instruction}
    (h : ls.map Located.instr = is) :
    (ls.filter fun l => l.instr.beginsNode).length = (is.filter fun i => i.beginsNode).length := by
  rw [← h, List.filter_map, List.length_map]
  rfl

end Heads

section Spelling

/-- A part of some instructions that spells a block by itself has the nodes of the block, so the nodes
of what follows are the others. -/
theorem heads_append_inj {inner ls : List Located} {b : Block} {nodes : List Located}
    (hinner : inner.map Located.instr = Block.flatten b)
    (h : (inner ++ ls).filter (fun l => l.instr.beginsNode) = Block.heads b ++ nodes) :
    inner.filter (fun l => l.instr.beginsNode) = Block.heads b ∧
      ls.filter (fun l => l.instr.beginsNode) = nodes := by
  have hlength : (inner.filter fun l => l.instr.beginsNode).length = (Block.heads b).length := by
    rw [length_filter_beginsNode hinner, ← Block.map_instr_heads, List.length_map]
  rw [List.filter_append] at h
  exact List.append_inj h hlength

/-- Instructions of a block with its nodes at their offsets spell the block. -/
theorem spellsBlock_of_heads (b : Block) :
    ∀ ls : List Located, ls.map Located.instr = Block.flatten b →
      ls.filter (fun l => l.instr.beginsNode) = Block.heads b → SpellsBlock ls b := by
  induction b using Block.induction with
  | nil =>
    intro ls hinstrs _
    obtain rfl := List.map_eq_nil_iff.1 hinstrs
    exact .nil
  | action pc a rest ih =>
    intro ls hinstrs hheads
    obtain ⟨⟨pc', i⟩, ls, rfl, rfl, htail⟩ := List.map_eq_cons_iff.1 hinstrs
    obtain ⟨hfirst, hheads⟩ := List.cons.inj hheads
    rw [hfirst]
    exact .action (ih ls htail hheads)
  | ifThen pc c body rest ihbody ih =>
    intro ls hinstrs hheads
    have hspelled : ls.map Located.instr =
        .ifTest c :: (Block.flatten body ++ .endIf :: Block.flatten rest) := by
      simpa [Stmt.flatten] using hinstrs
    obtain ⟨⟨pc', i⟩, mid, rfl, rfl, hmid⟩ := List.map_eq_cons_iff.1 hspelled
    obtain ⟨inner, mid, rfl, hinner, hclose⟩ := List.map_eq_append_iff.1 hmid
    obtain ⟨⟨close, i⟩, after, rfl, rfl, hafter⟩ := List.map_eq_cons_iff.1 hclose
    rw [Block.heads_cons, Stmt.heads_ifThen, List.cons_append] at hheads
    obtain ⟨hfirst, hheads⟩ := List.cons.inj hheads
    obtain ⟨hbody, hrest⟩ := heads_append_inj hinner hheads
    rw [hfirst]
    exact .ifThen (ihbody inner hinner hbody) (ih after hafter hrest)
  | ifElse pc c body other rest ihbody ihother ih =>
    intro ls hinstrs hheads
    have hspelled : ls.map Located.instr =
        .ifTest c :: (Block.flatten body ++
          .elseMark :: (Block.flatten other ++ .endIf :: Block.flatten rest)) := by
      simpa [Stmt.flatten] using hinstrs
    obtain ⟨⟨pc', i⟩, mid, rfl, rfl, hmid⟩ := List.map_eq_cons_iff.1 hspelled
    obtain ⟨inner, mid, rfl, hinner, hmark⟩ := List.map_eq_append_iff.1 hmid
    obtain ⟨⟨mark, i⟩, last, rfl, rfl, hlast⟩ := List.map_eq_cons_iff.1 hmark
    obtain ⟨inner', last, rfl, hinner', hclose⟩ := List.map_eq_append_iff.1 hlast
    obtain ⟨⟨close, i⟩, after, rfl, rfl, hafter⟩ := List.map_eq_cons_iff.1 hclose
    rw [Block.heads_cons, Stmt.heads_ifElse, List.cons_append, List.append_assoc] at hheads
    obtain ⟨hfirst, hheads⟩ := List.cons.inj hheads
    obtain ⟨hbody, hheads⟩ := heads_append_inj hinner hheads
    obtain ⟨hother, hrest⟩ := heads_append_inj hinner' hheads
    have hspells : SpellsBlock (⟨pc, .ifTest c⟩ :: inner ++ ⟨mark, .elseMark⟩ :: inner' ++
        ⟨close, .endIf⟩ :: after) (.cond pc c body (some other) :: rest) :=
      .ifElse (ihbody inner hinner hbody) (ihother inner' hinner' hother) (ih after hafter hrest)
    rw [hfirst]
    simpa using hspells

/-- Instructions of members of the outermost level with their nodes at their offsets spell them. -/
theorem spellsOutermost_of_heads (members : List TopLevel) :
    ∀ ls : List Located, ls.map Located.instr = members.flatMap TopLevel.flatten →
      ls.filter (fun l => l.instr.beginsNode) = members.flatMap TopLevel.heads →
      SpellsOutermost ls members := by
  induction members with
  | nil =>
    intro ls hinstrs _
    obtain rfl := List.map_eq_nil_iff.1 hinstrs
    exact .nil
  | cons m members ih =>
    intro ls hinstrs hheads
    cases m with
    | stmt s =>
      rw [List.flatMap_cons] at hinstrs hheads
      obtain ⟨inner, ls, rfl, hinner, hinstrs⟩ := List.map_eq_append_iff.1 hinstrs
      have hblock : inner.map Located.instr = Block.flatten [s] := by
        simpa [TopLevel.flatten] using hinner
      have hnodes : TopLevel.heads (.stmt s) = Block.heads [s] := (Block.heads_singleton s).symm
      rw [hnodes] at hheads
      obtain ⟨hstmt, hrest⟩ := heads_append_inj hblock hheads
      exact .block (spellsBlock_of_heads [s] inner hblock hstmt) (ih ls hinstrs hrest)
    | trigger pc e body =>
      have hspelled : ls.map Located.instr =
          .whenEvent e :: (Block.flatten body ++ .endWhen :: members.flatMap TopLevel.flatten) := by
        simpa [TopLevel.flatten] using hinstrs
      obtain ⟨⟨pc', i⟩, mid, rfl, rfl, hmid⟩ := List.map_eq_cons_iff.1 hspelled
      obtain ⟨inner, mid, rfl, hinner, hclose⟩ := List.map_eq_append_iff.1 hmid
      obtain ⟨⟨close, i⟩, after, rfl, rfl, hafter⟩ := List.map_eq_cons_iff.1 hclose
      rw [List.flatMap_cons, TopLevel.heads_trigger, List.cons_append] at hheads
      obtain ⟨hfirst, hheads⟩ := List.cons.inj hheads
      obtain ⟨hbody, hrest⟩ := heads_append_inj hinner hheads
      rw [hfirst]
      exact .trigger (spellsBlock_of_heads body inner hinner hbody) (ih after hafter hrest)

/-- The located instructions of a program are those that spell it. -/
theorem Program.isLocated_iff {p : Program} {ls : List Located} :
    p.IsLocated ls ↔ p.SpelledBy ls := by
  constructor
  · rintro ⟨hinstrs, hheads, hlast⟩
    obtain ⟨front, rfl⟩ := List.getLast?_eq_some_iff.1 hlast
    rw [List.map_append, Program.flatten] at hinstrs
    rw [List.filter_append, Program.heads_eq] at hheads
    refine ⟨front, spellsOutermost_of_heads p.topLevel front ?_ ?_, rfl⟩
    · exact List.append_cancel_right hinstrs
    · simpa using hheads
  · intro h
    refine ⟨h.map_instr, h.heads_eq.symm, ?_⟩
    obtain ⟨front, -, rfl⟩ := h
    exact List.getLast?_concat

end Spelling

section Existence

/-- Every instruction but `END` either begins a node or is a boundary. -/
theorem isBoundary_eq_not_beginsNode {i : Instruction} (h : i ≠ .stop) :
    i.isBoundary = !i.beginsNode := by
  cases i with
  | stop => exact absurd rfl h
  | action | ifTest | elseMark | endIf | whenEvent | endWhen => rfl

/-- Instructions without an `END` can be located with their nodes and their boundaries at any given
offsets. -/
theorem exists_located (is : List Instruction) (hstop : .stop ∉ is) :
    ∀ (nodes : List Located) (marks : List Nat),
      nodes.map Located.instr = is.filter (fun i => i.beginsNode) →
      marks.length = is.countP Instruction.isBoundary →
      ∃ ls : List Located, ls.map Located.instr = is ∧
        ls.filter (fun l => l.instr.beginsNode) = nodes ∧
        (ls.filter fun l => l.instr.isBoundary).map Located.pc = marks := by
  induction is with
  | nil =>
    intro nodes marks hnodes hmarks
    obtain rfl := List.map_eq_nil_iff.1 hnodes
    obtain rfl := List.length_eq_zero_iff.1 hmarks
    exact ⟨[], rfl, rfl, rfl⟩
  | cons i is ih =>
    intro nodes marks hnodes hmarks
    obtain ⟨hi, hlater⟩ := not_or.1 (mt List.mem_cons.2 hstop)
    have hboundary := isBoundary_eq_not_beginsNode (Ne.symm hi)
    cases hbegins : i.beginsNode with
    | true =>
      rw [hbegins] at hboundary
      rw [List.filter_cons_of_pos hbegins] at hnodes
      rw [List.countP_cons_of_neg (by simp [hboundary])] at hmarks
      obtain ⟨⟨pc, j⟩, nodes, rfl, rfl, hothers⟩ := List.map_eq_cons_iff.1 hnodes
      obtain ⟨ls, hinstrs, hheads, hpcs⟩ := ih hlater nodes marks hothers hmarks
      refine ⟨⟨pc, j⟩ :: ls, by rw [List.map_cons, hinstrs], ?_, ?_⟩
      · rw [List.filter_cons_of_pos (by exact hbegins), hheads]
      · rw [List.filter_cons_of_neg (by simp [hboundary]), hpcs]
    | false =>
      rw [hbegins] at hboundary
      rw [List.filter_cons_of_neg (by rw [hbegins]; exact Bool.false_ne_true)] at hnodes
      rw [List.countP_cons_of_pos hboundary] at hmarks
      obtain ⟨mark, marks, rfl⟩ := List.exists_cons_of_length_eq_add_one hmarks
      obtain ⟨ls, hinstrs, hheads, hpcs⟩ := ih hlater nodes marks hnodes (Nat.succ.inj hmarks)
      refine ⟨⟨mark, i⟩ :: ls, by rw [List.map_cons, hinstrs], ?_, ?_⟩
      · rw [List.filter_cons_of_neg (by rw [hbegins]; exact Bool.false_ne_true), hheads]
      · rw [List.filter_cons_of_pos (by exact hboundary), List.map_cons, hpcs]

/-- The instructions of a program can be located with its boundaries anywhere. -/
theorem Program.exists_isLocated (p : Program) {marks : List Nat}
    (hmarks : marks.length = p.flatten.countP Instruction.isBoundary) :
    ∃ ls, p.IsLocated ls ∧ (ls.filter fun l => l.instr.isBoundary).map Located.pc = marks := by
  have hstop : .stop ∉ p.topLevel.flatMap TopLevel.flatten := by
    intro hmem
    obtain ⟨m, -, hm⟩ := List.mem_flatMap.1 hmem
    exact m.stop_not_mem_flatten hm
  have hheads := p.map_instr_heads
  rw [Program.flatten, List.filter_append, List.filter_cons_of_neg (by simp), List.filter_nil,
    List.append_nil] at hheads
  rw [Program.flatten, List.countP_append, List.countP_singleton] at hmarks
  obtain ⟨front, hinstrs, hnodes, hpcs⟩ := exists_located _ hstop p.heads marks hheads hmarks
  refine ⟨front ++ [⟨p.endPc, .stop⟩], ⟨?_, ?_, List.getLast?_concat⟩, ?_⟩
  · rw [List.map_append, hinstrs]
    rfl
  · rw [List.filter_append, hnodes]
    exact List.append_nil _
  · rw [List.filter_append, List.map_append, hpcs]
    exact List.append_nil _

end Existence

/-- Wherever the `ELSE`, `ENDIF` and `ENDWHEN` of a program lie, its instructions can be located with
every node and the end at their own offsets. Whatever follows them, such instructions are recovered as
the program, with all offsets and with the difference between an alternative that is empty and none;
and nothing is wrong. -/
theorem parse_append_of_isLocated (p : Program) :
    (∀ marks : List Nat, marks.length = p.flatten.countP Instruction.isBoundary →
      ∃ ls, p.IsLocated ls ∧ (ls.filter fun l => l.instr.isBoundary).map Located.pc = marks) ∧
    ∀ ls, p.IsLocated ls → ∀ rest, parse (ls ++ rest) = { program := some p, errors := [] } := by
  constructor
  · exact fun marks hmarks => p.exists_isLocated hmarks
  · intro ls hls rest
    exact (Program.isLocated_iff.1 hls).parse_append rest

/-- A conditional with an empty alternative inside the body of one that has none, offsets that do not
increase, and behind the `END` a delimiter that fits nowhere. -/
theorem parse_append_of_isLocated_empty_alternative :
    let c : Comparison := ⟨.gt, .imm ⟨5⟩, .statOf .opponent .attack⟩
    let p : Program :=
      ⟨[.trigger 7 .onCast [.cond 3 c [.cond 9 c [] (some [])] none], .stmt (.action 0 (.draw ⟨0⟩))], 2⟩
    let ls : List Located :=
      [⟨7, .whenEvent .onCast⟩, ⟨3, .ifTest c⟩, ⟨9, .ifTest c⟩, ⟨8, .elseMark⟩, ⟨1, .endIf⟩, ⟨3, .endIf⟩,
        ⟨0, .endWhen⟩, ⟨0, .action (.draw ⟨0⟩)⟩, ⟨2, .stop⟩]
    [8, 1, 3, 0].length = p.flatten.countP Instruction.isBoundary ∧ p.IsLocated ls ∧
      parse (ls ++ [⟨5, .endWhen⟩]) = { program := some p, errors := [] } := by
  intro c p ls
  have hls : p.IsLocated ls := ⟨by decide, by decide, by decide⟩
  exact ⟨by decide, hls, (parse_append_of_isLocated p).2 ls hls _⟩

end AbilityScript
