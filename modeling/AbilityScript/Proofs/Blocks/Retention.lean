import AbilityScript.Program.Traversal
import AbilityScript.Proofs.Blocks.Nesting

/-!
# Nothing is lost in recovery

A program that is recovered holds every instruction before its `END` but for those that fit nowhere.
The instructions that are left spell it, and its nodes are those that begin a node, each at the offset
of its own instruction. Actions and conditionals fit everywhere, so none of them is lost, doubled or
moved, however malformed the instructions are.

## Main definitions

* `Stmt.head`, `Program.heads`: the instructions that the nodes of a program begin with.

## Main statements

* `Program.SpelledBy.heads_eq`: the nodes of a program are read off the instructions that spell it.
* `parse_retains_placed`: what is retained in recovery.
-/

set_option autoImplicit false

namespace AbilityScript

namespace Instruction

/-- Whether a statement begins with the instruction. -/
@[simp] def beginsStmt : Instruction → Bool
  | .action _ | .ifTest _ => true
  | .elseMark | .endIf | .whenEvent _ | .endWhen | .stop => false

/-- Whether a statement or a trigger begins with the instruction. -/
@[simp] def beginsNode : Instruction → Bool
  | .action _ | .ifTest _ | .whenEvent _ => true
  | .elseMark | .endIf | .endWhen | .stop => false

/-- What begins a statement begins a node. -/
theorem beginsStmt_and_beginsNode (i : Instruction) : (i.beginsStmt && i.beginsNode) = i.beginsStmt := by
  cases i <;> rfl

/-- What begins a statement fits everywhere. -/
theorem isStray_of_beginsStmt {i : Instruction} (h : i.beginsStmt = true) (stack : List OpenBlock) :
    i.isStray stack = false := by
  cases i <;> simp_all [isStray]

end Instruction

/-- The instruction that a statement begins with, at the offset that the statement carries. -/
@[simp] def Stmt.head : Stmt → Located
  | .action pc a => ⟨pc, .action a⟩
  | .cond pc c _ _ => ⟨pc, .ifTest c⟩

/-- The instruction that a node begins with, at the offset that the node carries. -/
@[simp] def Visit.head? : Visit → Option Located
  | .stmt s => some s.head
  | .trigger pc e _ => some ⟨pc, .whenEvent e⟩
  | .program _ | .topLevel _ | .block _ => none

/-- The instructions that the nodes of a program begin with, each node before what it contains. -/
def Program.heads (p : Program) : List Located :=
  p.visits.filterMap Visit.head?

/-- The statements met are the nodes met that are not triggers. -/
theorem map_head_filterMap_stmt? (vs : List Visit) :
    (vs.filterMap Visit.stmt?).map Stmt.head =
      (vs.filterMap Visit.head?).filter fun l => l.instr.beginsStmt := by
  induction vs with
  | nil => rfl
  | cons v vs ih =>
    cases v with
    | stmt s => cases s <;> exact congrArg (_ :: ·) ih
    | trigger | program | topLevel | block => exact ih

/-- The nodes of a block are the instructions that begin a node among those that spell it. -/
theorem SpellsBlock.heads_eq {ls : List Located} {b : Block} (h : SpellsBlock ls b) :
    (Block.visits b).filterMap Visit.head? = ls.filter fun l => l.instr.beginsNode := by
  induction h with
  | nil => rfl
  | action _ ih =>
    simp [Block.visits, Stmt.visits, ih]
  | ifThen _ _ ihbody ih =>
    simp [Block.visits, Stmt.visits, List.filterMap_cons, ihbody, ih]
  | ifElse _ _ _ ihbody ihother ih =>
    simp [Block.visits, Stmt.visits, List.filterMap_cons, ihbody, ihother, ih]

/-- Statements of the outermost level are met like those of a block. -/
theorem filterMap_visits_map_stmt {α : Type} {f : Visit → Option α} (hf : ∀ m, f (.topLevel m) = none)
    (b : Block) :
    ((b.map .stmt).flatMap TopLevel.visits).filterMap f = (Block.visits b).filterMap f := by
  induction b with
  | nil => rfl
  | cons s b ih => simp [TopLevel.visits, Block.visits, hf, ih]

/-- The nodes of members of the outermost level are the instructions that begin a node among those
that spell them. -/
theorem SpellsOutermost.heads_eq {ls : List Located} {members : List TopLevel}
    (h : SpellsOutermost ls members) :
    (members.flatMap TopLevel.visits).filterMap Visit.head? =
      ls.filter fun l => l.instr.beginsNode := by
  induction h with
  | nil => rfl
  | block hblock _ ih =>
    rw [List.flatMap_append, List.filterMap_append, filterMap_visits_map_stmt fun _ => rfl,
      hblock.heads_eq, ih, List.filter_append]
  | trigger hbody _ ih =>
    simp [TopLevel.visits, List.filterMap_cons, hbody.heads_eq, ih]

namespace Program

variable {p : Program} {ls : List Located}

/-- The nodes of a program are the instructions that begin a node among those that spell it. -/
theorem SpelledBy.heads_eq (h : p.SpelledBy ls) :
    p.heads = ls.filter fun l => l.instr.beginsNode := by
  obtain ⟨front, hfront, rfl⟩ := h
  rw [List.filter_append, ← hfront.heads_eq]
  simp [heads, visits, List.filterMap_cons]

/-- The statements of a program are its nodes but for the triggers. -/
theorem map_head_stmts (p : Program) :
    p.stmts.map Stmt.head = p.heads.filter fun l => l.instr.beginsStmt :=
  map_head_filterMap_stmt? p.visits

end Program

/-- Before the `END` at which the recovery of a program stops there is no other outside all blocks.
What fits somewhere before it, followed by that `END`, spells the program. The nodes of the program,
each before what it contains, are the instructions among these that begin a node, each at its own
offset; and its statements are all actions and conditionals that stand before the `END`. -/
theorem parse_retains_placed (is : List Located) (p : Program)
    (hp : (parse is).program = some p) :
    ∃ before after, is = before ++ ⟨p.endPc, .stop⟩ :: after ∧
      (∀ other, parse (before ++ ⟨p.endPc, .stop⟩ :: other) = parse is) ∧
      OpenBlock.through [] (before.map Located.instr) = [] ∧
      (∀ front l rest, before = front ++ l :: rest → l.instr = .stop →
        OpenBlock.through [] (front.map Located.instr) ≠ []) ∧
      p.SpelledBy (placed [] before ++ [⟨p.endPc, .stop⟩]) ∧
      (placed [] before).map Located.instr ++ [.stop] = p.flatten ∧
      p.heads = (placed [] before).filter (fun l => l.instr.beginsNode) ∧
      p.stmts.map Stmt.head = before.filter (fun l => l.instr.beginsStmt) := by
  have hread := readsOutermost_readOutermost is
  have hparse := hread.parse_eq
  rw [hparse, Option.map_eq_some_iff] at hp
  obtain ⟨pc, hpc, rfl⟩ := hp
  rw [hpc] at hread hparse
  obtain ⟨before, after, his, hclosed, hother⟩ := hread.exists_front
  obtain ⟨before', his', hbefore⟩ := exists_before_of_closed (BlockScan.closed?_eq_some.1 hclosed)
  obtain rfl : before = before' := (List.append_inj' (his.symm.trans his') rfl).1
  obtain ⟨hopen, hkept⟩ := blockScan_of_exhausted hbefore
  have hscan : (blockScan [] is).kept = placed [] before := by
    rw [his, blockScan_append hbefore, blockScan_stop, BlockScan.kept_prepend, List.append_nil, hkept]
  have hspells : Program.SpelledBy ⟨(readOutermost is).1, pc⟩ (placed [] before ++ [⟨pc, .stop⟩]) :=
    ⟨_, hscan ▸ hread.exists_spells, rfl⟩
  have hheads : Program.heads ⟨(readOutermost is).1, pc⟩ =
      (placed [] before).filter fun l => l.instr.beginsNode := by
    rw [hspells.heads_eq, List.filter_append]
    exact List.append_nil _
  refine ⟨before, after, his, fun other => ?_, hopen.symm, ?_, hspells, ?_, hheads, ?_⟩
  · rw [(hother other).parse_eq, hparse]
  · rintro front l rest rfl hl
    exact through_ne_nil_of_exhausted hl hbefore
  · have hflatten := hspells.map_instr
    rwa [List.map_append] at hflatten
  · rw [Program.map_head_stmts, hheads, List.filter_filter]
    simp only [Instruction.beginsStmt_and_beginsNode]
    exact filter_placed (fun stack l hl => Instruction.isStray_of_beginsStmt hl stack) [] before

/-- A trigger inside a trigger, an `END` and an `ENDWHEN` inside a conditional, and an `ELSE` outside
all blocks are dropped. What stood in the inner trigger stays in the outer one. -/
theorem parse_retains_placed_in_dropped_trigger :
    let c : Comparison := ⟨.gt, .imm ⟨5⟩, .statOf .opponent .attack⟩
    let is : List Located :=
      [⟨1, .elseMark⟩, ⟨2, .whenEvent .onCast⟩, ⟨4, .whenEvent .onDeath⟩, ⟨6, .ifTest c⟩, ⟨13, .stop⟩,
        ⟨14, .endWhen⟩, ⟨15, .action (.draw ⟨0⟩)⟩, ⟨17, .endIf⟩, ⟨18, .endWhen⟩, ⟨19, .endWhen⟩,
        ⟨20, .action (.destroy .enemy)⟩, ⟨22, .stop⟩, ⟨23, .action (.draw ⟨1⟩)⟩]
    let p : Program :=
      ⟨[.trigger 2 .onCast [.cond 6 c [.action 15 (.draw ⟨0⟩)] none],
        .stmt (.action 20 (.destroy .enemy))], 22⟩
    (parse is).program = some p ∧
      ∃ before after, is = before ++ ⟨22, .stop⟩ :: after ∧
        (placed [] before).map Located.instr ++ [.stop] = p.flatten ∧
        p.stmts.map Stmt.head = before.filter (fun l => l.instr.beginsStmt) := by
  intro c is p
  have hp : (parse is).program = some p := by decide +kernel
  obtain ⟨before, after, his, -, -, -, -, hflatten, -, hstmts⟩ := parse_retains_placed is p hp
  exact ⟨hp, before, after, his, hflatten, hstmts⟩

end AbilityScript
