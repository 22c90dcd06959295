import AbilityScript.Proofs.Blocks.Scan
import AbilityScript.Proofs.Bytecode.Offsets
import AbilityScript.Proofs.Program.Erasure

/-!
# Instructions that spell a program

Every node of a program carries the offset of the instruction it begins with. The delimiters that
close a block or begin an alternative leave no node behind, so they may lie anywhere. This gives a
relation between located instructions and programs. The recovery of blocks takes instructions to the
program they spell, whatever follows, and of any instructions it reads, those that the scan keeps
spell the program that comes out.

## Main definitions

* `SpellsBlock`, `SpellsOutermost`, `Program.SpelledBy`: located instructions that spell a block, the
  members of the outermost level, a program.

## Main statements

* `Program.SpelledBy.parse_append`: a spelled program is recovered as it is.
* `Program.exists_spelledBy_locate`: up to offsets, every program is spelled by its instructions
  wherever they are written.
* `ReadsOutermost.exists_spells`: what the scan keeps spells the program that is recovered.
-/

set_option autoImplicit false

namespace AbilityScript

/-- Instructions that spell a block. -/
inductive SpellsBlock : List Located → Block → Prop where
  /-- Nothing spells the empty block. -/
  | nil : SpellsBlock [] []
  /-- An action. -/
  | action {pc : Nat} {a : Action} {ls : List Located} {b : Block} (hrest : SpellsBlock ls b) :
      SpellsBlock (⟨pc, .action a⟩ :: ls) (.action pc a :: b)
  /-- A conditional without an alternative. -/
  | ifThen {pc close : Nat} {c : Comparison} {inner ls : List Located} {body b : Block}
      (hbody : SpellsBlock inner body) (hrest : SpellsBlock ls b) :
      SpellsBlock (⟨pc, .ifTest c⟩ :: inner ++ ⟨close, .endIf⟩ :: ls) (.cond pc c body none :: b)
  /-- A conditional with an alternative. -/
  | ifElse {pc mark close : Nat} {c : Comparison} {inner other ls : List Located}
      {body alternative b : Block} (hbody : SpellsBlock inner body)
      (hother : SpellsBlock other alternative) (hrest : SpellsBlock ls b) :
      SpellsBlock
        (⟨pc, .ifTest c⟩ :: inner ++ ⟨mark, .elseMark⟩ :: other ++ ⟨close, .endIf⟩ :: ls)
        (.cond pc c body (some alternative) :: b)

/-- Instructions that spell members of the outermost level. -/
inductive SpellsOutermost : List Located → List TopLevel → Prop where
  /-- Nothing spells no members. -/
  | nil : SpellsOutermost [] []
  /-- Statements. -/
  | block {ls ls' : List Located} {b : Block} {members : List TopLevel} (hblock : SpellsBlock ls b)
      (hrest : SpellsOutermost ls' members) :
      SpellsOutermost (ls ++ ls') (b.map .stmt ++ members)
  /-- A trigger. -/
  | trigger {pc close : Nat} {e : Event} {inner ls : List Located} {body : Block}
      {members : List TopLevel} (hbody : SpellsBlock inner body)
      (hrest : SpellsOutermost ls members) :
      SpellsOutermost (⟨pc, .whenEvent e⟩ :: inner ++ ⟨close, .endWhen⟩ :: ls)
        (.trigger pc e body :: members)

/-- Instructions that spell a program: those of its members, and the `END` at its offset. -/
def Program.SpelledBy (p : Program) (ls : List Located) : Prop :=
  ∃ front, SpellsOutermost front p.topLevel ∧ ls = front ++ [⟨p.endPc, .stop⟩]

namespace SpellsBlock

variable {ls ls' rest : List Located} {b b' : Block} {ctx : Context} {errors : List ParseError}

/-- The instructions are those that spell the block. -/
theorem map_instr (h : SpellsBlock ls b) : ls.map Located.instr = Block.flatten b := by
  induction h with
  | nil => rfl
  | action _ ih => simp [Stmt.flatten, ih]
  | ifThen _ _ ihbody ih => simp [Stmt.flatten, ihbody, ih]
  | ifElse _ _ _ ihbody ihother ih => simp [Stmt.flatten, ihbody, ihother, ih]

/-- A spelled block is read in front of what follows it, in any context. -/
theorem reads_append (h : SpellsBlock ls b) (hafter : ReadsBlock ctx ls' b' errors rest) :
    ReadsBlock ctx (ls ++ ls') (b ++ b') errors rest := by
  induction h generalizing ctx ls' b' errors rest with
  | nil => exact hafter
  | action _ ih => exact .action (ih hafter)
  | @ifThen pc close c _ ls _ _ _ _ ihbody ih =>
    have hclose : ReadsBlock .thenBranch (⟨close, .endIf⟩ :: (ls ++ ls')) [] []
      (⟨close, .endIf⟩ :: (ls ++ ls')) := .stops rfl
    have hread : ReadsBlock ctx (⟨pc, .ifTest c⟩ :: _) _ _ _ :=
      .ifThen (ihbody hclose) (by simp) (ih hafter)
    simpa [closeBlock, Instruction.opcode] using hread
  | @ifElse pc mark close c _ other ls _ _ _ _ _ _ ihbody ihother ih =>
    have hmark : ReadsBlock .thenBranch (⟨mark, .elseMark⟩ :: (other ++ ⟨close, .endIf⟩ :: (ls ++ ls')))
      [] [] (⟨mark, .elseMark⟩ :: (other ++ ⟨close, .endIf⟩ :: (ls ++ ls'))) := .stops rfl
    have hclose : ReadsBlock .elseBranch (⟨close, .endIf⟩ :: (ls ++ ls')) [] []
      (⟨close, .endIf⟩ :: (ls ++ ls')) := .stops rfl
    have hread : ReadsBlock ctx (⟨pc, .ifTest c⟩ :: _) _ _ _ :=
      .ifElse (ihbody hmark) (ihother hclose) (ih hafter)
    simpa [closeBlock, Instruction.opcode] using hread

end SpellsBlock

namespace SpellsOutermost

variable {ls : List Located} {members : List TopLevel}

/-- The instructions are those that spell the members. -/
theorem map_instr (h : SpellsOutermost ls members) :
    ls.map Located.instr = members.flatMap TopLevel.flatten := by
  induction h with
  | nil => rfl
  | block hblock _ ih =>
    rw [List.map_append, List.flatMap_append, flatMap_flatten_stmt, hblock.map_instr, ih]
  | trigger hbody _ ih => simp [TopLevel.flatten, hbody.map_instr, ih]

end SpellsOutermost

/-- A spelled block in front of the outermost level adds its statements. -/
theorem SpellsBlock.outermost_append {ls is : List Located} {b : Block} {members : List TopLevel}
    {endPc : Option Nat} {errors : List ParseError} (h : SpellsBlock ls b)
    (hafter : ReadsOutermost is members endPc errors) :
    ReadsOutermost (ls ++ is) (b.map .stmt ++ members) endPc errors := by
  cases hafter with
  | exhausted hblock =>
    rw [← List.map_append]
    exact .exhausted (h.reads_append hblock)
  | closed hblock =>
    rw [← List.map_append]
    exact .closed (h.reads_append hblock)
  | trigger hblock hbody hrest =>
    rw [← List.append_assoc, ← List.map_append]
    exact .trigger (h.reads_append hblock) hbody hrest

/-- Spelled members of the outermost level are read up to the `END` behind them. -/
theorem SpellsOutermost.reads {ls : List Located} {members : List TopLevel}
    (h : SpellsOutermost ls members) (pc : Nat) (rest : List Located) :
    ReadsOutermost (ls ++ ⟨pc, .stop⟩ :: rest) members (some pc) [] := by
  induction h with
  | nil => exact .closed (.stops rfl)
  | block hblock _ ih =>
    rw [List.append_assoc]
    exact hblock.outermost_append ih
  | @trigger when close e inner ls body members hbody _ ih =>
    have hstop : ∀ js, ReadsBlock .outermost (⟨when, .whenEvent e⟩ :: js) [] []
      (⟨when, .whenEvent e⟩ :: js) := fun js => .stops rfl
    have hclose : ReadsBlock .trigger (⟨close, .endWhen⟩ :: (ls ++ ⟨pc, .stop⟩ :: rest)) [] []
      (⟨close, .endWhen⟩ :: (ls ++ ⟨pc, .stop⟩ :: rest)) := .stops rfl
    have hread := ReadsOutermost.trigger (hstop _) (hbody.reads_append hclose) ih
    simpa [closeBlock, Instruction.opcode] using hread

namespace Program

variable {p : Program} {ls : List Located}

/-- The instructions are those that spell the program. -/
theorem SpelledBy.map_instr (h : p.SpelledBy ls) : ls.map Located.instr = p.flatten := by
  obtain ⟨front, hfront, rfl⟩ := h
  rw [List.map_append, hfront.map_instr]
  rfl

/-- A spelled program is recovered as it is, whatever follows it. -/
theorem SpelledBy.parse_append (h : p.SpelledBy ls) (rest : List Located) :
    parse (ls ++ rest) = { program := some p, errors := [] } := by
  obtain ⟨front, hfront, rfl⟩ := h
  rw [List.append_assoc]
  exact (hfront.reads p.endPc rest).parse_eq

end Program

section Locating

/-- Up to offsets, a block is spelled by its instructions wherever they are written. -/
theorem exists_spellsBlock_locate (b : Block) :
    ∀ pc, ∃ b', Block.erase b' = Block.erase b ∧ SpellsBlock (locate pc (Block.flatten b)) b' := by
  induction b using Block.induction with
  | nil => exact fun _ => ⟨[], rfl, .nil⟩
  | action _ a rest ih =>
    intro pc
    obtain ⟨b', herase, hspells⟩ := ih (pc + (Instruction.action a).size)
    exact ⟨.action pc a :: b', by simp only [Block.erase, Stmt.erase, herase], .action hspells⟩
  | ifThen _ c body rest ihbody ih =>
    intro pc
    obtain ⟨body', herase, hspells⟩ := ihbody (pc + (Instruction.ifTest c).size)
    obtain ⟨b', herase', hspells'⟩ := ih (pc + (Instruction.ifTest c).size +
      (code (Block.flatten body)).length + Instruction.endIf.size)
    refine ⟨.cond pc c body' none :: b', by simp only [Block.erase, Stmt.erase, herase, herase'], ?_⟩
    simpa [Stmt.flatten, locate_append] using SpellsBlock.ifThen hspells hspells'
  | ifElse _ c body other rest ihbody ihother ih =>
    intro pc
    obtain ⟨body', herase, hspells⟩ := ihbody (pc + (Instruction.ifTest c).size)
    obtain ⟨other', herase', hspells'⟩ := ihother (pc + (Instruction.ifTest c).size +
      (code (Block.flatten body)).length + Instruction.elseMark.size)
    obtain ⟨b', herase'', hspells''⟩ := ih (pc + (Instruction.ifTest c).size +
      (code (Block.flatten body)).length + Instruction.elseMark.size +
      (code (Block.flatten other)).length + Instruction.endIf.size)
    refine ⟨.cond pc c body' (some other') :: b',
      by simp only [Block.erase, Stmt.erase, herase, herase', herase''], ?_⟩
    simpa [Stmt.flatten, locate_append] using SpellsBlock.ifElse hspells hspells' hspells''

/-- The statements of a block are erased one by one, as members of a program or not. -/
theorem map_erase_stmt (b : Block) :
    (b.map TopLevel.stmt).map TopLevel.erase = (Block.erase b).map .stmt := by
  induction b with
  | nil => rfl
  | cons s b ih =>
    rw [List.map_cons, List.map_cons, ih]
    rfl

/-- Up to offsets, members of the outermost level are spelled by their instructions wherever these are
written. -/
theorem exists_spellsOutermost_locate (members : List TopLevel) :
    ∀ pc, ∃ members', members'.map TopLevel.erase = members.map TopLevel.erase ∧
      SpellsOutermost (locate pc (members.flatMap TopLevel.flatten)) members' := by
  induction members with
  | nil => exact fun _ => ⟨[], rfl, .nil⟩
  | cons m members ih =>
    intro pc
    cases m with
    | stmt s =>
      obtain ⟨b', herase, hspells⟩ := exists_spellsBlock_locate [s] pc
      obtain ⟨members', herase', hspells'⟩ := ih (pc + (code (Block.flatten [s])).length)
      refine ⟨b'.map .stmt ++ members', ?_, ?_⟩
      · rw [List.map_append, map_erase_stmt, herase, herase']
        rfl
      · have hflat : Block.flatten [s] = s.flatten := by simp
        rw [hflat] at hspells hspells'
        rw [List.flatMap_cons, locate_append]
        exact .block hspells hspells'
    | trigger _ e body =>
      obtain ⟨body', herase, hspells⟩ :=
        exists_spellsBlock_locate body (pc + (Instruction.whenEvent e).size)
      obtain ⟨members', herase', hspells'⟩ := ih (pc + (Instruction.whenEvent e).size +
        (code (Block.flatten body)).length + Instruction.endWhen.size)
      refine ⟨.trigger pc e body' :: members', ?_, ?_⟩
      · simp only [List.map_cons, TopLevel.erase, herase, herase']
      · simpa [TopLevel.flatten, locate_append] using SpellsOutermost.trigger hspells hspells'

/-- Up to offsets, a program is spelled by its instructions wherever they are written. -/
theorem Program.exists_spelledBy_locate (p : Program) (pc : Nat) :
    ∃ q : Program, q.erase = p.erase ∧ q.SpelledBy (locate pc p.flatten) := by
  obtain ⟨members, herase, hspells⟩ := exists_spellsOutermost_locate p.topLevel pc
  refine ⟨⟨members, pc + (code (p.topLevel.flatMap TopLevel.flatten)).length⟩, ?_, _, hspells, ?_⟩
  · rw [Program.erase, herase]
    rfl
  · rw [Program.flatten, locate_append]
    rfl

end Locating

section Scanning

namespace BlockScan

/-- A scan with more instructions in front that have a place, and others that have none. -/
def prepend (kept stray : List Located) (s : BlockScan) : BlockScan :=
  { s with kept := kept ++ s.kept, stray := stray ++ s.stray }

/-- An instruction that has a place comes in front of the others that do. -/
@[simp] theorem kept_keep (i : Located) (s : BlockScan) : (s.keep i).kept = i :: s.kept := rfl

/-- Instructions that have a place come in front of the others that do. -/
@[simp] theorem kept_prepend (kept stray : List Located) (s : BlockScan) :
    (s.prepend kept stray).kept = kept ++ s.kept := rfl

/-- Putting an instruction that has a place in front twice over is putting both in front at once. -/
theorem keep_prepend (i : Located) (kept stray : List Located) (s : BlockScan) :
    (s.prepend kept stray).keep i = s.prepend (i :: kept) stray := rfl

/-- Putting an instruction that fits nowhere in front of such ones is putting both in front at once. -/
theorem drop_prepend (i : Located) (kept stray : List Located) (s : BlockScan) :
    (s.prepend kept stray).drop i = s.prepend kept (i :: stray) := rfl

/-- Instructions can be put in front behind one that has a place. -/
theorem prepend_keep (i : Located) (kept stray : List Located) (s : BlockScan) :
    (s.keep i).prepend kept stray = s.prepend (kept ++ [i]) stray := by
  simp [prepend, keep]

/-- Putting instructions in front twice is putting all of them in front at once. -/
theorem prepend_prepend (kept stray kept' stray' : List Located) (s : BlockScan) :
    (s.prepend kept' stray').prepend kept stray = s.prepend (kept ++ kept') (stray ++ stray') := by
  simp [prepend]

end BlockScan

/-- What is left behind the `ENDIF` of a conditional if anything is left behind what follows it. -/
theorem ReadsBlock.exists_endIf {ctx ctx' : Context} {is mid tail : List Located} {l : Located}
    {b b' : Block} {errors errors' : List ParseError} (hctx : ctx = .thenBranch ∨ ctx = .elseBranch)
    (h : ReadsBlock ctx is b errors mid)
    (hmid : ctx = .thenBranch → ∀ mark js, mid ≠ ⟨mark, .elseMark⟩ :: js)
    (hrest : ReadsBlock ctx' (closeBlock .endIf mid).rest b' errors' (l :: tail)) :
    ∃ close, mid = ⟨close, .endIf⟩ :: (closeBlock .endIf mid).rest := by
  obtain ⟨front, hfront, -⟩ := hrest.exists_front
  obtain ⟨⟨close, i⟩, rfl⟩ := exists_of_rest_closeBlock hfront
  have hstops := h.stopsAt_head
  refine ⟨close, ?_⟩
  obtain rfl | rfl := hctx
  · cases i <;> simp_all [Context.stopsAt, closeBlock]
  · cases i <;> simp_all [Context.stopsAt, closeBlock]

/-- Of a sequence of statements behind which something is left, the scan keeps instructions that spell
it. -/
theorem ReadsBlock.exists_spells {ctx : Context} {is tail : List Located} {l : Located} {b : Block}
    {errors : List ParseError} (h : ReadsBlock ctx is b errors (l :: tail)) :
    ∀ stack, OpenBlock.context stack = ctx → ∃ kept stray, SpellsBlock kept b ∧
      blockScan stack is = (blockScan stack (l :: tail)).prepend kept stray := by
  generalize hleft : l :: tail = rest at h
  induction h generalizing l tail with
  | nil => exact absurd hleft (List.cons_ne_nil _ _)
  | stops => exact fun stack _ => ⟨[], [], .nil, rfl⟩
  | @action _ pc a _ _ _ _ _ ih =>
    intro stack hctx
    obtain ⟨kept, stray, hspells, hscan⟩ := ih hleft stack hctx
    refine ⟨⟨pc, .action a⟩ :: kept, stray, .action hspells, ?_⟩
    rw [blockScan_action, hscan, BlockScan.keep_prepend]
  | @ifThen _ pc c _ mid _ _ _ _ _ hbody hmid hrest ihbody ih =>
    intro stack hctx
    subst hleft
    obtain ⟨close, hclose⟩ := hbody.exists_endIf (.inl rfl) (fun _ => hmid) hrest
    obtain ⟨kept, stray, hspells, hscan⟩ := ihbody hclose.symm (.thenBranch :: stack) rfl
    obtain ⟨kept', stray', hspells', hscan'⟩ := ih rfl stack hctx
    refine ⟨⟨pc, .ifTest c⟩ :: kept ++ ⟨close, .endIf⟩ :: kept', stray ++ stray',
      .ifThen hspells hspells', ?_⟩
    rw [blockScan_ifTest, hscan, hclose, blockScan_keep rfl, hscan', BlockScan.prepend_keep,
      BlockScan.prepend_prepend, BlockScan.keep_prepend, List.append_assoc]
    rfl
  | @ifElse _ pc mark c _ js mid _ _ _ _ _ _ _ hbody hother hrest ihbody ihother ih =>
    intro stack hctx
    subst hleft
    obtain ⟨close, hclose⟩ := hother.exists_endIf (.inr rfl) (fun h => by cases h) hrest
    obtain ⟨kept, stray, hspells, hscan⟩ := ihbody rfl (.thenBranch :: stack) rfl
    obtain ⟨kept', stray', hspells', hscan'⟩ := ihother hclose.symm (.elseBranch :: stack) rfl
    obtain ⟨kept'', stray'', hspells'', hscan''⟩ := ih rfl stack hctx
    refine ⟨⟨pc, .ifTest c⟩ :: kept ++ ⟨mark, .elseMark⟩ :: kept' ++ ⟨close, .endIf⟩ :: kept'',
      stray ++ (stray' ++ stray''), .ifElse hspells hspells' hspells'', ?_⟩
    rw [blockScan_ifTest, hscan, blockScan_elseMark, hscan', hclose, blockScan_keep rfl, hscan'',
      BlockScan.prepend_keep, BlockScan.prepend_keep, BlockScan.prepend_prepend,
      BlockScan.prepend_prepend, BlockScan.keep_prepend]
    simp
  | @stop _ pc _ _ _ _ hctx _ ih =>
    rintro stack rfl
    obtain ⟨kept, stray, hspells, hscan⟩ := ih hleft stack rfl
    have hstack : stack ≠ [] := by
      rintro rfl
      exact hctx rfl
    refine ⟨kept, ⟨pc, .stop⟩ :: stray, hspells, ?_⟩
    rw [blockScan_drop (OpenBlock.after_stop stack) (fun h => absurd h hstack), hscan,
      BlockScan.drop_prepend]
  | @stray _ i _ _ _ _ hi hctx _ ih =>
    rintro stack rfl
    obtain ⟨kept, stray, hspells, hscan⟩ := ih hleft stack rfl
    have hstop : i.instr ≠ .stop := by
      intro h
      simp [h, Instruction.isDelimiter] at hi
    refine ⟨kept, i :: stray, hspells, ?_⟩
    rw [blockScan_drop (OpenBlock.after_eq_none hi hctx) (fun _ => hstop), hscan,
      BlockScan.drop_prepend]

/-- Of what is read as a complete outermost level, the scan keeps instructions that spell it. -/
theorem ReadsOutermost.exists_spells {is : List Located} {members : List TopLevel} {pc : Nat}
    {errors : List ParseError} (h : ReadsOutermost is members (some pc) errors) :
    SpellsOutermost (blockScan [] is).kept members := by
  generalize hend : some pc = endPc at h
  induction h with
  | exhausted => exact absurd hend (Option.some_ne_none pc)
  | closed hblock =>
    obtain ⟨kept, stray, hspells, hscan⟩ := hblock.exists_spells [] rfl
    rw [hscan, blockScan_stop]
    simpa using SpellsOutermost.block hspells .nil
  | @trigger _ js mid _ body members _ _ _ _ when e hblock hbody hrest ih =>
    subst hend
    obtain ⟨front, _, hfront, -⟩ := hrest.exists_front
    obtain ⟨⟨close, i⟩, rfl⟩ := exists_of_rest_closeBlock hfront
    obtain rfl : i = .endWhen := by
      have hstops := hbody.stopsAt_head
      cases i <;> simp_all [Context.stopsAt]
    obtain ⟨kept, stray, hspells, hscan⟩ := hblock.exists_spells [] rfl
    obtain ⟨kept', stray', hspells', hscan'⟩ := hbody.exists_spells [.trigger] rfl
    have htrigger : SpellsOutermost (⟨when, .whenEvent e⟩ :: kept' ++ ⟨close, .endWhen⟩ :: _)
      (.trigger when e body :: members) := .trigger hspells' (ih rfl)
    rw [hscan, blockScan_whenEvent, hscan', blockScan_keep rfl]
    simpa [closeBlock] using SpellsOutermost.block hspells htrigger

end Scanning

end AbilityScript
