import AbilityScript.Proofs.Blocks.Spelling

/-!
# Blocks that are open along instructions

Which blocks are open after some instructions depends on nothing but the instructions, and whether one
more instruction fits depends on nothing but the open blocks. This gives the scan of blocks in two
parts that can be read by themselves: the open blocks after instructions, and the instructions that
are left once those that fit nowhere are taken out. The scan goes through instructions in pieces, and
up to the `END` that closes the outermost level it finds just these two.

## Main definitions

* `Instruction.isStray`: whether an instruction fits nowhere inside open blocks.
* `OpenBlock.through`: the open blocks after instructions.
* `placed`: the instructions that fit somewhere.

## Main statements

* `blockScan_append`: the scan of instructions in two pieces.
* `exists_before_of_closed`: what the scan went through when it ends at an `END`.
* `blockScan_of_exhausted`: the open blocks and the kept instructions of a scan that goes through.
* `parse_errors_eq_nil_iff`: when nothing is wrong with the block structure.
-/

set_option autoImplicit false

namespace AbilityScript

/-- Whether an instruction fits nowhere inside open blocks, the innermost of which comes first: a
`WHEN` or an `END` inside any block, an `ENDWHEN` that does not close a trigger, an `ELSE` that is not
directly in a first branch, an `ENDIF` that does not close a conditional. -/
def Instruction.isStray (stack : List OpenBlock) : Instruction → Bool
  | .action _ | .ifTest _ => false
  | .whenEvent _ | .stop => !stack.isEmpty
  | .endWhen => stack.head? != some .trigger
  | .elseMark => stack.head? != some .thenBranch
  | .endIf => stack.head? != some .thenBranch && stack.head? != some .elseBranch

namespace OpenBlock

/-- The open blocks after an instruction. One that fits nowhere changes nothing. -/
def step (stack : List OpenBlock) (i : Instruction) : List OpenBlock :=
  (after stack i).getD stack

/-- The open blocks after instructions. -/
def through (stack : List OpenBlock) (is : List Instruction) : List OpenBlock :=
  is.foldl step stack

/-- No instructions leave the open blocks as they are. -/
@[simp] theorem through_nil (stack : List OpenBlock) : through stack [] = stack := rfl

/-- The open blocks after instructions are those after the first one and then the others. -/
@[simp] theorem through_cons (stack : List OpenBlock) (i : Instruction) (is : List Instruction) :
    through stack (i :: is) = through (step stack i) is := rfl

/-- The open blocks after two runs of instructions are those after one and then the other. -/
theorem through_append (stack : List OpenBlock) (is js : List Instruction) :
    through stack (is ++ js) = through (through stack is) js :=
  List.foldl_append

/-- The scan takes an instruction for stray exactly if it fits nowhere, apart from the `END` that
closes the outermost level. -/
theorem after_eq_none_iff {stack : List OpenBlock} {i : Instruction}
    (h : ¬(stack = [] ∧ i = .stop)) : after stack i = none ↔ i.isStray stack = true := by
  match stack with
  | [] => cases i <;> simp_all [after, Instruction.isStray]
  | b :: stack => cases b <;> cases i <;> simp [after, Instruction.isStray]

/-- An instruction that fits nowhere leaves the open blocks as they are. -/
theorem step_of_isStray {stack : List OpenBlock} {i : Instruction} (h : i.isStray stack = true) :
    step stack i = stack := by
  have hstop : ¬(stack = [] ∧ i = .stop) := by
    rintro ⟨rfl, rfl⟩
    exact Bool.false_ne_true h
  rw [step, (after_eq_none_iff hstop).2 h, Option.getD_none]

end OpenBlock

/-- The instructions that fit somewhere, inside open blocks the innermost of which comes first. -/
def placed (stack : List OpenBlock) : List Located → List Located
  | [] => []
  | l :: ls =>
    if l.instr.isStray stack then placed stack ls
    else l :: placed (OpenBlock.step stack l.instr) ls

/-- What is always at its place is still there when the stray instructions are taken out. -/
theorem filter_placed {f : Located → Bool} (hf : ∀ stack l, f l = true → l.instr.isStray stack = false)
    (stack : List OpenBlock) (ls : List Located) : (placed stack ls).filter f = ls.filter f := by
  induction ls generalizing stack with
  | nil => rfl
  | cons l ls ih =>
    rw [placed]
    split
    · rename_i hstray
      have hl : ¬f l = true := by
        intro hl
        rw [hf stack l hl] at hstray
        exact Bool.false_ne_true hstray
      rw [ih, List.filter_cons_of_neg hl]
    · by_cases hl : f l = true
      · rw [List.filter_cons_of_pos hl, List.filter_cons_of_pos hl, ih]
      · rw [List.filter_cons_of_neg hl, List.filter_cons_of_neg hl, ih]

section Scanning

variable {stack stack' : List OpenBlock} {is : List Located} {i : Located}

/-- The scan of one more instruction in front, unless that is the `END` that closes the outermost
level. -/
theorem blockScan_cons (h : ¬(stack = [] ∧ i.instr = .stop)) (is : List Located) :
    blockScan stack (i :: is) =
      if i.instr.isStray stack then (blockScan (OpenBlock.step stack i.instr) is).drop i
      else (blockScan (OpenBlock.step stack i.instr) is).keep i := by
  cases hafter : OpenBlock.after stack i.instr with
  | some stack' =>
    have hplace : ¬i.instr.isStray stack = true := by
      rw [← OpenBlock.after_eq_none_iff h, hafter]
      exact Option.some_ne_none _
    rw [blockScan_keep hafter, if_neg hplace, OpenBlock.step, hafter, Option.getD_some]
  | none =>
    have hstray := (OpenBlock.after_eq_none_iff h).1 hafter
    rw [blockScan_drop hafter fun hs hi => h ⟨hs, hi⟩, if_pos hstray, OpenBlock.step, hafter,
      Option.getD_none]

/-- A scan ends as it does behind the first instruction, unless that one closes the outermost level. -/
theorem ending_blockScan_cons (h : ¬(stack = [] ∧ i.instr = .stop)) (is : List Located) :
    (blockScan stack (i :: is)).ending = (blockScan (OpenBlock.step stack i.instr) is).ending := by
  rw [blockScan_cons h]
  split <;> rfl

/-- A scan that goes through an instruction does not end at it. -/
theorem not_stop_of_exhausted (h : (blockScan stack (i :: is)).ending = .exhausted stack') :
    ¬(stack = [] ∧ i.instr = .stop) := by
  intro hstop
  rw [blockScan, if_pos hstop] at h
  exact ScanEnd.noConfusion h

/-- What a scan finds stray is one of the instructions, and fits nowhere inside some open blocks. -/
theorem mem_stray {l : Located} (h : l ∈ (blockScan stack is).stray) :
    l ∈ is ∧ ∃ stack', l.instr.isStray stack' = true := by
  induction is generalizing stack with
  | nil => exact absurd h List.not_mem_nil
  | cons i is ih =>
    have htail (h : l ∈ (blockScan (OpenBlock.step stack i.instr) is).stray) :
        l ∈ i :: is ∧ ∃ stack', l.instr.isStray stack' = true :=
      ⟨List.mem_cons_of_mem _ (ih h).1, (ih h).2⟩
    by_cases hi : stack = [] ∧ i.instr = .stop
    · rw [blockScan, if_pos hi] at h
      exact absurd h List.not_mem_nil
    · rw [blockScan_cons hi] at h
      split at h
      · rename_i hstray
        obtain rfl | h := List.mem_cons.1 h
        · exact ⟨List.mem_cons_self, stack, hstray⟩
        · exact htail h
      · exact htail h

/-- A scan that goes through instructions goes on behind them with the blocks that are open there. -/
theorem blockScan_append (h : (blockScan stack is).ending = .exhausted stack')
    (js : List Located) :
    blockScan stack (is ++ js) =
      (blockScan stack' js).prepend (blockScan stack is).kept (blockScan stack is).stray := by
  induction is generalizing stack with
  | nil =>
    obtain rfl : stack = stack' := by simpa [blockScan] using h
    rfl
  | cons i is ih =>
    have hi := not_stop_of_exhausted h
    rw [ending_blockScan_cons hi] at h
    rw [List.cons_append, blockScan_cons hi, blockScan_cons hi, ih h]
    split
    · exact BlockScan.drop_prepend ..
    · exact BlockScan.keep_prepend ..

/-- A scan that goes through instructions ends with the blocks that are open after them, and keeps
those that fit somewhere. -/
theorem blockScan_of_exhausted (h : (blockScan stack is).ending = .exhausted stack') :
    stack' = OpenBlock.through stack (is.map Located.instr) ∧
      (blockScan stack is).kept = placed stack is := by
  induction is generalizing stack with
  | nil =>
    obtain rfl : stack = stack' := by simpa [blockScan] using h
    exact ⟨rfl, rfl⟩
  | cons i is ih =>
    have hi := not_stop_of_exhausted h
    rw [ending_blockScan_cons hi] at h
    obtain ⟨hopen, hkept⟩ := ih h
    refine ⟨hopen, ?_⟩
    rw [blockScan_cons hi, placed]
    split
    · rename_i hstray
      rw [OpenBlock.step_of_isStray hstray] at hkept ⊢
      exact hkept
    · exact congrArg (i :: ·) hkept

/-- Where a scan goes through an `END`, a block is open. -/
theorem through_ne_nil_of_exhausted {front rest : List Located} {l : Located} (hl : l.instr = .stop)
    (h : (blockScan stack (front ++ l :: rest)).ending = .exhausted stack') :
    OpenBlock.through stack (front.map Located.instr) ≠ [] := by
  induction front generalizing stack with
  | nil => exact fun hstack => not_stop_of_exhausted h ⟨hstack, hl⟩
  | cons i front ih =>
    rw [List.cons_append, ending_blockScan_cons (not_stop_of_exhausted h)] at h
    exact ih h

/-- A scan that ends at an `END` goes through what is before it, after which no block is open. -/
theorem exists_before_of_closed {pc : Nat} {after : List Located}
    (h : (blockScan stack is).ending = .closed pc after) :
    ∃ before, is = before ++ ⟨pc, .stop⟩ :: after ∧
      (blockScan stack before).ending = .exhausted [] := by
  induction is generalizing stack with
  | nil => exact ScanEnd.noConfusion h
  | cons i is ih =>
    by_cases hi : stack = [] ∧ i.instr = .stop
    · rw [blockScan, if_pos hi] at h
      obtain ⟨rfl, rfl⟩ := ScanEnd.closed.inj h
      obtain ⟨rfl, hi⟩ := hi
      exact ⟨[], by rw [List.nil_append, ← hi], rfl⟩
    · rw [ending_blockScan_cons hi] at h
      obtain ⟨before, rfl, hbefore⟩ := ih h
      exact ⟨i :: before, rfl, by rw [ending_blockScan_cons hi]; exact hbefore⟩

/-- Without an `END` a scan goes through all instructions. -/
theorem blockScan_of_stop_notMem (stack : List OpenBlock) (h : .stop ∉ is.map Located.instr) :
    (blockScan stack is).ending = .exhausted (OpenBlock.through stack (is.map Located.instr)) := by
  cases hending : (blockScan stack is).ending with
  | closed pc after =>
    obtain ⟨before, rfl, -⟩ := exists_before_of_closed hending
    exact absurd (by simp) h
  | exhausted stack' => rw [(blockScan_of_exhausted hending).1]

end Scanning

section Recovery

/-- The parser complains about what a scan complains about. -/
theorem parse_errors_eq (is : List Located) : (parse is).errors = (blockScan [] is).errors := by
  have hread := readsOutermost_readOutermost is
  rw [hread.parse_eq, hread.blockScan_eq.1]

/-- A scan that reaches the end of the instructions complains. -/
theorem errors_ne_nil_of_exhausted {s : BlockScan} {stack : List OpenBlock}
    (h : s.ending = .exhausted stack) : s.errors ≠ [] := by
  rw [BlockScan.errors, h]
  simp

/-- If nothing is wrong with the block structure, there is a program. -/
theorem exists_program_of_parse_errors {is : List Located} (h : (parse is).errors = []) :
    ∃ p, (parse is).program = some p := by
  have hread := readsOutermost_readOutermost is
  cases hending : (blockScan [] is).ending with
  | exhausted stack =>
    rw [parse_errors_eq] at h
    exact absurd h (errors_ne_nil_of_exhausted hending)
  | closed pc after =>
    have hclosed := hread.blockScan_eq.2
    rw [BlockScan.closed?_eq_some.2 hending] at hclosed
    rw [hread.parse_eq, ← hclosed]
    exact ⟨_, rfl⟩

/-- Nothing is wrong with the block structure of instructions that end in their only `END` exactly if
no block is open there. -/
theorem parse_errors_eq_nil_iff {ls : List Located} (hstop : .stop ∉ ls.map Located.instr) (pc : Nat) :
    (parse (ls ++ [⟨pc, .stop⟩])).errors = [] ↔
      OpenBlock.through [] (ls.map Located.instr) = [] := by
  have hfront := blockScan_of_stop_notMem [] hstop
  rw [parse_errors_eq, blockScan_append hfront]
  cases hopen : OpenBlock.through [] (ls.map Located.instr) with
  | nil =>
    have hstray : (blockScan [] ls).stray.filter Located.isStop = [] := by
      refine List.filter_eq_nil_iff.2 fun l hl hisStop => hstop ?_
      rw [Located.isStop, beq_iff_eq] at hisStop
      exact hisStop ▸ List.mem_map_of_mem (mem_stray hl).1
    rw [blockScan_stop]
    simp [BlockScan.errors, BlockScan.prepend, hstray]
  | cons b stack =>
    have hending : (blockScan (b :: stack) [⟨pc, .stop⟩]).ending =
        .exhausted (OpenBlock.step (b :: stack) .stop) := by
      rw [ending_blockScan_cons (by simp)]
      rfl
    exact iff_of_false
      (errors_ne_nil_of_exhausted (s := BlockScan.prepend _ _ (blockScan _ _)) hending)
      (List.cons_ne_nil b stack)

end Recovery

end AbilityScript
