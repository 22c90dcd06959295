import AbilityScript.Proofs.Blocks.Retention
import AbilityScript.Proofs.Program.Erasure
import AbilityScript.Proofs.Program.Violations

/-!
# The check at other offsets

The rules of legality do not look at offsets. When one function moves all offsets of a program, the
errors stay the same, in the same order, and it moves their offsets too.

Two programs that differ only in offsets need not be related by a function, because one of them may have
two nodes at one offset. But both have the same nodes in the same order. If the nodes are numbered on the
way through, each of the two programs comes from the numbered one when the numbers are replaced by its
own offsets. So an error that one of them has at some node the other has at the node with the same
number.

## Main definitions

* `Program.relocate`: a program with its offsets moved by a function.
* `Program.number`: a program with the numbers of its nodes for offsets.

## Main statements

* `Program.check_relocate`: what the check finds when offsets are moved.
* `Program.exists_marks`: what the check finds in programs that differ only in offsets.
-/

set_option autoImplicit false

namespace AbilityScript

section Relocation

variable (f : Nat → Nat)

mutual

/-- A statement with every offset moved by a function. -/
def Stmt.relocate : Stmt → Stmt
  | .action pc a => .action (f pc) a
  | .cond pc c body none => .cond (f pc) c (Block.relocate body) none
  | .cond pc c body (some other) => .cond (f pc) c (Block.relocate body) (some (Block.relocate other))

/-- A block with every offset moved by a function. -/
def Block.relocate : List Stmt → List Stmt
  | [] => []
  | s :: rest => Stmt.relocate s :: Block.relocate rest

end

/-- A member of the outermost level with every offset moved by a function. -/
def TopLevel.relocate : TopLevel → TopLevel
  | .stmt s => .stmt (s.relocate f)
  | .trigger pc e body => .trigger (f pc) e (Block.relocate f body)

/-- A program with every offset moved by a function. -/
def Program.relocate (p : Program) : Program where
  topLevel := p.topLevel.map (TopLevel.relocate f)
  endPc := f p.endPc

/-- An error with its offset moved by a function. -/
def SemanticError.relocate (e : SemanticError) : SemanticError where
  violation := e.violation
  pc := f e.pc

/-- An occurrence with its offset moved by a function. -/
def Occurrence.relocate : Occurrence → Occurrence
  | .emptyTrigger pc => .emptyTrigger (f pc)
  | .emptyThen pc => .emptyThen (f pc)
  | .emptyElse pc => .emptyElse (f pc)
  | .constantComparison pc => .constantComparison (f pc)
  | .action pc a => .action (f pc) a

/-- Moving offsets neither empties nor fills a block. -/
theorem ofBody_relocate (o : Occurrence) (body : Block) (inside : List Occurrence) :
    ofBody (o.relocate f) (Block.relocate f body) (inside.map (Occurrence.relocate f)) =
      (ofBody o body inside).map (Occurrence.relocate f) := by
  cases body <;> rfl

/-- Whether a comparison is reported does not depend on its offset. -/
theorem ofComparison_relocate (pc : Nat) (c : Comparison) :
    ofComparison (f pc) c = (ofComparison pc c).map (Occurrence.relocate f) := by
  unfold ofComparison
  split <;> rfl

/-- A block with moved offsets has the same occurrences at the moved offsets. -/
theorem Block.occurrences_relocate (b : Block) :
    Block.occurrences (Block.relocate f b) =
      (Block.occurrences b).map (Occurrence.relocate f) := by
  induction b using Block.induction with
  | nil => rfl
  | action pc a rest ih =>
    rw [Block.relocate, Block.occurrences, ih, Block.occurrences, List.map_append]
    rfl
  | ifThen pc c body rest ihbody ih =>
    rw [Block.relocate, Stmt.relocate, Block.occurrences, Stmt.occurrences, ih, ihbody,
      ofComparison_relocate, Block.occurrences, Stmt.occurrences, List.map_append, List.map_append,
      ← ofBody_relocate]
    rfl
  | ifElse pc c body other rest ihbody ihother ih =>
    rw [Block.relocate, Stmt.relocate, Block.occurrences, Stmt.occurrences, ih, ihbody, ihother,
      ofComparison_relocate, Block.occurrences, Stmt.occurrences, List.map_append, List.map_append,
      List.map_append, ← ofBody_relocate, ← ofBody_relocate]
    rfl

/-- A member with moved offsets has the same occurrences at the moved offsets. -/
theorem TopLevel.occurrences_relocate (m : TopLevel) :
    (m.relocate f).occurrences = m.occurrences.map (Occurrence.relocate f) := by
  cases m with
  | stmt s =>
    have hblock := Block.occurrences_relocate f [s]
    simp only [Block.relocate, Block.occurrences, List.append_nil] at hblock
    exact hblock
  | trigger pc e body =>
    rw [TopLevel.relocate, TopLevel.occurrences, Block.occurrences_relocate, TopLevel.occurrences,
      ← ofBody_relocate]
    rfl

/-- A program with moved offsets has the same occurrences at the moved offsets. -/
theorem Program.occurrences_relocate (p : Program) :
    (p.relocate f).occurrences = p.occurrences.map (Occurrence.relocate f) := by
  simp only [Program.occurrences, Program.relocate, List.flatMap_map, List.map_flatMap,
    TopLevel.occurrences_relocate]

/-- Whether occurrences are the same action does not depend on offsets. -/
theorem Occurrence.sameAs_relocate (o x : Occurrence) :
    (x.relocate f).sameAs (o.relocate f) = x.sameAs o := by
  cases x <;> cases o <;> rfl

/-- An occurrence at a moved offset is reported as often, there. -/
theorem Occurrence.errors_relocate (before : List Occurrence) (o : Occurrence) :
    (o.relocate f).errors (before.map (Occurrence.relocate f)) =
      (o.errors before).map (SemanticError.relocate f) := by
  cases o with
  | emptyTrigger | emptyThen | emptyElse | constantComparison => rfl
  | action pc a =>
    have hcount : (before.map (relocate f)).countP (fun x => x.sameAs (.action (f pc) a)) =
        before.countP fun x => x.sameAs (.action pc a) := by
      rw [List.countP_map]
      apply List.countP_congr
      intro x _
      exact Bool.eq_iff_iff.1 (sameAs_relocate f (.action pc a) x)
    rw [relocate, errors, hcount, errors, List.map_replicate]
    rfl

/-- The report on occurrences at moved offsets is their report, moved. -/
theorem report_relocate (before os : List Occurrence) :
    report (before.map (Occurrence.relocate f)) (os.map (Occurrence.relocate f)) =
      (report before os).map (SemanticError.relocate f) := by
  induction os generalizing before with
  | nil => rfl
  | cons o os ih =>
    have hrest := ih (before ++ [o])
    rw [List.map_append, List.map_singleton] at hrest
    rw [List.map_cons, report, hrest, Occurrence.errors_relocate, report, List.map_append]

/-- When all offsets of a program are moved, its errors move with them. -/
theorem Program.check_relocate (p : Program) :
    (p.relocate f).check = p.check.map (SemanticError.relocate f) := by
  rw [check_occurrences, check_occurrences, Program.occurrences_relocate]
  exact report_relocate f [] p.occurrences

end Relocation

section Erasure

/-- Erasing the offsets of a block is moving all of them to zero. -/
theorem Block.erase_eq_relocate (b : Block) : Block.erase b = Block.relocate (fun _ => 0) b := by
  induction b using Block.induction with
  | nil => rfl
  | action pc a rest ih => rw [Block.erase, ih]; rfl
  | ifThen pc c body rest ihbody ih => rw [Block.erase, Stmt.erase, ihbody, ih]; rfl
  | ifElse pc c body other rest ihbody ihother ih =>
    rw [Block.erase, Stmt.erase, ihbody, ihother, ih]; rfl

/-- Erasing the offsets of a member is moving all of them to zero. -/
theorem TopLevel.erase_eq_relocate (m : TopLevel) : m.erase = m.relocate fun _ => 0 := by
  cases m with
  | stmt s =>
    have hblock := Block.erase_eq_relocate [s]
    exact congrArg TopLevel.stmt (List.cons.inj hblock).1
  | trigger pc e body => rw [TopLevel.erase, Block.erase_eq_relocate]; rfl

/-- Erasing offsets moves all of them to zero. -/
theorem Program.erase_eq_relocate (p : Program) : p.erase = p.relocate fun _ => 0 := by
  rw [Program.erase, Program.relocate, funext TopLevel.erase_eq_relocate]

/-- Programs that differ only in offsets break the same rules, in the same order. -/
theorem Program.violations_eq_of_erase_eq {p q : Program} (h : p.erase = q.erase) :
    p.check.map SemanticError.violation = q.check.map SemanticError.violation := by
  have herase (p : Program) :
      p.erase.check.map SemanticError.violation = p.check.map SemanticError.violation := by
    rw [Program.erase_eq_relocate, Program.check_relocate, List.map_map]
    rfl
  rw [← herase p, h, herase]

end Erasure

section Heads

/-- The instructions that the nodes of a statement begin with. -/
def Stmt.heads (s : Stmt) : List Located :=
  (Stmt.visits s).filterMap Visit.head?

/-- The instructions that the nodes of a block begin with, in order. -/
def Block.heads (b : Block) : List Located :=
  (Block.visits b).filterMap Visit.head?

/-- The instructions that the nodes of a member begin with, in order. -/
def TopLevel.heads (m : TopLevel) : List Located :=
  m.visits.filterMap Visit.head?

/-- An action is a node by itself. -/
@[simp] theorem Stmt.heads_action (pc : Nat) (a : Action) :
    heads (.action pc a) = [⟨pc, .action a⟩] := rfl

/-- The nodes of a conditional are itself and those in its branch. -/
@[simp] theorem Stmt.heads_ifThen (pc : Nat) (c : Comparison) (body : Block) :
    heads (.cond pc c body none) = ⟨pc, .ifTest c⟩ :: Block.heads body := rfl

/-- The nodes of a conditional with two branches are itself, those in the first and those in the second.
-/
@[simp] theorem Stmt.heads_ifElse (pc : Nat) (c : Comparison) (body other : Block) :
    heads (.cond pc c body (some other)) =
      ⟨pc, .ifTest c⟩ :: (Block.heads body ++ Block.heads other) := by
  simp [heads, Stmt.visits, Block.heads, List.filterMap_cons]

/-- There is no node in the empty block. -/
@[simp] theorem Block.heads_nil : heads [] = [] := rfl

/-- The nodes of a block are those of its first statement and then those of the others. -/
@[simp] theorem Block.heads_cons (s : Stmt) (b : Block) : heads (s :: b) = s.heads ++ heads b :=
  List.filterMap_append

/-- A block of one statement has the nodes of that statement. -/
theorem Block.heads_singleton (s : Stmt) : heads [s] = s.heads := by
  rw [heads_cons, heads_nil, List.append_nil]

/-- A statement at the outermost level has the nodes that it has anywhere. -/
@[simp] theorem TopLevel.heads_stmt (s : Stmt) : heads (.stmt s) = s.heads := rfl

/-- The nodes of a trigger are itself and those in its block. -/
@[simp] theorem TopLevel.heads_trigger (pc : Nat) (e : Event) (body : Block) :
    heads (.trigger pc e body) = ⟨pc, .whenEvent e⟩ :: Block.heads body := rfl

/-- The nodes of a program are those of its members, in order. -/
theorem Program.heads_eq (p : Program) : p.heads = p.topLevel.flatMap TopLevel.heads :=
  List.filterMap_flatMap

/-- What an error is about begins with an instruction, and the error is at its offset. -/
theorem exists_head?_of_flags {e : SemanticError} {v : Visit} (h : e.Flags v) :
    ∃ l, v.head? = some l ∧ l.pc = e.pc := by
  cases v with
  | program | topLevel | block => exact h.elim
  | trigger pc event body => exact ⟨_, rfl, by rw [h.1]⟩
  | stmt s =>
    cases s with
    | action pc a =>
      obtain rfl : e = ⟨.repeated a.kind, pc⟩ := h
      exact ⟨_, rfl, rfl⟩
    | cond pc c body other =>
      refine ⟨_, rfl, ?_⟩
      obtain ⟨rfl, -⟩ | ⟨rfl, -⟩ | ⟨rfl, -⟩ := h <;> rfl

/-- Every error is at the offset of a node. -/
theorem exists_mem_heads_of_mem_check {p : Program} {e : SemanticError} (h : e ∈ p.check) :
    ∃ l ∈ p.heads, l.pc = e.pc := by
  obtain ⟨v, hv, hflags⟩ := exists_visit_of_mem_check h
  obtain ⟨l, hl, hpc⟩ := exists_head?_of_flags hflags
  exact ⟨l, List.mem_filterMap.2 ⟨v, hv, hl⟩, hpc⟩

end Heads

section Numbering

mutual

/-- A statement with its nodes numbered from `n` on, each before what it contains. -/
def Stmt.number (n : Nat) : Stmt → Stmt
  | .action _ a => .action n a
  | .cond _ c body none => .cond n c (Block.number (n + 1) body) none
  | .cond _ c body (some other) =>
    .cond n c (Block.number (n + 1) body)
      (some (Block.number (n + 1 + (Block.heads body).length) other))

/-- A block with the numbers of its nodes for offsets, counted from `n`. -/
def Block.number (n : Nat) : List Stmt → List Stmt
  | [] => []
  | s :: rest => Stmt.number n s :: Block.number (n + (Stmt.heads s).length) rest

end

namespace TopLevel

/-- A member with the numbers of its nodes for offsets, counted from `n`. -/
def number (n : Nat) : TopLevel → TopLevel
  | .stmt s => .stmt (s.number n)
  | .trigger _ e body => .trigger n e (Block.number (n + 1) body)

/-- Members with the numbers of their nodes for offsets, counted from `n` through all of them. -/
def numberAll (n : Nat) : List TopLevel → List TopLevel
  | [] => []
  | m :: ms => m.number n :: numberAll (n + m.heads.length) ms

end TopLevel

/-- A program with the numbers of its nodes for offsets, and the number of nodes for that of its
`END`. -/
def Program.number (p : Program) : Program where
  topLevel := TopLevel.numberAll 0 p.topLevel
  endPc := p.heads.length

/-- A function maps the numbers from `n` on to the offsets of nodes. -/
def Finds (f : Nat → Nat) (n : Nat) (nodes : List Located) : Prop :=
  ∀ i l, nodes[i]? = some l → f (n + i) = l.pc

/-- A function finds nodes in two parts if it finds the one, and the other behind it. -/
theorem Finds.append_iff {f : Nat → Nat} {n : Nat} {ls ms : List Located} :
    Finds f n (ls ++ ms) ↔ Finds f n ls ∧ Finds f (n + ls.length) ms := by
  constructor
  · intro h
    refine ⟨fun i l hl => h i l ?_, fun i l hl => ?_⟩
    · rw [List.getElem?_append_left (List.getElem?_eq_some_iff.1 hl).1]
      exact hl
    · rw [Nat.add_assoc]
      apply h
      rw [List.getElem?_append_right (by omega), Nat.add_sub_cancel_left]
      exact hl
  · rintro ⟨hleft, hright⟩ i l hl
    by_cases hi : i < ls.length
    · rw [List.getElem?_append_left hi] at hl
      exact hleft i l hl
    · rw [List.getElem?_append_right (by omega)] at hl
      have hfound := hright _ l hl
      rwa [show n + ls.length + (i - ls.length) = n + i by omega] at hfound

/-- A function finds nodes if it finds the first one, and the others behind it. -/
theorem Finds.cons_iff {f : Nat → Nat} {n : Nat} {l : Located} {ls : List Located} :
    Finds f n (l :: ls) ↔ f n = l.pc ∧ Finds f (n + 1) ls := by
  rw [← List.singleton_append, append_iff, List.length_singleton]
  apply and_congr_left'
  constructor
  · intro h
    exact h 0 l rfl
  · intro h i m hm
    cases i with
    | zero =>
      obtain rfl : l = m := Option.some.inj hm
      exact h
    | succ i => cases hm

namespace Block

variable {f : Nat → Nat}

/-- The offsets of a block are found behind the numbers of its nodes. -/
theorem relocate_number (b : Block) :
    ∀ n, Finds f n (heads b) → relocate f (number n b) = b := by
  induction b using Block.induction with
  | nil => exact fun _ _ => rfl
  | action pc a rest ih =>
    intro n h
    rw [heads_cons, Stmt.heads_action, Finds.append_iff, Finds.cons_iff] at h
    obtain ⟨⟨hpc, -⟩, hrest⟩ := h
    rw [number, Stmt.number, relocate, Stmt.relocate, hpc, Stmt.heads_action, ih _ hrest]
  | ifThen pc c body rest ihbody ih =>
    intro n h
    rw [heads_cons, Stmt.heads_ifThen, Finds.append_iff, Finds.cons_iff] at h
    obtain ⟨⟨hpc, hbody⟩, hrest⟩ := h
    rw [number, Stmt.number, relocate, Stmt.relocate, hpc, ihbody _ hbody, Stmt.heads_ifThen,
      ih _ hrest]
  | ifElse pc c body other rest ihbody ihother ih =>
    intro n h
    rw [heads_cons, Stmt.heads_ifElse, Finds.append_iff, Finds.cons_iff, Finds.append_iff] at h
    obtain ⟨⟨hpc, hbody, hother⟩, hrest⟩ := h
    rw [number, Stmt.number, relocate, Stmt.relocate, hpc, ihbody _ hbody, ihother _ hother,
      Stmt.heads_ifElse, ih _ hrest]

/-- Moving the offsets of a block moves those of its nodes. -/
theorem heads_relocate (b : Block) :
    heads (relocate f b) = (heads b).map fun l => ⟨f l.pc, l.instr⟩ := by
  induction b using Block.induction with
  | nil => rfl
  | action pc a rest ih => simp [relocate, Stmt.relocate, ih]
  | ifThen pc c body rest ihbody ih => simp [relocate, Stmt.relocate, ihbody, ih]
  | ifElse pc c body other rest ihbody ihother ih =>
    simp [relocate, Stmt.relocate, ihbody, ihother, ih]

/-- Numbered nodes have their numbers for offsets. -/
theorem heads_number (b : Block) :
    ∀ n, (heads (number n b)).map Located.pc = List.range' n (heads b).length := by
  induction b using Block.induction with
  | nil => exact fun _ => rfl
  | action pc a rest ih =>
    intro n
    rw [number, heads_cons, List.map_append, ih, heads_cons, List.length_append, ← List.range'_append_1]
    rfl
  | ifThen pc c body rest ihbody ih =>
    intro n
    rw [number, heads_cons, List.map_append, ih, Stmt.number, Stmt.heads_ifThen, List.map_cons, ihbody,
      heads_cons, List.length_append, ← List.range'_append_1, Stmt.heads_ifThen, List.length_cons,
      List.range'_succ]
  | ifElse pc c body other rest ihbody ihother ih =>
    intro n
    rw [number, heads_cons, List.map_append, ih, Stmt.number, Stmt.heads_ifElse, List.map_cons,
      List.map_append, ihbody, ihother, heads_cons, List.length_append, ← List.range'_append_1,
      Stmt.heads_ifElse, List.length_cons, List.length_append, List.range'_succ,
      ← List.range'_append_1]

/-- Where the nodes of a block are does not matter to their numbers. -/
theorem number_relocate (b : Block) : ∀ n, number n (relocate f b) = number n b := by
  induction b using Block.induction with
  | nil => exact fun _ => rfl
  | action pc a rest ih =>
    intro n
    simp [number, Stmt.number, relocate, Stmt.relocate, ih]
  | ifThen pc c body rest ihbody ih =>
    intro n
    simp [number, Stmt.number, relocate, Stmt.relocate, ih, ihbody, heads_relocate]
  | ifElse pc c body other rest ihbody ihother ih =>
    intro n
    simp [number, Stmt.number, relocate, Stmt.relocate, ih, ihbody, ihother, heads_relocate]

end Block

namespace TopLevel

variable {f : Nat → Nat}

/-- The offsets of a member are found behind the numbers of its nodes. -/
theorem relocate_number (m : TopLevel) (n : Nat) (h : Finds f n m.heads) :
    (m.number n).relocate f = m := by
  cases m with
  | stmt s =>
    have hblock := Block.relocate_number (f := f) [s] n
    rw [Block.heads_singleton] at hblock
    exact congrArg TopLevel.stmt (List.cons.inj (hblock h)).1
  | trigger pc e body =>
    rw [heads_trigger, Finds.cons_iff] at h
    rw [number, relocate, Block.relocate_number body _ h.2, h.1]

/-- Moving the offsets of a member moves those of its nodes. -/
theorem heads_relocate (m : TopLevel) :
    (m.relocate f).heads = m.heads.map fun l => ⟨f l.pc, l.instr⟩ := by
  cases m with
  | stmt s =>
    have hblock := Block.heads_relocate (f := f) [s]
    rw [Block.relocate, Block.relocate, Block.heads_singleton, Block.heads_singleton] at hblock
    exact hblock
  | trigger pc e body =>
    rw [relocate, heads_trigger, Block.heads_relocate]
    rfl

/-- The nodes of a numbered member have their numbers for offsets. -/
theorem heads_number (m : TopLevel) (n : Nat) :
    (m.number n).heads.map Located.pc = List.range' n m.heads.length := by
  cases m with
  | stmt s =>
    have hblock := Block.heads_number [s] n
    rw [Block.number, Block.number, Block.heads_singleton, Block.heads_singleton] at hblock
    exact hblock
  | trigger pc e body =>
    rw [number, heads_trigger, List.map_cons, Block.heads_number, heads_trigger, List.length_cons,
      List.range'_succ]

/-- Where the nodes of a member are does not matter to their numbers. -/
theorem number_relocate (m : TopLevel) (n : Nat) : (m.relocate f).number n = m.number n := by
  cases m with
  | stmt s =>
    have hblock := Block.number_relocate (f := f) [s] n
    exact congrArg TopLevel.stmt (List.cons.inj hblock).1
  | trigger pc e body => rw [relocate, number, Block.number_relocate, number]

/-- The offsets of members are found behind the numbers of their nodes. -/
theorem map_relocate_numberAll (ms : List TopLevel) :
    ∀ n, Finds f n (ms.flatMap heads) → (numberAll n ms).map (relocate f) = ms := by
  induction ms with
  | nil => exact fun _ _ => rfl
  | cons m ms ih =>
    intro n h
    rw [List.flatMap_cons, Finds.append_iff] at h
    rw [numberAll, List.map_cons, relocate_number m n h.1, ih _ h.2]

/-- The nodes of numbered members have their numbers for offsets. -/
theorem heads_numberAll (ms : List TopLevel) :
    ∀ n, ((numberAll n ms).flatMap heads).map Located.pc = List.range' n (ms.flatMap heads).length := by
  induction ms with
  | nil => exact fun _ => rfl
  | cons m ms ih =>
    intro n
    rw [numberAll, List.flatMap_cons, List.map_append, heads_number, ih, List.flatMap_cons,
      List.length_append, ← List.range'_append_1]

/-- Where the nodes of members are does not matter to their numbers. -/
theorem numberAll_map_relocate (ms : List TopLevel) :
    ∀ n, numberAll n (ms.map (relocate f)) = numberAll n ms := by
  induction ms with
  | nil => exact fun _ => rfl
  | cons m ms ih =>
    intro n
    rw [List.map_cons, numberAll, number_relocate, heads_relocate, List.length_map, ih, numberAll]

end TopLevel

namespace Program

variable {p q : Program}

/-- Moving the offsets of a program moves those of its nodes. -/
theorem heads_relocate (f : Nat → Nat) (p : Program) :
    (p.relocate f).heads = p.heads.map fun l => ⟨f l.pc, l.instr⟩ := by
  simp only [heads_eq, relocate, List.flatMap_map, List.map_flatMap, TopLevel.heads_relocate]

/-- Where the nodes of a program are does not matter to their numbers. -/
theorem number_relocate (f : Nat → Nat) (p : Program) : (p.relocate f).number = p.number := by
  rw [number, heads_relocate, List.length_map, relocate, TopLevel.numberAll_map_relocate, number]

/-- Programs that differ only in offsets are the same once they are numbered. -/
theorem number_eq_of_erase_eq (h : p.erase = q.erase) : p.number = q.number := by
  rw [← number_relocate (fun _ => 0) p, ← erase_eq_relocate, h, erase_eq_relocate, number_relocate]

/-- The offset of the node with a number, or that of the `END` behind all nodes. -/
def offset (p : Program) (i : Nat) : Nat :=
  (p.heads[i]?.map Located.pc).getD p.endPc

/-- A program comes from its numbered form when the numbers are replaced by its offsets. -/
theorem relocate_number (p : Program) : p.number.relocate p.offset = p := by
  have hfinds : Finds p.offset 0 (p.topLevel.flatMap TopLevel.heads) := by
    intro i l hl
    rw [← heads_eq] at hl
    rw [Nat.zero_add, offset, hl]
    rfl
  have hend : p.offset p.heads.length = p.endPc := by
    rw [offset, List.getElem?_eq_none (Nat.le_refl _)]
    rfl
  rw [number, relocate, TopLevel.map_relocate_numberAll p.topLevel 0 hfinds, hend]

/-- The errors of a numbered program are at numbers of nodes. -/
theorem pc_lt_of_mem_check_number {e : SemanticError} (h : e ∈ p.number.check) :
    e.pc < p.heads.length := by
  obtain ⟨l, hl, hpc⟩ := exists_mem_heads_of_mem_check h
  have hmem := List.mem_map_of_mem (f := Located.pc) hl
  rw [heads_eq, number, TopLevel.heads_numberAll, ← heads_eq, hpc, List.mem_range'_1] at hmem
  omega

/-- Programs that differ only in offsets have the same nodes. -/
theorem map_instr_heads_of_erase_eq (h : p.erase = q.erase) :
    p.heads.map Located.instr = q.heads.map Located.instr := by
  have herase (p : Program) : p.erase.heads.map Located.instr = p.heads.map Located.instr := by
    rw [erase_eq_relocate, heads_relocate, List.map_map]
    rfl
  rw [← herase p, h, herase]

/-- There are rules and numbers of nodes such that every program that differs from this one only in
offsets breaks these rules, in this order and at its nodes with these numbers. -/
theorem exists_marks (p : Program) :
    ∃ marks : List (Violation × Nat), ∀ q : Program, q.erase = p.erase →
      q.check.map (fun e => (e.violation, some e.pc)) =
        marks.map fun m => (m.1, q.heads[m.2]?.map Located.pc) := by
  -- the numbered program is the same for all of them, and each comes from it
  refine ⟨p.number.check.map fun e => (e.violation, e.pc), fun q herase => ?_⟩
  have hnumber : q.number = p.number := number_eq_of_erase_eq herase
  have hcheck : q.check = p.number.check.map (SemanticError.relocate q.offset) := by
    rw [← check_relocate, ← hnumber, relocate_number]
  rw [hcheck, List.map_map, List.map_map]
  apply List.map_congr_left
  intro e he
  rw [← hnumber] at he
  have hlt := pc_lt_of_mem_check_number he
  simp only [Function.comp_apply, SemanticError.relocate, offset, List.getElem?_eq_getElem hlt,
    Option.map_some, Option.getD_some]

end Program

end Numbering

end AbilityScript
