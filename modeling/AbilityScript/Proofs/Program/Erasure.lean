import AbilityScript.Program.Layout

/-!
# Programs without their offsets

The offsets in a program say where it was read and nothing else: the instructions that spell it and
the lines that show it depend only on what is left when all offsets are erased.

## Main definitions

* `Program.erase`: a program with every offset set to zero.

## Main statements

* `Program.flatten_eq_of_erase_eq`, `Program.lines_eq_of_erase_eq`: programs that differ only in
  offsets are spelled and shown the same way.
* `Program.map_instr_rows`: the rows of a program hold the instructions that spell it.
-/

set_option autoImplicit false

namespace AbilityScript

mutual

/-- A statement with every offset set to zero. -/
def Stmt.erase : Stmt → Stmt
  | .action _ a => .action 0 a
  | .cond _ c body none => .cond 0 c (Block.erase body) none
  | .cond _ c body (some other) => .cond 0 c (Block.erase body) (some (Block.erase other))

/-- A block with every offset set to zero. -/
def Block.erase : List Stmt → List Stmt
  | [] => []
  | s :: rest => Stmt.erase s :: Block.erase rest

end

/-- A member of the outermost level with every offset set to zero. -/
def TopLevel.erase : TopLevel → TopLevel
  | .stmt s => .stmt s.erase
  | .trigger _ e body => .trigger 0 e (Block.erase body)

/-- A program with every offset set to zero. -/
def Program.erase (p : Program) : Program where
  topLevel := p.topLevel.map TopLevel.erase
  endPc := 0

namespace Block

/-- The empty block is spelled as no instructions. -/
@[simp] theorem flatten_nil : flatten [] = [] := rfl

/-- A block is spelled statement by statement. -/
@[simp] theorem flatten_cons (s : Stmt) (b : Block) : flatten (s :: b) = s.flatten ++ flatten b := rfl

/-- How a block is spelled does not depend on offsets. -/
theorem flatten_erase (b : Block) : flatten (erase b) = flatten b := by
  induction b using Block.induction with
  | nil => rfl
  | action pc a rest ih => simp only [erase, Stmt.erase, flatten_cons, Stmt.flatten, ih]
  | ifThen pc c body rest ihbody ih =>
    simp only [erase, Stmt.erase, flatten_cons, Stmt.flatten, ihbody, ih]
  | ifElse pc c body other rest ihbody ihother ih =>
    simp only [erase, Stmt.erase, flatten_cons, Stmt.flatten, ihbody, ihother, ih]

/-- How a block is laid out does not depend on offsets. -/
theorem rows_erase (b : Block) : ∀ depth, rows depth (erase b) = rows depth b := by
  induction b using Block.induction with
  | nil => exact fun _ => rfl
  | action pc a rest ih =>
    intro depth
    simp only [erase, Stmt.erase, rows, Stmt.rows, ih]
  | ifThen pc c body rest ihbody ih =>
    intro depth
    simp only [erase, Stmt.erase, rows, Stmt.rows, ihbody, ih]
  | ifElse pc c body other rest ihbody ihother ih =>
    intro depth
    simp only [erase, Stmt.erase, rows, Stmt.rows, ihbody, ihother, ih]

/-- The rows of a block hold the instructions that spell it. -/
theorem map_instr_rows (b : Block) : ∀ depth, (rows depth b).map Row.instr = flatten b := by
  induction b using Block.induction with
  | nil => exact fun _ => rfl
  | action pc a rest ih =>
    intro depth
    simp only [rows, Stmt.rows, List.map_append, ih]
    rfl
  | ifThen pc c body rest ihbody ih =>
    intro depth
    simp only [rows, Stmt.rows, List.map_append, List.map_cons, List.map_nil, ihbody, ih]
    rfl
  | ifElse pc c body other rest ihbody ihother ih =>
    intro depth
    simp only [rows, Stmt.rows, List.map_append, List.map_cons, List.map_nil, ihbody, ihother, ih]
    rfl

end Block

/-- Statements of the outermost level are spelled like a block. -/
theorem flatMap_flatten_stmt (b : Block) : (b.map .stmt).flatMap TopLevel.flatten = Block.flatten b := by
  induction b with
  | nil => rfl
  | cons s b ih => rw [List.map_cons, List.flatMap_cons, ih, Block.flatten_cons, TopLevel.flatten]

namespace TopLevel

/-- How a member is spelled does not depend on offsets. -/
theorem flatten_erase (m : TopLevel) : m.erase.flatten = m.flatten := by
  cases m with
  | stmt s =>
    show s.erase.flatten = s.flatten
    simpa [Block.erase] using Block.flatten_erase [s]
  | trigger pc e body => rw [erase, flatten, Block.flatten_erase, flatten]

/-- How a member is laid out does not depend on offsets. -/
theorem rows_erase (m : TopLevel) (depth : Nat) : m.erase.rows depth = m.rows depth := by
  cases m with
  | stmt s =>
    show s.erase.rows depth = s.rows depth
    simpa [Block.erase, Block.rows] using Block.rows_erase [s] depth
  | trigger pc e body => rw [erase, rows, Block.rows_erase, rows]

/-- The rows of a member hold the instructions that spell it. -/
theorem map_instr_rows (m : TopLevel) (depth : Nat) : (m.rows depth).map Row.instr = m.flatten := by
  cases m with
  | stmt s =>
    show (s.rows depth).map Row.instr = s.flatten
    simpa [Block.rows] using Block.map_instr_rows [s] depth
  | trigger pc e body =>
    simp only [rows, List.map_append, List.map_cons, List.map_nil, Block.map_instr_rows]
    rfl

end TopLevel

namespace Program

variable {p q : Program}

/-- How a program is spelled does not depend on offsets. -/
theorem flatten_erase (p : Program) : p.erase.flatten = p.flatten := by
  simp only [flatten, erase, List.flatMap_map, TopLevel.flatten_erase]

/-- How a program is shown does not depend on offsets. -/
theorem lines_erase (p : Program) : p.erase.lines = p.lines := by
  simp only [lines, linesAt, rows, erase, List.flatMap_map, TopLevel.rows_erase]

/-- Programs that differ only in offsets are spelled the same way. -/
theorem flatten_eq_of_erase_eq (h : p.erase = q.erase) : p.flatten = q.flatten := by
  rw [← flatten_erase p, h, flatten_erase]

/-- Programs that differ only in offsets are shown the same way. -/
theorem lines_eq_of_erase_eq (h : p.erase = q.erase) : p.lines = q.lines := by
  rw [← lines_erase p, h, lines_erase]

/-- The rows of a program hold the instructions that spell it. -/
theorem map_instr_rows (p : Program) (depth : Nat) : (p.rows depth).map Row.instr = p.flatten := by
  simp only [rows, List.map_append, List.map_flatMap, TopLevel.map_instr_rows]
  rfl

end Program

end AbilityScript
