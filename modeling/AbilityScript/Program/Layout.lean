import AbilityScript.Program.Tree
import AbilityScript.Layout.Calls

/-!
# Programs as text

A program is written one instruction a line. What a block contains is one level further in than the
lines that delimit it, and `END` closes the text.

Programs are written through a line writer, part by part and level by level, and the lines of a program
are cut out of its text. What these lines are can be said without a writer, by listing the instructions
with the number of blocks around each.

## Main definitions

* `Program.rows`: the instructions of a program, each with the number of blocks around it.
* `Program.lines`: the lines that show these rows.
* `Instruction.content`: the parts in which an instruction is written.
* `Program.write`: writes a program through a line writer.
* `Program.printed`, `Program.formatted`: the text that is written, and its lines.
-/

set_option autoImplicit false

namespace AbilityScript

/-- An instruction with the number of blocks around it. -/
structure Row where
  depth : Nat
  instr : Instruction
deriving DecidableEq, Repr

namespace Row

/-- The line that shows a row, without its line break. -/
def text (r : Row) : Text :=
  List.replicate (indentWidth * r.depth) ' ' ++ r.instr.text

end Row

mutual

/-- The rows of a statement inside `depth` blocks. -/
def Stmt.rows (depth : Nat) : Stmt → List Row
  | .action _ a => [⟨depth, .action a⟩]
  | .cond _ c body none =>
    ⟨depth, .ifTest c⟩ :: Block.rows (depth + 1) body ++ [⟨depth, .endIf⟩]
  | .cond _ c body (some other) =>
    ⟨depth, .ifTest c⟩ :: Block.rows (depth + 1) body ++
      ⟨depth, .elseMark⟩ :: Block.rows (depth + 1) other ++ [⟨depth, .endIf⟩]

/-- The rows of a block inside `depth` blocks. -/
def Block.rows (depth : Nat) : List Stmt → List Row
  | [] => []
  | s :: rest => Stmt.rows depth s ++ Block.rows depth rest

end

/-- The rows of a member of the outermost level inside `depth` blocks. -/
def TopLevel.rows (depth : Nat) : TopLevel → List Row
  | .stmt s => s.rows depth
  | .trigger _ e body =>
    ⟨depth, .whenEvent e⟩ :: Block.rows (depth + 1) body ++ [⟨depth, .endWhen⟩]

namespace Program

/-- The rows of a program that begins `depth` levels in. -/
def rows (depth : Nat) (p : Program) : List Row :=
  p.topLevel.flatMap (TopLevel.rows depth) ++ [⟨depth, .stop⟩]

/-- The lines of a program that begins `depth` levels in. -/
def linesAt (depth : Nat) (p : Program) : List Text :=
  (p.rows depth).map Row.text

/-- The lines of a program. -/
def lines (p : Program) : List Text :=
  p.linesAt 0

end Program

section Contents

/-- The label of a member as part of a line. -/
def Content.label {α : Type} [Labelled α] (a : α) : Content :=
  .single (.text (Labelled.name a))

/-- One side of a comparison as parts of a line. -/
def Side.content : Side → Content
  | .imm v => .spaced (.label SideKind.imm) [.single (.display v.text)]
  | .statOf t s => .spaced (.label SideKind.statOf) [.label t, .label s]

/-- The operands of an action as parts of a line. -/
def Action.contents : Action → List Content
  | .damage t n | .heal t n => [.label t, .single (.display n.text)]
  | .buffStat t s n | .debuffStat t s n => [.label t, .label s, .single (.display n.text)]
  | .draw n | .discard n | .createToken n => [.single (.display n.text)]
  | .destroy t => [.label t]

/-- The operands of an instruction as parts of a line. -/
def Instruction.contents : Instruction → List Content
  | .action a => a.contents
  | .ifTest c => [.label c.cmp, c.lhs.content, c.rhs.content]
  | .whenEvent e => [.label e]
  | .elseMark | .endIf | .endWhen | .stop => []

/-- The line that stands for an instruction, part by part. -/
def Instruction.content (i : Instruction) : Content :=
  .spaced (.label i.opcode) i.contents

end Contents

section Writing

variable {σ : Type} [Sink σ]

open LineWriter (nextLine indented)

/-- Writes an instruction as a line of its own. -/
def Instruction.write (i : Instruction) : Writing σ Unit := do
  i.content.write
  nextLine

mutual

/-- Writes a statement. What its branches contain is written one level further in. -/
def Stmt.write : Stmt → Writing σ Unit
  | .action _ a => (Instruction.action a).write
  | .cond _ c body none => do
    (Instruction.ifTest c).write
    indented (Block.write body)
    Instruction.endIf.write
  | .cond _ c body (some other) => do
    (Instruction.ifTest c).write
    indented (Block.write body)
    Instruction.elseMark.write
    indented (Block.write other)
    Instruction.endIf.write

/-- Writes the statements of a block one after the other. -/
def Block.write : List Stmt → Writing σ Unit
  | [] => pure ()
  | s :: rest => do
    Stmt.write s
    Block.write rest

end

/-- Writes a member of the outermost level. -/
def TopLevel.write : TopLevel → Writing σ Unit
  | .stmt s => s.write
  | .trigger _ e body => do
    (Instruction.whenEvent e).write
    indented (Block.write body)
    Instruction.endWhen.write

/-- Writes a program, with the `END` that closes it. -/
def Program.write (p : Program) : Writing σ Unit := do
  p.topLevel.forM TopLevel.write
  Instruction.stop.write

namespace Program

/-- The text of a program as a line writer writes it. -/
def printed (p : Program) : Text :=
  LineWriter.stringify p.write

/-- The text of a program as a line writer writes it whose lines begin `level` levels in. -/
def printedAt (level : Nat) (p : Program) : Text :=
  match LineWriter.startAt level { sink := {} } with
  | .ok w => (p.write.result w).2.written
  | .error _ => []

/-- The lines that the text of a program falls apart into. -/
def formatted (p : Program) : List Text :=
  Text.lines p.printed

end Program

end Writing

end AbilityScript
