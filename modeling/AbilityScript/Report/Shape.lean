import AbilityScript.Program.Tree
import AbilityScript.Report.Json

/-!
# Instructions and programs as documents

Operands are named by their roles and written by label or number. Every instruction and every node of
a program carries its offset. A conditional without an alternative has none, which is not the same as
an empty list; a trigger is known by its event.
-/

set_option autoImplicit false

namespace AbilityScript

/-- A member of an enumeration as a document, which is its label. -/
def Labelled.json {α : Type} [Labelled α] (a : α) : Json :=
  .str (Labelled.label a)

/-- An amount as a document, which is its value. -/
def Amount.json (n : Amount) : Json :=
  .num n.value

/-- One side of a comparison as a document. -/
def Side.json (s : Side) : Json :=
  .obj (("kind", Labelled.json s.kind) :: match s with
    | .imm v => [("value", .num v.value.val)]
    | .statOf t s => [("target", Labelled.json t), ("stat", Labelled.json s)])

/-- The members that describe a comparison. -/
def Comparison.fields (c : Comparison) : List (String × Json) :=
  [("cmp", Labelled.json c.cmp), ("lhs", c.lhs.json), ("rhs", c.rhs.json)]

/-- The members that describe the operands of an action. -/
def Action.fields : Action → List (String × Json)
  | .damage t n | .heal t n => [("target", Labelled.json t), ("amount", n.json)]
  | .buffStat t s n | .debuffStat t s n =>
    [("target", Labelled.json t), ("stat", Labelled.json s), ("amount", n.json)]
  | .draw n | .discard n | .createToken n => [("amount", n.json)]
  | .destroy t => [("target", Labelled.json t)]

/-- The members that describe the operands of an instruction. -/
def Instruction.fields : Instruction → List (String × Json)
  | .action a => a.fields
  | .ifTest c => c.fields
  | .whenEvent e => [("event", Labelled.json e)]
  | .elseMark | .endIf | .endWhen | .stop => []

/-- A located instruction as a document. -/
def Located.json (l : Located) : Json :=
  .obj (("pc", .num l.pc) :: ("op", Labelled.json l.instr.opcode) :: l.instr.fields)

mutual

/-- A statement as a document, with the offset it was read from. -/
def Stmt.json : Stmt → Json
  | .action pc a => .obj (("pc", .num pc) :: ("kind", Labelled.json a.opcode) :: a.fields)
  | .cond pc c body none =>
    .obj (("pc", .num pc) :: ("kind", Labelled.json Opcode.ifTest) :: c.fields ++
      [("then_branch", .arr (Block.json body)), ("else_branch", .null)])
  | .cond pc c body (some other) =>
    .obj (("pc", .num pc) :: ("kind", Labelled.json Opcode.ifTest) :: c.fields ++
      [("then_branch", .arr (Block.json body)), ("else_branch", .arr (Block.json other))])

/-- The statements of a block as documents. -/
def Block.json : List Stmt → List Json
  | [] => []
  | s :: rest => Stmt.json s :: Block.json rest

end

/-- A member of the outermost level as a document. -/
def TopLevel.json : TopLevel → Json
  | .stmt s => s.json
  | .trigger pc e body =>
    .obj [("pc", .num pc), ("event", Labelled.json e), ("body", .arr (Block.json body))]

/-- A program as a document. -/
def Program.json (p : Program) : Json :=
  .obj [("top_level", .arr (p.topLevel.map TopLevel.json)), ("end_pc", .num p.endPc)]

end AbilityScript
