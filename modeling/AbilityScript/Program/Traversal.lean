import AbilityScript.Program.Tree

/-!
# Visiting a program

The nodes of a program in the order in which they are written. A conditional comes before its
branches, a trigger before its block.

## Main definitions

* `Visit`, `Program.visits`: every node, with the blocks that are entered.
* `Program.stmts`, `Program.outerStmts`: all statements, and those outside every conditional.
-/

set_option autoImplicit false

namespace AbilityScript

/-- Something met on the way through a program. -/
inductive Visit where
  | program (p : Program)
  | topLevel (m : TopLevel)
  | trigger (pc : Nat) (event : Event) (body : Block)
  /-- The block of a trigger or a branch of a conditional. -/
  | block (b : Block)
  | stmt (s : Stmt)
deriving DecidableEq, Repr

namespace Visit

/-- The statement that is visited, if it is one. -/
def stmt? : Visit → Option Stmt
  | .stmt s => some s
  | _ => none

end Visit

mutual

/-- A statement and what it contains. -/
def Stmt.visits : Stmt → List Visit
  | .action pc a => [.stmt (.action pc a)]
  | .cond pc c body none => .stmt (.cond pc c body none) :: .block body :: Block.visits body
  | .cond pc c body (some other) =>
    .stmt (.cond pc c body (some other)) :: .block body :: Block.visits body ++
      .block other :: Block.visits other

/-- The statements of a block and what they contain. -/
def Block.visits : List Stmt → List Visit
  | [] => []
  | s :: rest => Stmt.visits s ++ Block.visits rest

end

namespace TopLevel

/-- A member of the outermost level and what it contains. -/
def visits (m : TopLevel) : List Visit :=
  .topLevel m :: match m with
    | .stmt s => s.visits
    | .trigger pc e body => .trigger pc e body :: .block body :: Block.visits body

/-- The statements of a member that are not inside a conditional. -/
def outerStmts : TopLevel → Block
  | .stmt s => [s]
  | .trigger _ _ body => body

end TopLevel

namespace Program

/-- A program and what it contains. -/
def visits (p : Program) : List Visit :=
  .program p :: p.topLevel.flatMap TopLevel.visits

/-- All statements of a program. -/
def stmts (p : Program) : Block :=
  p.visits.filterMap Visit.stmt?

/-- The statements of a program that are not inside a conditional. -/
def outerStmts (p : Program) : Block :=
  p.topLevel.flatMap TopLevel.outerStmts

end Program

end AbilityScript
