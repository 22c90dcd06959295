import AbilityScript.Program.Tree

/-!
# Legal abilities

Not every program is a legal card ability. An action may not be repeated anywhere in the program, in
whatever blocks the two occurrences stand; no block may be empty; and no conditional may compare two
constants. Two actions are the same if they are of one kind and agree on the target and the stat they
name, if they name any.

## Main definitions

* `Violation`, `SemanticError`: what is not legal, and where.
* `Program.check`: the violations of a program, in program order.
-/

set_option autoImplicit false

namespace AbilityScript

/-- A rule of legality that is broken. -/
inductive Violation where
  /-- An action was there before. -/
  | repeated (kind : ActionKind)
  | emptyThen
  | emptyElse
  | constantComparison
  | emptyTrigger
deriving DecidableEq, Repr

namespace Violation

/-- How a complaint about repeated actions of a kind ends. -/
def ending : ActionKind → String
  | .draw => " not allowed"
  | .discard | .createToken => ""
  | .destroy | .damage | .heal => " for the same target"
  | .buffStat | .debuffStat => " for the same target and stat"

/-- The text of a complaint. -/
def message : Violation → String
  | .repeated kind => s!"multiple {Labelled.label kind.opcode} operations{ending kind}"
  | .emptyThen => "empty THEN branch"
  | .emptyElse => "empty ELSE branch"
  | .constantComparison => "IMM direct comparisons not allowed"
  | .emptyTrigger => "empty WHEN body"

end Violation

/-- A violation at the offset of a node. -/
structure SemanticError where
  violation : Violation
  pc : Nat
deriving DecidableEq, Repr

namespace SemanticError

/-- The text of an error without its offset. -/
def message (e : SemanticError) : String :=
  e.violation.message

/-- The text of an error with its offset. -/
def text (e : SemanticError) : String :=
  s!"{e.message} (at pc={e.pc})"

end SemanticError

/-- What decides whether two actions are the same. -/
structure ActionKey where
  kind : ActionKind
  /-- The target that a targeted action names. -/
  target : Option Target
  /-- The stat that a change of stats names. -/
  stat : Option Stat
deriving DecidableEq, Repr

namespace Action

/-- What decides whether another action is the same as this one. Amounts do not matter. -/
def key (a : Action) : ActionKey :=
  match a with
  | .damage t _ | .heal t _ | .destroy t => ⟨a.kind, some t, none⟩
  | .buffStat t s _ | .debuffStat t s _ => ⟨a.kind, some t, some s⟩
  | .draw _ | .discard _ | .createToken _ => ⟨a.kind, none, none⟩

end Action

namespace ActionKey

/-- How many errors an action causes that was there `n` times before: one for each earlier one if it
has a target, otherwise one in all. -/
def reports (k : ActionKey) (n : Nat) : Nat :=
  match k.target with
  | none => min n 1
  | some _ => n

end ActionKey

/-- The actions met so far. -/
abbrev Seen := List ActionKey

/-- The errors of an action at an offset, given what was met before. -/
def Action.conflicts (seen : Seen) (pc : Nat) (a : Action) : List SemanticError :=
  List.replicate (a.key.reports (seen.count a.key)) ⟨.repeated a.kind, pc⟩

/-- One error at an offset if a condition holds. -/
def reportIf (condition : Bool) (violation : Violation) (pc : Nat) : List SemanticError :=
  if condition then [⟨violation, pc⟩] else []

mutual

/-- The errors of a statement, given what was met before it, and what was met after it. -/
def Stmt.check (seen : Seen) : Stmt → List SemanticError × Seen
  | .action pc a => (a.conflicts seen pc, a.key :: seen)
  | .cond pc c body none =>
    let (inBody, seen) := Block.check seen body
    (reportIf body.isEmpty .emptyThen pc ++ inBody ++
      reportIf c.isConstant .constantComparison pc, seen)
  | .cond pc c body (some other) =>
    let (inBody, seen) := Block.check seen body
    let (inOther, seen) := Block.check seen other
    (reportIf body.isEmpty .emptyThen pc ++ inBody ++
      (reportIf other.isEmpty .emptyElse pc ++ inOther) ++
      reportIf c.isConstant .constantComparison pc, seen)

/-- The errors of a block, given what was met before it, and what was met after it. -/
def Block.check (seen : Seen) : List Stmt → List SemanticError × Seen
  | [] => ([], seen)
  | s :: rest =>
    let (here, seen) := Stmt.check seen s
    let (later, seen) := Block.check seen rest
    (here ++ later, seen)

end

namespace TopLevel

/-- The errors of a member of the outermost level, given what was met before it, and what was met
after it. -/
def check (seen : Seen) : TopLevel → List SemanticError × Seen
  | .stmt s => s.check seen
  | .trigger pc _ body =>
    let (inBody, seen) := Block.check seen body
    (reportIf body.isEmpty .emptyTrigger pc ++ inBody, seen)

/-- The errors of members of the outermost level, given what was met before them. -/
def checkAll (seen : Seen) : List TopLevel → List SemanticError
  | [] => []
  | m :: rest =>
    let (here, seen) := m.check seen
    here ++ checkAll seen rest

end TopLevel

namespace Program

/-- The violations of a program, in program order. Both of a conditional's branches come before the
complaint about its comparison. -/
def check (p : Program) : List SemanticError :=
  TopLevel.checkAll [] p.topLevel

end Program

end AbilityScript
