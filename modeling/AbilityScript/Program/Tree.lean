import AbilityScript.Instruction.Basic

/-!
# Programs as trees

The block structure of a program: actions, conditionals with their branches, and the triggers that
only the outermost level may hold. Every node keeps the offset of the instruction it was read from,
so that a problem with it can be located; nothing else depends on offsets.

## Main definitions

* `Stmt`, `Block`, `TopLevel`, `Program`.
* `Program.flatten`: the instructions that spell a program.
-/

set_option autoImplicit false

namespace AbilityScript

/-- A statement that may stand in any block. -/
inductive Stmt where
  | action (pc : Nat) (a : Action)
  /-- A conditional. It may lack an alternative, which is not the same as an empty one. -/
  | cond (pc : Nat) (test : Comparison) (body : List Stmt) (alternative : Option (List Stmt))
deriving Repr

/-- Statements in order. -/
abbrev Block := List Stmt

namespace Stmt

/-- The offset of the instruction that a statement begins with. -/
def pc : Stmt → Nat
  | .action pc _ => pc
  | .cond pc _ _ _ => pc

mutual

/-- Statements can be compared. Derived instances do not reach through the lists of branches. -/
protected def decEq : (s t : Stmt) → Decidable (s = t)
  | .action p a, .action q b =>
    if h : p = q ∧ a = b then isTrue (by simp [h]) else isFalse (by simpa using h)
  | .cond p c x none, .cond q d y none =>
    match Stmt.decEqAll x y with
    | isTrue hx =>
      if h : p = q ∧ c = d then isTrue (by simp [h, hx])
      else isFalse fun e => h (by cases e; exact ⟨rfl, rfl⟩)
    | isFalse hx => isFalse (by simp [hx])
  | .cond p c x (some e), .cond q d y (some f) =>
    match Stmt.decEqAll x y, Stmt.decEqAll e f with
    | isTrue hx, isTrue he =>
      if h : p = q ∧ c = d then isTrue (by simp [h, hx, he])
      else isFalse fun e => h (by cases e; exact ⟨rfl, rfl⟩)
    | isFalse hx, _ => isFalse (by simp [hx])
    | _, isFalse he => isFalse (by simp [he])
  | .cond _ _ _ none, .cond _ _ _ (some _) => isFalse (by simp)
  | .cond _ _ _ (some _), .cond _ _ _ none => isFalse (by simp)
  | .action _ _, .cond _ _ _ _ => isFalse (by simp)
  | .cond _ _ _ _, .action _ _ => isFalse (by simp)

/-- Blocks can be compared. -/
protected def decEqAll : (x y : List Stmt) → Decidable (x = y)
  | [], [] => isTrue rfl
  | [], _ :: _ => isFalse (by simp)
  | _ :: _, [] => isFalse (by simp)
  | s :: x, t :: y =>
    match Stmt.decEq s t, Stmt.decEqAll x y with
    | isTrue hs, isTrue hx => isTrue (by simp [hs, hx])
    | isFalse hs, _ => isFalse (by simp [hs])
    | _, isFalse hx => isFalse (by simp [hx])

end

instance : DecidableEq Stmt := Stmt.decEq

end Stmt

/-- To show something of all blocks, it is enough to extend a block by one statement in front, with
the same known of its branches. -/
theorem Block.induction {motive : Block → Prop} (nil : motive [])
    (action : ∀ pc a (rest : Block), motive rest → motive (.action pc a :: rest))
    (ifThen : ∀ pc c (body rest : Block), motive body → motive rest →
      motive (.cond pc c body none :: rest))
    (ifElse : ∀ pc c (body other rest : Block), motive body → motive other → motive rest →
      motive (.cond pc c body (some other) :: rest)) (b : Block) : motive b :=
  Stmt.rec_1 (motive_1 := fun s => ∀ rest : Block, motive rest → motive (s :: rest))
    (motive_2 := motive) (motive_3 := fun o => ∀ x ∈ o, motive x)
    (fun pc a rest hr => action pc a rest hr)
    (fun pc c body o hb ho rest hr => match o, ho with
      | none, _ => ifThen pc c body rest hb hr
      | some e, he => ifElse pc c body e rest hb (he e rfl) hr)
    nil (fun _ tail hs ht => hs tail ht)
    (fun _ hx => by simp at hx) (fun _ hv _ hx => by cases hx; exact hv) b

mutual

/-- The instructions that spell a statement. -/
def Stmt.flatten : Stmt → List Instruction
  | .action _ a => [.action a]
  | .cond _ c body none => .ifTest c :: Block.flatten body ++ [.endIf]
  | .cond _ c body (some other) =>
    .ifTest c :: Block.flatten body ++ .elseMark :: Block.flatten other ++ [.endIf]

/-- The instructions that spell a block. -/
def Block.flatten : List Stmt → List Instruction
  | [] => []
  | s :: rest => Stmt.flatten s ++ Block.flatten rest

end

/-- A member of the outermost level. -/
inductive TopLevel where
  /-- A statement, carried out when the card is played. -/
  | stmt (s : Stmt)
  | trigger (pc : Nat) (event : Event) (body : Block)
deriving DecidableEq, Repr

namespace TopLevel

/-- Whether an event sets this member off. -/
def isTrigger : TopLevel → Bool
  | .stmt _ => false
  | .trigger .. => true

/-- The instructions that spell a member of the outermost level. -/
def flatten : TopLevel → List Instruction
  | .stmt s => s.flatten
  | .trigger _ e body => .whenEvent e :: Block.flatten body ++ [.endWhen]

end TopLevel

/-- A complete program. -/
structure Program where
  topLevel : List TopLevel
  /-- The offset of the `END` that closes the program. -/
  endPc : Nat
deriving DecidableEq, Repr

namespace Program

/-- The instructions that spell a program. -/
def flatten (p : Program) : List Instruction :=
  p.topLevel.flatMap TopLevel.flatten ++ [.stop]

end Program

end AbilityScript
