import AbilityScript.Program.Blocks

/-!
# The recovery of blocks as a grammar

`readStmt`, `readBlock` and `readOutermost` recurse on what inner calls leave over, so their definitions
carry bounds on lengths. This file states what they do as two relations with one rule for each thing
that may stand at the front of the instructions. The functions read by the rules
(`readsBlock_readBlock`, `readsOutermost_readOutermost`), and the rules leave no choice
(`ReadsBlock.unique`, `ReadsOutermost.unique`). So what holds of every recovery is shown by induction
over the rules.

No rule is about a statement where there is no instruction, a conditional with nothing to test or a
trigger that begins with something else. The functions have a branch for each of these, with an error
of its own, and that the functions read by the rules says that the branches are never taken.

## Main definitions

* `ReadsBlock`: a sequence of statements read up to where its context stops.
* `ReadsOutermost`: the outermost level read up to its `END`.
-/

set_option autoImplicit false

namespace AbilityScript

namespace Context

/-- No block ends at an action. -/
@[simp] theorem stopsAt_action (ctx : Context) (a : Action) : ctx.stopsAt (.action a) = false := by
  cases ctx <;> rfl

/-- No block ends at a condition. -/
@[simp] theorem stopsAt_ifTest (ctx : Context) (c : Comparison) :
    ctx.stopsAt (.ifTest c) = false := by
  cases ctx <;> rfl

/-- Inside a block an `END` does not stop anything. -/
theorem stopsAt_stop {ctx : Context} : ctx.stopsAt .stop = true ↔ ctx = .outermost := by
  cases ctx <;> simp [stopsAt]

end Context

namespace Instruction

/-- Whether the instruction is neither a statement's beginning nor an `END`. -/
def isDelimiter : Instruction → Bool
  | .elseMark | .endIf | .whenEvent _ | .endWhen => true
  | .action _ | .ifTest _ | .stop => false

end Instruction

/-- The sequences of statements at the front of instructions: the context, the instructions, the
statements, what was wrong, and the instructions that are left. -/
inductive ReadsBlock : Context → List Located → Block → List ParseError → List Located → Prop where
  /-- The instructions run out. -/
  | nil (ctx : Context) : ReadsBlock ctx [] [] [] []
  /-- The context stops here. -/
  | stops {ctx : Context} {i : Located} {is : List Located} (h : ctx.stopsAt i.instr = true) :
      ReadsBlock ctx (i :: is) [] [] (i :: is)
  /-- An action is a statement. -/
  | action {ctx : Context} {pc : Nat} {a : Action} {is rest : List Located} {b : Block}
      {errors : List ParseError} (hrest : ReadsBlock ctx is b errors rest) :
      ReadsBlock ctx (⟨pc, .action a⟩ :: is) (.action pc a :: b) errors rest
  /-- A conditional without an alternative extends to where its body stops, and past its `ENDIF`. -/
  | ifThen {ctx : Context} {pc : Nat} {c : Comparison} {is mid rest : List Located} {body b : Block}
      {inBody errors : List ParseError} (hbody : ReadsBlock .thenBranch is body inBody mid)
      (hmid : ∀ mark js, mid ≠ ⟨mark, .elseMark⟩ :: js)
      (hrest : ReadsBlock ctx (closeBlock .endIf mid).rest b errors rest) :
      ReadsBlock ctx (⟨pc, .ifTest c⟩ :: is) (.cond pc c body none :: b)
        (inBody ++ (closeBlock .endIf mid).errors ++ errors) rest
  /-- A conditional with an alternative extends to where that stops, and past its `ENDIF`. -/
  | ifElse {ctx : Context} {pc mark : Nat} {c : Comparison} {is js mid rest : List Located}
      {body other b : Block} {inBody inOther errors : List ParseError}
      (hbody : ReadsBlock .thenBranch is body inBody (⟨mark, .elseMark⟩ :: js))
      (hother : ReadsBlock .elseBranch js other inOther mid)
      (hrest : ReadsBlock ctx (closeBlock .endIf mid).rest b errors rest) :
      ReadsBlock ctx (⟨pc, .ifTest c⟩ :: is) (.cond pc c body (some other) :: b)
        (inBody ++ inOther ++ (closeBlock .endIf mid).errors ++ errors) rest
  /-- An `END` inside a block is reported and dropped. -/
  | stop {ctx : Context} {pc : Nat} {is rest : List Located} {b : Block}
      {errors : List ParseError} (hctx : ctx ≠ .outermost)
      (hrest : ReadsBlock ctx is b errors rest) :
      ReadsBlock ctx (⟨pc, .stop⟩ :: is) b (.unexpectedTerminator .stop pc :: errors) rest
  /-- A delimiter that fits nowhere is dropped. -/
  | stray {ctx : Context} {i : Located} {is rest : List Located} {b : Block}
      {errors : List ParseError} (hi : i.instr.isDelimiter = true)
      (hctx : ctx.stopsAt i.instr = false) (hrest : ReadsBlock ctx is b errors rest) :
      ReadsBlock ctx (i :: is) b errors rest

mutual

/-- What a sequence of statements is behind one that was read is one that begins with it. -/
theorem readsBlock_readStmt {ctx : Context} {i : Located} {is rest : List Located} {b : Block}
    {errors : List ParseError} (hctx : ctx.stopsAt i.instr = false)
    (hrest : ReadsBlock ctx (readStmt (i :: is)).rest b errors rest) :
    ReadsBlock ctx (i :: is) ((readStmt (i :: is)).stmt.toList ++ b)
      ((readStmt (i :: is)).errors ++ errors) rest := by
  obtain ⟨pc, i⟩ := i
  cases i with
  | action a =>
    rw [readStmt] at hrest ⊢
    exact .action hrest
  | ifTest c =>
    rw [readStmt] at hrest ⊢
    dsimp only at hrest ⊢
    rw [readCond] at hrest ⊢
    dsimp only at hrest ⊢
    have hbody := readsBlock_readBlock .thenBranch is
    have hle := (readBlock .thenBranch is).rest_le
    split at hrest
    · rename_i mark js hmid
      have hjs : js.length < is.length := by
        rw [hmid, List.length_cons] at hle
        omega
      have hother := readsBlock_readBlock .elseBranch js
      rw [hmid] at hbody
      exact .ifElse hbody hother hrest
    · rename_i hmid
      exact .ifThen hbody hmid hrest
  | stop =>
    rw [readStmt] at hrest ⊢
    refine .stop ?_ hrest
    rw [ne_eq, ← Context.stopsAt_stop, hctx]
    exact Bool.false_ne_true
  | elseMark | endIf | whenEvent e | endWhen =>
    rw [readStmt] at hrest ⊢
    exact .stray rfl hctx hrest
termination_by 2 * is.length + 1

/-- The function reads by the rules. -/
theorem readsBlock_readBlock (ctx : Context) (is : List Located) :
    ReadsBlock ctx is (readBlock ctx is).stmts (readBlock ctx is).errors
      (readBlock ctx is).rest := by
  match is with
  | [] =>
    rw [readBlock]
    exact .nil ctx
  | i :: is =>
    have hle : (readStmt (i :: is)).rest.length ≤ is.length := (readStmt (i :: is)).rest_le
    by_cases hstop : ctx.stopsAt i.instr = true
    · rw [readBlock, if_pos hstop]
      exact .stops hstop
    · rw [readBlock, if_neg hstop]
      exact readsBlock_readStmt (Bool.not_eq_true _ ▸ hstop) (readsBlock_readBlock ctx _)
termination_by 2 * is.length

end

/-- The rules leave no choice. -/
theorem ReadsBlock.unique {ctx : Context} {is rest rest' : List Located} {b b' : Block}
    {errors errors' : List ParseError} (h : ReadsBlock ctx is b errors rest)
    (h' : ReadsBlock ctx is b' errors' rest') : b = b' ∧ errors = errors' ∧ rest = rest' := by
  induction h generalizing b' errors' rest' with
  | nil =>
    cases h'
    exact ⟨rfl, rfl, rfl⟩
  | stops hstops =>
    cases h' with
    | stops => exact ⟨rfl, rfl, rfl⟩
    | action | ifThen | ifElse => simp at hstops
    | stop hctx => exact absurd (Context.stopsAt_stop.1 hstops) hctx
    | stray _ hctx => simp [hctx] at hstops
  | action _ ih =>
    cases h' with
    | stops hstops => simp at hstops
    | action hrest =>
      obtain ⟨rfl, rfl, rfl⟩ := ih hrest
      exact ⟨rfl, rfl, rfl⟩
    | stray hi => cases hi
  | ifThen _ hmid _ ihbody ihrest =>
    cases h' with
    | stops hstops => simp at hstops
    | ifThen hbody _ hrest =>
      obtain ⟨rfl, rfl, rfl⟩ := ihbody hbody
      obtain ⟨rfl, rfl, rfl⟩ := ihrest hrest
      exact ⟨rfl, rfl, rfl⟩
    | ifElse hbody =>
      obtain ⟨-, -, rfl⟩ := ihbody hbody
      exact absurd rfl (hmid _ _)
    | stray hi => cases hi
  | ifElse _ _ _ ihbody ihother ihrest =>
    cases h' with
    | stops hstops => simp at hstops
    | ifThen hbody hmid =>
      obtain ⟨-, -, rfl⟩ := ihbody hbody
      exact absurd rfl (hmid _ _)
    | ifElse hbody hother hrest =>
      obtain ⟨rfl, rfl, hcons⟩ := ihbody hbody
      obtain ⟨⟨⟩, rfl⟩ := List.cons.inj hcons
      obtain ⟨rfl, rfl, rfl⟩ := ihother hother
      obtain ⟨rfl, rfl, rfl⟩ := ihrest hrest
      exact ⟨rfl, rfl, rfl⟩
    | stray hi => cases hi
  | stop hctx _ ih =>
    cases h' with
    | stops hstops => exact absurd (Context.stopsAt_stop.1 hstops) hctx
    | stop _ hrest =>
      obtain ⟨rfl, rfl, rfl⟩ := ih hrest
      exact ⟨rfl, rfl, rfl⟩
    | stray hi => cases hi
  | stray hi hctx _ ih =>
    cases h' with
    | stops hstops => simp [hctx] at hstops
    | action | ifThen | ifElse | stop => cases hi
    | stray _ _ hrest =>
      obtain ⟨rfl, rfl, rfl⟩ := ih hrest
      exact ⟨rfl, rfl, rfl⟩

/-- The outermost level at the front of instructions: the instructions, its members, the offset of the
`END` that closes it if there is one, and what was wrong. -/
inductive ReadsOutermost : List Located → List TopLevel → Option Nat → List ParseError → Prop where
  /-- The instructions run out. -/
  | exhausted {is : List Located} {b : Block} {errors : List ParseError}
      (hblock : ReadsBlock .outermost is b errors []) :
      ReadsOutermost is (b.map .stmt) none (errors ++ [.missingTerminator])
  /-- An `END` closes the outermost level. -/
  | closed {is after : List Located} {b : Block} {errors : List ParseError} {pc : Nat}
      (hblock : ReadsBlock .outermost is b errors (⟨pc, .stop⟩ :: after)) :
      ReadsOutermost is (b.map .stmt) (some pc) errors
  /-- A trigger extends to where its body stops, and past its `ENDWHEN`. -/
  | trigger {is js mid : List Located} {b body : Block} {members : List TopLevel}
      {endPc : Option Nat} {errors inBody later : List ParseError} {pc : Nat} {e : Event}
      (hblock : ReadsBlock .outermost is b errors (⟨pc, .whenEvent e⟩ :: js))
      (hbody : ReadsBlock .trigger js body inBody mid)
      (hrest : ReadsOutermost (closeBlock .endWhen mid).rest members endPc later) :
      ReadsOutermost is (b.map .stmt ++ .trigger pc e body :: members) endPc
        (errors ++ inBody ++ (closeBlock .endWhen mid).errors ++ later)

/-- A sequence of statements ends where the instructions run out or its context stops. -/
theorem ReadsBlock.rest_eq {ctx : Context} {is rest : List Located} {b : Block}
    {errors : List ParseError} (h : ReadsBlock ctx is b errors rest) :
    rest = [] ∨ ∃ i js, rest = i :: js ∧ ctx.stopsAt i.instr = true := by
  induction h with
  | nil => exact .inl rfl
  | stops h => exact .inr ⟨_, _, rfl, h⟩
  | action _ ih | ifThen _ _ _ _ ih | ifElse _ _ _ _ _ ih | stop _ _ ih | stray _ _ _ ih => exact ih

/-- What is left behind a sequence of statements begins with what stopped it. -/
theorem ReadsBlock.stopsAt_head {ctx : Context} {is rest : List Located} {i : Located} {b : Block}
    {errors : List ParseError} (h : ReadsBlock ctx is b errors (i :: rest)) :
    ctx.stopsAt i.instr = true := by
  obtain hnil | ⟨_, _, hcons, hstops⟩ := h.rest_eq
  · exact absurd hnil (List.cons_ne_nil _ _)
  · obtain ⟨rfl, -⟩ := List.cons.inj hcons
    exact hstops

/-- If statements may stand in front of those of the outermost level, they may stand in front of all its
members. -/
theorem ReadsOutermost.prepend {is js : List Located} {front : Block} {inFront : List ParseError}
    {members : List TopLevel} {endPc : Option Nat} {errors : List ParseError}
    (hfront : ∀ {b errors rest}, ReadsBlock .outermost js b errors rest →
      ReadsBlock .outermost is (front ++ b) (inFront ++ errors) rest)
    (h : ReadsOutermost js members endPc errors) :
    ReadsOutermost is (front.map .stmt ++ members) endPc (inFront ++ errors) := by
  cases h with
  | exhausted hblock =>
    rw [← List.map_append, ← List.append_assoc]
    exact .exhausted (hfront hblock)
  | closed hblock =>
    rw [← List.map_append]
    exact .closed (hfront hblock)
  | trigger hblock hbody hrest =>
    rw [← List.append_assoc, ← List.map_append, ← List.append_assoc, ← List.append_assoc,
      ← List.append_assoc]
    exact .trigger (hfront hblock) hbody hrest

/-- The function reads the outermost level by the rules. -/
theorem readsOutermost_readOutermost (is : List Located) :
    ReadsOutermost is (readOutermost is).1 (readOutermost is).2.1 (readOutermost is).2.2 := by
  match is with
  | [] =>
    rw [readOutermost]
    exact .exhausted (.nil .outermost)
  | ⟨pc, i⟩ :: is =>
    have hle : (readStmt (⟨pc, i⟩ :: is)).rest.length ≤ is.length := (readStmt _).rest_le
    cases i with
    | stop =>
      rw [readOutermost]
      exact .closed (.stops rfl)
    | endWhen =>
      have hstray {b : Block} {errors : List ParseError} {rest : List Located}
          (h : ReadsBlock .outermost is b errors rest) :
          ReadsBlock .outermost (⟨pc, .endWhen⟩ :: is) ([] ++ b) ([] ++ errors) rest :=
        .stray rfl rfl h
      rw [readOutermost]
      exact (readsOutermost_readOutermost is).prepend hstray
    | whenEvent e =>
      have hle : (closeBlock .endWhen (readBlock .trigger is).rest).rest.length ≤ is.length :=
        (readTrigger ⟨pc, .whenEvent e⟩ is).rest_le
      rw [readOutermost]
      exact .trigger (.stops rfl) (readsBlock_readBlock .trigger is) (readsOutermost_readOutermost _)
    | action | ifTest | elseMark | endIf =>
      rw [readOutermost]
      dsimp only
      rw [Option.toList_map]
      exact (readsOutermost_readOutermost _).prepend (readsBlock_readStmt rfl)
termination_by is.length

/-- The rules leave no choice on the outermost level. -/
theorem ReadsOutermost.unique {is : List Located} {members members' : List TopLevel}
    {endPc endPc' : Option Nat} {errors errors' : List ParseError}
    (h : ReadsOutermost is members endPc errors) (h' : ReadsOutermost is members' endPc' errors') :
    members = members' ∧ endPc = endPc' ∧ errors = errors' := by
  induction h generalizing members' endPc' errors' with
  | exhausted hblock =>
    cases h' with
    | exhausted hblock' =>
      obtain ⟨rfl, rfl, -⟩ := hblock.unique hblock'
      exact ⟨rfl, rfl, rfl⟩
    | closed hblock' | trigger hblock' =>
      obtain ⟨-, -, hrest⟩ := hblock.unique hblock'
      cases hrest
  | closed hblock =>
    cases h' with
    | closed hblock' =>
      obtain ⟨rfl, rfl, hrest⟩ := hblock.unique hblock'
      obtain ⟨⟨⟩, -⟩ := List.cons.inj hrest
      exact ⟨rfl, rfl, rfl⟩
    | exhausted hblock' | trigger hblock' =>
      obtain ⟨-, -, hrest⟩ := hblock.unique hblock'
      cases hrest
  | trigger hblock hbody _ ih =>
    cases h' with
    | trigger hblock' hbody' hrest' =>
      obtain ⟨rfl, rfl, hrest⟩ := hblock.unique hblock'
      obtain ⟨⟨⟩, rfl⟩ := List.cons.inj hrest
      obtain ⟨rfl, rfl, rfl⟩ := hbody.unique hbody'
      obtain ⟨rfl, rfl, rfl⟩ := ih hrest'
      exact ⟨rfl, rfl, rfl⟩
    | exhausted hblock' | closed hblock' =>
      obtain ⟨-, -, hrest⟩ := hblock.unique hblock'
      cases hrest

/-- What is read of the outermost level is the program. -/
theorem ReadsOutermost.parse_eq {is : List Located} {members : List TopLevel} {endPc : Option Nat}
    {errors : List ParseError} (h : ReadsOutermost is members endPc errors) :
    parse is = { program := endPc.map fun pc => { topLevel := members, endPc := pc }, errors } := by
  obtain ⟨hmembers, hend, herrors⟩ := h.unique (readsOutermost_readOutermost is)
  rw [hmembers, hend, herrors]
  rfl

end AbilityScript
