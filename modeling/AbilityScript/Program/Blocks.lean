import AbilityScript.Program.Tree

/-!
# Recovering the block structure

The delimiters of an instruction list are matched up into a tree:

    program := { member } END
    member  := statement | WHEN { statement } ENDWHEN
    statement := action | IF { statement } [ ELSE { statement } ] ENDIF

Every instruction list is read to its end or to the `END` of its outermost level. A delimiter that
fits nowhere is dropped, an `END` inside a block is reported and dropped, and a block that is never
closed is reported and kept.

A reader that is called for a statement, a conditional or a trigger looks again at the instruction it was
called for, and has an error for the case that it is missing or another one. No caller makes that happen.

## Main definitions

* `ParseError`: what can be wrong with the structure.
* `readStmt`, `readCond`, `readTrigger`: one statement, one conditional and one trigger.
* `readBlock`: the statements up to the instruction that a context waits for.
* `readOutermost`: the members of the outermost level up to its `END`.
* `parse`: a list of located instructions to a program.
-/

set_option autoImplicit false

namespace AbilityScript

/-- What is wrong with the block structure of an instruction list. -/
inductive ParseError where
  /-- A block is still open when the instructions run out. -/
  | expectedButReachedEnd (expected : Opcode)
  /-- An instruction stands where a block should be closed. -/
  | expected (expected found : Opcode) (pc : Nat)
  /-- A conditional has nothing to test. -/
  | missingComparison (pc : Nat)
  /-- The program ends inside a block. -/
  | unexpectedTerminator (opcode : Opcode) (pc : Nat)
  /-- A statement is wanted when the instructions run out. -/
  | unexpectedEndOfInput
  /-- No `END` closes the outermost level. -/
  | missingTerminator
deriving DecidableEq, Repr

namespace ParseError

/-- The offset that an error is about, if it is about one place. -/
def pc? : ParseError → Option Nat
  | .expected _ _ pc => some pc
  | .missingComparison pc => some pc
  | .unexpectedTerminator _ pc => some pc
  | .expectedButReachedEnd _ | .unexpectedEndOfInput | .missingTerminator => none

/-- The text of an error. -/
def message : ParseError → String
  | .expectedButReachedEnd closer => s!"expected {Labelled.label closer} but reached end"
  | .expected closer found pc =>
    s!"expected {Labelled.label closer} but found {Labelled.label found} at {pc}"
  | .missingComparison pc => s!"expected comparison operator at token {pc}"
  | .unexpectedTerminator opcode pc =>
    s!"unexpected {Labelled.label opcode} inside statement sequence at pc={pc}"
  | .unexpectedEndOfInput => "unexpected end of input while parsing statement"
  | .missingTerminator => s!"token stream has no {Labelled.label Opcode.stop}"

end ParseError

/-- What a sequence of statements belongs to. -/
inductive Context where
  /-- The statements between the triggers of the outermost level. -/
  | outermost
  | thenBranch
  | elseBranch
  | trigger
deriving DecidableEq, Repr

namespace Context

/-- Whether a sequence stops in front of an instruction. -/
def stopsAt : Context → Instruction → Bool
  | .outermost, .whenEvent _ | .outermost, .stop => true
  | .thenBranch, .elseMark | .thenBranch, .endIf => true
  | .elseBranch, .endIf => true
  | .trigger, .endWhen => true
  | _, _ => false

end Context

/-- A sequence of statements read from the front of `is`. -/
structure ReadBlock (is : List Located) where
  stmts : Block
  errors : List ParseError
  rest : List Located
  /-- Reading only takes instructions away. -/
  rest_le : rest.length ≤ is.length

/-- What reading one statement takes off the front of `is`. -/
structure ReadStmt (is : List Located) where
  /-- The statement, unless what was taken is none. -/
  stmt : Option Stmt
  errors : List ParseError
  rest : List Located
  /-- If there is an instruction, one is taken. -/
  rest_le : rest.length ≤ is.tail.length

/-- What reading a trigger takes off the front of `is`, behind the instruction that it begins with. -/
structure ReadTrigger (is : List Located) where
  /-- The trigger, unless what it should begin with is something else. -/
  member : Option TopLevel
  errors : List ParseError
  rest : List Located
  rest_le : rest.length ≤ is.length

/-- What follows a block once the delimiter that closes it was taken off the front of `is`. -/
structure CloseBlock (is : List Located) where
  errors : List ParseError
  rest : List Located
  rest_le : rest.length ≤ is.length

/-- The block with what was read in front of it. -/
def ReadBlock.after {is : List Located} (first : ReadStmt is) (b : ReadBlock first.rest) :
    ReadBlock is where
  stmts := first.stmt.toList ++ b.stmts
  errors := first.errors ++ b.errors
  rest := b.rest
  rest_le := by
    have hfirst := first.rest_le
    have hrest := b.rest_le
    rw [List.length_tail] at hfirst
    omega

/-- Takes the delimiter that closes a block. Another instruction in its place is taken all the same. -/
def closeBlock (closer : Opcode) : (is : List Located) → CloseBlock is
  | [] => ⟨[.expectedButReachedEnd closer], [], Nat.le_refl _⟩
  | i :: is =>
    ⟨if i.instr.opcode = closer then [] else [.expected closer i.instr.opcode i.pc], is,
      Nat.le_succ _⟩

/-- What follows the first instruction of a list is no longer than the list. -/
theorem length_le_of_eq_cons {is js : List Located} {i : Located} {n : Nat} (h : is = i :: js)
    (hle : is.length ≤ n) : js.length ≤ n := by
  subst h
  exact Nat.le_of_succ_le hle

mutual

/-- The statement at the front of an instruction list. An instruction that begins none is taken all the
same, and so is an `END`, which is complained about. -/
def readStmt : (is : List Located) → ReadStmt is
  | [] => ⟨none, [.unexpectedEndOfInput], [], Nat.le_refl _⟩
  | i :: is =>
    match i.instr with
    | .action a => ⟨some (.action i.pc a), [], is, Nat.le_refl _⟩
    | .ifTest _ => readCond i is
    | .stop => ⟨none, [.unexpectedTerminator .stop i.pc], is, Nat.le_refl _⟩
    | .elseMark | .endIf | .whenEvent _ | .endWhen => ⟨none, [], is, Nat.le_refl _⟩
termination_by is => 3 * is.length + 1
decreasing_by exact Nat.lt_succ_self _

/-- The conditional that begins with `i`, behind which come the others. -/
def readCond (i : Located) (is : List Located) : ReadStmt (i :: is) :=
  match i.instr with
  | .ifTest c =>
    let body := readBlock .thenBranch is
    have hbody := body.rest_le
    match h : body.rest with
    | ⟨_, .elseMark⟩ :: js =>
      have hjs : js.length ≤ is.length := length_le_of_eq_cons h hbody
      let other := readBlock .elseBranch js
      let close := closeBlock .endIf other.rest
      ⟨some (.cond i.pc c body.stmts (some other.stmts)),
        body.errors ++ other.errors ++ close.errors, close.rest,
        Nat.le_trans close.rest_le (Nat.le_trans other.rest_le hjs)⟩
    | js =>
      let close := closeBlock .endIf js
      ⟨some (.cond i.pc c body.stmts none), body.errors ++ close.errors, close.rest,
        Nat.le_trans close.rest_le (h ▸ hbody)⟩
  | _ => ⟨none, [.missingComparison i.pc], is, Nat.le_refl _⟩
termination_by 3 * is.length + 3
decreasing_by
  · exact Nat.lt_succ_self _
  · exact Nat.lt_succ_of_le (Nat.add_le_add_right (Nat.mul_le_mul_left 3 hjs) 2)

/-- The statements at the front of an instruction list, up to the first instruction at which the
context stops. That instruction is left. -/
def readBlock (ctx : Context) : (is : List Located) → ReadBlock is
  | [] => ⟨[], [], [], Nat.le_refl _⟩
  | i :: is =>
    if ctx.stopsAt i.instr then ⟨[], [], i :: is, Nat.le_refl _⟩
    else
      let first := readStmt (i :: is)
      (readBlock ctx first.rest).after first
termination_by is => 3 * is.length + 2
decreasing_by
  · exact Nat.lt_succ_self _
  · have hfirst : first.rest.length ≤ is.length := first.rest_le
    show 3 * first.rest.length + 2 < 3 * (is.length + 1) + 2
    omega

end

/-- The trigger that begins with `i`, behind which come the others. -/
def readTrigger (i : Located) (is : List Located) : ReadTrigger is :=
  match i.instr with
  | .whenEvent e =>
    let body := readBlock .trigger is
    let close := closeBlock .endWhen body.rest
    ⟨some (.trigger i.pc e body.stmts), body.errors ++ close.errors, close.rest,
      Nat.le_trans close.rest_le body.rest_le⟩
  | _ => ⟨none, [.expected .whenEvent i.instr.opcode i.pc], is, Nat.le_refl _⟩

/-- The outermost level, read up to the `END` that closes it: its members, the offset of that `END`
if there is one, and what was wrong. -/
def readOutermost : List Located → List TopLevel × Option Nat × List ParseError
  | [] => ([], none, [.missingTerminator])
  | i :: is =>
    match i.instr with
    | .stop => ([], some i.pc, [])
    | .endWhen => readOutermost is
    | .whenEvent _ =>
      let trigger := readTrigger i is
      let (members, endPc, errors) := readOutermost trigger.rest
      (trigger.member.toList ++ members, endPc, trigger.errors ++ errors)
    | _ =>
      let first := readStmt (i :: is)
      let (members, endPc, errors) := readOutermost first.rest
      ((first.stmt.map TopLevel.stmt).toList ++ members, endPc, first.errors ++ errors)
termination_by is => is.length
decreasing_by
  · exact Nat.lt_succ_self _
  · exact Nat.lt_succ_of_le trigger.rest_le
  · exact Nat.lt_succ_of_le first.rest_le

/-- A program recovered from instructions. -/
structure Parsed where
  /-- The program, unless its outermost level is never closed. -/
  program : Option Program
  errors : List ParseError
deriving DecidableEq, Repr

namespace Parsed

/-- Whether there is a program and nothing was wrong. -/
def isOk (p : Parsed) : Bool :=
  p.program.isSome && p.errors.isEmpty

end Parsed

/-- Recovers the block structure of an instruction list. What follows the `END` of the outermost
level is ignored. -/
def parse (is : List Located) : Parsed :=
  let (topLevel, endPc, errors) := readOutermost is
  { program := endPc.map fun endPc => { topLevel, endPc }, errors }

end AbilityScript
