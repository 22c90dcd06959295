import AbilityScript.Proofs.Program.Erasure

/-!
# Depths from delimiters

How deep an instruction stands in a program can be told without the tree: it is the number of blocks
that the instructions before it opened and did not close. An `ELSE` closes one block and opens another,
and so it stands where the `IF` stands.

## Main definitions

* `Instruction.opens`, `Instruction.closes`: the delimiters of blocks.
* `rowsOf`: the rows of instructions one after another.
* `Row.deeper`: a row further in.

## Main statements

* `Program.rowsOf_flatten`: the rows of a program are those of the instructions that spell it.
* `Program.rows_deeper`: the rows of a program further in.
-/

set_option autoImplicit false

namespace AbilityScript

/-- Whether a block begins behind an instruction. -/
def Instruction.opens : Instruction → Bool
  | .ifTest _ | .elseMark | .whenEvent _ => true
  | .action _ | .endIf | .endWhen | .stop => false

/-- Whether a block ends in front of an instruction. -/
def Instruction.closes : Instruction → Bool
  | .elseMark | .endIf | .endWhen => true
  | .action _ | .ifTest _ | .whenEvent _ | .stop => false

/-- The rows of instructions in front of which `depth` blocks are open. -/
def rowsOf (depth : Nat) : List Instruction → List Row
  | [] => []
  | i :: is =>
    let around := if i.closes then depth - 1 else depth
    ⟨around, i⟩ :: rowsOf (if i.opens then around + 1 else around) is

/-- A row so many levels further in. -/
def Row.deeper (n : Nat) (r : Row) : Row where
  depth := n + r.depth
  instr := r.instr

section Delimiters

variable {depth : Nat}

/-- An action stands at the depth of the block that it is in. -/
theorem rowsOf_action (a : Action) (is : List Instruction) :
    rowsOf depth (.action a :: is) = ⟨depth, .action a⟩ :: rowsOf depth is := rfl

/-- What comes behind a delimiter that opens a block is one level further in. -/
theorem rowsOf_opening {i : Instruction} (hopens : i.opens = true) (hcloses : i.closes = false)
    (is : List Instruction) : rowsOf depth (i :: is) = ⟨depth, i⟩ :: rowsOf (depth + 1) is := by
  rw [rowsOf, hopens, hcloses]
  rfl

/-- An `ELSE` stands as far out as its `IF`, and what comes behind it one level further in. -/
theorem rowsOf_elseMark (is : List Instruction) :
    rowsOf (depth + 1) (.elseMark :: is) = ⟨depth, .elseMark⟩ :: rowsOf (depth + 1) is := rfl

/-- What comes behind a delimiter that closes a block stands where the delimiter stands. -/
theorem rowsOf_closing {i : Instruction} (hopens : i.opens = false) (hcloses : i.closes = true)
    (is : List Instruction) : rowsOf (depth + 1) (i :: is) = ⟨depth, i⟩ :: rowsOf depth is := by
  rw [rowsOf, hopens, hcloses]
  rfl

end Delimiters

namespace Block

/-- After the instructions of a block as many blocks are open as before them. -/
theorem rowsOf_flatten_append (b : Block) (depth : Nat) (is : List Instruction) :
    rowsOf depth (flatten b ++ is) = rows depth b ++ rowsOf depth is := by
  induction b using Block.induction generalizing depth is with
  | nil => rfl
  | action pc a rest ih =>
    simp only [flatten_cons, Stmt.flatten, rows, Stmt.rows, List.cons_append, List.nil_append,
      rowsOf_action, ih]
  | ifThen pc c body rest ihbody ih =>
    simp only [flatten_cons, Stmt.flatten, rows, Stmt.rows, List.append_assoc, List.cons_append,
      List.nil_append, rowsOf_opening (i := .ifTest c) rfl rfl, ihbody,
      rowsOf_closing (i := .endIf) rfl rfl, ih]
  | ifElse pc c body other rest ihbody ihother ih =>
    simp only [flatten_cons, Stmt.flatten, rows, Stmt.rows, List.append_assoc, List.cons_append,
      List.nil_append, rowsOf_opening (i := .ifTest c) rfl rfl, ihbody, rowsOf_elseMark, ihother,
      rowsOf_closing (i := .endIf) rfl rfl, ih]

/-- The rows of a block that is further in are its rows, each further in. -/
theorem rows_deeper (b : Block) (n depth : Nat) :
    rows (n + depth) b = (rows depth b).map (Row.deeper n) := by
  induction b using Block.induction generalizing depth with
  | nil => rfl
  | action pc a rest ih =>
    simp only [rows, Stmt.rows, List.map_append, ih]
    rfl
  | ifThen pc c body rest ihbody ih =>
    simp only [rows, Stmt.rows, List.map_append, List.map_cons, List.map_nil, Nat.add_assoc, ihbody, ih]
    rfl
  | ifElse pc c body other rest ihbody ihother ih =>
    simp only [rows, Stmt.rows, List.map_append, List.map_cons, List.map_nil, Nat.add_assoc, ihbody,
      ihother, ih]
    rfl

end Block

namespace TopLevel

/-- After the instructions of a member as many blocks are open as before them. -/
theorem rowsOf_flatten_append (m : TopLevel) (depth : Nat) (is : List Instruction) :
    rowsOf depth (m.flatten ++ is) = m.rows depth ++ rowsOf depth is := by
  cases m with
  | stmt s =>
    show rowsOf depth (s.flatten ++ is) = s.rows depth ++ _
    simpa [Block.rows] using Block.rowsOf_flatten_append [s] depth is
  | trigger pc e body =>
    simp only [flatten, rows, List.append_assoc, List.cons_append, List.nil_append,
      rowsOf_opening (i := .whenEvent e) rfl rfl, Block.rowsOf_flatten_append,
      rowsOf_closing (i := .endWhen) rfl rfl]

/-- The rows of a member that is further in are its rows, each further in. -/
theorem rows_deeper (m : TopLevel) (n depth : Nat) :
    m.rows (n + depth) = (m.rows depth).map (Row.deeper n) := by
  cases m with
  | stmt s =>
    show s.rows (n + depth) = (s.rows depth).map _
    simpa [Block.rows] using Block.rows_deeper [s] n depth
  | trigger pc e body =>
    simp only [rows, List.map_append, List.map_cons, List.map_nil, Nat.add_assoc, Block.rows_deeper]
    rfl

end TopLevel

namespace Program

/-- The rows of a program are those of the instructions that spell it. -/
theorem rowsOf_flatten (p : Program) (depth : Nat) : rowsOf depth p.flatten = p.rows depth := by
  have hmembers : ∀ ms : List TopLevel,
      rowsOf depth (ms.flatMap TopLevel.flatten ++ [.stop]) =
        ms.flatMap (TopLevel.rows depth) ++ [⟨depth, .stop⟩] := by
    intro ms
    induction ms with
    | nil => rfl
    | cons m ms ih =>
      rw [List.flatMap_cons, List.append_assoc, TopLevel.rowsOf_flatten_append, ih, List.flatMap_cons,
        List.append_assoc]
  exact hmembers p.topLevel

/-- The rows of a program that begins further in. -/
theorem rows_deeper (p : Program) (n : Nat) : p.rows n = (p.rows 0).map (Row.deeper n) := by
  have hmember : TopLevel.rows n = fun m => (m.rows 0).map (Row.deeper n) :=
    funext fun m => m.rows_deeper n 0
  unfold rows
  rw [List.map_append, List.map_flatMap, hmember]
  rfl

end Program

end AbilityScript
