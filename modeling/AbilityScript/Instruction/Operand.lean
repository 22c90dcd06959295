import AbilityScript.Instruction.Coded

/-!
# Operands

What an instruction acts on, by how much, and what a conditional compares. Named operands are
enumerations with labels; an amount and an immediate are numbers in a small range.
-/

set_option autoImplicit false

namespace AbilityScript

/-- Whom an action is aimed at. -/
inductive Target where
  | selfCard
  | opponent
  | ally
  | any
  | random
  | allEnemies
  | allAllies
  | enemy
deriving DecidableEq, Repr

instance : Labelled Target where
  count := 8
  count_pos := by decide
  count_le := by decide
  index
    | .selfCard => 0
    | .opponent => 1
    | .ally => 2
    | .any => 3
    | .random => 4
    | .allEnemies => 5
    | .allAllies => 6
    | .enemy => 7
  ofIndex
    | 0 => .selfCard
    | 1 => .opponent
    | 2 => .ally
    | 3 => .any
    | 4 => .random
    | 5 => .allEnemies
    | 6 => .allAllies
    | 7 => .enemy
  ofIndex_index a := by cases a <;> rfl
  index_ofIndex := by decide
  label
    | .selfCard => "SELF"
    | .opponent => "OPPONENT"
    | .ally => "ALLY"
    | .any => "ANY"
    | .random => "RANDOM"
    | .allEnemies => "ALL_ENEMIES"
    | .allAllies => "ALL_ALLIES"
    | .enemy => "ENEMY"
  label_injective a b := by cases a <;> cases b <;> decide

/-- A property of a card that can be changed or compared. -/
inductive Stat where
  | attack
  | health
deriving DecidableEq, Repr

instance : Labelled Stat where
  count := 2
  count_pos := by decide
  count_le := by decide
  index
    | .attack => 0
    | .health => 1
  ofIndex
    | 0 => .attack
    | 1 => .health
  ofIndex_index a := by cases a <;> rfl
  index_ofIndex := by decide
  label
    | .attack => "ATTACK"
    | .health => "HEALTH"
  label_injective a b := by cases a <;> cases b <;> decide

/-- How the two sides of a comparison are related. -/
inductive Comparator where
  | eq
  | gt
  | lt
deriving DecidableEq, Repr

instance : Labelled Comparator where
  count := 3
  count_pos := by decide
  count_le := by decide
  index
    | .eq => 0
    | .gt => 1
    | .lt => 2
  ofIndex
    | 0 => .eq
    | 1 => .gt
    | 2 => .lt
  ofIndex_index a := by cases a <;> rfl
  index_ofIndex := by decide
  label
    | .eq => "EQ"
    | .gt => "GT"
    | .lt => "LT"
  label_injective a b := by cases a <;> cases b <;> decide

/-- What sets a trigger off. -/
inductive Event where
  | onCast
  | onAttack
  | onDeath
  | onEnter
  | onLeave
deriving DecidableEq, Repr

instance : Labelled Event where
  count := 5
  count_pos := by decide
  count_le := by decide
  index
    | .onCast => 0
    | .onAttack => 1
    | .onDeath => 2
    | .onEnter => 3
    | .onLeave => 4
  ofIndex
    | 0 => .onCast
    | 1 => .onAttack
    | 2 => .onDeath
    | 3 => .onEnter
    | 4 => .onLeave
  ofIndex_index a := by cases a <;> rfl
  index_ofIndex := by decide
  label
    | .onCast => "ON_CAST"
    | .onAttack => "ON_ATTACK"
    | .onDeath => "ON_DEATH"
    | .onEnter => "ON_ENTER"
    | .onLeave => "ON_LEAVE"
  label_injective a b := by cases a <;> cases b <;> decide

/-- What one side of a comparison is made of. -/
inductive SideKind where
  | imm
  | statOf
deriving DecidableEq, Repr

instance : Labelled SideKind where
  count := 2
  count_pos := by decide
  count_le := by decide
  index
    | .imm => 0
    | .statOf => 1
  ofIndex
    | 0 => .imm
    | 1 => .statOf
  ofIndex_index a := by cases a <;> rfl
  index_ofIndex := by decide
  label
    | .imm => "IMM"
    | .statOf => "STAT_OF"
  label_injective a b := by cases a <;> cases b <;> decide

/-- How much an action does, from one to four. It is stored as the number of steps above one. -/
structure Amount where
  extra : Fin 4
deriving DecidableEq, Repr

namespace Amount

/-- The smallest amount. -/
def least : Nat := 1

/-- The greatest amount. -/
def greatest : Nat := 4

/-- The value that an amount stands for. It is one more than the number that is stored. -/
def value (a : Amount) : Nat :=
  a.extra.val + least

/-- The amount with this value, if it lies in range. -/
def ofValue? (n : Nat) : Option Amount :=
  if h : least ≤ n ∧ n ≤ greatest then
    some ⟨⟨n - least, by simp only [least, greatest] at *; omega⟩⟩
  else none

instance : ByteCoded Amount where
  count := 4
  count_pos := by decide
  count_le := by decide
  index := Amount.extra
  ofIndex := Amount.mk
  ofIndex_index _ := rfl
  index_ofIndex _ := rfl

/-- An amount as it is printed, as a decimal numeral of its value. -/
def text (a : Amount) : Text :=
  Text.ofNat a.value

/-- An amount is found for a value exactly if it has that value. -/
theorem ofValue?_eq_some_iff {n : Nat} {a : Amount} : ofValue? n = some a ↔ a.value = n := by
  obtain ⟨⟨k, hk⟩⟩ := a
  by_cases h : least ≤ n ∧ n ≤ greatest
  · simp only [ofValue?, h, and_self, dif_pos, value, Option.some.injEq, Amount.mk.injEq, Fin.mk.injEq]
    omega
  · simp only [ofValue?, h, dif_neg, not_false_iff, reduceCtorEq, value, false_iff]
    simp only [least, greatest] at *
    omega

end Amount

/-- A constant in a comparison, from zero to fifteen. -/
structure Immediate where
  value : Fin 16
deriving DecidableEq, Repr

namespace Immediate

/-- The greatest constant in a comparison. -/
def greatest : Nat := 15

/-- The constant with this value, if it lies in range. -/
def ofValue? (n : Nat) : Option Immediate :=
  if h : n ≤ greatest then some ⟨⟨n, by simp only [greatest] at h; omega⟩⟩ else none

instance : ByteCoded Immediate where
  count := 16
  count_pos := by decide
  count_le := by decide
  index := Immediate.value
  ofIndex := Immediate.mk
  ofIndex_index _ := rfl
  index_ofIndex _ := rfl

/-- A constant as it is printed, as a decimal numeral. -/
def text (v : Immediate) : Text :=
  Text.ofNat v.value.val

/-- A constant is found for a value exactly if it has that value. -/
theorem ofValue?_eq_some_iff {n : Nat} {v : Immediate} :
    ofValue? n = some v ↔ v.value.val = n := by
  obtain ⟨⟨k, hk⟩⟩ := v
  by_cases h : n ≤ greatest
  · simp only [ofValue?, h, dif_pos, Option.some.injEq, Immediate.mk.injEq, Fin.mk.injEq]
    omega
  · simp only [ofValue?, h, dif_neg, not_false_iff, reduceCtorEq, false_iff]
    simp only [greatest] at h
    omega

end Immediate

end AbilityScript
