import AbilityScript.Text.Basic

/-!
# Numbered and named enumerations

Every operand of an instruction is stored in one byte. A type of operands numbers its members
`0, …, count - 1`, and a member is stored as its number. Card bytecode often comes from hash digests,
so a byte is never refused: it is reduced modulo `count`.

## Main definitions

* `ByteCoded`: types whose members are numbered; `toByte`, `clamp` and `ofByte?` go between members
  and bytes.
* `Labelled`: numbered types whose members have distinct labels; `ofName?` looks a label up.

## Main statements

* `clamp_toByte`: reducing the byte of a member gives the member back.
* `ofName?_eq_some_iff`: a name is looked up exactly when it is a label.
-/

set_option autoImplicit false

namespace AbilityScript

/-- A type whose members are numbered without gaps, few enough for one byte. -/
class ByteCoded (α : Type) where
  count : Nat
  count_pos : 0 < count
  count_le : count ≤ 256
  index : α → Fin count
  ofIndex : Fin count → α
  ofIndex_index : ∀ a, ofIndex (index a) = a
  index_ofIndex : ∀ i, index (ofIndex i) = i

namespace ByteCoded

variable {α : Type} [ByteCoded α]

/-- The byte that stores a member. -/
def toByte (a : α) : UInt8 :=
  UInt8.ofNat (index a).val

/-- The member that a byte stands for, after reduction modulo the number of members. -/
def clamp (b : UInt8) : α :=
  ofIndex ⟨b.toNat % count α, Nat.mod_lt _ count_pos⟩

/-- The member stored as this very byte, if there is one. -/
def ofByte? (b : UInt8) : Option α :=
  if h : b.toNat < count α then some (ofIndex ⟨b.toNat, h⟩) else none

/-- A byte modulo the number of members. -/
def reduce (α : Type) [ByteCoded α] (b : UInt8) : UInt8 :=
  UInt8.ofNat (b.toNat % count α)

/-- All members, in the order of their numbers. -/
def all (α : Type) [ByteCoded α] : List α :=
  List.ofFn (ofIndex (α := α))

/-- A member is stored as its number. -/
theorem toNat_toByte (a : α) : (toByte a).toNat = (index a).val := by
  have h := (index a).isLt
  have := count_le (α := α)
  simp only [toByte, UInt8.toNat_ofNat']
  omega

/-- Reducing the byte of a member gives the member back. -/
@[simp] theorem clamp_toByte (a : α) : clamp (toByte a) = a := by
  have h := toNat_toByte a
  simp only [clamp, h, Nat.mod_eq_of_lt (index a).isLt, Fin.eta, ofIndex_index]

/-- Reducing a byte takes it modulo the number of members. -/
theorem toNat_reduce (b : UInt8) : (reduce α b).toNat = b.toNat % count α := by
  have hb := b.toNat_lt
  have hle := Nat.mod_le b.toNat (count α)
  simp only [reduce, UInt8.toNat_ofNat']
  omega

/-- A reduced byte is the number of a member, namely of the one the byte stands for. -/
theorem ofByte?_reduce (b : UInt8) : ofByte? (reduce α b) = some (clamp b : α) := by
  have hlt : (reduce α b).toNat < count α := by
    rw [toNat_reduce]
    exact Nat.mod_lt _ count_pos
  rw [ofByte?, dif_pos hlt, clamp]
  simp only [toNat_reduce]

/-- A byte stands for a member exactly if it leaves the member's number when it is reduced. -/
theorem clamp_eq_iff {b : UInt8} {a : α} : clamp b = a ↔ b.toNat % count α = (index a).val := by
  constructor
  · rintro rfl
    rw [clamp, index_ofIndex]
  · intro h
    simp only [clamp, h, Fin.eta, ofIndex_index]

/-- Every member is among all members. -/
theorem mem_all (a : α) : a ∈ all α :=
  List.mem_ofFn.2 ⟨index a, ofIndex_index a⟩

end ByteCoded

/-- A numbered type whose members carry distinct labels, the words that stand for them in text. -/
class Labelled (α : Type) extends ByteCoded α where
  label : α → String
  label_injective : ∀ a b, label a = label b → a = b

namespace Labelled

variable {α : Type} [Labelled α]

/-- The label of a member as text. -/
def name (a : α) : Text :=
  (label a).toList

/-- The labels of all members, in the order of their numbers. -/
def labels (α : Type) [Labelled α] : List String :=
  (ByteCoded.all α).map label

/-- The member with this label, letter for letter. -/
def ofName? (t : Text) : Option α :=
  (ByteCoded.all α).find? fun a => name a == t

/-- Distinct members have distinct names. -/
theorem name_injective {a b : α} (h : name a = name b) : a = b :=
  label_injective a b (String.toList_injective h)

/-- A name is looked up exactly when it is the label of a member. -/
theorem ofName?_eq_some_iff {t : Text} {a : α} : ofName? t = some a ↔ name a = t := by
  constructor
  · intro h
    simpa using List.find?_some h
  · rintro rfl
    cases h : (ofName? (name a) : Option α) with
    | none => simpa using List.find?_eq_none.1 h a (ByteCoded.mem_all a)
    | some b =>
      have hb : name b = name a := by simpa using List.find?_some h
      rw [name_injective hb]

end Labelled

end AbilityScript
