import AbilityScript.Proofs.Bytecode.Reads

/-!
# Instructions at their offsets

Instructions that are written one after the other lie side by side. This file gives each the offset
at which its bytes begin. Bytes that are read as instructions take up as much room as the instructions
that are written: reading and writing move by the same widths.

## Main definitions

* `code`: the bytes of instructions written one after the other.
* `locate`: the instructions with their offsets.
* `DenotesAll`: bytes that are read as instructions one after the other.

## Main statements

* `encode_prefix_drop`: the bytes of an instruction begin at its offset.
* `DenotesAll.length_eq`: instructions are read from as many bytes as they are written with.
-/

set_option autoImplicit false

namespace AbilityScript

open ByteCoded (clamp)

/-- The bytes of instructions written one after the other. -/
def code (is : List Instruction) : Bytes :=
  is.flatMap Instruction.encode

/-- No instructions are written as no bytes. -/
@[simp] theorem code_nil : code [] = [] := rfl

/-- Instructions are written one after another. -/
@[simp] theorem code_cons (i : Instruction) (is : List Instruction) :
    code (i :: is) = i.encode ++ code is := rfl

/-- Instructions in two parts are written one part after the other. -/
@[simp] theorem code_append (is js : List Instruction) : code (is ++ js) = code is ++ code js :=
  List.flatMap_append

/-- Bytecode is the version byte and the bytes of the instructions. -/
theorem bytecode_eq (header : UInt8) (is : List Instruction) :
    bytecode header is = header :: code is := rfl

/-- The size of an instruction is the number of bytes that it is written as. -/
@[simp] theorem length_encode (i : Instruction) : i.encode.length = i.size := rfl

/-- Instructions with the offsets at which they begin when they are written one after the other, the
first one at `pc`. -/
def locate (pc : Nat) : List Instruction → List Located
  | [] => []
  | i :: is => ⟨pc, i⟩ :: locate (pc + i.size) is

/-- There is nothing to locate in no instructions. -/
@[simp] theorem locate_nil (pc : Nat) : locate pc [] = [] := rfl

/-- Each instruction lies behind the one in front of it. -/
@[simp] theorem locate_cons (pc : Nat) (i : Instruction) (is : List Instruction) :
    locate pc (i :: is) = ⟨pc, i⟩ :: locate (pc + i.size) is := rfl

/-- Instructions in two parts lie as the first part does, and the second behind its bytes. -/
theorem locate_append (pc : Nat) (is js : List Instruction) :
    locate pc (is ++ js) = locate pc is ++ locate (pc + (code is).length) js := by
  induction is generalizing pc with
  | nil => simp
  | cons i is ih => simp [ih, Nat.add_assoc]

/-- Giving instructions offsets leaves them as they are. -/
@[simp] theorem map_instr_locate (pc : Nat) (is : List Instruction) :
    (locate pc is).map Located.instr = is := by
  induction is generalizing pc with
  | nil => rfl
  | cons i is ih => simp [ih]

/-- What is located is one of the instructions. -/
theorem instr_mem_of_mem_locate {pc : Nat} {is : List Instruction} {l : Located}
    (h : l ∈ locate pc is) : l.instr ∈ is := by
  rw [← map_instr_locate pc is]
  exact List.mem_map_of_mem h

/-- Offsets increase. -/
theorem le_pc_of_mem_locate {pc : Nat} {is : List Instruction} {l : Located}
    (h : l ∈ locate pc is) : pc ≤ l.pc := by
  induction is generalizing pc with
  | nil => exact absurd h List.not_mem_nil
  | cons i is ih =>
    obtain rfl | h := List.mem_cons.1 h
    · exact Nat.le_refl pc
    · exact Nat.le_trans (Nat.le_add_right ..) (ih h)

/-- The offsets of instructions increase. -/
theorem pairwise_locate (pc : Nat) (is : List Instruction) :
    (locate pc is).Pairwise fun l m => l.pc < m.pc := by
  induction is generalizing pc with
  | nil => exact List.Pairwise.nil
  | cons i is ih =>
    refine List.Pairwise.cons (fun l hl => ?_) (ih (pc + i.size))
    have hle := le_pc_of_mem_locate hl
    have hsize := i.size_pos
    show pc < l.pc
    omega

/-- No instruction is located twice. -/
theorem nodup_locate (pc : Nat) (is : List Instruction) : (locate pc is).Nodup := by
  refine (pairwise_locate pc is).imp fun {l m} hlt => ?_
  rintro rfl
  exact Nat.lt_irrefl _ hlt

/-- Where an instruction is located, its bytes begin. -/
theorem encode_prefix_drop {is : List Instruction} {l : Located} (front : Bytes)
    (h : l ∈ locate front.length is) : l.instr.encode <+: (front ++ code is).drop l.pc := by
  induction is generalizing front with
  | nil => exact absurd h List.not_mem_nil
  | cons i is ih =>
    rw [locate_cons] at h
    obtain rfl | h := List.mem_cons.1 h
    · rw [code_cons, List.drop_left]
      exact List.prefix_append i.encode (code is)
    · rw [← length_encode, ← List.length_append] at h
      rw [code_cons, ← List.append_assoc]
      exact ih (front ++ i.encode) h

/-- If the bytes of all instructions begin at their offsets, they lie side by side. -/
theorem code_prefix_of_mem_locate {is : List Instruction} (front rest : Bytes)
    (h : ∀ l ∈ locate front.length is, l.instr.encode <+: (front ++ rest).drop l.pc) :
    code is <+: rest := by
  induction is generalizing front rest with
  | nil => exact List.nil_prefix
  | cons i is ih =>
    have hhead := h ⟨front.length, i⟩ List.mem_cons_self
    rw [List.drop_left] at hhead
    obtain ⟨rest', rfl⟩ := hhead
    rw [code_cons, List.prefix_append_right_inj]
    refine ih (front ++ i.encode) rest' fun l hl => ?_
    rw [List.append_assoc]
    refine h l (List.mem_cons_of_mem _ ?_)
    rwa [← length_encode, ← List.length_append]

/-- The bytes are read as the instructions one after the other. -/
inductive DenotesAll : Bytes → List Instruction → Prop where
  | nil : DenotesAll [] []
  | cons {raw rest : Bytes} {i : Instruction} {is : List Instruction} (hraw : Denotes raw i)
      (hrest : DenotesAll rest is) : DenotesAll (raw ++ rest) (i :: is)

namespace DenotesAll

variable {raw : Bytes} {is : List Instruction} {l : Located}

/-- What instructions are written as is read as these instructions. -/
theorem code (is : List Instruction) : DenotesAll (AbilityScript.code is) is := by
  induction is with
  | nil => exact .nil
  | cons i is ih => exact .cons (denotes_encode i) ih

/-- Instructions are read from as many bytes as they are written with. -/
theorem length_eq (h : DenotesAll raw is) : raw.length = (AbilityScript.code is).length := by
  induction h with
  | nil => rfl
  | cons hraw _ ih => simp [hraw.length_eq, ih]

/-- Bytes that are read as instructions, one part after the other, are read as both. -/
theorem append {rest : Bytes} {js : List Instruction} (h : DenotesAll raw is)
    (hrest : DenotesAll rest js) : DenotesAll (raw ++ rest) (is ++ js) := by
  induction h with
  | nil => exact hrest
  | cons hraw _ ih =>
    rw [List.append_assoc]
    exact .cons hraw ih

/-- Bytes that are read as instructions in two pieces fall into two pieces themselves. -/
theorem exists_append {js : List Instruction} (h : DenotesAll raw (is ++ js)) :
    ∃ raw₁ raw₂, raw = raw₁ ++ raw₂ ∧ DenotesAll raw₁ is ∧ DenotesAll raw₂ js := by
  induction is generalizing raw with
  | nil => exact ⟨[], raw, rfl, .nil, h⟩
  | cons i is ih =>
    cases h with
    | @cons rawHead _ _ _ hraw hrest =>
      obtain ⟨raw₁, raw₂, rfl, h₁, h₂⟩ := ih hrest
      exact ⟨rawHead ++ raw₁, raw₂, (List.append_assoc ..).symm, .cons hraw h₁, h₂⟩

/-- An `END` is read from a byte that stands for it. -/
theorem stop_iff : DenotesAll raw [.stop] ↔ ∃ b, raw = [b] ∧ (clamp b : Opcode) = .stop := by
  constructor
  · rintro (_ | ⟨hraw, _ | _⟩)
    obtain ⟨b, args, rfl, -⟩ := id hraw
    have hlength := hraw.length_eq
    obtain rfl : args = [] := by simpa [Instruction.size, Instruction.encode,
      Instruction.encodeOperands] using hlength
    exact ⟨b, rfl, hraw.opcode_eq.symm⟩
  · rintro ⟨b, rfl, hb⟩
    have hraw : Denotes [b] .stop := ⟨b, [], rfl, fun rest => by rw [hb]; rfl⟩
    exact .cons hraw .nil

/-- At the offset of an instruction there is a byte that stands for its opcode. -/
theorem exists_opcode (h : DenotesAll raw is) (front tail : Bytes)
    (hl : l ∈ locate front.length is) :
    ∃ b, (front ++ raw ++ tail)[l.pc]? = some b ∧ clamp b = l.instr.opcode := by
  induction h generalizing front with
  | nil => exact absurd hl List.not_mem_nil
  | @cons raw rest i is hraw _ ih =>
    rw [locate_cons] at hl
    obtain rfl | hl := List.mem_cons.1 hl
    · obtain ⟨b, args, rfl, -⟩ := id hraw
      exact ⟨b, by simp, hraw.opcode_eq.symm⟩
    · rw [← hraw.length_eq, ← List.length_append] at hl
      simpa using ih _ hl

end DenotesAll

end AbilityScript
