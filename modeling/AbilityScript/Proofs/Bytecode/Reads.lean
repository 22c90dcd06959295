import AbilityScript.Bytecode.Decoding
import AbilityScript.Bytecode.Encoding

/-!
# Reading as a relation

`decodeFrom` reads data from the front, one instruction after the other, until an `END`, the end of
the data, or an opcode with too few bytes behind it. This file says the same as a relation without
recursion on lengths: `Reads` has one rule for each way a reading goes on or ends. The function reads by
the rules, and whatever is read by the rules is what it reads. Facts about all readings are then
inductions over the rules.

A rule takes whole instructions off the data. `Denotes raw i` says that the bytes `raw` are read as
the instruction `i` whatever follows them; what an instruction is written as denotes it.

## Main definitions

* `Denotes`: bytes that are read as an instruction.
* `Reads`: data from an offset on, the instructions read from it, and what was wrong.

## Main statements

* `denotes_encode`: an instruction is denoted by the bytes it is written as.
* `reads_decodeFrom`, `Reads.decodeFrom_eq`: the relation is the function `decodeFrom`.
-/

set_option autoImplicit false

namespace AbilityScript

open ByteCoded (clamp toByte)

section Operands

variable {op : Opcode} {i : Instruction} {s : Side} {bs rest : Bytes}

/-- What a side is written as is read as that side, and what follows is left. -/
theorem readSide_encode (s : Side) (rest : Bytes) :
    readSide (s.encode ++ rest) = some (s, rest) := by
  cases s <;> simp [readSide, Side.encode]

/-- A side is read from as many bytes as it is written with, and no byte after them has a say. -/
theorem readSide_eq_some (h : readSide bs = some (s, rest)) :
    ∃ args, bs = args ++ rest ∧ args.length = s.encode.length ∧
      ∀ other, readSide (args ++ other) = some (s, other) := by
  unfold readSide at h
  split at h
  case h_1 k bs =>
    split at h
    case h_1 v tail hk =>
      obtain ⟨rfl, rfl⟩ : Side.imm (clamp v) = s ∧ tail = rest := by simpa using h
      exact ⟨[k, v], rfl, rfl, fun other => by simp [readSide, hk]⟩
    case h_2 t st tail hk =>
      obtain ⟨rfl, rfl⟩ : Side.statOf (clamp t) (clamp st) = s ∧ tail = rest := by simpa using h
      exact ⟨[k, t, st], rfl, rfl, fun other => by simp [readSide, hk]⟩
    case h_3 => simp at h
  case h_2 => simp at h

/-- A side can be read from as many bytes as are reserved for it. -/
theorem exists_readSide (h : Opcode.sideBytes ≤ bs.length) :
    ∃ s rest, readSide bs = some (s, rest) ∧ bs.length ≤ rest.length + Opcode.sideBytes := by
  match bs, h with
  | k :: v :: w :: rest, _ =>
    cases hk : (clamp k : SideKind) with
    | imm =>
      exact ⟨.imm (clamp v), w :: rest, by simp only [readSide, hk], by simp [Opcode.sideBytes]⟩
    | statOf =>
      refine ⟨.statOf (clamp v) (clamp w), rest, by simp only [readSide, hk], ?_⟩
      simp [Opcode.sideBytes]

/-- The operands of an instruction are read as that instruction, and what follows is left. -/
theorem readOperands_encode (i : Instruction) (rest : Bytes) :
    readOperands i.opcode (i.encodeOperands ++ rest) = some (i, rest) := by
  cases i with
  | action a =>
    cases a <;>
      simp [readOperands, Instruction.opcode, Action.opcode, Action.kind, ActionKind.opcode,
        Instruction.encodeOperands, Action.encodeOperands]
  | ifTest c =>
    simp [readOperands, Instruction.opcode, Instruction.encodeOperands, readSide_encode]
  | whenEvent e => simp [readOperands, Instruction.opcode, Instruction.encodeOperands]
  | elseMark | endIf | endWhen | stop => rfl

/-- An instruction is read from as many operand bytes as it is written with, and no byte after them
has a say. -/
theorem readOperands_eq_some (h : readOperands op bs = some (i, rest)) :
    i.opcode = op ∧ ∃ args, bs = args ++ rest ∧ args.length = i.encodeOperands.length ∧
      ∀ other, readOperands op (args ++ other) = some (i, other) := by
  unfold readOperands at h
  split at h
  case h_9 c bs =>
    simp only [Option.bind_eq_bind, Option.bind_eq_some_iff, Prod.exists, Option.some.injEq,
      Prod.mk.injEq] at h
    obtain ⟨lhs, mid, hl, rhs, tail, hr, rfl, rfl⟩ := h
    obtain ⟨argsL, rfl, hlenL, hallL⟩ := readSide_eq_some hl
    obtain ⟨argsR, rfl, hlenR, hallR⟩ := readSide_eq_some hr
    refine ⟨rfl, c :: (argsL ++ argsR), by simp, ?_, fun other => ?_⟩
    · simp [Instruction.encodeOperands, hlenL, hlenR]
    · simp [readOperands, hallL, hallR]
  case h_15 => simp at h
  all_goals
    obtain ⟨rfl, rfl⟩ := by simpa using h
    refine ⟨rfl, ?_⟩
  · exact ⟨[_, _], rfl, rfl, fun _ => rfl⟩
  · exact ⟨[_, _], rfl, rfl, fun _ => rfl⟩
  · exact ⟨[_, _, _], rfl, rfl, fun _ => rfl⟩
  · exact ⟨[_, _, _], rfl, rfl, fun _ => rfl⟩
  · exact ⟨[_], rfl, rfl, fun _ => rfl⟩
  · exact ⟨[_], rfl, rfl, fun _ => rfl⟩
  · exact ⟨[_], rfl, rfl, fun _ => rfl⟩
  · exact ⟨[_], rfl, rfl, fun _ => rfl⟩
  · exact ⟨[], rfl, rfl, fun _ => rfl⟩
  · exact ⟨[], rfl, rfl, fun _ => rfl⟩
  · exact ⟨[_], rfl, rfl, fun _ => rfl⟩
  · exact ⟨[], rfl, rfl, fun _ => rfl⟩
  · exact ⟨[], rfl, rfl, fun _ => rfl⟩

/-- With the reserved number of bytes at hand, operands can be read. -/
theorem exists_readOperands (h : op.argCount ≤ bs.length) :
    ∃ i rest, readOperands op bs = some (i, rest) := by
  cases op with
  | ifTest =>
    obtain ⟨c, tail, rfl⟩ := List.exists_cons_of_length_pos
      (show 0 < bs.length by simp only [Opcode.argCount, Opcode.sideBytes] at h; omega)
    simp only [Opcode.argCount, List.length_cons] at h
    obtain ⟨lhs, mid, hl, hmid⟩ :=
      exists_readSide (show Opcode.sideBytes ≤ tail.length by omega)
    obtain ⟨rhs, rest, hr, -⟩ := exists_readSide (show Opcode.sideBytes ≤ mid.length by omega)
    exact ⟨.ifTest ⟨clamp c, lhs, rhs⟩, rest, by simp [readOperands, hl, hr]⟩
  | elseMark | endIf | endWhen | stop => exact ⟨_, bs, rfl⟩
  | draw | discard | createToken | destroy | whenEvent =>
    match bs, h with
    | _ :: rest, _ => exact ⟨_, rest, rfl⟩
  | damage | heal =>
    match bs, h with
    | _ :: _ :: rest, _ => exact ⟨_, rest, rfl⟩
  | buffStat | debuffStat =>
    match bs, h with
    | _ :: _ :: _ :: rest, _ => exact ⟨_, rest, rfl⟩

end Operands

/-- The bytes are read as an instruction, whatever follows them. -/
def Denotes (raw : Bytes) (i : Instruction) : Prop :=
  ∃ b args, raw = b :: args ∧ ∀ rest, readOperands (clamp b) (args ++ rest) = some (i, rest)

/-- What an instruction is written as is read as that instruction. -/
theorem denotes_encode (i : Instruction) : Denotes i.encode i :=
  ⟨toByte i.opcode, i.encodeOperands, rfl, fun rest => by
    rw [ByteCoded.clamp_toByte, readOperands_encode]⟩

namespace Denotes

variable {b : UInt8} {args raw : Bytes} {i : Instruction}

/-- What is read behind the opcode is the instruction, whatever follows its bytes. -/
theorem readOperands_eq (h : Denotes (b :: args) i) (rest : Bytes) :
    readOperands (clamp b) (args ++ rest) = some (i, rest) := by
  obtain ⟨c, tail, heq, hread⟩ := h
  obtain ⟨rfl, rfl⟩ := List.cons.inj heq
  exact hread rest

/-- The first of the bytes stands for the opcode. -/
theorem opcode_eq (h : Denotes (b :: args) i) : i.opcode = clamp b :=
  (readOperands_eq_some (h.readOperands_eq [])).1

/-- An instruction is read from as many bytes as it is written with. -/
theorem length_eq (h : Denotes raw i) : raw.length = i.size := by
  obtain ⟨b, args, rfl, hread⟩ := h
  obtain ⟨-, args', heq, hlen, -⟩ := readOperands_eq_some (hread [])
  have hargs : args = args' := by simpa using heq
  simp [Instruction.size, Instruction.encode, hargs, hlen]

end Denotes

/-- Behind an opcode with the reserved number of bytes there is an instruction. -/
theorem exists_denotes {b : UInt8} {bs : Bytes} (h : (clamp b : Opcode).argCount ≤ bs.length) :
    ∃ args rest i, bs = args ++ rest ∧ Denotes (b :: args) i := by
  obtain ⟨i, rest, hread⟩ := exists_readOperands h
  obtain ⟨-, args, rfl, -, hall⟩ := readOperands_eq_some hread
  exact ⟨args, rest, i, rfl, b, args, rfl, hall⟩

/-- The ways in which data is read from an offset on: the data, the instructions that are read, and
what was wrong. -/
inductive Reads : Nat → Bytes → List Located → List DecodeError → Prop where
  /-- At the end of the data an `END` is put. -/
  | exhausted (pc : Nat) : Reads pc [] [⟨pc, .stop⟩] []
  /-- An opcode with too few bytes behind it ends the reading, and an `END` is put in its place. -/
  | truncated {pc : Nat} {b : UInt8} {bs : Bytes} (h : bs.length < (clamp b : Opcode).argCount) :
      Reads pc (b :: bs) [⟨pc, .stop⟩]
        [.truncated (clamp b) pc ((clamp b : Opcode).argCount - bs.length)]
  /-- An `END` ends the reading. -/
  | stopped {pc : Nat} {b : UInt8} {bs : Bytes} (h : (clamp b : Opcode) = .stop) :
      Reads pc (b :: bs) [⟨pc, .stop⟩] []
  /-- Any other instruction is taken off the data, if its opcode has enough bytes behind it. -/
  | instr {pc : Nat} {raw rest : Bytes} {i : Instruction} {is : List Located}
      {errors : List DecodeError} (hraw : Denotes raw i) (hi : i ≠ .stop)
      (hroom : i.opcode.argCount < raw.length + rest.length)
      (hrest : Reads (pc + raw.length) rest is errors) :
      Reads pc (raw ++ rest) (⟨pc, i⟩ :: is) errors

/-- Data ends early at a known opcode with too few bytes behind it. -/
theorem Reads.truncated_of_clamp {pc : Nat} {b : UInt8} {bs : Bytes} {op : Opcode}
    (hb : clamp b = op) (h : bs.length < op.argCount) :
    Reads pc (b :: bs) [⟨pc, .stop⟩] [.truncated op pc (op.argCount - bs.length)] := by
  subst hb
  exact .truncated h

/-- Reading goes on behind an instruction that is not an `END`. -/
theorem decodeFrom_append {pc : Nat} {raw : Bytes} {i : Instruction} (hraw : Denotes raw i)
    (hi : i ≠ .stop) (rest : Bytes) (hroom : i.opcode.argCount < raw.length + rest.length) :
    decodeFrom pc (raw ++ rest) =
      (⟨pc, i⟩ :: (decodeFrom (pc + raw.length) rest).1,
        (decodeFrom (pc + raw.length) rest).2) := by
  obtain ⟨b, args, rfl, hread⟩ := hraw
  have hop : i.opcode = clamp b := (readOperands_eq_some (hread [])).1
  have hroom' : ¬(args ++ rest).length < (clamp b : Opcode).argCount := by
    rw [hop] at hroom
    simp only [List.length_cons, List.length_append] at hroom ⊢
    omega
  have hlen : (args ++ rest).length + 1 - rest.length = (b :: args).length := by
    simp only [List.length_cons, List.length_append]
    omega
  rw [List.cons_append, decodeFrom_cons]
  simp only [hroom', if_false]
  split
  · simp_all
  · simp_all
  · rename_i j tail hne h
    rw [hread rest] at h
    obtain ⟨rfl, rfl⟩ : i = j ∧ rest = tail := by simpa using h
    rw [hlen]

/-- Reading stops at an `END`. -/
theorem decodeFrom_stop {pc : Nat} {b : UInt8} (hb : (clamp b : Opcode) = .stop) (bs : Bytes) :
    decodeFrom pc (b :: bs) = ([⟨pc, .stop⟩], []) := by
  have hread : readOperands (clamp b) bs = some (.stop, bs) := by rw [hb]; rfl
  have hroom : ¬bs.length < (clamp b : Opcode).argCount := by rw [hb]; exact Nat.not_lt_zero _
  rw [decodeFrom_cons]
  simp only [hroom, if_false]
  split <;> simp_all

/-- Reading stops at an opcode with too few bytes behind it. -/
theorem decodeFrom_of_lt {pc : Nat} {b : UInt8} {bs : Bytes}
    (h : bs.length < (clamp b : Opcode).argCount) :
    decodeFrom pc (b :: bs) =
      ([⟨pc, .stop⟩], [.truncated (clamp b) pc ((clamp b : Opcode).argCount - bs.length)]) := by
  rw [decodeFrom_cons]
  simp only [h, if_true]

/-- The function reads by the rules. -/
theorem reads_decodeFrom (pc : Nat) (bs : Bytes) :
    Reads pc bs (decodeFrom pc bs).1 (decodeFrom pc bs).2 := by
  match bs with
  | [] =>
    rw [decodeFrom]
    exact .exhausted pc
  | b :: bs =>
    by_cases hroom : bs.length < (clamp b : Opcode).argCount
    · rw [decodeFrom_of_lt hroom]
      exact .truncated hroom
    · obtain ⟨args, rest, i, rfl, hden⟩ := exists_denotes (Nat.le_of_not_lt hroom)
      by_cases hi : i = .stop
      · have hb : clamp b = Opcode.stop := by rw [← hden.opcode_eq, hi]; rfl
        rw [decodeFrom_stop hb]
        exact .stopped hb
      · have hroom' : i.opcode.argCount < (b :: args).length + rest.length := by
          rw [hden.opcode_eq]
          simp only [List.length_cons, List.length_append] at hroom ⊢
          omega
        rw [← List.cons_append, decodeFrom_append hden hi rest hroom']
        exact .instr hden hi hroom' (reads_decodeFrom _ rest)
termination_by bs.length

/-- Whatever is read by the rules is what the function reads. -/
theorem Reads.decodeFrom_eq {pc : Nat} {bs : Bytes} {is : List Located} {errors : List DecodeError}
    (h : Reads pc bs is errors) : decodeFrom pc bs = (is, errors) := by
  induction h with
  | exhausted pc => rw [decodeFrom]
  | truncated h => exact decodeFrom_of_lt h
  | stopped h => exact decodeFrom_stop h _
  | instr hraw hi hroom _ ih => rw [decodeFrom_append hraw hi _ hroom, ih]

/-- What is read behind the header is what is decoded, after a complaint about the header if there is
one. -/
theorem Reads.decode_eq {header : UInt8} {bs : Bytes} {is : List Located}
    {errors : List DecodeError} (h : Reads 1 bs is errors) (config : DecodeConfig) :
    decode config (header :: bs) =
      { header := some header, instrs := is, errors := headerErrors config header ++ errors } := by
  simp only [decode, h.decodeFrom_eq]

end AbilityScript
