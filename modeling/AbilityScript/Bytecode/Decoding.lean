import AbilityScript.Instruction.Basic

/-!
# Reading bytecode

Bytecode is a header byte, then instructions until an `END` or the end of the data. Reading never
fails as a whole: data that breaks off inside an instruction ends the reading there and is reported,
and a program that does not end by itself is given an `END` at the offset where reading stopped.

## Main definitions

* `readOperands`: the operands of one instruction, from the front of the data.
* `decode`: bytecode to located instructions.
-/

set_option autoImplicit false

namespace AbilityScript

open ByteCoded (clamp ofByte? reduce)

/-- Why bytecode could not be read as it stands. -/
inductive DecodeError where
  | missingBytecode
  /-- An instruction lacks operand bytes. -/
  | truncated (opcode : Opcode) (pc missing : Nat)
  /-- A byte stands for no opcode. Reading reduces bytes first, so it never reports this. -/
  | unknownOpcode (byte : UInt8) (pc : Nat)
  | versionMismatch (expected found : UInt8)
deriving DecidableEq, Repr

namespace DecodeError

/-- The offset that an error is about, if it is about one place. -/
def pc? : DecodeError → Option Nat
  | .truncated _ pc _ => some pc
  | .unknownOpcode _ pc => some pc
  | .versionMismatch _ _ => some 0
  | .missingBytecode => none

/-- The text of an error. -/
def message : DecodeError → String
  | .missingBytecode => "missing bytecode (need at least 1 byte)"
  | .truncated op pc missing =>
    s!"opcode {Labelled.label op} at {pc} missing {missing} argument byte(s)"
  | .unknownOpcode byte pc => s!"unknown opcode 0x{String.ofList (Text.ofByte byte)} at byte {pc}"
  | .versionMismatch expected found =>
    s!"header byte 0x{String.ofList (Text.ofByte found)} does not match " ++
      s!"expected version 0x{String.ofList (Text.ofByte expected)}"

end DecodeError

/-- The header byte of bytecode unless another is asked for. -/
def defaultVersion : UInt8 := 1

/-- What to expect of the header byte. -/
structure DecodeConfig where
  version : UInt8 := defaultVersion
  /-- Whether another header byte is an error. Otherwise the header is skipped unseen. -/
  strict : Bool := false
deriving DecidableEq, Repr

/-- What was read from bytecode. -/
structure Decoded where
  header : Option UInt8
  /-- The instructions, the last one an `END`, unless there is no data. -/
  instrs : List Located
  errors : List DecodeError
deriving DecidableEq, Repr

namespace Decoded

/-- Whether nothing was wrong. -/
def isOk (d : Decoded) : Bool :=
  d.errors.isEmpty

end Decoded

/-- One side of a comparison and the data after it. -/
def readSide : Bytes → Option (Side × Bytes)
  | k :: bs =>
    match (clamp k : SideKind), bs with
    | .imm, v :: rest => some (.imm (clamp v), rest)
    | .statOf, t :: s :: rest => some (.statOf (clamp t) (clamp s), rest)
    | _, _ => none
  | [] => none

/-- The instruction that an opcode makes with the operands at the front of the data, and the data
after them. -/
def readOperands : Opcode → Bytes → Option (Instruction × Bytes)
  | .damage, t :: n :: rest => some (.action (.damage (clamp t) (clamp n)), rest)
  | .heal, t :: n :: rest => some (.action (.heal (clamp t) (clamp n)), rest)
  | .buffStat, t :: s :: n :: rest =>
    some (.action (.buffStat (clamp t) (clamp s) (clamp n)), rest)
  | .debuffStat, t :: s :: n :: rest =>
    some (.action (.debuffStat (clamp t) (clamp s) (clamp n)), rest)
  | .draw, n :: rest => some (.action (.draw (clamp n)), rest)
  | .discard, n :: rest => some (.action (.discard (clamp n)), rest)
  | .createToken, n :: rest => some (.action (.createToken (clamp n)), rest)
  | .destroy, t :: rest => some (.action (.destroy (clamp t)), rest)
  | .ifTest, c :: bs => do
    let (lhs, bs) ← readSide bs
    let (rhs, rest) ← readSide bs
    some (.ifTest ⟨clamp c, lhs, rhs⟩, rest)
  | .elseMark, rest => some (.elseMark, rest)
  | .endIf, rest => some (.endIf, rest)
  | .whenEvent, e :: rest => some (.whenEvent (clamp e), rest)
  | .endWhen, rest => some (.endWhen, rest)
  | .stop, rest => some (.stop, rest)
  | _, _ => none

/-- Reading a side takes bytes off the front. -/
theorem length_le_of_readSide {bs rest : Bytes} {s : Side} (h : readSide bs = some (s, rest)) :
    rest.length ≤ bs.length := by
  unfold readSide at h
  split at h
  · split at h <;> simp only [Option.some.injEq, Prod.mk.injEq, reduceCtorEq] at h <;> grind
  · simp at h

/-- Reading operands takes bytes off the front. -/
theorem length_le_of_readOperands {op : Opcode} {bs rest : Bytes} {i : Instruction}
    (h : readOperands op bs = some (i, rest)) : rest.length ≤ bs.length := by
  unfold readOperands at h
  split at h
  case h_9 =>
    simp only [Option.bind_eq_bind, Option.bind_eq_some_iff, Prod.exists, Option.some.injEq,
      Prod.mk.injEq] at h
    obtain ⟨lhs, bs₁, h₁, rhs, bs₂, h₂, -, rfl⟩ := h
    have := length_le_of_readSide h₁
    have := length_le_of_readSide h₂
    simp only [List.length_cons]
    omega
  all_goals
    simp only [Option.some.injEq, Prod.mk.injEq, reduceCtorEq] at h
    try grind

/-- The instructions of data that begins at offset `pc`, and what was wrong with them. -/
def decodeFrom (pc : Nat) : Bytes → List Located × List DecodeError
  | [] => ([⟨pc, .stop⟩], [])
  | b :: bs =>
    match ofByte? (reduce Opcode b) with
    | none => ([⟨pc, .stop⟩], [.unknownOpcode b pc])
    | some op =>
      if bs.length < op.argCount then
        ([⟨pc, .stop⟩], [.truncated op pc (op.argCount - bs.length)])
      else
        match _h : readOperands op bs with
        | none => ([⟨pc, .stop⟩], [.truncated op pc 1])
        | some (.stop, _) => ([⟨pc, .stop⟩], [])
        | some (i, rest) =>
          let (is, errors) := decodeFrom (pc + (bs.length + 1 - rest.length)) rest
          (⟨pc, i⟩ :: is, errors)
termination_by bs => bs.length
decreasing_by
  have := length_le_of_readOperands _h
  simp only [List.length_cons]
  omega

/-- Every byte stands for an opcode, so reading goes by the opcode it stands for. -/
theorem decodeFrom_cons (pc : Nat) (b : UInt8) (bs : Bytes) :
    decodeFrom pc (b :: bs) =
      if bs.length < (clamp b : Opcode).argCount then
        ([⟨pc, .stop⟩], [.truncated (clamp b) pc ((clamp b : Opcode).argCount - bs.length)])
      else
        match readOperands (clamp b) bs with
        | none => ([⟨pc, .stop⟩], [.truncated (clamp b) pc 1])
        | some (.stop, _) => ([⟨pc, .stop⟩], [])
        | some (i, rest) =>
          (⟨pc, i⟩ :: (decodeFrom (pc + (bs.length + 1 - rest.length)) rest).1,
            (decodeFrom (pc + (bs.length + 1 - rest.length)) rest).2) := by
  rw [decodeFrom, ByteCoded.ofByte?_reduce]
  dsimp only
  split
  · rfl
  · split <;> simp_all

/-- What is wrong with a header byte. -/
def headerErrors (config : DecodeConfig) (header : UInt8) : List DecodeError :=
  if config.strict && header != config.version then [.versionMismatch config.version header] else []

/-- Reads bytecode: its header, then the instructions behind it. A header that is not the expected one
is complained about under a strict reading only, and reading goes on. -/
def decode (config : DecodeConfig) : Bytes → Decoded
  | [] => { header := none, instrs := [], errors := [.missingBytecode] }
  | header :: bs =>
    let (instrs, errors) := decodeFrom 1 bs
    { header := some header, instrs, errors := headerErrors config header ++ errors }

end AbilityScript
