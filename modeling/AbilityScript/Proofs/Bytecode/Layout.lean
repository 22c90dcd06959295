import AbilityScript.Proofs.Bytecode.Inverse

/-!
# How bytecode is laid out

Data is read as whole instructions that lie side by side, up to where reading ends: at the end of the
data, at an opcode that has too few bytes behind it, or at an `END`. Conversely, any data laid out
like this is read so. What is known of the instructions that are read, their offsets and the errors
follows from the layout, without going through the reading again.

## Main definitions

* `ReadsEnd`: the ways in which reading ends.
* `LaysOut`: data that is read as instructions up to a tail at which reading ends.

## Main statements

* `Reads.exists_laysOut`, `LaysOut.reads`: data is read as it is laid out.
* `Reads.eq_locate`: instructions that are read lie at the offsets of written ones.
* `Reads.ends_in_stop`: an `END` is read exactly once, at the end.
* `decode_tiles`: the offsets of the instructions that are read, and the errors.
-/

set_option autoImplicit false

namespace AbilityScript

open ByteCoded (clamp)

/-- How reading ends at an offset: the bytes that are left, and what is wrong with them. -/
inductive ReadsEnd : Nat → Bytes → List DecodeError → Prop where
  /-- The data is at its end. -/
  | exhausted (pc : Nat) : ReadsEnd pc [] []
  /-- An opcode has too few bytes behind it. -/
  | truncated {pc : Nat} {b : UInt8} {bs : Bytes} (h : bs.length < (clamp b : Opcode).argCount) :
      ReadsEnd pc (b :: bs) [.truncated (clamp b) pc ((clamp b : Opcode).argCount - bs.length)]
  /-- There is an `END`. -/
  | stopped {pc : Nat} {b : UInt8} {bs : Bytes} (h : (clamp b : Opcode) = .stop) :
      ReadsEnd pc (b :: bs) []

/-- The bytes `raw` at an offset, with a tail behind them, are read as instructions, and reading ends
at the tail. -/
structure LaysOut (pc : Nat) (raw : Bytes) (is : List Instruction) (tail : Bytes)
    (errors : List DecodeError) : Prop where
  denotes : DenotesAll raw is
  stop_notMem : .stop ∉ is
  hasRoom : HasRoom tail.length is
  ends : ReadsEnd (pc + raw.length) tail errors

/-- Where reading ends, only an `END` is read. -/
theorem ReadsEnd.reads {pc : Nat} {tail : Bytes} {errors : List DecodeError}
    (h : ReadsEnd pc tail errors) : Reads pc tail [⟨pc, .stop⟩] errors := by
  cases h with
  | exhausted => exact .exhausted pc
  | truncated h => exact .truncated h
  | stopped h => exact .stopped h

/-- Reading ends at an `END`, or no `END` is where it ends. -/
theorem ReadsEnd.head?_cases {pc : Nat} {tail : Bytes} {errors : List DecodeError}
    (h : ReadsEnd pc tail errors) :
    (errors = [] ∧ ∃ b rest, tail = b :: rest ∧ (clamp b : Opcode) = .stop) ∨
      (tail.head?.map clamp == some Opcode.stop) = false := by
  cases h with
  | exhausted => exact .inr rfl
  | @stopped b rest hb => exact .inl ⟨rfl, b, rest, rfl, hb⟩
  | @truncated b rest hlt =>
    right
    have hne : (clamp b : Opcode) ≠ .stop := by
      intro hb
      rw [hb] at hlt
      exact Nat.not_lt_zero _ hlt
    simpa using hne

/-- Data is read as it is laid out. -/
theorem LaysOut.reads {pc : Nat} {raw tail : Bytes} {is : List Instruction}
    {errors : List DecodeError} (h : LaysOut pc raw is tail errors) :
    Reads pc (raw ++ tail) (locate pc is ++ [⟨pc + raw.length, .stop⟩]) errors :=
  h.ends.reads.denotes_append h.denotes h.stop_notMem h.hasRoom

/-- Whatever is read is laid out. -/
theorem Reads.exists_laysOut {pc : Nat} {bs : Bytes} {js : List Located} {errors : List DecodeError}
    (h : Reads pc bs js errors) :
    ∃ raw is tail, bs = raw ++ tail ∧ js = locate pc is ++ [⟨pc + raw.length, .stop⟩] ∧
      LaysOut pc raw is tail errors := by
  induction h with
  | exhausted pc => exact ⟨[], [], [], rfl, rfl, .nil, List.not_mem_nil, HasRoom.nil, .exhausted pc⟩
  | truncated h => exact ⟨[], [], _, rfl, rfl, .nil, List.not_mem_nil, HasRoom.nil, .truncated h⟩
  | stopped h => exact ⟨[], [], _, rfl, rfl, .nil, List.not_mem_nil, HasRoom.nil, .stopped h⟩
  | @instr pc raw rest i _ _ hraw hi hroom _ ih =>
    obtain ⟨raw', is, tail, rfl, rfl, hdenotes, hstop, hroom', hends⟩ := ih
    refine ⟨raw ++ raw', i :: is, tail, (List.append_assoc ..).symm, ?_, .cons hraw hdenotes, ?_, ?_,
      ?_⟩
    · rw [locate_cons, List.cons_append, hraw.length_eq, List.length_append, hraw.length_eq,
        Nat.add_assoc]
    · rw [List.mem_cons, not_or]
      exact ⟨hi.symm, hstop⟩
    · refine HasRoom.cons ?_ hroom'
      rintro c rfl
      rw [hraw.length_eq, List.length_append, hdenotes.length_eq] at hroom
      simp only [Instruction.opcode, Opcode.argCount, Opcode.sideBytes, Instruction.size,
        Instruction.encode, List.length_cons] at hroom
      simp only [bytesBehind, List.length_append]
      omega
    · rw [List.length_append, ← Nat.add_assoc]
      exact hends

section Tiling

variable {pc : Nat} {raw bs : Bytes} {is : List Instruction} {tail : Bytes} {js : List Located}
  {errors : List DecodeError}

/-- The `END` with which reading ends lies where it would be written. -/
theorem LaysOut.locate_stop (h : LaysOut pc raw is tail errors) :
    locate pc is ++ [⟨pc + raw.length, .stop⟩] = locate pc (is ++ [.stop]) := by
  rw [locate_append, h.denotes.length_eq]
  rfl

/-- No `END` is among the instructions in front of the tail. -/
theorem LaysOut.ne_stop_of_mem (h : LaysOut pc raw is tail errors) {l : Located}
    (hl : l ∈ locate pc is) : l.instr ≠ .stop :=
  fun hstop => h.stop_notMem (hstop ▸ instr_mem_of_mem_locate hl)

/-- What is read lies at the offsets at which it would be written. -/
theorem Reads.eq_locate (h : Reads pc bs js errors) : js = locate pc (js.map Located.instr) := by
  obtain ⟨raw, is, tail, -, rfl, hlays⟩ := h.exists_laysOut
  rw [hlays.locate_stop, map_instr_locate]

/-- An `END` is read once and last. -/
theorem Reads.ends_in_stop (h : Reads pc bs js errors) :
    ∃ front last, js = front ++ [⟨last, .stop⟩] ∧ ∀ l ∈ front, l.instr ≠ .stop := by
  obtain ⟨raw, is, tail, -, rfl, hlays⟩ := h.exists_laysOut
  exact ⟨_, _, rfl, fun _ => hlays.ne_stop_of_mem⟩

/-- An instruction begins where the one before it ends. -/
theorem pc_eq_of_locate_eq {pc : Nat} {is : List Instruction} {before after : List Located}
    {l m : Located} (h : locate pc is = before ++ l :: m :: after) : m.pc = l.pc + l.instr.size := by
  induction before generalizing pc is with
  | nil =>
    match is, h with
    | i :: j :: is, h =>
      rw [locate_cons, locate_cons, List.nil_append] at h
      obtain ⟨hl, hrest⟩ := List.cons.inj h
      obtain ⟨hm, -⟩ := List.cons.inj hrest
      rw [← hl, ← hm]
  | cons k before ih =>
    cases is with
    | nil => exact absurd h (List.cons_ne_nil _ _).symm
    | cons i is => exact ih (List.cons.inj h).2

/-- Whatever is read but the `END` reaches to the instruction that is read next. -/
theorem Reads.exists_next {l : Located} (h : Reads pc bs js errors) (hl : l ∈ js)
    (hstop : l.instr ≠ .stop) :
    ∃ before m after, js = before ++ l :: m :: after ∧ m.pc = l.pc + l.instr.size := by
  have hlocate := h.eq_locate
  obtain ⟨front, last, rfl, -⟩ := h.ends_in_stop
  have hfront : l ∈ front := by
    obtain hmem | hmem := List.mem_append.1 hl
    · exact hmem
    · exact absurd (congrArg Located.instr (List.mem_singleton.1 hmem)) hstop
  obtain ⟨before, between, rfl⟩ := List.append_of_mem hfront
  obtain ⟨m, after, hafter⟩ := List.exists_cons_of_ne_nil
    (List.append_ne_nil_of_right_ne_nil between (List.cons_ne_nil ⟨last, .stop⟩ []))
  have hsplit : before ++ l :: between ++ [⟨last, .stop⟩] = before ++ l :: m :: after := by
    rw [List.append_assoc, List.cons_append, hafter]
  exact ⟨before, m, after, hsplit, pc_eq_of_locate_eq (hlocate.symm.trans hsplit)⟩

/-- An instruction ends before those that follow it begin. -/
theorem pc_add_size_le_of_mem_locate {pc : Nat} {is : List Instruction} {l : Located}
    (h : l ∈ locate pc is) : l.pc + l.instr.size ≤ pc + (code is).length := by
  induction is generalizing pc with
  | nil => exact absurd h List.not_mem_nil
  | cons i is ih =>
    rw [code_cons, List.length_append, length_encode, ← Nat.add_assoc]
    obtain rfl | h := List.mem_cons.1 h
    · exact Nat.le_add_right ..
    · exact ih h

/-- Where reading ends there is the end of the data, an `END`, or an opcode that lacks as many bytes as
is reported. -/
theorem ReadsEnd.cases_getElem? {tail : Bytes} {pc : Nat} {errors : List DecodeError}
    (h : ReadsEnd pc tail errors) (front : Bytes) (hpc : front.length = pc) :
    (errors = [] ∧ (pc = (front ++ tail).length ∨
      ∃ b, (front ++ tail)[pc]? = some b ∧ b.toNat % 14 = 13)) ∨
    ∃ b op missing, errors = [.truncated op pc missing] ∧
      (front ++ tail)[pc]? = some b ∧ (ByteCoded.index op).val = b.toNat % 14 ∧
      ((front ++ tail).drop (pc + 1)).length < op.argCount ∧
      missing = op.argCount - ((front ++ tail).drop (pc + 1)).length ∧ 1 ≤ missing := by
  subst hpc
  cases h with
  | exhausted => exact .inl ⟨rfl, .inl (by simp)⟩
  | @stopped b bs h => exact .inl ⟨rfl, .inr ⟨b, by simp, ByteCoded.clamp_eq_iff.1 h⟩⟩
  | @truncated b bs h =>
    have hdrop : (front ++ b :: bs).drop (front.length + 1) = bs := by
      rw [← List.drop_drop, List.drop_left, List.drop_one, List.tail_cons]
    refine .inr ⟨b, _, _, rfl, by simp, (ByteCoded.clamp_eq_iff.1 rfl).symm, ?_⟩
    rw [hdrop]
    exact ⟨h, rfl, Nat.sub_pos_of_lt h⟩

/-- Reading does not end at an unknown opcode. -/
theorem ReadsEnd.unknownOpcode_notMem {pc : Nat} {tail : Bytes} {errors : List DecodeError}
    (h : ReadsEnd pc tail errors) (byte : UInt8) (pc' : Nat) : .unknownOpcode byte pc' ∉ errors := by
  cases h <;> simp

/-- The version byte is complained about exactly if it is checked and another one. -/
theorem headerErrors_eq (config : DecodeConfig) (header : UInt8) :
    headerErrors config header =
      if config.strict ∧ header ≠ config.version then [.versionMismatch config.version header]
      else [] := by
  simp [headerErrors]

/-- What is read from bytecode begins behind the header and lies side by side, each instruction as far
behind the one before it as that is long when it is written, and at the offset of each is a byte that
stands for its opcode. An `END` is read exactly once, at the end. It is there, or it is put at the end
of the data, or at an opcode that has too few bytes behind it. Only the last is an error, which says
how many bytes are missing, and the one other error is a header that is not the one asked for. A
byte never fails to stand for an opcode, and operands never fail to be read if there are enough
bytes. -/
theorem decode_tiles (config : DecodeConfig) (header : UInt8) (tail : Bytes) :
    let bs := header :: tail
    let decoded := decode config bs
    ∃ front last errors,
      decoded.instrs = front ++ [⟨last, .stop⟩] ∧
      (∀ l ∈ front, l.instr ≠ .stop) ∧
      decoded.instrs.head?.map Located.pc = some 1 ∧
      (∀ before l m after, decoded.instrs = before ++ l :: m :: after →
        m.pc = l.pc + l.instr.encode.length) ∧
      decoded.instrs.Pairwise (fun l m => l.pc < m.pc) ∧
      (∀ l ∈ front, l.pc + l.instr.encode.length ≤ last ∧
        ∃ b, bs[l.pc]? = some b ∧ (ByteCoded.index l.instr.opcode).val = b.toNat % 14) ∧
      decoded.errors =
        (if config.strict ∧ header ≠ config.version then
          [.versionMismatch config.version header] else []) ++ errors ∧
      ((errors = [] ∧ (last = bs.length ∨ ∃ b, bs[last]? = some b ∧ b.toNat % 14 = 13)) ∨
        ∃ b op missing, errors = [.truncated op last missing] ∧
          bs[last]? = some b ∧ (ByteCoded.index op).val = b.toNat % 14 ∧
          (bs.drop (last + 1)).length < op.argCount ∧
          missing = op.argCount - (bs.drop (last + 1)).length ∧ 1 ≤ missing) ∧
      (∀ b : UInt8, (ByteCoded.ofByte? (ByteCoded.reduce Opcode b) : Option Opcode) ≠ none) ∧
      (∀ op bs, op.argCount ≤ bs.length → readOperands op bs ≠ none) ∧
      ∀ byte pc, .unknownOpcode byte pc ∉ decoded.errors := by
  obtain ⟨raw, is, rest, rfl, hinstrs, hlays⟩ := (reads_decodeFrom 1 tail).exists_laysOut
  have hlocate := hlays.locate_stop
  intro bs decoded
  have hd : decoded = _ := hlays.reads.decode_eq config
  refine ⟨locate 1 is, 1 + raw.length, _, by rw [hd], fun _ => hlays.ne_stop_of_mem, ?_, ?_, ?_,
    fun l hl => ?_, by rw [hd, headerErrors_eq], ?_, ?_, ?_, ?_⟩
  · rw [hd, hlocate]
    cases is <;> rfl
  · intro before l m after h
    rw [hd, hlocate] at h
    exact pc_eq_of_locate_eq h
  · rw [hd, hlocate]
    exact pairwise_locate 1 _
  · refine ⟨hlays.denotes.length_eq ▸ pc_add_size_le_of_mem_locate hl, ?_⟩
    obtain ⟨b, hb, hop⟩ := hlays.denotes.exists_opcode [header] rest hl
    exact ⟨b, hb, (ByteCoded.clamp_eq_iff.1 hop).symm⟩
  · exact hlays.ends.cases_getElem? (header :: raw) (Nat.add_comm ..)
  · intro b
    rw [ByteCoded.ofByte?_reduce]
    exact Option.some_ne_none _
  · intro op bs h
    obtain ⟨i, rest, hread⟩ := exists_readOperands h
    rw [hread]
    exact Option.some_ne_none _
  · intro byte pc hmem
    rw [hd, List.mem_append, headerErrors_eq] at hmem
    obtain hmem | hmem := hmem
    · split at hmem <;> simp at hmem
    · exact hlays.ends.unknownOpcode_notMem byte pc hmem

end Tiling

end AbilityScript
