import AbilityScript.Proofs.Bytecode.Offsets

/-!
# Reading what was written

Written instructions are read back as they were, with one exception. A conditional is written with
the five to seven operand bytes that its sides need, but it is read only if seven bytes follow its
opcode. So a conditional so close to the end of the data that fewer bytes follow it ends the reading,
and everything before it is read back.

The bytes that follow a conditional are its own operands and all instructions after it, which is why
the induction over the instructions counts the bytes behind the last of them.

## Main definitions

* `bytesBehind`: the number of bytes behind the opcode of a conditional.
* `HasRoom`, `FirstShort`: every conditional has seven bytes behind its opcode; the first that has not.

## Main statements

* `decode_bytecode`: what is read back, in either case.
-/

set_option autoImplicit false

namespace AbilityScript

open ByteCoded (clamp)

/-- The number of bytes behind the opcode of a conditional that the instructions `after` follow. -/
def bytesBehind (c : Comparison) (after : List Instruction) : Nat :=
  ((Instruction.ifTest c).encodeOperands ++ code after).length

/-- Every conditional has seven bytes behind its opcode, where `extra` bytes follow the last
instruction. -/
def HasRoom (extra : Nat) (is : List Instruction) : Prop :=
  ∀ before c after, is = before ++ .ifTest c :: after → 7 ≤ bytesBehind c after + extra

/-- The conditional between `before` and `after` has fewer than seven bytes behind its opcode, and it
is the first such. -/
structure FirstShort (before : List Instruction) (c : Comparison) (after : List Instruction) :
    Prop where
  short : bytesBehind c after < 7
  hasRoom : HasRoom (code (.ifTest c :: after)).length before

/-- More instructions at the end bring their bytes behind a conditional. -/
theorem bytesBehind_append (c : Comparison) (after js : List Instruction) :
    bytesBehind c (after ++ js) = bytesBehind c after + (code js).length := by
  simp only [bytesBehind, code_append, List.length_append]
  omega

namespace HasRoom

variable {extra : Nat} {i : Instruction} {is : List Instruction}

/-- Without instructions there is no conditional that lacks bytes. -/
theorem nil : HasRoom extra [] := by
  intro before c after h
  simp at h

/-- A conditional in front has its bytes behind it. -/
theorem head {c : Comparison} (h : HasRoom extra (.ifTest c :: is)) :
    7 ≤ bytesBehind c is + extra :=
  h [] c is rfl

/-- Conditionals that have their bytes behind them do so without the instruction in front. -/
theorem tail (h : HasRoom extra (i :: is)) : HasRoom extra is := by
  rintro before c after rfl
  exact h (i :: before) c after rfl

/-- An instruction can be put in front if it has its bytes behind it, should it be a conditional. -/
theorem cons (hi : ∀ c, i = .ifTest c → 7 ≤ bytesBehind c is + extra) (h : HasRoom extra is) :
    HasRoom extra (i :: is) := by
  intro before c after heq
  cases before with
  | nil =>
    obtain ⟨hc, rfl⟩ := List.cons.inj heq
    exact hi c hc
  | cons j before => exact h before c after (List.cons.inj heq).2

/-- With more bytes behind the last of the instructions no conditional runs short. -/
theorem mono {more : Nat} (hle : extra ≤ more) (h : HasRoom extra is) : HasRoom more is := by
  intro before c after heq
  exact Nat.le_trans (h before c after heq) (Nat.add_le_add_left hle _)

/-- What follows the last of the instructions may be instructions itself. -/
theorem of_append {js : List Instruction} (h : HasRoom extra (is ++ js)) :
    HasRoom ((code js).length + extra) is := by
  rintro before c after rfl
  have hroom := h before c (after ++ js) (by simp)
  rw [bytesBehind_append] at hroom
  omega

end HasRoom

/-- Unless every conditional in front of other instructions has room, there is a first one that has
not. -/
theorem exists_firstShort_append {is : List Instruction} (js : List Instruction)
    (h : ¬HasRoom (code js).length is) :
    ∃ before c after, is = before ++ .ifTest c :: after ∧ FirstShort before c (after ++ js) := by
  induction is with
  | nil => exact absurd HasRoom.nil h
  | cons i is ih =>
    by_cases hshort : ∃ c, i = .ifTest c ∧ bytesBehind c (is ++ js) < 7
    · obtain ⟨c, rfl, hc⟩ := hshort
      exact ⟨[], c, is, rfl, hc, HasRoom.nil⟩
    · have hhead : ∀ c, i = .ifTest c → 7 ≤ bytesBehind c (is ++ js) := by
        intro c hc
        exact Nat.le_of_not_lt fun hlt => hshort ⟨c, hc, hlt⟩
      obtain ⟨before, c, after, rfl, hfirst⟩ := ih fun htail => h <| htail.cons fun c hc => by
        rw [← bytesBehind_append]
        exact hhead c hc
      refine ⟨i :: before, c, after, rfl, hfirst.short, hfirst.hasRoom.cons fun d hd => ?_⟩
      rw [← bytesBehind_append]
      simpa using hhead d hd

/-- Unless every conditional has room, there is a first one that has not. -/
theorem exists_firstShort {is : List Instruction} (h : ¬HasRoom 0 is) :
    ∃ before c after, is = before ++ .ifTest c :: after ∧ FirstShort before c after := by
  simpa using exists_firstShort_append [] h

/-- An instruction other than a conditional reserves the operand bytes that it is written with. -/
theorem argCount_opcode {i : Instruction} (hi : ∀ c, i ≠ .ifTest c) :
    i.opcode.argCount = i.encodeOperands.length := by
  cases i with
  | action a => cases a <;> rfl
  | ifTest c => exact absurd rfl (hi c)
  | whenEvent | elseMark | endIf | endWhen | stop => rfl

/-- A written instruction has the reserved number of bytes behind its opcode if, as a conditional, it
has room. -/
theorem argCount_lt_of_hasRoom {extra : Nat} {i : Instruction} {is : List Instruction}
    (h : HasRoom extra (i :: is)) :
    i.opcode.argCount < i.encode.length + ((code is).length + extra) := by
  by_cases hi : ∃ c, i = .ifTest c
  · obtain ⟨c, rfl⟩ := hi
    have hroom := h.head
    simp only [bytesBehind, List.length_append] at hroom
    simp only [Instruction.opcode, Opcode.argCount, Opcode.sideBytes, Instruction.encode,
      List.length_cons]
    omega
  · rw [argCount_opcode (not_exists.1 hi)]
    simp only [Instruction.encode, List.length_cons]
    omega

/-- Bytes that denote instructions are read one after the other, and what follows them is read as it
would be by itself. -/
theorem Reads.denotes_append {pc : Nat} {raw tail : Bytes} {is : List Instruction}
    {js : List Located} {errors : List DecodeError}
    (htail : Reads (pc + raw.length) tail js errors) (hraw : DenotesAll raw is) (hstop : .stop ∉ is)
    (hroom : HasRoom tail.length is) : Reads pc (raw ++ tail) (locate pc is ++ js) errors := by
  induction hraw generalizing pc with
  | nil => exact htail
  | @cons raw rest i is hraw hrest ih =>
    rw [List.mem_cons, not_or] at hstop
    rw [List.append_assoc, locate_cons, List.cons_append]
    refine .instr hraw (Ne.symm hstop.1) ?_ ?_
    · have hlt := argCount_lt_of_hasRoom hroom
      rw [List.length_append, hraw.length_eq, hrest.length_eq]
      exact hlt
    · rw [List.length_append, ← Nat.add_assoc] at htail
      rw [← hraw.length_eq]
      exact ih htail hstop.2 hroom.tail

/-- Written instructions are read one after the other, and what follows them is read as it would be
by itself. -/
theorem Reads.code_append {pc : Nat} {is : List Instruction} {tail : Bytes} {js : List Located}
    {errors : List DecodeError} (htail : Reads (pc + (code is).length) tail js errors)
    (hstop : .stop ∉ is) (hroom : HasRoom tail.length is) :
    Reads pc (code is ++ tail) (locate pc is ++ js) errors :=
  htail.denotes_append (.code is) hstop hroom

/-- Where every conditional has room, exactly the written instructions are read, and an `END` is put
at the end of the data if none was written. -/
theorem reads_code {is : List Instruction} (pc : Nat) (hstop : .stop ∉ is.dropLast)
    (hroom : HasRoom 0 is) :
    Reads pc (code is)
      (locate pc is ++ if .stop ∈ is then [] else [⟨pc + (code is).length, .stop⟩]) [] := by
  by_cases hmem : .stop ∈ is
  · have hne : is ≠ [] := List.ne_nil_of_mem hmem
    have hsplit : is = is.dropLast ++ [.stop] := by
      have hlast : is.getLast hne = .stop := by
        rw [← List.dropLast_concat_getLast hne, List.mem_append, List.mem_singleton] at hmem
        exact (hmem.resolve_left hstop).symm
      rw [← hlast, List.dropLast_concat_getLast]
    rw [if_pos hmem, List.append_nil]
    rw [hsplit] at hroom ⊢
    rw [code_append, locate_append]
    exact Reads.code_append (.stopped (ByteCoded.clamp_toByte Opcode.stop)) hstop hroom.of_append
  · rw [if_neg hmem]
    have htail := Reads.exhausted (pc + (code is).length)
    simpa only [List.append_nil] using htail.code_append hmem hroom

/-- A conditional without room ends the reading. -/
theorem reads_code_of_firstShort {before after : List Instruction} {c : Comparison} (pc : Nat)
    (hstop : .stop ∉ before) (h : FirstShort before c after) :
    Reads pc (code (before ++ .ifTest c :: after))
      (locate pc before ++ [⟨pc + (code before).length, .stop⟩])
      [.truncated .ifTest (pc + (code before).length) (7 - bytesBehind c after)] := by
  have htail : Reads (pc + (code before).length) (code (.ifTest c :: after))
      [⟨pc + (code before).length, .stop⟩]
      [.truncated .ifTest (pc + (code before).length) (7 - bytesBehind c after)] :=
    Reads.truncated_of_clamp (ByteCoded.clamp_toByte Opcode.ifTest) h.short
  rw [code_append]
  exact htail.code_append hstop h.hasRoom

/-- A conditional is written with five operand bytes if both sides are constants, and otherwise with
more. -/
theorem length_encodeOperands_ifTest (c : Comparison) :
    5 ≤ (Instruction.ifTest c).encodeOperands.length ∧
      ((Instruction.ifTest c).encodeOperands.length = 5 ↔ c.isConstant = true) := by
  obtain ⟨cmp, lhs, rhs⟩ := c
  cases lhs <;> cases rhs <;>
    simp [Instruction.encodeOperands, Side.encode, Comparison.isConstant, Side.isImmediate, Side.kind]

/-- Only no instructions are written as no bytes. -/
theorem length_code_eq_zero {is : List Instruction} : (code is).length = 0 ↔ is = [] := by
  cases is with
  | nil => simp
  | cons i is =>
    have := i.size_pos
    simp only [code_cons, List.length_append, length_encode, reduceCtorEq, iff_false]
    omega

/-- Behind a conditional that something follows, too few bytes are left exactly if both its sides are
constants and one byte follows in all. -/
theorem bytesBehind_add_lt_iff (c : Comparison) {after : List Instruction} (hafter : after ≠ [])
    (extra : Nat) :
    bytesBehind c after + extra < 7 ↔ c.isConstant = true ∧ (code after).length + extra = 1 := by
  obtain ⟨hfive, hconst⟩ := length_encodeOperands_ifTest c
  have hpos : (code after).length ≠ 0 := fun h => hafter (length_code_eq_zero.1 h)
  rw [bytesBehind, List.length_append, ← hconst]
  omega

/-- Behind a conditional, before a last `END`, too few bytes are left exactly if nothing else is left
and both sides are constants. -/
theorem bytesBehind_lt_iff (c : Comparison) (after : List Instruction) :
    bytesBehind c (after ++ [.stop]) < 7 ↔ after = [] ∧ c.isConstant := by
  have hne : after ++ [.stop] ≠ [] := List.append_ne_nil_of_right_ne_nil after (List.cons_ne_nil _ _)
  have hiff := bytesBehind_add_lt_iff c hne 0
  have hlength : (code (after ++ [.stop])).length + 0 = 1 ↔ after = [] := by
    have hstop : (code [Instruction.stop]).length = 1 := rfl
    rw [code_append, List.length_append, hstop, ← length_code_eq_zero]
    omega
  rw [Nat.add_zero, hlength] at hiff
  rw [hiff, And.comm]

/-- Written instructions of which at most the last is an `END` are read back as they were, with an
`END` at the end of the data if there was none, provided every conditional has seven bytes behind its
opcode. Otherwise the first conditional that has fewer ends the reading: what was written before it is
read back, and it is reported with the number of bytes it lacks. If an `END` was written, this is so
exactly if the instruction before the `END` is a conditional that compares two constants. -/
theorem decode_bytecode (version header : UInt8) (is : List Instruction)
    (hstop : .stop ∉ is.dropLast) :
    (HasRoom 0 is → decode { version } (bytecode header is) =
      { header := some header
        instrs := locate 1 is ++
          if .stop ∈ is then [] else [⟨(bytecode header is).length, .stop⟩]
        errors := [] }) ∧
    (¬HasRoom 0 is → ∃ before c after,
      is = before ++ .ifTest c :: after ∧ FirstShort before c after ∧
      decode { version } (bytecode header is) =
        { header := some header
          instrs := locate 1 before ++ [⟨1 + (code before).length, .stop⟩]
          errors := [.truncated .ifTest (1 + (code before).length) (7 - bytesBehind c after)] }) ∧
    (is.getLast? = some .stop → ((decode { version } (bytecode header is)).errors ≠ [] ↔
      ∃ before c, is = before ++ [.ifTest c, .stop] ∧ c.isConstant)) := by
  have hdecode : ∀ js es, Reads 1 (code is) js es →
      decode { version } (bytecode header is) = { header := some header, instrs := js, errors := es } :=
    fun js es h => h.decode_eq { version }
  have hlength : (bytecode header is).length = 1 + (code is).length := by
    rw [bytecode_eq, List.length_cons, Nat.add_comm]
  have hclean (h : HasRoom 0 is) := hdecode _ _ (reads_code 1 hstop h)
  have hshort : ¬HasRoom 0 is → ∃ before c after,
      is = before ++ .ifTest c :: after ∧ FirstShort before c after ∧
      decode { version } (bytecode header is) =
        { header := some header
          instrs := locate 1 before ++ [⟨1 + (code before).length, .stop⟩]
          errors := [.truncated .ifTest (1 + (code before).length) (7 - bytesBehind c after)] } := by
    intro h
    obtain ⟨before, c, after, rfl, hfirst⟩ := exists_firstShort h
    have hbefore : .stop ∉ before := by
      rw [List.dropLast_append_cons] at hstop
      exact fun hmem => hstop (List.mem_append_left _ hmem)
    exact ⟨before, c, after, rfl, hfirst, hdecode _ _ (reads_code_of_firstShort 1 hbefore hfirst)⟩
  refine ⟨fun h => by rw [hclean h, hlength], hshort, fun hlast => ⟨fun herrors => ?_, ?_⟩⟩
  · have hroom : ¬HasRoom 0 is := fun h => herrors (by rw [hclean h])
    obtain ⟨before, c, after, rfl, hfirst, -⟩ := hshort hroom
    obtain ⟨after, rfl⟩ : ∃ front, after = front ++ [.stop] := by
      rw [List.getLast?_append, List.getLast?_cons, Option.some_or] at hlast
      cases hafter : after.getLast? with
      | none => simp [hafter] at hlast
      | some last =>
        obtain rfl : last = .stop := by simpa [hafter] using hlast
        exact List.getLast?_eq_some_iff.1 hafter
    obtain ⟨rfl, hc⟩ := (bytesBehind_lt_iff c after).1 hfirst.short
    exact ⟨before, c, rfl, hc⟩
  · rintro ⟨before, c, rfl, hc⟩
    have hroom : ¬HasRoom 0 (before ++ [.ifTest c, .stop]) := by
      intro h
      have := h before c [.stop] rfl
      have := (bytesBehind_lt_iff c []).2 ⟨rfl, hc⟩
      simp only [List.nil_append] at this
      omega
    obtain ⟨_, _, _, -, -, heq⟩ := hshort hroom
    rw [heq]
    exact List.cons_ne_nil _ _

/-- A conditional on constants right before the `END`: the only way to break a written program. -/
theorem decode_bytecode_constant_before_stop :
    let c : Comparison := ⟨.eq, .imm ⟨1⟩, .imm ⟨2⟩⟩
    Instruction.stop ∉ [.action (.draw ⟨0⟩), .ifTest c, .stop].dropLast ∧
      (decode { version := 1 } (bytecode 1 [.action (.draw ⟨0⟩), .ifTest c, .stop])).errors ≠ [] :=
  ⟨by decide, ((decode_bytecode 1 1 _ (by decide)).2.2 rfl).2 ⟨[.action (.draw ⟨0⟩)], _, rfl, rfl⟩⟩

end AbilityScript
