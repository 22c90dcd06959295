import AbilityScript.Proofs.Bytecode.InPlace

/-!
# Bytes behind bytecode

Whether a conditional is read depends on how many bytes follow it, so bytes that are put behind bytecode
have an influence on how it is read. It is a small one. An instruction that is read has enough bytes
behind it, and with more bytes it still has. So the instructions stay as they are up to where reading
ended. If it ended at an `END` that stands in the bytecode, it ends there again. Otherwise it goes on,
from the end of the data or from the opcode that lacked bytes, in place of the `END` that was put there.

## Main statements

* `LaysOut.reads_append`: reading goes on where it ended.
* `decode_append`: what is read from longer bytecode.
-/

set_option autoImplicit false

namespace AbilityScript

open ByteCoded (clamp)

variable {pc : Nat} {raw tail more : Bytes} {is : List Instruction} {js : List Located}
  {errors errors' : List DecodeError}

/-- With more bytes behind the data, the same instructions are read up to where reading ended, and what
is there with the bytes behind it is read as it would be by itself. -/
theorem LaysOut.reads_append (h : LaysOut pc raw is tail errors)
    (hmore : Reads (pc + raw.length) (tail ++ more) js errors') :
    Reads pc (raw ++ (tail ++ more)) (locate pc is ++ js) errors' := by
  apply hmore.denotes_append h.denotes h.stop_notMem
  apply h.hasRoom.mono
  rw [List.length_append]
  exact Nat.le_add_right _ _

/-- Of the instructions that are read, all stand in the bytecode but for the last one, which does if it is
an `END` of the bytecode. -/
theorem LaysOut.presentInstrs_eq (h : LaysOut 1 raw is tail errors) (config : DecodeConfig)
    (header : UInt8) :
    presentInstrs config (header :: (raw ++ tail)) = locate 1 is ++
      if tail.head?.map clamp == some Opcode.stop then [⟨1 + raw.length, .stop⟩] else [] := by
  rw [presentInstrs, h.reads.decode_eq, List.filter_append, h.filter_isPresent, List.filter_cons,
    isPresent_stop, List.filter_nil]

/-- Bytes that are put behind bytecode change nothing of what was read. The instructions that stand in the
bytecode are those that are read first from the longer one, with their offsets. If an `END` is among
them, nothing else is read, and the header and the errors are the same too. If there is none, reading
goes on at the offset at which an `END` was put: the longer bytecode is read there as it would be by
itself, and only what is wrong from there on is reported. -/
theorem decode_append (config : DecodeConfig) (header : UInt8) (tail more : Bytes) :
    let bs := header :: tail
    let present := presentInstrs config bs
    present <+: (decode config (bs ++ more)).instrs ∧
      ((∃ l ∈ present, l.instr = .stop) → decode config (bs ++ more) = decode config bs) ∧
      ((∀ l ∈ present, l.instr ≠ .stop) → ∃ last,
        (decode config bs).instrs = present ++ [⟨last, .stop⟩] ∧
        decode config (bs ++ more) =
          { header := some header
            instrs := present ++ (decodeFrom last (bs.drop last ++ more)).1
            errors := headerErrors config header ++ (decodeFrom last (bs.drop last ++ more)).2 }) := by
  obtain ⟨raw, is, rest, rfl, -, hlays⟩ := (reads_decodeFrom 1 tail).exists_laysOut
  intro bs present
  have hpresent : present = _ := hlays.presentInstrs_eq config header
  have hdecode : decode config bs = _ := hlays.reads.decode_eq config
  have hmore {js : List Located} {errors : List DecodeError}
      (h : Reads (1 + raw.length) (rest ++ more) js errors) : decode config (bs ++ more) =
        { header := some header
          instrs := locate 1 is ++ js
          errors := headerErrors config header ++ errors } := by
    show decode config (header :: (raw ++ rest ++ more)) = _
    rw [List.append_assoc]
    exact (hlays.reads_append h).decode_eq config
  obtain ⟨herrors, b, rest, rfl, hb⟩ | hend := hlays.ends.head?_cases
  · -- reading ends at the same `END`
    have hlast : present = locate 1 is ++ [⟨1 + raw.length, .stop⟩] := by
      rw [hpresent, List.head?_cons, Option.map_some, hb]
      rfl
    have hsame : decode config (bs ++ more) = decode config bs := by
      rw [hmore (.stopped hb), hdecode, herrors]
    have hall : (decode config (bs ++ more)).instrs = present := by
      rw [hsame, hdecode, hlast]
    refine ⟨?_, fun _ => hsame, fun hne => ?_⟩
    · exact hall.symm ▸ List.prefix_refl present
    · refine absurd rfl (hne ⟨1 + raw.length, .stop⟩ ?_)
      rw [hlast]
      exact List.mem_append_right _ List.mem_cons_self
  · have hfront : present = locate 1 is := by
      rw [hpresent, hend]
      exact List.append_nil _
    have hdrop : bs.drop (1 + raw.length) = rest := by
      rw [Nat.add_comm]
      exact List.drop_left
    have hread := hmore (reads_decodeFrom (1 + raw.length) (rest ++ more))
    rw [← hfront] at hread
    refine ⟨?_, ?_, fun _ => ⟨1 + raw.length, ?_, ?_⟩⟩
    · rw [hread]
      exact List.prefix_append _ _
    · rintro ⟨l, hl, hstop⟩
      rw [hfront] at hl
      exact absurd hstop (hlays.ne_stop_of_mem hl)
    · rw [hdecode, hfront]
    · rw [hdrop, hread]

/-- A conditional of which two bytes are missing is read once they are there, and what is behind an `END`
is not. -/
theorem decode_append_to_conditional :
    let draw : Located := ⟨1, .action (.draw ⟨0⟩)⟩
    let test : Located := ⟨3, .ifTest ⟨.eq, .imm ⟨1⟩, .imm ⟨2⟩⟩⟩
    let bs : Bytes := [0x01, 0x04, 0x00, 0x08, 0x00, 0x00, 0x01, 0x00, 0x02]
    let ended : Bytes := bs ++ [0x0A, 0x0D]
    presentInstrs {} bs = [draw] ∧ (decode {} bs).errors = [.truncated .ifTest 3 2] ∧
      decode {} ended =
        { header := some 0x01, instrs := [draw, test, ⟨9, .endIf⟩, ⟨10, .stop⟩], errors := [] } ∧
      (∃ l ∈ presentInstrs {} ended, l.instr = .stop) ∧
      decode {} (ended ++ [0x04]) = decode {} ended := by
  intro draw test bs ended
  have hpresent : presentInstrs {} bs = [draw] := by decide +kernel
  have hread : (decode {} bs).instrs = [draw, ⟨3, .stop⟩] := by decide +kernel
  have hstop : ∃ l ∈ presentInstrs {} ended, l.instr = .stop := by decide +kernel
  obtain ⟨-, -, hgoesOn⟩ := decode_append {} 0x01 bs.tail [0x0A, 0x0D]
  obtain ⟨last, hlast, hended⟩ := hgoesOn (by decide +kernel)
  obtain rfl : 3 = last := by
    have hinstrs := hread.symm.trans hlast
    rw [show presentInstrs {} (0x01 :: bs.tail) = [draw] from hpresent] at hinstrs
    simpa using hinstrs
  refine ⟨hpresent, by decide +kernel, hended.trans (by decide +kernel), hstop, ?_⟩
  exact (decode_append {} 0x01 ended.tail [0x04]).2.1 hstop

end AbilityScript
