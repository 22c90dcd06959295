import AbilityScript.Proofs.Assembly.SelfCheck
import AbilityScript.Proofs.RoundTrip.Bytes

/-!
# When bytecode is a legal ability

Instructions that are read from bytecode have one `END`, which is the last of them. If the block
structure is at fault, that `END` stands inside a block, and the recovery goes past it and finds no
program. So there is a program exactly if nothing is wrong with the block structure, though recovery in
general may yield a program and errors as well; and the stages of validation can be told apart by what
is there in the end.

## Main statements

* `program_isSome_iff_parseErrors`, `program_isSome_iff_lines`: when there is a program.
* `validate_cases`: validation in terms of what is read.
* `isValid_validate_iff`: the abilities that are legal.
-/

set_option autoImplicit false

namespace AbilityScript

variable {config : DecodeConfig} {bs : Bytes} {p : Program}

/-- The block structure of a program that is read from bytecode is not at fault. -/
theorem parseErrors_of_program (hp : (disassemble config bs).program = some p) :
    (disassemble config bs).parseErrors = [] := by
  have hparse : (parse (decode config bs).instrs).program = some p := hp
  have hread := readsOutermost_readOutermost (decode config bs).instrs
  have hclosed := hread.blockScan_eq.2
  rw [hread.parse_eq, Option.map_eq_some_iff] at hparse
  obtain ⟨pc, hpc, -⟩ := hparse
  rw [hpc, Option.map_eq_some_iff] at hclosed
  obtain ⟨⟨pc', after⟩, hending, -⟩ := hclosed
  rw [BlockScan.closed?_eq_some] at hending
  have hnone : (strayInstrs config bs).filter Located.isStop = [] := by
    rw [List.filter_eq_nil_iff]
    intro l hl hstop
    have hdelimiter := (spelledBy_placedInstrs hp).2 l hl
    rw [Located.isStop, beq_iff_eq] at hstop
    rw [hstop] at hdelimiter
    exact absurd hdelimiter (by decide)
  show (parse (decode config bs).instrs).errors = []
  rw [parse_errors_eq, BlockScan.errors, hending]
  rw [strayInstrs] at hnone
  rw [hnone]
  rfl

/-- There is a program exactly if nothing is wrong with the block structure. -/
theorem program_isSome_iff_parseErrors (config : DecodeConfig) (bs : Bytes) :
    (disassemble config bs).program.isSome ↔ (disassemble config bs).parseErrors = [] := by
  constructor
  · intro h
    obtain ⟨p, hp⟩ := Option.isSome_iff_exists.1 h
    exact parseErrors_of_program hp
  · intro h
    exact Option.isSome_iff_exists.2 (exists_program_of_parse_errors h)

/-- The lines of a program end with `END`. -/
theorem getLast?_lines_of_program (hp : (disassemble config bs).program = some p) :
    (disassemble config bs).lines.getLast? = some "END".toList := by
  rw [lines_of_program hp]
  exact p.getLast?_lines

/-- There is a program exactly if there are lines. -/
theorem program_isSome_iff_lines (config : DecodeConfig) (bs : Bytes) :
    (disassemble config bs).program.isSome ↔ (disassemble config bs).lines ≠ [] := by
  constructor
  · intro h hnil
    obtain ⟨p, hp⟩ := Option.isSome_iff_exists.1 h
    have hlast := getLast?_lines_of_program hp
    rw [hnil] at hlast
    cases hlast
  · intro h
    cases hp : (disassemble config bs).program with
    | some p => rfl
    | none =>
      refine absurd ?_ h
      show ((disassemble config bs).program.map Program.formatted).getD [] = []
      rw [hp]
      rfl

/-- Validation finds fault with the first of what is read that is missing or wrong. -/
theorem validate_eq (config : DecodeConfig) (bs : Bytes) :
    validate config bs =
      if (disassemble config bs).decodeErrors = [] then
        match (disassemble config bs).program with
        | some p => if p.check = [] then .valid p else .invalid .semantic
        | none => .invalid .parse
      else .invalid .decode := by
  have hok : (decode config bs).isOk ↔ (disassemble config bs).decodeErrors = [] := List.isEmpty_iff
  unfold validate
  dsimp only
  by_cases herrors : (disassemble config bs).decodeErrors = []
  · rw [if_pos (hok.2 herrors), if_pos herrors]
    cases hp : (disassemble config bs).program with
    | some p =>
      have hparse : parse (decode config bs).instrs = ⟨some p, []⟩ :=
        Parsed.mk.injEq .. ▸ ⟨hp, parseErrors_of_program hp⟩
      simp only [hparse, List.isEmpty_iff]
    | none =>
      have hparse : parse (decode config bs).instrs = ⟨none, (disassemble config bs).parseErrors⟩ :=
        Parsed.mk.injEq .. ▸ ⟨hp, rfl⟩
      simp only [hparse]
  · rw [if_neg (mt hok.1 herrors), if_neg herrors]

/-- Only legality is left to decide on if there is a program and nothing is wrong before. -/
theorem validate_of_program (herrors : (disassemble config bs).decodeErrors = [])
    (hp : (disassemble config bs).program = some p) :
    validate config bs = if p.check = [] then .valid p else .invalid .semantic := by
  rw [validate_eq, if_pos herrors, hp]

/-- There are four ways in which validation can go. -/
theorem validate_cases (config : DecodeConfig) (bs : Bytes) :
    ((disassemble config bs).decodeErrors ≠ [] ∧ validate config bs = .invalid .decode) ∨
    (disassemble config bs).decodeErrors = [] ∧
      ((disassemble config bs).program = none ∧ validate config bs = .invalid .parse ∨
        ∃ p, (disassemble config bs).program = some p ∧
          (p.check ≠ [] ∧ validate config bs = .invalid .semantic ∨
            p.check = [] ∧ validate config bs = .valid p)) := by
  rw [validate_eq]
  by_cases herrors : (disassemble config bs).decodeErrors = []
  · refine .inr ⟨herrors, ?_⟩
    rw [if_pos herrors]
    cases hp : (disassemble config bs).program with
    | none => exact .inl ⟨rfl, rfl⟩
    | some p =>
      refine .inr ⟨p, rfl, ?_⟩
      by_cases hlegal : p.check = []
      · exact .inr ⟨hlegal, if_pos hlegal⟩
      · exact .inl ⟨hlegal, if_neg hlegal⟩
  · exact .inl ⟨herrors, if_neg herrors⟩

/-- An ability is valid exactly if no stage finds fault with it. -/
theorem validate_eq_valid_iff : validate config bs = .valid p ↔
    (disassemble config bs).decodeErrors = [] ∧ (disassemble config bs).parseErrors = [] ∧
      (disassemble config bs).program = some p ∧ p.check = [] := by
  obtain ⟨herrors, hv⟩ | ⟨herrors, ⟨hp, hv⟩ | ⟨q, hp, ⟨hlegal, hv⟩ | ⟨hlegal, hv⟩⟩⟩ :=
    validate_cases config bs
  · simp [hv, herrors]
  · simp [hv, hp]
  · rw [hv, hp]
    refine iff_of_false (by simp) ?_
    rintro ⟨-, -, heq, hnone⟩
    obtain rfl : q = p := Option.some.inj heq
    exact hlegal hnone
  · rw [hv, hp]
    constructor
    · intro h
      obtain rfl : q = p := Validity.valid.inj h
      exact ⟨herrors, parseErrors_of_program hp, rfl, hlegal⟩
    · rintro ⟨-, -, heq, -⟩
      exact congrArg Validity.valid (Option.some.inj heq)

/-- An ability is invalid for its encoding exactly if decoding finds fault. -/
theorem validate_eq_invalid_decode_iff :
    validate config bs = .invalid .decode ↔ (disassemble config bs).decodeErrors ≠ [] := by
  obtain ⟨herrors, hv⟩ | ⟨herrors, ⟨hp, hv⟩ | ⟨p, hp, ⟨hlegal, hv⟩ | ⟨hlegal, hv⟩⟩⟩ :=
    validate_cases config bs <;> simp [hv, herrors]

/-- An ability is invalid for its block structure exactly if decoding finds no fault and there is no
program. -/
theorem validate_eq_invalid_parse_iff :
    validate config bs = .invalid .parse ↔
      (disassemble config bs).decodeErrors = [] ∧ (disassemble config bs).program = none := by
  obtain ⟨herrors, hv⟩ | ⟨herrors, ⟨hp, hv⟩ | ⟨p, hp, ⟨hlegal, hv⟩ | ⟨hlegal, hv⟩⟩⟩ :=
    validate_cases config bs
  · simp [hv, herrors]
  all_goals simp [hv, herrors, hp]

/-- An ability is invalid for its meaning exactly if decoding finds no fault and the check finds fault with
the program. -/
theorem validate_eq_invalid_semantic_iff :
    validate config bs = .invalid .semantic ↔
      (disassemble config bs).decodeErrors = [] ∧
        ∃ p, (disassemble config bs).program = some p ∧ p.check ≠ [] := by
  obtain ⟨herrors, hv⟩ | ⟨herrors, ⟨hp, hv⟩ | ⟨p, hp, ⟨hlegal, hv⟩ | ⟨hlegal, hv⟩⟩⟩ :=
    validate_cases config bs
  · simp [hv, herrors]
  · simp [hv, hp]
  all_goals simp [hv, herrors, hp, hlegal]

/-- An ability is legal if nothing at all is wrong with it. -/
theorem isValid_validate_iff (config : DecodeConfig) (bs : Bytes) :
    (validate config bs).isValid ↔
      ∃ p, (disassemble config bs).decodeErrors = [] ∧ (disassemble config bs).program = some p ∧
        p.check = [] := by
  constructor
  · intro h
    cases hvalidity : validate config bs with
    | invalid stage =>
      rw [hvalidity] at h
      cases h
    | valid p =>
      obtain ⟨herrors, -, hp, hlegal⟩ := validate_eq_valid_iff.1 hvalidity
      exact ⟨p, herrors, hp, hlegal⟩
  · rintro ⟨p, herrors, hp, hlegal⟩
    rw [validate_eq_valid_iff.2 ⟨herrors, parseErrors_of_program hp, hp, hlegal⟩]
    rfl

end AbilityScript
