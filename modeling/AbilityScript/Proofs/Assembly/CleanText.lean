import AbilityScript.Assembly.Basic
import AbilityScript.Reading

/-!
# Texts without bad lines

If every line of a text assembles, the bytecode is that of the instructions in order, and what the
self-check says of it is what reading it as mnemonic text says.

## Main statements

* `assemble_of_map_assembleLine`: what comes of assembling a text without bad lines.
-/

set_option autoImplicit false

namespace AbilityScript

variable {ls : List Line} {is : List Instruction}

/-- Lines that assemble to instructions one for one leave those instructions. -/
theorem map_instr_goodLines (h : ls.map assembleLine = is.map .ok) :
    (goodLines ls).map AssembledLine.instr = is := by
  induction ls generalizing is with
  | nil =>
    obtain rfl := List.map_eq_nil_iff.1 h.symm
    rfl
  | cons l ls ih =>
    obtain ⟨i, is, rfl, hi, h⟩ := List.map_eq_cons_iff.1 h.symm
    have hgood : goodLines (l :: ls) = ⟨l.span, i⟩ :: goodLines ls := by
      simp [goodLines, ← hi, Except.toOption]
    rw [hgood, List.map_cons, ih h.symm]

/-- Lines that assemble to instructions one for one have no errors. -/
theorem filterMap_lineError? (h : ls.map assembleLine = is.map .ok) :
    ls.filterMap lineError? = [] := by
  rw [List.filterMap_eq_nil_iff]
  intro l hl
  have hmem : assembleLine l ∈ is.map .ok := by
    rw [← h]
    exact List.mem_map_of_mem hl
  obtain ⟨i, -, hi⟩ := List.mem_map.1 hmem
  rw [lineError?, ← hi]

/-- If no line is bad, every line is an instruction. -/
theorem map_assembleLine_of_filterMap_lineError? (h : ls.filterMap lineError? = []) :
    ls.map assembleLine = ((goodLines ls).map AssembledLine.instr).map .ok := by
  induction ls with
  | nil => rfl
  | cons l ls ih =>
    rw [List.filterMap_eq_nil_iff] at h ih
    have hl := h l List.mem_cons_self
    cases hi : assembleLine l with
    | error f => simp [lineError?, hi] at hl
    | ok i =>
      have hgood : goodLines (l :: ls) = ⟨l.span, i⟩ :: goodLines ls := by
        simp [goodLines, hi, Except.toOption]
      rw [hgood, List.map_cons, hi, ih fun l hl => h l (List.mem_cons_of_mem _ hl)]
      rfl

/-- The self-check reads the bytecode as mnemonic text. -/
theorem selfCheck_eq (version : UInt8) (bs : Bytes) :
    selfCheck version bs =
      ((disassemble { version } bs).decodeErrors.map .decode ++
        (disassemble { version } bs).parseErrors.map .parse,
        (disassemble { version } bs).lines) := rfl

/-- What comes of assembling a text without bad lines. -/
theorem assemble_of_map_assembleLine (version : UInt8) {source : Text}
    (h : (sourceLines source).map assembleLine = is.map .ok) :
    assemble version source =
      { bytecode := bytecode version is
        errors := []
        disassembly := (selfCheck version (bytecode version is)).2
        selfCheckErrors := (selfCheck version (bytecode version is)).1
        sourceMap := mapSource 1 (goodLines (sourceLines source)) } := by
  simp only [assemble, filterMap_lineError? h, map_instr_goodLines h]
  rfl

end AbilityScript
