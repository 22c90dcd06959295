import AbilityScript.Proofs.Assembly.SourceMap
import AbilityScript.Proofs.Assembly.WordPlaces
import AbilityScript.Proofs.Source.LayoutEdits

/-!
# Layout has no influence on the bytecode

What becomes of a line, but for the place of its fault, depends on its number and its words. A change of
the layout leaves those as they are, line by line, and so it leaves the instructions and the faults, the
bytecode, and whatever is found out about that. Only places in the source text move.

## Main definitions

* `Line.outcome`: what becomes of a line.

## Main statements

* `assemble_of_layoutEdit`: assembling an edited text.
-/

set_option autoImplicit false

namespace AbilityScript

/-- The number of a line, and the instruction it becomes or what is wrong with it. -/
def Line.outcome (l : Line) : Nat × Except Fault Instruction :=
  (l.number, (assembleLine l).mapError Spanned.value)

/-- The number of a bad line, and what is wrong with it. -/
def badOutcome? (o : Nat × Except Fault Instruction) : Option (Nat × Fault) :=
  match o.2 with
  | .ok _ => none
  | .error f => some (o.1, f)

/-- An error without its place. -/
def AssemblyError.kind (e : AssemblyError) : Nat × Fault :=
  (e.line, e.fault)

section Outcomes

variable {l m : Line} {ls ms : List Line}

/-- What becomes of a line is a matter of its content. -/
theorem Line.outcome_congr (h : l.content = m.content) : l.outcome = m.outcome := by
  obtain ⟨hnumber, hlexemes⟩ := Prod.mk.inj h
  unfold Line.outcome
  rw [hnumber, assembleLine_congr hlexemes]

/-- What becomes of lines is a matter of their contents. -/
theorem map_outcome_congr (h : ls.map Line.content = ms.map Line.content) :
    ls.map Line.outcome = ms.map Line.outcome := by
  induction ls generalizing ms with
  | nil =>
    obtain rfl := List.map_eq_nil_iff.1 h.symm
    rfl
  | cons l ls ih =>
    obtain ⟨m, ms, rfl, hm, h⟩ := List.map_eq_cons_iff.1 h.symm
    rw [List.map_cons, List.map_cons, Line.outcome_congr hm, ih h.symm]

/-- The instructions of the good lines can be told from what becomes of the lines. -/
theorem map_instr_goodLines_eq (ls : List Line) :
    (goodLines ls).map AssembledLine.instr = (ls.map Line.outcome).filterMap fun o => o.2.toOption := by
  unfold goodLines
  rw [List.map_filterMap, List.filterMap_map]
  congr 1
  funext l
  rw [Function.comp_apply, Line.outcome]
  cases assembleLine l <;> rfl

/-- The errors without their places can be told from what becomes of the lines. -/
theorem map_kind_filterMap_lineError? (ls : List Line) :
    (ls.filterMap lineError?).map AssemblyError.kind = (ls.map Line.outcome).filterMap badOutcome? := by
  rw [List.map_filterMap, List.filterMap_map]
  congr 1
  funext l
  rw [Function.comp_apply, lineError?, badOutcome?, Line.outcome]
  cases assembleLine l <;> rfl

end Outcomes

section Texts

variable (version : UInt8) {t u : Text}

/-- Everything but places is the same for texts whose lines come to the same. -/
theorem assemble_congr (h : (sourceLines u).map Line.outcome = (sourceLines t).map Line.outcome) :
    let before := assemble version t
    let after := assemble version u
    after.bytecode = before.bytecode ∧ after.disassembly = before.disassembly ∧
      after.selfCheckErrors = before.selfCheckErrors ∧
      after.sourceMap.map Prod.fst = before.sourceMap.map Prod.fst ∧
      after.errors.map AssemblyError.kind = before.errors.map AssemblyError.kind := by
  have hinstrs : (goodLines (sourceLines u)).map AssembledLine.instr =
      (goodLines (sourceLines t)).map AssembledLine.instr := by
    rw [map_instr_goodLines_eq, map_instr_goodLines_eq, h]
  have herrors : ((sourceLines u).filterMap lineError?).map AssemblyError.kind =
      ((sourceLines t).filterMap lineError?).map AssemblyError.kind := by
    rw [map_kind_filterMap_lineError?, map_kind_filterMap_lineError?, h]
  have hempty : ((sourceLines u).filterMap lineError?).isEmpty =
      ((sourceLines t).filterMap lineError?).isEmpty := by
    rw [← List.isEmpty_map (f := AssemblyError.kind), herrors, List.isEmpty_map]
  have hpcs : (mapSource 1 (goodLines (sourceLines u))).map Prod.fst =
      (mapSource 1 (goodLines (sourceLines t))).map Prod.fst := by
    rw [map_fst_mapSource, map_fst_mapSource, hinstrs]
  intro before after
  have hcheck : (if after.errors.isEmpty then selfCheck version after.bytecode else ([], [])) =
      if before.errors.isEmpty then selfCheck version before.bytecode else ([], []) := by
    show (if ((sourceLines u).filterMap lineError?).isEmpty then selfCheck version
      (bytecode version ((goodLines (sourceLines u)).map AssembledLine.instr)) else ([], [])) = _
    rw [hinstrs, hempty]
    rfl
  exact ⟨congrArg (bytecode version) hinstrs, congrArg Prod.snd hcheck, congrArg Prod.fst hcheck, hpcs,
    herrors⟩

/-- Blank space between words, comments at the ends of lines, and how line breaks are spelled have no
influence on the bytecode, on what it is read back as and what is wrong with it, on the offsets of the
instructions, nor on which lines are bad and why. -/
theorem assemble_of_layoutEdit (h : LayoutEdit t u) :
    let before := assemble version t
    let after := assemble version u
    after.bytecode = before.bytecode ∧ after.disassembly = before.disassembly ∧
      after.selfCheckErrors = before.selfCheckErrors ∧
      after.sourceMap.map Prod.fst = before.sourceMap.map Prod.fst ∧
      after.errors.map (fun e => (e.line, e.fault)) =
        before.errors.map (fun e => (e.line, e.fault)) :=
  assemble_congr version (map_outcome_congr h.map_content_sourceLines)

/-- Blank space between a zero and a mark that no digit follows, in a line that ends in stray characters
and a carriage return of their own; and a comment in front of a line break of two characters. -/
theorem assemble_of_layoutEdit_zero_mark :
    let bad := "DRAW 0".toList ++ "xg é\r\r\nHEAL SELF 2".toList
    let spaced := "DRAW 0".toList ++ (" \t\x0c".toList ++ "xg é\r\r\nHEAL SELF 2".toList)
    let good := "DRAW 2".toList ++ "\r\nEND".toList
    let commented := "DRAW 2".toList ++ (';' :: "é\t;".toList ++ "\r\nEND".toList)
    LayoutEdit bad spaced ∧ LayoutEdit good commented ∧
      (assemble 1 spaced).errors.map (fun e => (e.line, e.fault)) =
        [(1, .badCharacter "é\r".toList)] ∧
      (assemble 1 commented).disassembly = ["DRAW 2".toList, "END".toList] := by
  intro bad spaced good commented
  have hspace : LayoutEdit bad spaced := by
    refine .blank (by decide) ⟨?_, by decide⟩
    decide +kernel
  have hcomment : LayoutEdit good commented :=
    .comment (by decide) (.inr (.inr ⟨"END".toList, rfl⟩))
  refine ⟨hspace, hcomment, ?_, ?_⟩
  · rw [(assemble_of_layoutEdit 1 hspace).2.2.2.2]
    decide +kernel
  · rw [(assemble_of_layoutEdit 1 hcomment).2.1]
    decide +kernel

end Texts

end AbilityScript
