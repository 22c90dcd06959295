import AbilityScript.Assembly.Basic
import AbilityScript.Proofs.Assembly.WordPlaces
import AbilityScript.Proofs.Bytecode.Offsets
import AbilityScript.Proofs.Source.LineBreaks

/-!
# Assembling one text after another

A line is assembled by its words alone: if it stands further on in a text, it becomes the same
instruction, or it has the same fault further on. Together with the fact that a text can be cut at a
line feed, this says how two texts are assembled that stand one after the other. The bytecode of the
second follows that of the first, and its errors and its source map are moved along. So a line that is
bad has no influence on any other.

## Main definitions

* `WordResult.shift`, `AssemblyError.shift`, `AssembledLine.shift`: what came of words that stand
  further on.

## Main statements

* `assembleLine_shift`: a line that stands further on.
* `assemble_append_break`: two texts with a line feed between them.
-/

set_option autoImplicit false

namespace AbilityScript

namespace Span

/-- What two moved ranges span is what they span, moved. -/
theorem merge_shift (d : Nat) (a b : Span) : (a.shift d).merge (b.shift d) = (a.merge b).shift d := by
  have hstart : min (a.start + d) (b.start + d) = min a.start b.start + d := by omega
  have hstop : max (a.stop + d) (b.stop + d) = max a.stop b.stop + d := by omega
  simp only [merge, shift, hstart, hstop]

end Span

/-- A moved line has its range moved. -/
theorem Line.span_shift (d k : Nat) (l : Line) : (l.shift d k).span = l.span.shift d :=
  Line.span_mapSpan (Span.merge_shift d) l

/-- What came of words that stand `d` bytes further on. -/
def WordResult.shift {α : Type} (d : Nat) (r : WordResult α) : WordResult α :=
  r.mapError (Spanned.shift d)

/-- A line that stands further on in a text becomes the same instruction, or it has the same fault
further on. -/
theorem assembleLine_shift (d k : Nat) (l : Line) :
    assembleLine (l.shift d k) = WordResult.shift d (assembleLine l) :=
  assembleLine_mapSpan (Span.merge_shift d) l

/-- An error that is `d` bytes and `k` lines further on. -/
def AssemblyError.shift (d k : Nat) (e : AssemblyError) : AssemblyError where
  line := e.line + k
  span := e.span.shift d
  fault := e.fault

/-- A line that became an instruction, `d` bytes further on. -/
def AssembledLine.shift (d : Nat) (l : AssembledLine) : AssembledLine where
  span := l.span.shift d
  instr := l.instr

section Lines

/-- The error of a moved line is that of the line, moved. -/
theorem lineError?_shift (d k : Nat) (l : Line) :
    lineError? (l.shift d k) = (lineError? l).map (AssemblyError.shift d k) := by
  unfold lineError?
  rw [assembleLine_shift]
  cases assembleLine l <;> rfl

/-- The errors of moved lines are those of the lines, moved. -/
theorem filterMap_lineError?_shift (d k : Nat) (ls : List Line) :
    (ls.map (Line.shift d k)).filterMap lineError? =
      (ls.filterMap lineError?).map (AssemblyError.shift d k) := by
  rw [List.filterMap_map, List.map_filterMap]
  congr 1
  funext l
  exact lineError?_shift d k l

/-- The good lines of two parts are those of the one and then those of the other. -/
theorem goodLines_append (ls ms : List Line) : goodLines (ls ++ ms) = goodLines ls ++ goodLines ms :=
  List.filterMap_append

/-- The good lines among moved lines are those of the lines, moved. -/
theorem goodLines_shift (d k : Nat) (ls : List Line) :
    goodLines (ls.map (Line.shift d k)) = (goodLines ls).map (AssembledLine.shift d) := by
  unfold goodLines
  rw [List.filterMap_map, List.map_filterMap]
  congr 1
  funext l
  rw [Function.comp_apply, assembleLine_shift, Line.span_shift]
  cases assembleLine l <;> rfl

/-- Moving lines leaves their instructions as they are. -/
theorem map_instr_shift (d : Nat) (ls : List AssembledLine) :
    (ls.map (AssembledLine.shift d)).map AssembledLine.instr = ls.map AssembledLine.instr :=
  List.map_map

/-- The offsets of more lines go on where those of the lines before them end. -/
theorem mapSource_append (pc : Nat) (ls ms : List AssembledLine) :
    mapSource pc (ls ++ ms) =
      mapSource pc ls ++ mapSource (pc + (code (ls.map AssembledLine.instr)).length) ms := by
  induction ls generalizing pc with
  | nil => rfl
  | cons l ls ih =>
    simp only [List.cons_append, mapSource, ih, List.map_cons, code_cons, List.length_append,
      length_encode, Nat.add_assoc]

/-- Lines that stand further on, behind more bytecode, have the same source map moved along. -/
theorem mapSource_shift (pc n d : Nat) (ls : List AssembledLine) :
    mapSource (pc + n) (ls.map (AssembledLine.shift d)) =
      (mapSource pc ls).map fun entry => (entry.1 + n, entry.2.shift d) := by
  induction ls generalizing pc with
  | nil => rfl
  | cons l ls ih =>
    have hpc : pc + n + l.instr.size = pc + l.instr.size + n := by omega
    simp only [List.map_cons, mapSource, AssembledLine.shift, hpc] at ih ⊢
    rw [ih]

end Lines

/-- Two texts with a line feed between them, of which the first does not end in a carriage return, are
assembled one after the other. The bytecode is that of the first with that of the second behind it,
without the header; the errors are those of the first and those of the second, as many lines and bytes
further on as the first text and the line feed take; and so it is with the source maps, where offsets
move by the bytes of the instructions of the first. -/
theorem assemble_append_break (version : UInt8) (t u : Text) (h : t.getLast? ≠ some '\r') :
    let first := assemble version t
    let second := assemble version u
    let both := assemble version (t ++ '\n' :: u)
    both.bytecode = first.bytecode ++ second.bytecode.tail ∧
    both.errors = first.errors ++
      second.errors.map (AssemblyError.shift (Text.width t + 1) (1 + t.count '\n')) ∧
    both.sourceMap = first.sourceMap ++ second.sourceMap.map fun entry =>
      (entry.1 + (first.bytecode.length - 1), entry.2.shift (Text.width t + 1)) := by
  intro first second both
  have hlines := sourceLines_append_break h u
  rw [Nat.add_comm (t.count '\n')] at hlines
  have hgood : goodLines (sourceLines (t ++ '\n' :: u)) = goodLines (sourceLines t) ++
      (goodLines (sourceLines u)).map (AssembledLine.shift (Text.width t + 1)) := by
    rw [hlines, goodLines_append, goodLines_shift]
  have hlength : first.bytecode.length - 1 =
      (code ((goodLines (sourceLines t)).map AssembledLine.instr)).length := by
    show (bytecode version _).length - 1 = _
    rw [bytecode_eq, List.length_cons, Nat.add_sub_cancel]
  refine ⟨?_, ?_, ?_⟩
  · show bytecode version ((goodLines (sourceLines (t ++ '\n' :: u))).map AssembledLine.instr) = _
    rw [hgood, List.map_append, map_instr_shift, bytecode_eq, code_append]
    rfl
  · show (sourceLines (t ++ '\n' :: u)).filterMap lineError? = _
    rw [hlines, List.filterMap_append, filterMap_lineError?_shift]
    rfl
  · show mapSource 1 (goodLines (sourceLines (t ++ '\n' :: u))) = _
    rw [hgood, mapSource_append, mapSource_shift, ← hlength]
    rfl

/-- A comment that the line feed cuts off, stray characters of several bytes, and a word that is
misspelled in the second text. -/
theorem assemble_append_break_stray_characters :
    let t := "DRAW 1\n$é HEAL ; IF".toList
    let u := "ENDIF\nHEAL ME 2\nEND".toList
    let both := assemble 1 (t ++ '\n' :: u)
    t.getLast? ≠ some '\r' ∧
      both.bytecode = [1, 4, 0, 10, 13] ∧
      both.errors.map (fun e => (e.line, e.span.start, e.span.stop)) = [(2, 7, 10), (4, 32, 34)] ∧
      both.sourceMap.map (fun entry => (entry.1, entry.2.start, entry.2.stop)) =
        [(1, 0, 6), (3, 21, 26), (4, 37, 40)] := by
  intro t u both
  obtain ⟨hbytes, herrors, hmap⟩ := assemble_append_break 1 t u (by decide)
  refine ⟨by decide, ?_, ?_, ?_⟩
  · rw [hbytes]
    decide +kernel
  · rw [herrors]
    decide +kernel
  · rw [hmap]
    decide +kernel

end AbilityScript
