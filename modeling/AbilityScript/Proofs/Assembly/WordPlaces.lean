import AbilityScript.Assembly.Line
import AbilityScript.Proofs.Source.PrintedWords

/-!
# Words wherever they stand

Which instruction words are, or what is wrong with them, is read off their letters. Their places only
say where the fault is. So if all places are mapped in the same way, whatever came of the words stays
the same, with its place mapped along.

## Main definitions

* `Spanned.mapSpan`, `Line.mapSpan`, `WordResult.mapSpan`: words and what came of them, with other
  places.

## Main statements

* `assembleLine_mapSpan`: a line with other places.
* `assembleLine_congr`: lines of the same words.
-/

set_option autoImplicit false

namespace AbilityScript

/-- The same value at another place. -/
def Spanned.mapSpan {α : Type} (f : Span → Span) (a : Spanned α) : Spanned α :=
  ⟨a.value, f a.span⟩

/-- A value at another place is the same value. -/
@[simp] theorem Spanned.value_mapSpan {α : Type} (f : Span → Span) (a : Spanned α) :
    (a.mapSpan f).value = a.value := rfl

/-- The same words at other places. -/
def Line.mapSpan (f : Span → Span) (l : Line) : Line where
  number := l.number
  head := l.head.mapSpan f
  tail := l.tail.map (Spanned.mapSpan f)

/-- What came of the same words at other places. -/
def WordResult.mapSpan {α : Type} (f : Span → Span) (r : WordResult α) : WordResult α :=
  r.mapError (Spanned.mapSpan f)

/-- The words of a line at other places are its words, each at another place. -/
theorem Line.words_mapSpan (f : Span → Span) (l : Line) :
    (l.mapSpan f).words = l.words.map (Spanned.mapSpan f) := rfl

/-- The words of a side at other places. -/
def SideWords.mapSpan (f : Span → Span) : SideWords → SideWords
  | .imm kind value => .imm (kind.mapSpan f) (value.mapSpan f)
  | .statOf target stat => .statOf (target.mapSpan f) (stat.mapSpan f)

variable (f : Span → Span)

namespace WordResult

variable {α β : Type}

/-- What was read does not change with the place. -/
@[simp] theorem mapSpan_ok (a : α) : mapSpan f (.ok a : WordResult α) = .ok a := rfl

/-- What is there without reading does not change with the place. -/
@[simp] theorem mapSpan_pure (a : α) : mapSpan f (pure a : WordResult α) = pure a := rfl

/-- Places can be changed before or after results are put together. -/
@[simp] theorem mapSpan_bind (r : WordResult α) (g : α → WordResult β) :
    mapSpan f (r >>= g) = mapSpan f r >>= fun a => mapSpan f (g a) := by
  cases r <;> rfl

/-- Places can be changed before or after a result is turned into another. -/
@[simp] theorem mapSpan_map (g : α → β) (r : WordResult α) :
    mapSpan f (g <$> r) = g <$> mapSpan f r := by
  cases r <;> rfl

end WordResult

section Operands

/-- A name at another place is read as the name, with the fault at the other place. -/
@[simp] theorem readName_mapSpan {α : Type} [Labelled α] (role : Role) (w : Word) :
    (readName role (w.mapSpan f) : WordResult α) = WordResult.mapSpan f (readName role w) := by
  unfold readName
  rw [Spanned.value_mapSpan]
  split <;> rfl

/-- An integer at another place is read as the integer, with the fault at the other place. -/
@[simp] theorem readInteger_mapSpan {α : Type} (role : Role) (least greatest : Nat)
    (ofValue? : Nat → Option α) (w : Word) :
    readInteger role least greatest ofValue? (w.mapSpan f) =
      WordResult.mapSpan f (readInteger role least greatest ofValue? w) := by
  unfold readInteger
  rw [Spanned.value_mapSpan]
  split <;> rfl

/-- Whether a word announces a stat does not depend on its place. -/
@[simp] theorem isStatOf_mapSpan (w : Word) : isStatOf (w.mapSpan f) = isStatOf w := rfl

/-- A side at other places is read as the side, with the fault at its other place. -/
@[simp] theorem SideWords.read_mapSpan (s : SideWords) :
    (s.mapSpan f).read = WordResult.mapSpan f s.read := by
  cases s <;> simp [SideWords.read, SideWords.mapSpan, readImmediate, readTarget, readStat]

/-- The words that are taken for a side do not depend on where they stand. -/
theorem SideWords.take?_mapSpan (ws : List Word) :
    take? (ws.map (Spanned.mapSpan f)) =
      (take? ws).map fun s => (s.1.mapSpan f, s.2.map (Spanned.mapSpan f)) := by
  match ws with
  | [] => rfl
  | [_] => rfl
  | [k, v] =>
    by_cases hk : isStatOf k = true <;> simp [take?, hk, mapSpan]
  | k :: v :: s :: rest =>
    by_cases hk : isStatOf k = true <;> simp [take?, hk, mapSpan]

/-- Operand words are read as the same operands wherever they stand. -/
theorem readOperandWords?_mapSpan (op : Opcode) (ws : List Word) :
    readOperandWords? op (ws.map (Spanned.mapSpan f)) =
      (readOperandWords? op ws).map (WordResult.mapSpan f) := by
  cases op with
  | ifTest =>
    cases ws with
    | nil => rfl
    | cons c ws =>
      simp only [List.map_cons, readOperandWords?, SideWords.take?_mapSpan]
      cases SideWords.take? ws with
      | none => rfl
      | some lhs =>
        simp only [Option.map_some, SideWords.take?_mapSpan]
        match SideWords.take? lhs.2 with
        | none => rfl
        | some (rhs, []) => simp
        | some (rhs, _ :: _) => rfl
  | damage | heal | buffStat | debuffStat | draw | discard | createToken | destroy | elseMark | endIf
    | whenEvent | endWhen | stop =>
    match ws with
    | [] => rfl
    | [_] => simp [readOperandWords?, readTarget, readAmount]
    | [_, _] => simp [readOperandWords?, readTarget, readAmount]
    | [_, _, _] => simp [readOperandWords?, readTarget, readStat, readAmount]
    | _ :: _ :: _ :: _ :: _ => rfl

/-- How many words a side has does not depend on where they stand. -/
theorem sideCount_mapSpan (kind : Option Word) :
    sideCount (kind.map (Spanned.mapSpan f)) = sideCount kind := by
  cases kind <;> rfl

/-- How many words an instruction has does not depend on where they stand. -/
theorem operandCount_mapSpan (op : Opcode) (ws : List Word) :
    operandCount op (ws.map (Spanned.mapSpan f)) = operandCount op ws := by
  simp only [operandCount, List.getElem?_map, sideCount_mapSpan]

end Operands

section Lines

variable {f} (hf : ∀ a b : Span, (f a).merge (f b) = f (a.merge b))

include hf in

/-- A line whose words are at other places is at another place itself. -/
theorem Line.span_mapSpan (l : Line) : (l.mapSpan f).span = f l.span := by
  have hlast : ((l.tail.map (Spanned.mapSpan f)).getLast?.getD (l.head.mapSpan f)).span =
      f ((l.tail.getLast?.getD l.head).span) := by
    rw [List.getLast?_map]
    cases l.tail.getLast? <;> rfl
  unfold span mapSpan
  rw [hlast]
  exact hf ..

include hf in
/-- A line becomes the same instruction wherever its words stand, or it has the same fault at the place
that is mapped along. -/
theorem assembleLine_mapSpan (l : Line) :
    assembleLine (l.mapSpan f) = WordResult.mapSpan f (assembleLine l) := by
  have hstray : (l.words.map (Spanned.mapSpan f)).find? (fun w => w.value.kind = .stray) =
      (l.words.find? fun w => w.value.kind = .stray).map (Spanned.mapSpan f) :=
    List.find?_map ..
  have hhead : (l.mapSpan f).head = l.head.mapSpan f := rfl
  have htail : (l.mapSpan f).tail = l.tail.map (Spanned.mapSpan f) := rfl
  unfold assembleLine
  rw [Line.words_mapSpan, hstray, hhead, htail, Line.span_mapSpan hf, Spanned.value_mapSpan]
  cases l.words.find? fun w => w.value.kind = .stray with
  | some w => rfl
  | none =>
    cases Opcode.ofMnemonic? l.head.value.text with
    | none => rfl
    | some op =>
      simp only [Option.map_none, readOperandWords?_mapSpan, operandCount_mapSpan, List.length_map]
      cases readOperandWords? op l.tail <;> rfl

omit hf

/-- Lines of the same words become the same instruction or have the same fault. -/
theorem assembleLine_congr {l m : Line} (h : l.lexemes = m.lexemes) :
    (assembleLine l).mapError Spanned.value = (assembleLine m).mapError Spanned.value := by
  -- all words are put at one place
  let here : Span → Span := fun _ => ⟨0, 0, Nat.le_refl 0⟩
  have hwords : (l.mapSpan here).words = (m.mapSpan here).words := by
    have hplaced : ∀ k : Line,
        (k.mapSpan here).words = k.lexemes.map fun w => ⟨w, 0, 0, Nat.le_refl 0⟩ := by
      intro k
      rw [Line.lexemes, List.map_map]
      rfl
    rw [hplaced, hplaced, h]
  have hsame : assembleLine (l.mapSpan here) = assembleLine (m.mapSpan here) := by
    obtain ⟨hhead, htail⟩ := List.cons.inj hwords
    unfold assembleLine Line.span
    rw [hwords, hhead, htail]
  have hvalue : ∀ k : Line, (assembleLine k).mapError Spanned.value =
      (assembleLine (k.mapSpan here)).mapError Spanned.value := by
    intro k
    have hmerge : ∀ a b : Span, (here a).merge (here b) = here (a.merge b) := fun _ _ => rfl
    rw [assembleLine_mapSpan hmerge]
    cases assembleLine k <;> rfl
  rw [hvalue l, hvalue m, hsame]

end Lines

end AbilityScript
