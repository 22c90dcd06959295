import AbilityScript.Proofs.Assembly.LayoutInvariance
import AbilityScript.Proofs.Assembly.LineGrammar
import AbilityScript.Proofs.Source.WordGaps

/-!
# Words that touch

Operands are meant to be parted by blank space, but nothing looks for it. Two words are told apart without
any if the first one is an integer and the second one a name. In most lines that is of no consequence: a
number is the last operand of an action, so no name may follow it. In a conditional whose left side is a
constant, however, the kind of the right side comes next. There, and nowhere else, the blank space may be
missing in a line that assembles, and it makes no difference whether it does.

## Main definitions

* `Operand.NumbersLast`: no name follows a number.

## Main statements

* `Instruction.eq_ifTest_of_number_named`: where a name follows a number.
* `blank_between_words`: what there is between two words of a line that assembles.
* `touching_words_assemble`: two of them may touch.
-/

set_option autoImplicit false

namespace AbilityScript

namespace Operand

/-- Whether an operand is written as a number. -/
def isNumber : Operand → Bool
  | .named .. => false
  | .number .. => true

/-- No name follows a number. -/
def NumbersLast (os : List Operand) : Prop :=
  os.IsChain fun o o' => o.isNumber = true → o'.isNumber = true

/-- A name in front leaves the numbers last. -/
theorem NumbersLast.named_cons {o : Operand} {os : List Operand} (h : NumbersLast os)
    (ho : o.isNumber = false) : NumbersLast (o :: os) := by
  refine List.isChain_cons.2 ⟨fun o' _ hnumber => ?_, h⟩
  exact Bool.noConfusion (ho.symm.trans hnumber)

/-- A number in front of a name is not last. -/
theorem not_numbersLast {front back : List Operand} {n : Nat} {b b' : UInt8} {t : Text} :
    ¬NumbersLast (front ++ .number n b :: .named t b' :: back) := by
  intro h
  have hpair := (List.isChain_append_cons_cons.1 h).2.1 rfl
  exact Bool.noConfusion hpair

end Operand

section Instructions

open Operand (NumbersLast)

variable {i : Instruction} {front back : List Operand} {n : Nat} {b b' : UInt8} {t : Text}

/-- The numbers of an action come last. -/
theorem Action.numbersLast (a : Action) : NumbersLast a.operands := by
  cases a with
  | damage t n | heal t n => exact .named_cons (.singleton _) rfl
  | buffStat t s n | debuffStat t s n => exact .named_cons (.named_cons (.singleton _) rfl) rfl
  | draw n | discard n | createToken n | destroy t => exact .singleton _

/-- The numbers of a side come last. -/
theorem Side.numbersLast (s : Side) : NumbersLast s.operands := by
  cases s with
  | imm v => exact .named_cons (.singleton _) rfl
  | statOf t s => exact .named_cons (.named_cons (.singleton _) rfl) rfl

/-- What is written for a side begins with its kind. -/
theorem Side.exists_operands_eq (s : Side) :
    ∃ (k : SideKind) (os : List Operand), s.operands = .ofName k :: os := by
  cases s with
  | imm v => exact ⟨.imm, _, rfl⟩
  | statOf t s => exact ⟨.statOf, _, rfl⟩

/-- No integer goes on with the kind of a side. -/
theorem exists_name_sideKind (k : SideKind) : ∃ c cs, Labelled.name k = c :: cs ∧
    isHexDigit c = false ∧ isHexMark c = false := by
  cases k with
  | imm => exact ⟨'I', "MM".toList, by decide, by decide⟩
  | statOf => exact ⟨'S', "TAT_OF".toList, by decide, by decide⟩

/-- A name follows a number only in a conditional, behind the constant on its left side. -/
theorem Instruction.eq_ifTest_of_number_named
    (h : i.operands = front ++ .number n b :: .named t b' :: back) :
    front.length = 2 ∧ ∃ c v rhs, i = .ifTest ⟨c, .imm v, rhs⟩ := by
  have hnot {os : List Operand} {front : List Operand} (hos : NumbersLast os)
      (h : os = front ++ .number n b :: .named t b' :: back) : False := by
    rw [h] at hos
    exact Operand.not_numbersLast hos
  cases i with
  | action a => exact (hnot a.numbersLast h).elim
  | whenEvent e => exact (hnot (.singleton _) h).elim
  | elseMark | endIf | endWhen | stop => exact (hnot .nil h).elim
  | ifTest c =>
    obtain ⟨c, lhs, rhs⟩ := c
    cases lhs with
    | statOf target s =>
      have hlast : NumbersLast (Instruction.ifTest ⟨c, .statOf target s, rhs⟩).operands :=
        .named_cons (.named_cons (.named_cons (.named_cons rhs.numbersLast rfl) rfl) rfl) rfl
      exact (hnot hlast h).elim
    | imm v =>
      have hoperands : (Instruction.ifTest ⟨c, .imm v, rhs⟩).operands =
          .ofName c :: .ofName SideKind.imm :: .ofImmediate v :: rhs.operands := rfl
      rw [hoperands] at h
      match front, h with
      | [], h => cases h
      | [o], h => cases h
      | [o, o'], _ => exact ⟨rfl, c, v, rhs, rfl⟩
      | o :: o' :: o'' :: front, h =>
        have hrest := (List.cons.inj (List.cons.inj (List.cons.inj h).2).2).2
        exact (hnot rhs.numbersLast hrest).elim

end Instructions

section Lines

variable {source : Text} {l : Line} {i : Instruction} {u v w : Word} {vs ws : List Word}

/-- Two words that follow each other behind the mnemonic are written for two operands that do. -/
theorem Line.Spells.exists_operands (h : l.Spells i) (hwords : l.words = u :: vs ++ v :: w :: ws) :
    ∃ front o o' back, i.operands = front ++ o :: o' :: back ∧ front.length = vs.length ∧
      o.IsSpelled v.value ∧ o'.IsSpelled w.value := by
  have hspelled := h.2.2.2
  rw [(List.cons.inj hwords).2] at hspelled
  obtain ⟨front, rest, hoperands, hfront, hrest⟩ := Operand.exists_append_of_areSpelled hspelled
  obtain ⟨o, os, ho, hos, rfl⟩ := List.forall₂_cons_right_iff.1 hrest
  obtain ⟨o', back, ho', -, rfl⟩ := List.forall₂_cons_right_iff.1 hos
  exact ⟨front, o, o', back, hoperands, hfront.length_eq, ho, ho'⟩

/-- Where an integer is followed by a name, the line is a conditional with a constant on its left side. -/
theorem Line.Spells.eq_ifTest (h : l.Spells i) (hwords : l.words = vs ++ v :: w :: ws)
    (hv : v.value.kind = .integer) (hw : w.value.kind = .name) :
    vs.length = 3 ∧ ∃ c n rhs, i = .ifTest ⟨c, .imm n, rhs⟩ := by
  cases vs with
  | nil =>
    have hhead : l.head = v := (List.cons.inj hwords).1
    have hname := h.2.1
    rw [hhead, hv] at hname
    cases hname
  | cons u vs =>
    obtain ⟨front, o, o', back, hoperands, hlength, ho, ho'⟩ := h.exists_operands hwords
    cases o with
    | named t b => cases hv.symm.trans ho.1
    | number n b =>
      cases o' with
      | number m b' => cases hw.symm.trans ho'.1
      | named t b' =>
        obtain ⟨hfront, hi⟩ := Instruction.eq_ifTest_of_number_named hoperands
        exact ⟨by rw [List.length_cons, ← hlength, hfront], hi⟩

/-- What follows the constant on the left side of a conditional begins with neither a mark nor a
hexadecimal digit. -/
theorem Line.Spells.words_of_ifTest {c : Comparator} {n : Immediate} {rhs : Side}
    (h : l.Spells (.ifTest ⟨c, .imm n, rhs⟩)) (hwords : l.words = vs ++ v :: w :: ws)
    (hvs : vs.length = 3) : v.value.kind = .integer ∧
      ∀ x ∈ w.value.text.head?, isHexDigit x = false ∧ isHexMark x = false := by
  obtain ⟨u, vs, rfl⟩ : ∃ u vs', vs = u :: vs' := List.exists_cons_of_length_eq_add_one hvs
  obtain ⟨front, o, o', back, hoperands, hlength, ho, ho'⟩ := h.exists_operands hwords
  rw [List.length_cons] at hvs
  obtain ⟨cmp, kind, rfl⟩ : ∃ cmp kind, front = [cmp, kind] := List.length_eq_two.1 (by omega)
  have hbehind : Operand.ofImmediate n :: rhs.operands = o :: o' :: back :=
    (List.cons.inj (List.cons.inj hoperands).2).2
  obtain ⟨rfl, hrhs⟩ := List.cons.inj hbehind
  refine ⟨ho.1, ?_⟩
  obtain ⟨k, os, hside⟩ := rhs.exists_operands_eq
  obtain ⟨rfl, -⟩ := List.cons.inj (hside.symm.trans hrhs)
  obtain ⟨x, cs, hname, hc⟩ := exists_name_sideKind k
  intro y hy
  rw [ho'.2, hname] at hy
  obtain rfl := Option.some.inj hy
  exact hc

/-- Between two words of a line that assembles, there is nothing but blank space. There may be none only
where a conditional has a constant on its left side, between this constant and the word behind it. There
it makes no difference: without the blank space, the same lines become the same instructions, and the
others have the same faults. -/
theorem blank_between_words (hl : l ∈ sourceLines source) (hi : assembleLine l = .ok i)
    (hwords : l.words = vs ++ v :: w :: ws) : ∃ a gap b, source = a ++ gap ++ b ∧
      Text.width a = v.span.stop ∧ Text.width (a ++ gap) = w.span.start ∧ gap.all isBlank = true ∧
      (gap = [] → vs.length = 3 ∧ ∃ c n rhs, i = .ifTest ⟨c, .imm n, rhs⟩) ∧
      (vs.length = 3 → (∃ c n rhs, i = .ifTest ⟨c, .imm n, rhs⟩) →
        (sourceLines (a ++ b)).map Line.outcome = (sourceLines source).map Line.outcome) := by
  obtain ⟨front, p, mid, q, back, hv, hw, hmid⟩ := exists_wordAt_of_words_eq hl hwords
  have hspells := (assembleLine_eq_ok_iff (hasShape_of_mem_sourceLines hl)).1 hi
  have hcut := isCut_joinStray_pieces source
  rw [hv.pieces_eq] at hcut
  have hp := hv.kind_eq_name_or_integer (hspells.1 v (by rw [hwords]; simp))
  have hq := hw.kind_eq_name_or_integer (hspells.1 w (by rw [hwords]; simp))
  refine ⟨spelled (front ++ [p]), spelled mid, spelled (q :: back), ?_, ?_, ?_,
    hcut.right_of_append.tail.all_isBlank hmid hq, ?_, ?_⟩
  · rw [← spelled_joinStray_pieces source, hv.pieces_eq, ← spelled_append, ← spelled_append]
    simp
  · rw [spelled_concat, Text.width_append, hv.stop_eq]
  · rw [← spelled_append, hw.start_eq, List.append_assoc, List.singleton_append]
  · intro hgap
    have hshape : ∀ r ∈ mid, r.HasShape := fun r hr => hcut.hasShape r (by simp [hr])
    obtain rfl := eq_nil_of_spelled_eq_nil hshape hgap
    obtain ⟨hinteger, hname⟩ := hcut.right_of_append.kinds_of_touching hp hq
    apply hspells.eq_ifTest hwords
    · exact WordKind.pieceKind_injective (hv.kind_eq.symm.trans hinteger)
    · exact WordKind.pieceKind_injective (hw.kind_eq.symm.trans hname)
  · rintro hvs ⟨c, n, rhs, rfl⟩
    obtain ⟨hinteger, hhead⟩ := hspells.words_of_ifTest hwords hvs
    rw [hw.hasShape.1] at hhead
    exact map_outcome_congr (hv.map_content_sourceLines hmid hinteger hhead)

/-- Blank space behind the constant may be left out. -/
theorem blank_between_words_left_out :
    let source := "IF GT IMM 5 \t STAT_OF OPPONENT ATTACK".toList
    let i : Instruction := .ifTest ⟨.gt, .imm ⟨5⟩, .statOf .opponent .attack⟩
    ∃ l ∈ sourceLines source, ∃ vs v w ws, assembleLine l = .ok i ∧ l.words = vs ++ v :: w :: ws ∧
      ∃ a gap b, source = a ++ gap ++ b ∧ Text.width a = 11 ∧ Text.width (a ++ gap) = 14 ∧
        (sourceLines (a ++ b)).map Line.outcome = [(1, .ok i)] := by
  intro source i
  let l := (sourceLines source).head (by decide +kernel)
  have hl : l ∈ sourceLines source := List.head_mem _
  have hi : assembleLine l = .ok i := by decide +kernel
  let v : Word := ⟨⟨.integer, "5".toList⟩, ⟨10, 11, by decide⟩⟩
  let w : Word := ⟨⟨.name, "STAT_OF".toList⟩, ⟨14, 21, by decide⟩⟩
  have hwords : l.words = l.words.take 3 ++ v :: w :: l.words.drop 5 := by decide +kernel
  obtain ⟨a, gap, b, hsource, ha, hgap, -, -, hout⟩ := blank_between_words hl hi hwords
  refine ⟨l, hl, _, v, w, _, hi, hwords, a, gap, b, hsource, ha, hgap, ?_⟩
  rw [hout (by decide +kernel) ⟨.gt, ⟨5⟩, .statOf .opponent .attack, rfl⟩]
  decide +kernel

/-- A constant touches the word behind it in a line that assembles, in a text without any fault. -/
theorem touching_words_assemble :
    let source := "IF GT IMM 5STAT_OF OPPONENT ATTACK\nENDIF\nEND".toList
    ∃ l ∈ sourceLines source, ∃ vs v w ws, l.words = vs ++ v :: w :: ws ∧ v.span.stop = w.span.start ∧
      assembleLine l = .ok (.ifTest ⟨.gt, .imm ⟨5⟩, .statOf .opponent .attack⟩) ∧
      (assemble 1 source).isOk = true := by
  intro source
  let l := (sourceLines source).head (by decide +kernel)
  let v : Word := ⟨⟨.integer, "5".toList⟩, ⟨10, 11, by decide⟩⟩
  let w : Word := ⟨⟨.name, "STAT_OF".toList⟩, ⟨11, 18, by decide⟩⟩
  have hwords : l.words = l.words.take 3 ++ v :: w :: l.words.drop 5 := by decide +kernel
  exact ⟨l, List.head_mem _, _, v, w, _, hwords, rfl, by decide +kernel, by decide +kernel⟩

end Lines

end AbilityScript
