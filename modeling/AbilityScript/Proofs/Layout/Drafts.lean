import AbilityScript.Proofs.Layout.Operations

/-!
# Line writers as drafts

Whatever is asked of a line writer, what it is depends on three things: the lines it has handed over, the
level, and what was added since the last line ended. The line it holds is the indentation with the
additions behind it; it counts as unfinished if anything was added, though it be empty; and the sink has
been offered each line in one piece. As long as the sink takes what it is offered, this holds after every
call, whether the call was carried out or not.

## Main definitions

* `Content.additions`: the parts of content in order.
* `Draft`, `Draft.writer`: what a line writer was asked for, and the writer after that.
* `Call.misuse?`, `Draft.perform`: which calls are refused as misuse, and what a call does to a draft.

## Main statements

* `Draft.perform_writer`: one call.
* `runCalls_writer`: calls one after another.
* `calls_follow_draft`: what a line writer is after calls, and what may be asked of it then.
-/

set_option autoImplicit false

namespace AbilityScript

section Additions

/-- The letters of an addition. -/
def Addition.letters : Addition → Text
  | .text t | .display t => t

/-- The bytes of an addition. -/
def Addition.bytes (a : Addition) : Bytes :=
  a.letters.utf8

/-- Whether an addition is refused because it breaks the line. What is displayed is not searched. -/
def Addition.breaksLine : Addition → Bool
  | .text t => t.contains '\n'
  | .display _ => false

/-- The additions in front of the first one that is refused. -/
def Addition.kept (as : List Addition) : List Addition :=
  as.takeWhile fun a => !a.breaksLine

mutual

/-- The parts of content in order, however they are put together. -/
def Content.additions : Content → List Addition
  | .single a => [a]
  | .tuple parts => Content.additionsAll parts

/-- The parts of contents in order. -/
def Content.additionsAll : List Content → List Addition
  | [] => []
  | c :: cs => Content.additions c ++ Content.additionsAll cs

end

end Additions

/-- What a line writer was asked for since it was made. -/
structure Draft where
  /-- What was handed over, in one piece each time. -/
  writes : List Bytes := []
  level : Nat := 0
  /-- What was added since the last line ended. -/
  added : List Addition := []

namespace Draft

/-- The line under way: its indentation and what was added to it. -/
def line (d : Draft) : Bytes :=
  margin d.level ++ d.added.flatMap Addition.bytes

/-- Whether anything was added to the line, be it empty. -/
def isPending (d : Draft) : Bool :=
  !d.added.isEmpty

/-- Adds to the line under way. -/
def add (as : List Addition) (d : Draft) : Draft :=
  { d with added := d.added ++ as }

/-- Hands over the line with a line break. -/
def nextLine (d : Draft) : Draft :=
  { d with writes := d.writes ++ [d.line ++ Text.utf8 ['\n']], added := [] }

/-- What is still handed over when the writer is given up: the line, if anything was added to it. -/
def unfinished (d : Draft) : List Bytes :=
  if d.isPending then [d.line] else []

/-- All that is handed over once the writer is given up. -/
def closed (d : Draft) : List Bytes :=
  d.writes ++ d.unfinished

/-- The line writer after what it was asked for, if it was made for a sink. -/
def writer {σ : Type} [Sink σ] (s : σ) (d : Draft) : LineWriter σ where
  sink := Sink.after d.writes s
  level := d.level
  pending := d.isPending
  line := d.line

end Draft

/-- Why a call is misuse, if it is. -/
def Call.misuse? (d : Draft) : Call → Option WriteError
  | .write c => if c.additions.any Addition.breaksLine then some .breakWithinLine else none
  | .nextLine => none
  | .indent | .startAt _ => if d.isPending then some .levelWithinLine else none
  | .dedent =>
    if d.isPending then some .levelWithinLine
    else if d.level = 0 then some .levelBelowMargin
    else none

namespace Draft

/-- What a call does that is carried out. -/
def carriedOut (d : Draft) : Call → Draft
  | .write c => d.add c.additions
  | .nextLine => d.nextLine
  | .indent => { d with level := d.level + 1 }
  | .dedent => { d with level := d.level - 1 }
  | .startAt level => { d with level }

/-- What a call does that is misuse. Content is added up to the part that is refused; the writer is given
up if its level should have been set; otherwise it stays as it is. -/
def misused (d : Draft) : Call → Remains Draft (List Bytes)
  | .write c => .kept (d.add (Addition.kept c.additions))
  | .startAt _ => .released d.closed
  | .nextLine | .indent | .dedent => .kept d

/-- The answer to a call and what it leaves behind. -/
def perform (c : Call) (d : Draft) : Answer × Remains Draft (List Bytes) :=
  match c.misuse? d with
  | some e => (.error e, d.misused c)
  | none => (.ok (), .kept (d.carriedOut c))

/-- What a call hands over. -/
def offers (d : Draft) : Call → List Bytes
  | .nextLine => [d.line ++ Text.utf8 ['\n']]
  | .startAt _ => d.unfinished
  | .write _ | .indent | .dedent => []

/-- What is left of the line writer if this is left of the draft. -/
def remains {σ : Type} [Sink σ] (s : σ) : Remains Draft (List Bytes) → Remains (LineWriter σ) σ
  | .kept d => .kept (d.writer s)
  | .released ws => .released (Sink.after ws s)

end Draft

section Adding

variable {σ : Type} [Sink σ] (s : σ)

/-- Adding nothing leaves the draft as it is. -/
@[simp] theorem Draft.add_nil (d : Draft) : d.add [] = d := by
  rw [add, List.append_nil]

/-- Additions in two parts are added one part after the other. -/
theorem Draft.add_append (as bs : List Addition) (d : Draft) : d.add (as ++ bs) = (d.add as).add bs := by
  rw [add, add, add, List.append_assoc]

/-- Anything added leaves a line under way. -/
theorem Draft.isPending_add (d : Draft) (a : Addition) (as : List Addition) :
    (d.add (a :: as)).isPending = true := by
  simp [isPending, add]

/-- An addition is refused with the writer as it was, or added. -/
theorem Addition.write_result (a : Addition) (d : Draft) :
    a.write.result (d.writer s) =
      if a.breaksLine then (.error .breakWithinLine, d.writer s) else (.ok (), (d.add [a]).writer s) := by
  have hadded : (d.add [a]).writer s =
      { d.writer s with pending := true, line := (d.writer s).line ++ a.bytes } := by
    have hline : (d.add [a]).line = d.line ++ a.bytes := by
      simp [Draft.line, Draft.add]
    unfold Draft.writer
    rw [hline, d.isPending_add]
    rfl
  rw [hadded]
  cases a with
  | text t => exact LineWriter.text_result t _
  | display t => rfl

/-- Additions in two parts are kept up to the first one that is refused in either part. -/
theorem Addition.kept_append (as bs : List Addition) :
    kept (as ++ bs) = if as.any Addition.breaksLine then kept as else as ++ kept bs := by
  induction as with
  | nil => rfl
  | cons a as ih =>
    unfold kept at ih ⊢
    rw [List.cons_append, List.takeWhile_cons, List.takeWhile_cons, List.any_cons]
    cases hbreaks : a.breaksLine with
    | true => rfl
    | false =>
      rw [Bool.not_false, if_pos rfl, if_pos rfl, Bool.false_or, ih]
      split <;> rfl

/-- All additions are kept if none is refused. -/
theorem Addition.kept_of_any_eq_false {as : List Addition} (h : as.any Addition.breaksLine = false) :
    kept as = as := by
  have happend := kept_append as []
  rwa [List.append_nil, h, if_neg Bool.false_ne_true, show kept [] = [] from rfl, List.append_nil]
    at happend

mutual

/-- Content is added up to the first part that is refused. -/
theorem Content.write_result : (c : Content) → (d : Draft) →
    c.write.result (d.writer s) =
      (if c.additions.any Addition.breaksLine then .error .breakWithinLine else .ok (),
        (d.add (Addition.kept c.additions)).writer s)
  | .single a, d => by
    rw [Content.write, Content.additions, Addition.write_result, List.any_cons, List.any_nil,
      Bool.or_false]
    cases hbreaks : a.breaksLine with
    | true => simp [Addition.kept, hbreaks]
    | false => simp [Addition.kept, hbreaks]
  | .tuple parts, d => Content.writeAll_result parts d

/-- Contents are added up to the first part that is refused. -/
theorem Content.writeAll_result : (cs : List Content) → (d : Draft) →
    (Content.writeAll cs).result (d.writer s) =
      (if (Content.additionsAll cs).any Addition.breaksLine then .error .breakWithinLine else .ok (),
        (d.add (Addition.kept (Content.additionsAll cs))).writer s)
  | [], d => by
    rw [Content.additionsAll, show Addition.kept [] = [] from rfl, d.add_nil]
    rfl
  | c :: cs, d => by
    have hc := Content.write_result c d
    rw [Content.writeAll, Content.additionsAll, List.any_append]
    cases hbreaks : c.additions.any Addition.breaksLine with
    | true =>
      rw [hbreaks, if_pos rfl] at hc
      rw [Writing.result_bind_of_error hc, Bool.true_or, if_pos rfl, Addition.kept_append, hbreaks,
        if_pos rfl]
    | false =>
      rw [hbreaks, if_neg Bool.false_ne_true, Addition.kept_of_any_eq_false hbreaks] at hc
      rw [Writing.result_bind_of_ok hc, Content.writeAll_result cs, Bool.false_or, Addition.kept_append,
        hbreaks, if_neg Bool.false_ne_true, Draft.add_append]

end

end Adding

section Calls

variable {σ : Type} [Sink σ] {s : σ} {d : Draft}

/-- A line is pending in the writer if it is in the draft. -/
theorem Draft.pending_writer (s : σ) (d : Draft) : (d.writer s).pending = d.isPending := rfl

/-- The level of the writer is that of the draft. -/
theorem Draft.level_writer (s : σ) (d : Draft) : (d.writer s).level = d.level := rfl

/-- The level can be set in the draft or in the writer, as long as no line is under way. -/
theorem Draft.writer_setLevel (h : d.isPending = false) (level : Nat) :
    (d.writer s).setLevel level = { d with level }.writer s := by
  have hadded : d.added = [] := by
    rwa [isPending, Bool.not_eq_false', List.isEmpty_iff] at h
  unfold LineWriter.setLevel writer line isPending
  simp only [hadded, List.flatMap_nil, List.append_nil, LineWriter.fitted_margin]

/-- A line that the sink takes is handed over by the writer as by the draft. -/
theorem Draft.nextLine_writer (h : Sink.Takes (d.offers .nextLine) (Sink.after d.writes s)) :
    LineWriter.nextLine.result (d.writer s) = (.ok (), d.nextLine.writer s) := by
  rw [LineWriter.nextLine_result_of_taken (w := d.writer s) (Sink.takes_singleton.1 h)]
  unfold nextLine writer line
  rw [Sink.after_append]
  simp only [List.flatMap_nil, List.append_nil]
  rfl

/-- Giving the writer up hands over what is unfinished. -/
theorem Draft.flush_writer (h : Sink.Takes d.unfinished (Sink.after d.writes s)) :
    (d.writer s).flush.1 = true ∧ (d.writer s).flush.2.sink = Sink.after d.closed s := by
  unfold closed
  rw [Sink.after_append]
  unfold unfinished at h ⊢
  cases hpending : d.isPending with
  | true =>
    rw [hpending] at h
    have htaken : (Sink.offer (d.writer s).line (d.writer s).sink).1 = true := Sink.takes_singleton.1 h
    rw [LineWriter.flush_of_taken hpending htaken]
    exact ⟨rfl, rfl⟩
  | false =>
    rw [LineWriter.flush_of_not_pending hpending]
    exact ⟨rfl, rfl⟩

/-- A writer that is finished hands over what is unfinished, if the sink takes it. -/
theorem Draft.finish_writer (h : Sink.Takes d.unfinished (Sink.after d.writes s)) :
    (d.writer s).finish = (true, Sink.after d.closed s) := by
  obtain ⟨htaken, hsink⟩ := Draft.flush_writer h
  unfold LineWriter.finish
  simp only [htaken, hsink, if_true]

/-- A call does to the line writer what it does to the draft, if the sink takes what it is offered. -/
theorem Draft.perform_writer {c : Call} (h : Sink.Takes (d.offers c) (Sink.after d.writes s)) :
    c.perform (d.writer s) = ((d.perform c).1, remains s (d.perform c).2) := by
  unfold Draft.perform
  cases c with
  | write c =>
    rw [Call.perform, Writing.keeping, Content.write_result, Call.misuse?]
    cases hbreaks : c.additions.any Addition.breaksLine with
    | true => rfl
    | false =>
      rw [Addition.kept_of_any_eq_false hbreaks]
      rfl
  | nextLine =>
    rw [Call.perform, Writing.keeping, Draft.nextLine_writer h]
    rfl
  | indent =>
    rw [Call.perform, Writing.keeping, LineWriter.indent_result, Call.misuse?,
      Draft.pending_writer]
    cases hpending : d.isPending with
    | true => rfl
    | false =>
      rw [Draft.writer_setLevel hpending]
      rfl
  | dedent =>
    rw [Call.perform, Writing.keeping, LineWriter.dedent_result, Call.misuse?,
      Draft.pending_writer, Draft.level_writer]
    cases hpending : d.isPending with
    | true => rfl
    | false =>
      rw [Draft.writer_setLevel hpending]
      by_cases hlevel : d.level = 0
      · rw [if_pos hlevel, if_pos hlevel]
        rfl
      · rw [if_neg hlevel, if_neg hlevel]
        rfl
  | startAt level =>
    rw [Call.perform, LineWriter.startAt, Call.misuse?, Draft.pending_writer]
    cases hpending : d.isPending with
    | true =>
      have hflush := (Draft.flush_writer h).2
      rw [if_pos rfl, if_pos rfl, LineWriter.abandon, hflush]
      rfl
    | false =>
      rw [Draft.writer_setLevel hpending]
      rfl

/-- Calls one after another do to the line writer what they do to the draft. -/
theorem runCalls_writer (hs : Sink.NeverRefuses s) (calls : List Call) (d : Draft) :
    runCalls Call.perform calls (d.writer s) =
      ((runCalls Draft.perform calls d).1, Draft.remains s (runCalls Draft.perform calls d).2) := by
  induction calls generalizing d with
  | nil => rfl
  | cons c calls ih =>
    rw [runCalls, runCalls, Draft.perform_writer (hs.after d.writes _)]
    obtain ⟨answer, left⟩ := d.perform c
    cases left with
    | kept d' => simp only [Draft.remains, ih]
    | released ws => rfl

/-- A call that is misuse leaves the writer alone, unless it adds several parts or gives the writer
up. -/
theorem Draft.misused_eq_self {c : Call} {e : WriteError} (h : c.misuse? d = some e)
    (hsingle : ∀ content, c = .write content → ∃ a, content = .single a)
    (hlevel : ∀ level, c ≠ .startAt level) : d.misused c = .kept d := by
  cases c with
  | nextLine | indent | dedent => rfl
  | startAt level => exact absurd rfl (hlevel level)
  | write content =>
    obtain ⟨a, rfl⟩ := hsingle content rfl
    unfold Call.misuse? Content.additions at h
    cases hbreaks : a.breaksLine with
    | false => simp [hbreaks] at h
    | true =>
      have hkept : Addition.kept [a] = [] := by simp [Addition.kept, hbreaks]
      rw [misused, Content.additions, hkept, d.add_nil]

/-- What a line writer has become after calls to it, if its sink takes everything it is offered: the line
is the indentation with all additions since the last line ended behind it; it is pending if there were
any; and the sink was offered every line in one piece, the unfinished one when the writer finishes. Calls
that are misuse are refused, and no others are. Of those, content is added up to the part that breaks the
line, so that a single part leaves the writer alone, as does a change of the level by one. -/
theorem calls_follow_draft (hs : Sink.NeverRefuses s) (calls : List Call) :
    let written := runCalls Call.perform calls ({ sink := s } : LineWriter σ)
    let drafted := runCalls Draft.perform calls {}
    written = (drafted.1, Draft.remains s drafted.2) ∧
      ∀ d, drafted.2 = .kept d →
        (d.writer s).line = margin d.level ++ d.added.flatMap Addition.bytes ∧
        ((d.writer s).pending = true ↔ d.added ≠ []) ∧
        (d.writer s).finish = (true, Sink.after d.closed s) ∧
        Sink.received (Sink.after d.closed s) = Sink.received s ++ d.closed.flatten ∧
        (∀ c : Call, (c.perform (d.writer s)).1 = match c.misuse? d with
          | some e => .error e
          | none => .ok ()) ∧
        (∀ (content : Content) (e : WriteError), (Call.write content).misuse? d = some e →
          ((Call.write content).perform (d.writer s)).2 =
            .kept ((d.add (Addition.kept content.additions)).writer s)) ∧
        ∀ (c : Call) (e : WriteError), c.misuse? d = some e →
          (∀ content, c = .write content → ∃ a, content = .single a) →
          (∀ level, c ≠ .startAt level) → (c.perform (d.writer s)).2 = .kept (d.writer s) := by
  intro written drafted
  have hempty : ({ sink := s } : LineWriter σ) = Draft.writer s {} := rfl
  have hperform : ∀ (d : Draft) (c : Call),
      c.perform (d.writer s) = ((d.perform c).1, Draft.remains s (d.perform c).2) :=
    fun d _ => Draft.perform_writer (hs.after d.writes _)
  refine ⟨?_, fun d _ => ⟨rfl, ?_, ?_, ?_, ?_, ?_, ?_⟩⟩
  · show runCalls Call.perform calls ({ sink := s } : LineWriter σ) = _
    rw [hempty, runCalls_writer hs]
  · show (!d.added.isEmpty) = true ↔ _
    simp
  · exact Draft.finish_writer (hs.after d.writes _)
  · exact Sink.received_after (hs _)
  · intro c
    rw [hperform, Draft.perform]
    cases c.misuse? d <;> rfl
  · intro content e hmisuse
    rw [hperform, Draft.perform, hmisuse]
    rfl
  · intro c e hmisuse hsingle hlevel
    rw [hperform, Draft.perform, hmisuse]
    simp only [Draft.misused_eq_self hmisuse hsingle hlevel]
    rfl

/-- A tuple whose second part breaks the line, calls that are misuse, a line break that is displayed, and
an empty addition at the end. -/
theorem calls_follow_draft_broken_tuple :
    let calls : List Call := [.dedent, .indent,
      .write (.tuple [.single (.display "A\nB".toList),
        .tuple [.single (.text "c\n".toList), .single (.text "d".toList)]]),
      .indent, .nextLine, .write (.single (.text []))]
    let written := runCalls Call.perform calls ({ sink := {} } : LineWriter Store)
    Sink.NeverRefuses ({} : Store) ∧
      written.1 = [.error .levelBelowMargin, .ok (), .error .breakWithinLine, .error .levelWithinLine,
        .ok (), .ok ()] ∧
      ∃ w, written.2 = .kept w ∧ w.pending = true ∧ w.finish.1 = true ∧
        w.finish.2.contents = Text.utf8 "    A\nB\n    ".toList := by
  intro calls written
  have hs : Sink.NeverRefuses ({} : Store) := Sink.neverRefuses_store rfl
  obtain ⟨hwritten, hkept⟩ := calls_follow_draft hs calls
  let d : Draft := {
    writes := [Text.utf8 "    A\nB\n".toList]
    level := 1
    added := [.text []] }
  have hdrafted : runCalls Draft.perform calls {} = ([.error .levelBelowMargin, .ok (),
      .error .breakWithinLine, .error .levelWithinLine, .ok (), .ok ()], .kept d) := rfl
  obtain ⟨-, hpending, hfinish, hreceived, -⟩ := hkept d (by rw [hdrafted])
  rw [hdrafted] at hwritten
  refine ⟨hs, congrArg Prod.fst hwritten, d.writer {}, congrArg Prod.snd hwritten, ?_, ?_, ?_⟩
  · exact hpending.2 (by decide)
  · rw [hfinish]
  · rw [hfinish]
    exact hreceived

end Calls

end AbilityScript
