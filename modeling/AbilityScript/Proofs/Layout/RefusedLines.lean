import AbilityScript.Proofs.Layout.Drafts
import AbilityScript.Proofs.Source.Slices

/-!
# Lines that a sink refuses

Ending a line marks it as done before it is offered. If the sink takes every line that ends, the writer
is what was asked for, whatever the sink does, and so a writer that finishes with success has handed over
every addition once. But a line that is refused when it ends is not finished: a writer that finishes then
does so with success and hands over nothing. And every attempt to end it leaves a line break behind, all
of which are handed over with the line if a later attempt succeeds.

## Main statements

* `runCalls_writer_of_answers`: calls of which none is answered by a refusal.
* `runCalls_refused`: a line that is refused again and again.
* `received_after_calls`: what the sink has received in both cases.
-/

set_option autoImplicit false

namespace AbilityScript

section Answers

variable {σ : Type} [Sink σ] {s : σ} {d : Draft} {c : Call} {calls : List Call}

/-- A call hands over what it offers, if it does not give the writer up. -/
theorem Draft.exists_perform_eq (hlevel : ∀ level, c ≠ .startAt level) :
    ∃ d', (d.perform c).2 = .kept d' ∧ d'.writes = d.writes ++ d.offers c := by
  unfold perform
  split
  case h_1 e hmisuse =>
    cases c with
    | nextLine => cases hmisuse
    | write content | indent | dedent => exact ⟨_, rfl, (List.append_nil _).symm⟩
    | startAt level => exact absurd rfl (hlevel level)
  case h_2 =>
    cases c with
    | nextLine => exact ⟨_, rfl, rfl⟩
    | write content | indent | dedent => exact ⟨_, rfl, (List.append_nil _).symm⟩
    | startAt level => exact absurd rfl (hlevel level)

/-- If a call is not answered by a refusal, nothing was refused. -/
theorem Draft.takes_offers_of_answer (hlevel : ∀ level, c ≠ .startAt level)
    (h : (c.perform (d.writer s)).1 ≠ .error .refused) :
    Sink.Takes (d.offers c) (Sink.after d.writes s) := by
  cases c with
  | write content | indent | dedent => trivial
  | startAt level => exact absurd rfl (hlevel level)
  | nextLine =>
    rw [Draft.offers, Sink.takes_singleton]
    cases htaken : (Sink.offer (d.line ++ Text.utf8 ['\n']) (Sink.after d.writes s)).1 with
    | true => rfl
    | false =>
      have hrefused := LineWriter.nextLine_result_of_refused (w := d.writer s) htaken
      refine absurd ?_ h
      rw [Call.perform, Writing.keeping, hrefused]

/-- Calls none of which is answered by a refusal do to the line writer what they do to the draft. -/
theorem runCalls_writer_of_answers (hlevel : ∀ c ∈ calls, ∀ level, c ≠ .startAt level)
    (hd : Sink.Takes d.writes s)
    (h : .error .refused ∉ (runCalls Call.perform calls (d.writer s)).1) :
    ∃ answers d', runCalls Draft.perform calls d = (answers, .kept d') ∧
      runCalls Call.perform calls (d.writer s) = (answers, .kept (d'.writer s)) ∧
      Sink.Takes d'.writes s := by
  induction calls generalizing d with
  | nil => exact ⟨[], d, rfl, rfl, hd⟩
  | cons c calls ih =>
    have hc := hlevel c List.mem_cons_self
    obtain ⟨d', hkept, hwrites⟩ := Draft.exists_perform_eq (d := d) hc
    have htakes : Sink.Takes (d.offers c) (Sink.after d.writes s) := by
      obtain ⟨answers, hanswers⟩ := exists_answers_eq_cons Call.perform c (d.writer s) calls
      refine Draft.takes_offers_of_answer hc fun hrefused => h ?_
      rw [hanswers, hrefused]
      exact List.mem_cons_self
    have hperform := Draft.perform_writer htakes
    rw [hkept] at hperform
    have hdrafted : d.perform c = ((d.perform c).1, .kept d') := Prod.ext rfl hkept
    have hd' : Sink.Takes d'.writes s := by
      rw [hwrites]
      exact Sink.takes_append.2 ⟨hd, htakes⟩
    rw [runCalls_cons_of_kept hperform] at h ⊢
    rw [runCalls_cons_of_kept hdrafted]
    obtain ⟨answers, last, hanswers, hlast, htaken⟩ :=
      ih (fun c hc => hlevel c (List.mem_cons_of_mem _ hc)) hd'
        (fun hmem => h (List.mem_cons_of_mem _ hmem))
    rw [hanswers, hlast]
    exact ⟨_, last, rfl, rfl, htaken⟩

/-- A writer that finishes with success has handed over what was added to the unfinished line. -/
theorem Draft.received_finish (hd : Sink.Takes d.writes s) (h : (d.writer s).finish.1 = true) :
    Sink.received (d.writer s).finish.2 = Sink.received s ++ d.closed.flatten := by
  have htakes : Sink.Takes d.unfinished (Sink.after d.writes s) := by
    unfold unfinished
    split
    case isFalse => trivial
    case isTrue hpending =>
      have hflush : (d.writer s).flush.1 = true := h
      unfold LineWriter.flush at hflush
      rw [Draft.pending_writer, hpending, if_pos rfl] at hflush
      exact Sink.takes_singleton.2 hflush
  rw [Draft.finish_writer htakes]
  exact Sink.received_after (Sink.takes_append.2 ⟨hd, htakes⟩)

end Answers

section Refusals

variable {σ : Type} [Sink σ] {w w' : LineWriter σ}

/-- Only setting the level may give the writer up. -/
theorem exists_runCalls_kept {calls : List Call} (hlevel : ∀ c ∈ calls, ∀ level, c ≠ .startAt level)
    (w : LineWriter σ) : ∃ answers w', runCalls Call.perform calls w = (answers, .kept w') := by
  induction calls generalizing w with
  | nil => exact ⟨[], w, rfl⟩
  | cons c calls ih =>
    have hkept : ∃ answer w', c.perform w = (answer, .kept w') := by
      cases c with
      | write content | nextLine | indent | dedent => exact ⟨_, _, rfl⟩
      | startAt level => exact absurd rfl (hlevel _ List.mem_cons_self level)
    obtain ⟨answer, w', hperform⟩ := hkept
    obtain ⟨answers, last, hlast⟩ := ih (fun c hc => hlevel c (List.mem_cons_of_mem _ hc)) w'
    rw [runCalls_cons_of_kept hperform, hlast]
    exact ⟨_, last, rfl⟩

/-- An attempt to end a line that is answered by a refusal was refused by the sink. -/
theorem perform_nextLine_of_refused (h : (Call.nextLine.perform w).1 = .error .refused) :
    Call.nextLine.perform w = (.error .refused, .kept { w with
      sink := (Sink.offer (w.line ++ Text.utf8 ['\n']) w.sink).2
      pending := false
      line := w.line ++ Text.utf8 ['\n'] }) ∧
    Sink.received (Sink.offer (w.line ++ Text.utf8 ['\n']) w.sink).2 = Sink.received w.sink := by
  cases htaken : (Sink.offer (w.line ++ Text.utf8 ['\n']) w.sink).1 with
  | true =>
    rw [Call.perform, Writing.keeping, LineWriter.nextLine_result_of_taken htaken] at h
    cases h
  | false =>
    rw [Call.perform, Writing.keeping, LineWriter.nextLine_result_of_refused htaken]
    exact ⟨rfl, Sink.received_offer_of_refused htaken⟩

/-- A line that is refused again and again collects line breaks, and none of it is handed over. -/
theorem runCalls_refused (k : Nat)
    (h : runCalls Call.perform (List.replicate k .nextLine) w =
      (List.replicate k (.error .refused), .kept w')) :
    Sink.received w'.sink = Sink.received w.sink ∧
      w'.line = w.line ++ Text.utf8 (List.replicate k '\n') ∧ (k ≠ 0 → w'.pending = false) := by
  induction k generalizing w with
  | zero =>
    cases h
    exact ⟨rfl, (List.append_nil _).symm, fun h => absurd rfl h⟩
  | succ k ih =>
    rw [List.replicate_succ, List.replicate_succ] at h
    have hanswer : (Call.nextLine.perform w).1 = .error .refused := by
      obtain ⟨answers, hanswers⟩ :=
        exists_answers_eq_cons Call.perform .nextLine w (List.replicate k .nextLine)
      rw [h] at hanswers
      exact (List.cons.inj hanswers).1.symm
    obtain ⟨hperform, hreceived⟩ := perform_nextLine_of_refused hanswer
    rw [runCalls_cons_of_kept hperform] at h
    obtain ⟨hanswers, hkept⟩ := Prod.mk.inj h
    obtain ⟨hsame, hline, hpending⟩ := ih (Prod.ext (List.cons.inj hanswers).2 hkept)
    refine ⟨hsame.trans hreceived, ?_, fun _ => ?_⟩
    · rw [hline, List.append_assoc]
      rfl
    · cases k with
      | zero =>
        cases hkept
        rfl
      | succ k => exact hpending (Nat.succ_ne_zero k)

/-- What a sink has received after content was added, lines ended and the level changed by one. If no
line was refused and the writer finishes with success, that is every line that was ended, with its line
break, and the unfinished one. If the last line is then refused once or more, a writer that finishes does
so with success without handing it over, and a further attempt that is taken hands it over with one line
break for each attempt. -/
theorem received_after_calls (s : σ) (calls : List Call)
    (hlevel : ∀ c ∈ calls, ∀ level, c ≠ .startAt level) :
    ∃ answers w, runCalls Call.perform calls ({ sink := s } : LineWriter σ) = (answers, .kept w) ∧
      (.error .refused ∉ answers → w.finish.1 = true →
        ∃ d, runCalls Draft.perform calls {} = (answers, .kept d) ∧
          Sink.received w.finish.2 = Sink.received s ++ d.closed.flatten) ∧
      ∀ k w', runCalls Call.perform (List.replicate (k + 1) .nextLine) w =
          (List.replicate (k + 1) (.error .refused), .kept w') →
        Sink.received w'.sink = Sink.received w.sink ∧ w'.finish = (true, w'.sink) ∧
        ((LineWriter.nextLine.result w').1 = .ok () →
          Sink.received (LineWriter.nextLine.result w').2.sink =
            Sink.received w.sink ++ w.line ++ Text.utf8 (List.replicate (k + 2) '\n')) := by
  obtain ⟨answers, w, hrun⟩ := exists_runCalls_kept hlevel ({ sink := s } : LineWriter σ)
  refine ⟨answers, w, hrun, fun hanswers hfinish => ?_, fun k w' hrefused => ?_⟩
  · have hempty : ({ sink := s } : LineWriter σ) = Draft.writer s {} := rfl
    rw [hempty] at hrun
    have hanswers : .error .refused ∉ (runCalls Call.perform calls (Draft.writer s {})).1 := by
      rw [hrun]
      exact hanswers
    have hnone : Sink.Takes ({} : Draft).writes s := trivial
    obtain ⟨answers', d, hdrafted, hwritten, hd⟩ := runCalls_writer_of_answers hlevel hnone hanswers
    obtain ⟨rfl, hw⟩ := Prod.mk.inj (hrun.symm.trans hwritten)
    cases hw
    exact ⟨d, hdrafted, Draft.received_finish hd hfinish⟩
  · obtain ⟨hreceived, hline, hpending⟩ := runCalls_refused (k + 1) hrefused
    have hflushed := LineWriter.flush_of_not_pending (hpending (Nat.succ_ne_zero k))
    refine ⟨hreceived, ?_, fun hok => ?_⟩
    · unfold LineWriter.finish
      rw [hflushed]
      rfl
    · have htaken : (Sink.offer (w'.line ++ Text.utf8 ['\n']) w'.sink).1 = true := by
        cases htaken : (Sink.offer (w'.line ++ Text.utf8 ['\n']) w'.sink).1 with
        | true => rfl
        | false =>
          rw [LineWriter.nextLine_result_of_refused htaken] at hok
          cases hok
      have hbreaks : Text.utf8 (List.replicate (k + 2) '\n') =
          Text.utf8 (List.replicate (k + 1) '\n') ++ Text.utf8 ['\n'] := by
        rw [← Text.utf8_append, ← List.replicate_succ']
      rw [LineWriter.nextLine_result_of_taken htaken, Sink.received_offer, if_pos htaken, hreceived, hline,
        hbreaks, List.append_assoc, List.append_assoc]

end Refusals

/-- A sink that refuses what it is offered so many times. -/
structure Hesitant where
  refusals : Nat
  contents : Bytes := []

instance : Sink Hesitant where
  received := Hesitant.contents
  offer d s :=
    match s.refusals with
    | 0 => (true, { s with contents := s.contents ++ d })
    | n + 1 => (false, { s with refusals := n })
  received_offer d s := by
    cases s.refusals <;> rfl

/-- A line that is refused twice is handed over with three line breaks. -/
theorem received_after_calls_twice_refused :
    let calls : List Call := [.indent, .write (.single (.text "AB".toList))]
    (∀ c ∈ calls, ∀ level, c ≠ .startAt level) ∧
      ∃ w w' : LineWriter Hesitant,
        runCalls Call.perform calls { sink := { refusals := 2 } } = ([.ok (), .ok ()], .kept w) ∧
        runCalls Call.perform [.nextLine, .nextLine] w =
          ([.error .refused, .error .refused], .kept w') ∧
        w'.finish.1 = true ∧ Sink.received w'.finish.2 = [] ∧
        Sink.received (LineWriter.nextLine.result w').2.sink = Text.utf8 "    AB\n\n\n".toList := by
  intro calls
  have hlevel : ∀ c ∈ calls, ∀ level, c ≠ .startAt level := by
    simp [calls]
  obtain ⟨answers, w, hrun, -, hrefused⟩ :=
    received_after_calls ({ refusals := 2 } : Hesitant) calls hlevel
  let given : LineWriter Hesitant := Draft.writer { refusals := 2 }
    { level := 1, added := [.text "AB".toList] }
  let left : LineWriter Hesitant :=
    { given with sink := { refusals := 0 }, pending := false, line := Text.utf8 "    AB\n\n".toList }
  have hgiven : runCalls Call.perform calls ({ sink := { refusals := 2 } } : LineWriter Hesitant) =
      ([.ok (), .ok ()], .kept given) := rfl
  have hleft : runCalls Call.perform [.nextLine, .nextLine] given =
      ([.error .refused, .error .refused], .kept left) := rfl
  obtain ⟨rfl, hw⟩ := Prod.mk.inj (hrun.symm.trans hgiven)
  obtain rfl : w = given := Remains.kept.inj hw
  obtain ⟨hreceived, hfinish, hretry⟩ := hrefused 1 left hleft
  refine ⟨hlevel, given, left, hgiven, hleft, ?_, ?_, ?_⟩
  · rw [hfinish]
  · rw [hfinish]
    exact hreceived
  · rw [hretry rfl]
    rfl

/-- A store has room for two letters but not for their line break. The line is refused when it ends, and
finishing then succeeds though neither letter was handed over. -/
theorem refused_line_not_received :
    let calls : List Call := [.write (.single (.text "AB".toList)), .nextLine]
    ∃ w, runCalls Call.perform calls ({ sink := { limit := some 2 } } : LineWriter Store) =
        ([.ok (), .error .refused], .kept w) ∧
      w.finish.1 = true ∧ w.finish.2.contents = [] := by
  intro calls
  let left : LineWriter Store :=
    { sink := { limit := some 2 }, pending := false, line := Text.utf8 "AB\n".toList }
  have hleft : runCalls Call.perform calls ({ sink := { limit := some 2 } } : LineWriter Store) =
      ([.ok (), .error .refused], .kept left) := rfl
  exact ⟨left, hleft, rfl, rfl⟩

end AbilityScript
