import AbilityScript.Layout.Calls

/-!
# What each operation of a line writer does

One equation for each operation says what it answers and what the writer is afterwards. A sink is
followed through the data it is offered, piece by piece; if it takes everything, it has received all
pieces in order.

## Main definitions

* `Sink.after`, `Sink.Takes`, `Sink.NeverRefuses`: a sink that was offered pieces of data, and whether it
  takes them.

## Main statements

* `Sink.received_after`: what a sink has received that took everything.
* `LineWriter.nextLine_result`, `LineWriter.indent_result` and their like.
-/

set_option autoImplicit false

namespace AbilityScript

namespace Sink

variable {σ : Type} [Sink σ] {s : σ} {d : Bytes} {ds es : List Bytes}

/-- A sink after it was offered data piece by piece. -/
def after (ds : List Bytes) (s : σ) : σ :=
  ds.foldl (fun s d => (offer d s).2) s

/-- A sink takes pieces of data one after another. -/
def Takes : List Bytes → σ → Prop
  | [], _ => True
  | d :: ds, s => (offer d s).1 = true ∧ Takes ds (offer d s).2

/-- A sink takes whatever it is offered. -/
def NeverRefuses (s : σ) : Prop :=
  ∀ ds, Takes ds s

/-- A sink that was offered nothing is as it was. -/
@[simp] theorem after_nil (s : σ) : after [] s = s := rfl

/-- A sink is offered the first piece and then the others. -/
@[simp] theorem after_cons (d : Bytes) (ds : List Bytes) (s : σ) :
    after (d :: ds) s = after ds (offer d s).2 := rfl

/-- A sink is offered pieces in two parts one part after the other. -/
@[simp] theorem after_append (ds es : List Bytes) (s : σ) : after (ds ++ es) s = after es (after ds s) :=
  List.foldl_append

/-- A sink takes pieces in two parts if it takes the one, and then the other. -/
theorem takes_append : Takes (ds ++ es) s ↔ Takes ds s ∧ Takes es (after ds s) := by
  induction ds generalizing s with
  | nil => simp [Takes]
  | cons d ds ih => simp only [List.cons_append, Takes, ih, after_cons, and_assoc]

/-- Whether a sink takes a single piece is its answer. -/
theorem takes_singleton : Takes [d] s ↔ (offer d s).1 = true := by
  simp [Takes]

/-- A sink that never refuses does not do so later either. -/
theorem NeverRefuses.after (h : NeverRefuses s) (ds : List Bytes) : NeverRefuses (after ds s) :=
  fun es => (takes_append.1 (h (ds ++ es))).2

/-- A sink that takes everything receives all pieces in order. -/
theorem received_after (h : Takes ds s) : received (after ds s) = received s ++ ds.flatten := by
  induction ds generalizing s with
  | nil => rw [after_nil, List.flatten_nil, List.append_nil]
  | cons d ds ih =>
    rw [after_cons, ih h.2, received_offer, if_pos h.1, List.flatten_cons, List.append_assoc]

/-- A sink has received nothing of what it refuses. -/
theorem received_offer_of_refused (h : (offer d s).1 = false) : received (offer d s).2 = received s := by
  rw [received_offer, h]
  rfl

/-- A store without a limit takes everything. -/
theorem neverRefuses_store {s : Store} (h : s.limit = none) : NeverRefuses s := by
  intro ds
  induction ds generalizing s with
  | nil => trivial
  | cons d ds ih =>
    obtain ⟨limit, contents⟩ := s
    obtain rfl : limit = none := h
    exact ⟨rfl, ih rfl⟩

end Sink

namespace Writing

variable {σ α β : Type} {op : Writing σ α} {w w' : LineWriter σ}

/-- What comes after an operation that succeeds. -/
theorem result_bind_of_ok {a : α} (h : op.result w = (.ok a, w')) (f : α → Writing σ β) :
    (op >>= f).result w = (f a).result w' := by
  unfold result at h ⊢
  simp only [ExceptT.run_bind, StateT.run_bind]
  rw [show op.run.run w = (.ok a, w') from h]
  rfl

/-- Nothing comes after an operation that fails. -/
theorem result_bind_of_error {e : WriteError} (h : op.result w = (.error e, w'))
    (f : α → Writing σ β) : (op >>= f).result w = (.error e, w') := by
  unfold result at h ⊢
  simp only [ExceptT.run_bind, StateT.run_bind]
  rw [show op.run.run w = (.error e, w') from h]
  rfl

end Writing

section Runs

variable {ω σ : Type} {perform : Call → ω → Answer × Remains ω σ} {c : Call} {w w' : ω}

/-- What follows a call that leaves the writer runs on what it left. -/
theorem runCalls_cons_of_kept {answer : Answer} (h : perform c w = (answer, .kept w'))
    (calls : List Call) :
    runCalls perform (c :: calls) w =
      (answer :: (runCalls perform calls w').1, (runCalls perform calls w').2) := by
  rw [runCalls, h]

/-- The answer to the first call is the first answer. -/
theorem exists_answers_eq_cons (perform : Call → ω → Answer × Remains ω σ) (c : Call) (w : ω)
    (calls : List Call) :
    ∃ answers, (runCalls perform (c :: calls) w).1 = (perform c w).1 :: answers := by
  unfold runCalls
  obtain ⟨answer, left⟩ := perform c w
  cases left with
  | kept w' => exact ⟨_, rfl⟩
  | released s => exact ⟨[], rfl⟩

end Runs

section Margins

/-- The margin of a level is as wide as its indentation. -/
@[simp] theorem length_margin (level : Nat) : (margin level).length = indentWidth * level :=
  List.length_replicate

/-- A margin is fitted to a level by becoming the margin of that level. -/
theorem LineWriter.fitted_margin (level level' : Nat) : fitted level (margin level') = margin level := by
  unfold fitted
  rw [length_margin]
  unfold margin
  rw [List.take_replicate, List.drop_replicate, List.replicate_append_replicate]
  congr 1
  omega

end Margins

namespace LineWriter

section Lines

variable {σ : Type}

/-- Text that breaks the line is refused and leaves the writer alone. -/
theorem text_result (t : Text) (w : LineWriter σ) :
    (text t).result w =
      if t.contains '\n' then (.error .breakWithinLine, w) else (display t).result w := by
  unfold text
  split <;> rfl

/-- Indenting within a line is refused, and otherwise goes a level deeper. -/
theorem indent_result (w : LineWriter σ) :
    indent.result w =
      if w.pending then (.error .levelWithinLine, w) else (.ok (), w.setLevel (w.level + 1)) := by
  obtain ⟨sink, level, pending, line⟩ := w
  cases pending <;> rfl

/-- Dedenting within a line or below the margin is refused, and otherwise goes back a level. -/
theorem dedent_result (w : LineWriter σ) :
    dedent.result w =
      if w.pending then (.error .levelWithinLine, w)
      else if w.level = 0 then (.error .levelBelowMargin, w)
      else (.ok (), w.setLevel (w.level - 1)) := by
  obtain ⟨sink, level, pending, line⟩ := w
  cases pending <;> cases level <;> rfl

end Lines

section Offers

variable {σ : Type} [Sink σ]

/-- Ending a line offers it to the sink. If it is refused the writer holds it still, with its break,
though it is no longer pending. -/
theorem nextLine_result (w : LineWriter σ) :
    nextLine.result w =
      match Sink.offer (w.line ++ Text.utf8 ['\n']) w.sink with
      | (true, sink) => (.ok (), { w with sink, pending := false, line := margin w.level })
      | (false, sink) =>
        (.error .refused, { w with sink, pending := false, line := w.line ++ Text.utf8 ['\n'] }) := by
  -- what is left to do once the sink has answered
  let rest (offered : Bool × σ) : Writing σ Unit := do
    set { w with sink := offered.2, pending := false, line := w.line ++ Text.utf8 ['\n'] }
    if !offered.1 then throw .refused
    modify fun w => { w with line := margin w.level }
  have hrest : nextLine.result w = (rest (Sink.offer (w.line ++ Text.utf8 ['\n']) w.sink)).result
      { w with pending := false, line := w.line ++ Text.utf8 ['\n'] } := rfl
  rw [hrest]
  obtain ⟨taken, sink⟩ := Sink.offer (w.line ++ Text.utf8 ['\n']) w.sink
  cases taken <;> rfl

/-- Ending a line that the sink takes succeeds. -/
theorem nextLine_result_of_taken {w : LineWriter σ}
    (h : (Sink.offer (w.line ++ Text.utf8 ['\n']) w.sink).1 = true) :
    nextLine.result w = (.ok (), { w with
      sink := (Sink.offer (w.line ++ Text.utf8 ['\n']) w.sink).2
      pending := false
      line := margin w.level }) := by
  rw [nextLine_result]
  generalize Sink.offer (w.line ++ Text.utf8 ['\n']) w.sink = offered at h ⊢
  obtain ⟨taken, sink⟩ := offered
  obtain rfl : taken = true := h
  rfl

/-- A line that is refused when it ends stays with its line break, but nothing counts as added. -/
theorem nextLine_result_of_refused {w : LineWriter σ}
    (h : (Sink.offer (w.line ++ Text.utf8 ['\n']) w.sink).1 = false) :
    nextLine.result w = (.error .refused, { w with
      sink := (Sink.offer (w.line ++ Text.utf8 ['\n']) w.sink).2
      pending := false
      line := w.line ++ Text.utf8 ['\n'] }) := by
  rw [nextLine_result]
  generalize Sink.offer (w.line ++ Text.utf8 ['\n']) w.sink = offered at h ⊢
  obtain ⟨taken, sink⟩ := offered
  obtain rfl : taken = false := h
  rfl

/-- There is nothing to flush between lines. -/
theorem flush_of_not_pending {w : LineWriter σ} (h : w.pending = false) : w.flush = (true, w) := by
  unfold flush
  rw [h]
  rfl

/-- A pending line that the sink takes is flushed. -/
theorem flush_of_taken {w : LineWriter σ} (h : w.pending = true)
    (htaken : (Sink.offer w.line w.sink).1 = true) :
    w.flush = (true, { w with sink := (Sink.offer w.line w.sink).2, pending := false }) := by
  unfold flush
  rw [h, if_pos rfl]
  simp only [htaken, Bool.not_true]

end Offers

end LineWriter

end AbilityScript
