import AbilityScript.Program.Legality
import AbilityScript.Program.Traversal

/-!
# What the rules of legality find

The check of a program carries along the actions that it has met, through blocks that lie in one
another, and complains before, between and after the blocks of a statement. What it finds can be said
without any of that. The things that the rules look at are listed in the order in which they stand;
depth does not matter any more. An empty block or a comparison of constants is an error by itself, and
an action is one by the earlier actions in the list that are the same.

## Main definitions

* `Occurrence`, `Program.occurrences`: the things in a program that the rules look at.
* `report`: the errors of a list of such things.
* `SemanticError.Flags`: an error is about a node.

## Main statements

* `check_eq_report`: what the check finds, and when it finds nothing.
* `exists_visit_of_mem_check`: every error is about a node of the program.
-/

set_option autoImplicit false

namespace AbilityScript

/-- Something in a program that the rules of legality look at. -/
inductive Occurrence where
  | emptyTrigger (pc : Nat)
  | emptyThen (pc : Nat)
  | emptyElse (pc : Nat)
  | constantComparison (pc : Nat)
  | action (pc : Nat) (a : Action)
deriving DecidableEq, Repr

namespace Action

/-- Whether two actions are of one kind and agree on the target and the stat they name. -/
def same : Action → Action → Bool
  | .draw _, .draw _ | .discard _, .discard _ | .createToken _, .createToken _ => true
  | .destroy t, .destroy u | .damage t _, .damage u _ | .heal t _, .heal u _ => t = u
  | .buffStat t s _, .buffStat u r _ | .debuffStat t s _, .debuffStat u r _ => t = u ∧ s = r
  | _, _ => false

/-- How many errors an action is that stands behind `n` that are the same. -/
def complaints (n : Nat) : Action → Nat
  | .draw _ | .discard _ | .createToken _ => min n 1
  | .destroy _ | .damage .. | .heal .. | .buffStat .. | .debuffStat .. => n

/-- Actions are the same exactly if they have one key. -/
theorem same_iff_key_eq (a b : Action) : a.same b ↔ a.key = b.key := by
  cases a <;> cases b <;> simp [same, key, kind]

/-- The reports on a key are the complaints about an action that has it. -/
theorem reports_key (a : Action) (n : Nat) : a.key.reports n = a.complaints n := by
  cases a <;> rfl

end Action

namespace Occurrence

/-- Whether two occurrences are actions that are the same. -/
def sameAs : Occurrence → Occurrence → Bool
  | .action _ a, .action _ b => a.same b
  | _, _ => false

/-- The errors of an occurrence with others before it. -/
def errors (before : List Occurrence) : Occurrence → List SemanticError
  | .emptyTrigger pc => [⟨.emptyTrigger, pc⟩]
  | .emptyThen pc => [⟨.emptyThen, pc⟩]
  | .emptyElse pc => [⟨.emptyElse, pc⟩]
  | .constantComparison pc => [⟨.constantComparison, pc⟩]
  | .action pc a =>
    List.replicate (a.complaints (before.countP fun x => x.sameAs (.action pc a)))
      ⟨.repeated a.kind, pc⟩

/-- What the check remembers of an occurrence. -/
def key? : Occurrence → Option ActionKey
  | .action _ a => some a.key
  | _ => none

end Occurrence

/-- The errors of occurrences, each with those that stand before it. -/
def report (before : List Occurrence) : List Occurrence → List SemanticError
  | [] => []
  | o :: os => o.errors before ++ report (before ++ [o]) os

/-- The occurrences inside a block, or the one that it is if it is empty. -/
def ofBody (empty : Occurrence) (body : Block) (inside : List Occurrence) : List Occurrence :=
  if body.isEmpty then [empty] else inside

namespace Comparison

/-- A comparison is one of two immediates. -/
def BothImmediate (c : Comparison) : Prop :=
  ∃ m n, c.lhs = .imm m ∧ c.rhs = .imm n

/-- The outcome of a comparison is fixed exactly if it is one of two immediates. -/
theorem isConstant_iff (c : Comparison) : c.isConstant ↔ c.BothImmediate := by
  obtain ⟨cmp, lhs, rhs⟩ := c
  cases lhs <;> cases rhs <;> simp [isConstant, BothImmediate, Side.isImmediate, Side.kind]

instance (c : Comparison) : Decidable c.BothImmediate :=
  decidable_of_iff _ c.isConstant_iff

end Comparison

/-- The occurrence that a comparison is if both its sides are immediates. -/
def ofComparison (pc : Nat) (c : Comparison) : List Occurrence :=
  if c.BothImmediate then [.constantComparison pc] else []

mutual

/-- The occurrences in a statement. Those of a comparison come behind those of its branches. -/
def Stmt.occurrences : Stmt → List Occurrence
  | .action pc a => [.action pc a]
  | .cond pc c body none =>
    ofBody (.emptyThen pc) body (Block.occurrences body) ++ ofComparison pc c
  | .cond pc c body (some other) =>
    ofBody (.emptyThen pc) body (Block.occurrences body) ++
      ofBody (.emptyElse pc) other (Block.occurrences other) ++ ofComparison pc c

/-- The occurrences in a block, in order. -/
def Block.occurrences : List Stmt → List Occurrence
  | [] => []
  | s :: rest => Stmt.occurrences s ++ Block.occurrences rest

end

/-- The occurrences in a member of the outermost level, in order. -/
def TopLevel.occurrences : TopLevel → List Occurrence
  | .stmt s => s.occurrences
  | .trigger pc _ body => ofBody (.emptyTrigger pc) body (Block.occurrences body)

/-- The occurrences in a program, in the order in which they stand. -/
def Program.occurrences (p : Program) : List Occurrence :=
  p.topLevel.flatMap TopLevel.occurrences

section Report

/-- Occurrences in two parts are reported one part after the other. -/
theorem report_append (before os ps : List Occurrence) :
    report before (os ++ ps) = report before os ++ report (before ++ os) ps := by
  induction os generalizing before with
  | nil => rw [List.nil_append, List.append_nil]; rfl
  | cons o os ih =>
    rw [List.cons_append, report, ih, report, List.append_assoc, List.append_assoc,
      List.singleton_append]

/-- Every error that is reported is about one of the occurrences. -/
theorem exists_of_mem_report {before os : List Occurrence} {e : SemanticError}
    (h : e ∈ report before os) : ∃ o ∈ os, ∃ earlier, e ∈ o.errors earlier := by
  induction os generalizing before with
  | nil => cases h
  | cons o os ih =>
    rw [report, List.mem_append] at h
    cases h with
    | inl here => exact ⟨o, List.mem_cons_self, before, here⟩
    | inr later =>
      obtain ⟨p, hp, hearlier⟩ := ih later
      exact ⟨p, List.mem_cons_of_mem _ hp, hearlier⟩

/-- An occurrence is fine if it is an action with no other like it before. -/
theorem Occurrence.errors_eq_nil_iff (before : List Occurrence) (o : Occurrence) :
    o.errors before = [] ↔ (∃ pc a, o = .action pc a) ∧ ∀ x ∈ before, ¬ x.sameAs o := by
  cases o with
  | emptyTrigger | emptyThen | emptyElse | constantComparison => simp [errors]
  | action pc a =>
    have hzero (n : Nat) : a.complaints n = 0 ↔ n = 0 := by
      cases a <;> simp only [Action.complaints] <;> omega
    simp [errors, hzero, List.countP_eq_zero]

/-- Nothing is reported exactly if all occurrences are actions of which no two are the same, among
themselves or with one before them. -/
theorem report_eq_nil_iff (before os : List Occurrence) :
    report before os = [] ↔ (∀ o ∈ os, ∃ pc a, o = .action pc a) ∧
      (∀ x ∈ before, ∀ o ∈ os, ¬ x.sameAs o) ∧ os.Pairwise fun x o => ¬ x.sameAs o := by
  induction os generalizing before with
  | nil => simp [report]
  | cons o os ih =>
    simp only [report, List.append_eq_nil_iff, Occurrence.errors_eq_nil_iff, ih, List.mem_append,
      List.mem_singleton, List.forall_mem_cons, List.pairwise_cons, or_imp, forall_and,
      forall_eq]
    constructor
    · rintro ⟨⟨ho, hbefore⟩, hos, ⟨hall, hfirst⟩, hrest⟩
      exact ⟨⟨ho, hos⟩, ⟨hbefore, hall⟩, hfirst, hrest⟩
    · rintro ⟨⟨ho, hos⟩, ⟨hbefore, hall⟩, hfirst, hrest⟩
      exact ⟨⟨ho, hbefore⟩, hos, ⟨hall, hfirst⟩, hrest⟩

end Report

section Check

/-- What the check remembers of occurrences, the latest one first. -/
def seenIn (os : List Occurrence) : Seen :=
  (os.filterMap Occurrence.key?).reverse

/-- What is remembered of two parts is what is remembered of each, the later part first. -/
theorem seenIn_append (os ps : List Occurrence) : seenIn (os ++ ps) = seenIn ps ++ seenIn os := by
  rw [seenIn, List.filterMap_append, List.reverse_append]
  rfl

/-- What is remembered is enough to count the actions that are the same. -/
theorem count_seenIn (before : List Occurrence) (pc : Nat) (a : Action) :
    (seenIn before).count a.key = before.countP fun x => x.sameAs (.action pc a) := by
  rw [seenIn, List.count_reverse, List.count, List.countP_filterMap]
  apply List.countP_congr
  intro x _
  cases x with
  | emptyTrigger | emptyThen | emptyElse | constantComparison =>
    simp [Occurrence.key?, Occurrence.sameAs]
  | action _ b => simp [Occurrence.key?, Occurrence.sameAs, Action.same_iff_key_eq]

/-- The conflicts with what is remembered are the errors of an action behind what it is remembered of.
-/
theorem conflicts_seenIn (before : List Occurrence) (pc : Nat) (a : Action) :
    a.conflicts (seenIn before) pc = (Occurrence.action pc a).errors before := by
  rw [Action.conflicts, Action.reports_key, count_seenIn before pc]
  rfl

/-- Occurrences without a key are not remembered. -/
theorem seenIn_append_eq_self (before : List Occurrence) {os : List Occurrence}
    (h : os.filterMap Occurrence.key? = []) : seenIn (before ++ os) = seenIn before := by
  rw [seenIn, List.filterMap_append, h, List.append_nil]
  rfl

/-- A check finds what occurrences are reported as and remembers them, whatever was met before. -/
def Tracks (check : Seen → List SemanticError × Seen) (os : List Occurrence) : Prop :=
  ∀ before, check (seenIn before) = (report before os, seenIn (before ++ os))

/-- A comparison is reported as the occurrence that it is. -/
theorem reportIf_isConstant (before : List Occurrence) (pc : Nat) (c : Comparison) :
    reportIf c.isConstant .constantComparison pc = report before (ofComparison pc c) := by
  unfold reportIf ofComparison
  simp only [c.isConstant_iff]
  split <;> rfl

/-- A comparison is not remembered. -/
theorem seenIn_append_ofComparison (before : List Occurrence) (pc : Nat) (c : Comparison) :
    seenIn (before ++ ofComparison pc c) = seenIn before := by
  apply seenIn_append_eq_self
  unfold ofComparison
  split <;> rfl

/-- The check of a block that must not be empty. -/
theorem tracks_ofBody {o : Occurrence} {violation : Violation} {pc : Nat} {body : Block}
    (herrors : ∀ before, o.errors before = [⟨violation, pc⟩]) (hkey : o.key? = none)
    (hbody : Tracks (fun seen => Block.check seen body) (Block.occurrences body)) :
    Tracks (fun seen => (reportIf body.isEmpty violation pc ++ (Block.check seen body).1,
        (Block.check seen body).2))
      (ofBody o body (Block.occurrences body)) := by
  intro before
  cases body with
  | nil =>
    have hforget : seenIn (before ++ [o]) = seenIn before := by
      apply seenIn_append_eq_self
      rw [List.filterMap_cons, hkey]
      rfl
    show (_, seenIn before) = (o.errors before ++ [], seenIn (before ++ [o]))
    rw [hforget, herrors]
    rfl
  | cons s rest =>
    have hfound : Block.check (seenIn before) (s :: rest) = _ := hbody before
    dsimp only
    rw [hfound]
    rfl

/-- The check of an action. -/
theorem tracks_action (pc : Nat) (a : Action) :
    Tracks (fun seen => Stmt.check seen (.action pc a)) (Stmt.occurrences (.action pc a)) := by
  intro before
  dsimp only
  rw [Stmt.check, conflicts_seenIn, Stmt.occurrences, report, report, List.append_nil, seenIn_append]
  rfl

/-- The check of a conditional with one branch. -/
theorem tracks_ifThen (pc : Nat) (c : Comparison) {body : Block}
    (hbody : Tracks (fun seen => Block.check seen body) (Block.occurrences body)) :
    Tracks (fun seen => Stmt.check seen (.cond pc c body none))
      (Stmt.occurrences (.cond pc c body none)) := by
  intro before
  obtain ⟨hfound, hseen⟩ :=
    Prod.mk.inj (tracks_ofBody (o := .emptyThen pc) (fun _ => rfl) rfl hbody before)
  dsimp only
  rw [Stmt.check, Stmt.occurrences, report_append, ← List.append_assoc, seenIn_append_ofComparison]
  simp only [hfound, hseen]
  rw [← reportIf_isConstant]

/-- The check of a conditional with two branches. -/
theorem tracks_ifElse (pc : Nat) (c : Comparison) {body other : Block}
    (hbody : Tracks (fun seen => Block.check seen body) (Block.occurrences body))
    (hother : Tracks (fun seen => Block.check seen other) (Block.occurrences other)) :
    Tracks (fun seen => Stmt.check seen (.cond pc c body (some other)))
      (Stmt.occurrences (.cond pc c body (some other))) := by
  intro before
  obtain ⟨hfound, hseen⟩ :=
    Prod.mk.inj (tracks_ofBody (o := .emptyThen pc) (fun _ => rfl) rfl hbody before)
  obtain ⟨hfound', hseen'⟩ :=
    Prod.mk.inj (tracks_ofBody (o := .emptyElse pc) (fun _ => rfl) rfl hother
      (before ++ ofBody (.emptyThen pc) body (Block.occurrences body)))
  dsimp only
  rw [Stmt.check, Stmt.occurrences, report_append, report_append, ← List.append_assoc before,
    ← List.append_assoc before, seenIn_append_ofComparison, ← List.append_assoc before]
  simp only [hfound, hseen, hfound', hseen']
  rw [← reportIf_isConstant]

/-- The check of a block from that of its first statement and that of the others. -/
theorem tracks_cons {s : Stmt} {rest : Block}
    (hs : Tracks (fun seen => Stmt.check seen s) (Stmt.occurrences s))
    (hrest : Tracks (fun seen => Block.check seen rest) (Block.occurrences rest)) :
    Tracks (fun seen => Block.check seen (s :: rest)) (Block.occurrences (s :: rest)) := by
  intro before
  have hhere : Stmt.check (seenIn before) s = _ := hs before
  have hlater : Block.check (seenIn (before ++ Stmt.occurrences s)) rest = _ := hrest _
  dsimp only
  rw [Block.check, hhere]
  dsimp only
  rw [hlater, Block.occurrences, report_append, List.append_assoc]

/-- The check of a block. -/
theorem tracks_block (b : Block) :
    Tracks (fun seen => Block.check seen b) (Block.occurrences b) := by
  induction b using Block.induction with
  | nil =>
    intro before
    rw [Block.occurrences, List.append_nil]
    rfl
  | action pc a rest ih => exact tracks_cons (tracks_action pc a) ih
  | ifThen pc c body rest ihbody ih => exact tracks_cons (tracks_ifThen pc c ihbody) ih
  | ifElse pc c body other rest ihbody ihother ih =>
    exact tracks_cons (tracks_ifElse pc c ihbody ihother) ih

/-- The check of a member of the outermost level. -/
theorem tracks_topLevel (m : TopLevel) : Tracks m.check m.occurrences := by
  cases m with
  | stmt s =>
    intro before
    have hblock := tracks_block [s] before
    simp only [Block.check, Block.occurrences, List.append_nil] at hblock
    exact hblock
  | trigger pc event body =>
    exact tracks_ofBody (o := .emptyTrigger pc) (fun _ => rfl) rfl (tracks_block body)

/-- The check of members of the outermost level, behind what was met before them. -/
theorem checkAll_seenIn (before : List Occurrence) (ms : List TopLevel) :
    TopLevel.checkAll (seenIn before) ms = report before (ms.flatMap TopLevel.occurrences) := by
  induction ms generalizing before with
  | nil => rfl
  | cons m ms ih =>
    have hhere : m.check (seenIn before) = _ := tracks_topLevel m before
    rw [TopLevel.checkAll, hhere, List.flatMap_cons, report_append, ← ih]

/-- The check of a program finds what its occurrences are reported as. -/
theorem check_occurrences (p : Program) : p.check = report [] p.occurrences :=
  checkAll_seenIn [] p.topLevel

end Check

/-- The check of a program finds what its occurrences are reported as, each with those before it in
the whole program. It finds nothing exactly if they are all actions and no two of these are the
same. -/
theorem check_eq_report (p : Program) :
    p.check = report [] p.occurrences ∧
      (p.check = [] ↔ (∀ o ∈ p.occurrences, ∃ pc a, o = .action pc a) ∧
        p.occurrences.Pairwise fun earlier o => ¬ earlier.sameAs o) := by
  refine ⟨check_occurrences p, ?_⟩
  rw [check_occurrences, report_eq_nil_iff]
  simp only [List.not_mem_nil, false_implies, implies_true, true_and]

section Flags

/-- An error is about a node: a trigger or a conditional of which it says what is true, or an action
of its kind. -/
def SemanticError.Flags (e : SemanticError) : Visit → Prop
  | .trigger pc _ body => e = ⟨.emptyTrigger, pc⟩ ∧ body = []
  | .stmt (.action pc a) => e = ⟨.repeated a.kind, pc⟩
  | .stmt (.cond pc c body other) =>
    e = ⟨.emptyThen, pc⟩ ∧ body = [] ∨ e = ⟨.emptyElse, pc⟩ ∧ other = some [] ∨
      e = ⟨.constantComparison, pc⟩ ∧ c.BothImmediate
  | .program _ | .topLevel _ | .block _ => False

/-- Every error that occurrences can be is about one of some nodes. -/
def Covers (visits : List Visit) (os : List Occurrence) : Prop :=
  ∀ o ∈ os, ∀ before, ∀ e ∈ o.errors before, ∃ v ∈ visits, e.Flags v

namespace Covers

variable {visits more : List Visit} {os ps : List Occurrence}

/-- No occurrences have no errors. -/
theorem nil (visits : List Visit) : Covers visits [] := by
  intro o ho
  cases ho

/-- The errors of occurrences in two parts are those of either part. -/
theorem append (h : Covers visits os) (h' : Covers visits ps) : Covers visits (os ++ ps) := by
  intro o ho
  cases List.mem_append.mp ho with
  | inl hos => exact h o hos
  | inr hps => exact h' o hps

/-- What is about one of some nodes is about one of more nodes. -/
theorem mono (h : Covers visits os) (hsub : visits ⊆ more) : Covers more os := by
  intro o ho before e he
  obtain ⟨v, hv, hflags⟩ := h o ho before e he
  exact ⟨v, hsub hv, hflags⟩

/-- The errors of a body are those inside it, or the one that it is if it is empty. -/
theorem ofBody {empty : Occurrence} {body : Block} (hbody : Covers visits os)
    (hempty : body = [] → Covers visits [empty]) : Covers visits (ofBody empty body os) := by
  cases body with
  | nil => exact hempty rfl
  | cons s rest => exact hbody

/-- An occurrence is covered by the node that all its errors are about. -/
theorem singleton {o : Occurrence} {v : Visit} {e : SemanticError} (hv : v ∈ visits)
    (ho : ∀ before, ∀ x ∈ o.errors before, x = e) (he : e.Flags v) : Covers visits [o] := by
  intro p hp before x hx
  rw [List.mem_singleton.mp hp] at hx
  rw [ho before x hx]
  exact ⟨v, hv, he⟩

/-- The errors of a comparison are about its conditional. -/
theorem ofComparison {pc : Nat} {c : Comparison} {body : Block} {other : Option Block}
    (hv : .stmt (.cond pc c body other) ∈ visits) : Covers visits (ofComparison pc c) := by
  unfold AbilityScript.ofComparison
  split
  case isTrue hc =>
    exact .singleton hv (fun _ _ => List.mem_singleton.mp) (.inr (.inr ⟨rfl, hc⟩))
  case isFalse => exact .nil _

end Covers

/-- Every error in a block is about one of its nodes. -/
theorem covers_block (b : Block) : Covers (Block.visits b) (Block.occurrences b) := by
  induction b using Block.induction with
  | nil => exact .nil _
  | action pc a rest ih =>
    apply Covers.append
    · apply Covers.singleton (v := .stmt (.action pc a)) (e := ⟨.repeated a.kind, pc⟩)
      · simp [Block.visits, Stmt.visits]
      · intro before x hx
        exact List.eq_of_mem_replicate hx
      · rfl
    · exact ih.mono (List.subset_append_right _ _)
  | ifThen pc c body rest ihbody ih =>
    have hself : .stmt (.cond pc c body none) ∈ Block.visits (.cond pc c body none :: rest) := by
      simp [Block.visits, Stmt.visits]
    have hbody : Block.visits body ⊆ Block.visits (.cond pc c body none :: rest) := by
      intro v hv
      simp [Block.visits, Stmt.visits, hv]
    apply Covers.append
    · apply Covers.append
      · apply (ihbody.mono hbody).ofBody
        intro hempty
        exact .singleton hself (fun _ _ => List.mem_singleton.mp) (.inl ⟨rfl, hempty⟩)
      · exact .ofComparison hself
    · exact ih.mono (List.subset_append_right _ _)
  | ifElse pc c body other rest ihbody ihother ih =>
    have hself : .stmt (.cond pc c body (some other)) ∈
        Block.visits (.cond pc c body (some other) :: rest) := by
      simp [Block.visits, Stmt.visits]
    have hbody : Block.visits body ⊆ Block.visits (.cond pc c body (some other) :: rest) := by
      intro v hv
      simp [Block.visits, Stmt.visits, hv]
    have hother : Block.visits other ⊆ Block.visits (.cond pc c body (some other) :: rest) := by
      intro v hv
      simp [Block.visits, Stmt.visits, hv]
    apply Covers.append
    · apply Covers.append
      · apply Covers.append
        · apply (ihbody.mono hbody).ofBody
          intro hempty
          exact .singleton hself (fun _ _ => List.mem_singleton.mp) (.inl ⟨rfl, hempty⟩)
        · apply (ihother.mono hother).ofBody
          intro hempty
          rw [hempty] at hself ⊢
          exact .singleton hself (fun _ _ => List.mem_singleton.mp) (.inr (.inl ⟨rfl, rfl⟩))
      · exact .ofComparison hself
    · exact ih.mono (List.subset_append_right _ _)

/-- Every error in a member is about one of its nodes. -/
theorem covers_topLevel (m : TopLevel) : Covers m.visits m.occurrences := by
  cases m with
  | stmt s =>
    have hblock := covers_block [s]
    simp only [Block.visits, Block.occurrences, List.append_nil] at hblock
    exact hblock.mono (List.subset_cons_self _ _)
  | trigger pc event body =>
    have hself : .trigger pc event body ∈ TopLevel.visits (.trigger pc event body) := by
      simp [TopLevel.visits]
    have hbody : Block.visits body ⊆ TopLevel.visits (.trigger pc event body) := by
      intro v hv
      simp [TopLevel.visits, hv]
    apply ((covers_block body).mono hbody).ofBody
    intro hempty
    exact .singleton hself (fun _ _ => List.mem_singleton.mp) ⟨rfl, hempty⟩

/-- Every error in a program is about one of its nodes. -/
theorem covers_program (p : Program) : Covers p.visits p.occurrences := by
  intro o ho
  obtain ⟨m, hm, hin⟩ := List.mem_flatMap.mp ho
  refine (covers_topLevel m).mono ?_ o hin
  intro v hv
  exact List.mem_cons_of_mem _ (List.mem_flatMap.mpr ⟨m, hm, hv⟩)

/-- Every error that the check finds is about a node of the program. -/
theorem exists_visit_of_mem_check {p : Program} {e : SemanticError} (h : e ∈ p.check) :
    ∃ v ∈ p.visits, e.Flags v := by
  rw [check_occurrences] at h
  obtain ⟨o, ho, earlier, he⟩ := exists_of_mem_report h
  exact covers_program p o ho earlier e he

end Flags

end AbilityScript
