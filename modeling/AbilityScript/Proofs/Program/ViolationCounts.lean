import AbilityScript.Proofs.Program.Relocation
import Mathlib.Algebra.GroupWithZero.Nat
import Mathlib.Data.List.Perm.Basic
import Mathlib.Data.Nat.Choose.Basic

/-!
# How many errors there are

The check counts as it goes: an action is as many errors as there were actions like it before. In the
end it does not matter where they were. Each new action with a key adds what the closed form of the
number of errors grows by, so the sum over all keys follows the check from its first step to its last,
and empty blocks and comparisons of constants add nothing to it. These are errors by themselves, one for
each, and it does not matter either that the check comes to a branch before it has done with the
conditional.

So the number of errors of a kind depends only on which actions there are and on how many nodes break a
rule by themselves. Neither changes when members of the outermost level change places, nor when actions
move to other blocks and no block becomes empty or ceases to be.

## Main definitions

* `Program.actions`: the actions of a program, in whatever blocks they stand.
* `Visit.breaks`: a node breaks a rule by itself.
* `Block.SameFrame`, `Program.ActionsMoved`: programs are the same but for where actions stand.

## Main statements

* `Seen.excess_seenIn_append`: what the check adds for repeated actions.
* `occurrences_perm`: what the rules look at, node by node.
* `violations_closed_form`: how many errors there are of each kind.
-/

set_option autoImplicit false

namespace AbilityScript

namespace Action

/-- The target that an action names, if it names one. -/
def target? : Action → Option Target
  | .damage t _ | .heal t _ | .destroy t | .buffStat t _ _ | .debuffStat t _ _ => some t
  | .draw _ | .discard _ | .createToken _ => none

/-- The stat that an action names, if it names one. -/
def stat? : Action → Option Stat
  | .buffStat _ s _ | .debuffStat _ s _ => some s
  | .damage .. | .heal .. | .destroy _ | .draw _ | .discard _ | .createToken _ => none

end Action

namespace Visit

/-- The action that a node is, if it is one. -/
def action? : Visit → Option Action
  | .stmt (.action _ a) => some a
  | .stmt (.cond ..) | .trigger .. | .program _ | .topLevel _ | .block _ => none

/-- The offset of a node that breaks a rule by itself. -/
def breaks (v : Violation) : Visit → Option Nat
  | .trigger pc _ body => if v = .emptyTrigger ∧ body = [] then some pc else none
  | .stmt (.cond pc c body other) =>
    if v = .emptyThen ∧ body = [] ∨ v = .emptyElse ∧ other = some [] ∨
        v = .constantComparison ∧ c.BothImmediate then
      some pc
    else none
  | .stmt (.action ..) | .program _ | .topLevel _ | .block _ => none

end Visit

namespace Program

/-- The actions of a program, in whatever blocks they stand. -/
def actions (p : Program) : List Action :=
  p.visits.filterMap Visit.action?

/-- How many errors of a kind the check finds. -/
def violations (p : Program) (v : Violation) : Nat :=
  p.check.countP fun e => e.violation = v

end Program

section Repeated

/-- The keys that actions of a kind can have. -/
def ActionKind.keys (k : ActionKind) : List ActionKey :=
  match k with
  | .draw | .discard | .createToken => [⟨k, none, none⟩]
  | .destroy | .damage | .heal => (ByteCoded.all Target).map fun t => ⟨k, some t, none⟩
  | .buffStat | .debuffStat =>
    (ByteCoded.all Target).flatMap fun t => (ByteCoded.all Stat).map fun s => ⟨k, some t, some s⟩

/-- No key of a kind is listed twice. -/
theorem ActionKind.nodup_keys (k : ActionKind) : k.keys.Nodup := by
  cases k <;> decide

/-- The keys of a kind are those of its actions. -/
theorem ActionKind.key_mem_keys (k : ActionKind) (a : Action) : a.key ∈ k.keys ↔ a.kind = k := by
  cases k <;> cases a <;> simp [keys, Action.key, Action.kind, ByteCoded.mem_all]

/-- How many errors there are because of a key that occurs `n` times. -/
def ActionKey.excess (key : ActionKey) (n : Nat) : Nat :=
  match key.target with
  | none => n - 1
  | some _ => n * (n - 1) / 2

/-- One more action with a key brings the errors that are reported of it. -/
theorem ActionKey.excess_succ (key : ActionKey) (n : Nat) :
    key.excess (n + 1) = key.excess n + key.reports n := by
  unfold excess reports
  cases key.target with
  | none =>
    dsimp only
    omega
  | some t => exact Nat.triangle_succ n

/-- How many errors there are because actions of a kind are repeated. -/
def Seen.excess (k : ActionKind) (seen : Seen) : Nat :=
  (k.keys.map fun key => key.excess (seen.count key)).sum

/-- One more occurrence of a key changes one summand. -/
theorem sum_excess_cons {keys : List ActionKey} (hnodup : keys.Nodup) (seen : Seen)
    (key : ActionKey) :
    (keys.map fun x => x.excess ((key :: seen).count x)).sum =
      (keys.map fun x => x.excess (seen.count x)).sum +
        if key ∈ keys then key.reports (seen.count key) else 0 := by
  induction keys with
  | nil => rfl
  | cons x keys ih =>
    obtain ⟨hx, hnodup⟩ := List.nodup_cons.1 hnodup
    rw [List.map_cons, List.sum_cons, ih hnodup, List.map_cons, List.sum_cons]
    by_cases heq : key = x
    · subst heq
      rw [List.count_cons_self, ActionKey.excess_succ, if_neg hx, if_pos List.mem_cons_self]
      omega
    · rw [List.count_cons_of_ne heq]
      simp only [List.mem_cons, heq, false_or]
      omega

/-- An occurrence adds its errors. -/
theorem Seen.excess_seenIn_append_singleton (k : ActionKind) (before : List Occurrence)
    (o : Occurrence) :
    excess k (seenIn (before ++ [o])) =
      excess k (seenIn before) + (o.errors before).countP fun e => e.violation = .repeated k := by
  cases o with
  | emptyTrigger | emptyThen | emptyElse | constantComparison =>
    rw [seenIn_append_eq_self before rfl]
    simp [Occurrence.errors]
  | action pc a =>
    have hseen : seenIn (before ++ [.action pc a]) = a.key :: seenIn before := seenIn_append ..
    -- the summand of the key grows by what the action is reported as
    rw [hseen, excess, sum_excess_cons k.nodup_keys, ← conflicts_seenIn, Action.conflicts,
      List.countP_replicate]
    simp only [ActionKind.key_mem_keys, Violation.repeated.injEq, decide_eq_true_eq]
    rfl

/-- What the check adds for actions of a kind that are repeated. -/
theorem Seen.excess_seenIn_append (k : ActionKind) (before os : List Occurrence) :
    excess k (seenIn (before ++ os)) =
      excess k (seenIn before) + (report before os).countP fun e => e.violation = .repeated k := by
  induction os generalizing before with
  | nil => rw [List.append_nil]; rfl
  | cons o os ih =>
    have hstep := excess_seenIn_append_singleton k before o
    have hrest := ih (before ++ [o])
    rw [List.append_assoc, List.singleton_append] at hrest
    rw [report, List.countP_append]
    omega

end Repeated

section Nodes

/-- The occurrences that a node is, apart from what it contains. -/
def Visit.occurrences : Visit → List Occurrence
  | .trigger pc _ body => ofBody (.emptyTrigger pc) body []
  | .stmt (.action pc a) => [.action pc a]
  | .stmt (.cond pc c body none) => ofBody (.emptyThen pc) body [] ++ ofComparison pc c
  | .stmt (.cond pc c body (some other)) =>
    ofBody (.emptyThen pc) body [] ++ ofBody (.emptyElse pc) other [] ++ ofComparison pc c
  | .program _ | .topLevel _ | .block _ => []

/-- The offset of an occurrence that breaks a rule by itself. -/
def Occurrence.breaks (v : Violation) : Occurrence → Option Nat
  | .emptyTrigger pc => if v = .emptyTrigger then some pc else none
  | .emptyThen pc => if v = .emptyThen then some pc else none
  | .emptyElse pc => if v = .emptyElse then some pc else none
  | .constantComparison pc => if v = .constantComparison then some pc else none
  | .action .. => none

/-- What is inside a block is there whether or not the block itself is an occurrence. -/
theorem ofBody_eq_append (o : Occurrence) (body : Block) :
    ofBody o body (Block.occurrences body) = ofBody o body [] ++ Block.occurrences body := by
  cases body <;> rfl

/-- The occurrences of a block are those of its nodes, though a comparison is looked at only after the
branches. -/
theorem block_occurrences_perm (b : Block) :
    (Block.occurrences b).Perm ((Block.visits b).flatMap Visit.occurrences) := by
  -- the two lists differ in where a comparison stands, so they are compared by what they hold
  rw [List.perm_iff_count]
  intro o
  induction b using Block.induction with
  | nil => rfl
  | action pc a rest ih =>
    simp only [Block.occurrences, Stmt.occurrences, Block.visits, Stmt.visits, List.flatMap_append,
      List.flatMap_cons, List.flatMap_nil, Visit.occurrences, List.count_append, List.append_nil, ih]
  | ifThen pc c body rest ihbody ih =>
    simp only [Block.occurrences, Stmt.occurrences, Block.visits, Stmt.visits, List.flatMap_append,
      List.flatMap_cons, Visit.occurrences, List.count_append, ofBody_eq_append, List.count_nil, ihbody,
      ih]
    omega
  | ifElse pc c body other rest ihbody ihother ih =>
    simp only [Block.occurrences, Stmt.occurrences, Block.visits, Stmt.visits, List.flatMap_append,
      List.flatMap_cons, Visit.occurrences, List.count_append, ofBody_eq_append, List.count_nil, ihbody,
      ihother, ih, List.cons_append]
    omega

/-- The occurrences in a member are those of its nodes, in some order. -/
theorem topLevel_occurrences_perm (m : TopLevel) :
    m.occurrences.Perm (m.visits.flatMap Visit.occurrences) := by
  cases m with
  | stmt s =>
    have hblock := block_occurrences_perm [s]
    simp only [Block.occurrences, Block.visits, List.append_nil] at hblock
    exact hblock
  | trigger pc event body =>
    have hbody := (block_occurrences_perm body).append_left (ofBody (.emptyTrigger pc) body [])
    rw [← ofBody_eq_append] at hbody
    exact hbody

/-- The occurrences of a program are those of its nodes. -/
theorem occurrences_perm (p : Program) :
    p.occurrences.Perm (p.visits.flatMap Visit.occurrences) := by
  unfold Program.occurrences Program.visits
  rw [List.flatMap_cons, List.flatMap_assoc]
  exact List.Perm.flatMap_left _ fun m _ => topLevel_occurrences_perm m

/-- What is said of single nodes can be said of their occurrences. -/
theorem filterMap_flatMap_occurrences {α : Type} {f : Occurrence → Option α} {g : Visit → Option α}
    (h : ∀ w : Visit, w.occurrences.filterMap f = (g w).toList) (visits : List Visit) :
    (visits.flatMap Visit.occurrences).filterMap f = visits.filterMap g := by
  induction visits with
  | nil => rfl
  | cons w visits ih =>
    rw [List.flatMap_cons, List.filterMap_append, h, ih, List.filterMap_cons]
    cases g w <;> rfl

/-- What is picked from a body that must not be empty. -/
theorem filterMap_ofBody {α : Type} (f : Occurrence → Option α) (o : Occurrence) (body : Block) :
    (ofBody o body []).filterMap f = if body = [] then (f o).toList else [] := by
  cases body with
  | nil =>
    show [o].filterMap f = (f o).toList
    cases h : f o <;> simp [h]
  | cons s rest => rfl

/-- What is picked from a comparison that must not be constant. -/
theorem filterMap_ofComparison {α : Type} (f : Occurrence → Option α) (pc : Nat) (c : Comparison) :
    (ofComparison pc c).filterMap f =
      if c.BothImmediate then (f (.constantComparison pc)).toList else [] := by
  unfold ofComparison
  split
  · cases h : f (.constantComparison pc) <;> simp [h]
  · rfl

/-- The key that is remembered of a node is that of the action it is, if it is one. -/
theorem filterMap_key?_occurrences (w : Visit) :
    w.occurrences.filterMap Occurrence.key? = (w.action?.map Action.key).toList := by
  cases w with
  | program | topLevel | block => rfl
  | trigger pc event body =>
    simp [Visit.occurrences, Visit.action?, filterMap_ofBody, Occurrence.key?]
  | stmt s =>
    cases s with
    | action pc a => rfl
    | cond pc c body other =>
      cases other <;>
        simp [Visit.occurrences, Visit.action?, List.filterMap_append, filterMap_ofBody,
          filterMap_ofComparison, Occurrence.key?]

/-- Of the occurrences of a node one breaks a rule if the node does, and otherwise none. -/
theorem filterMap_breaks_occurrences (v : Violation) (w : Visit) :
    w.occurrences.filterMap (Occurrence.breaks v) = (w.breaks v).toList := by
  cases w with
  | program | topLevel | block => rfl
  | trigger pc event body =>
    cases v <;> simp [Visit.occurrences, Visit.breaks, filterMap_ofBody, Occurrence.breaks]
    split <;> rfl
  | stmt s =>
    cases s with
    | action pc a => rfl
    | cond pc c body other =>
      cases other <;> cases v <;>
        simp [Visit.occurrences, Visit.breaks, List.filterMap_append, filterMap_ofBody,
          filterMap_ofComparison, Occurrence.breaks] <;> split <;> rfl

end Nodes

section Counts

variable {p q : Program}

/-- The errors that are not about repeated actions are at the occurrences that break a rule. -/
theorem map_pc_filter_report {v : Violation} (hv : ∀ k, v ≠ .repeated k)
    (before os : List Occurrence) :
    ((report before os).filter fun e => e.violation = v).map SemanticError.pc =
      os.filterMap (Occurrence.breaks v) := by
  induction os generalizing before with
  | nil => rfl
  | cons o os ih =>
    rw [report, List.filter_append, List.map_append, ih, List.filterMap_cons]
    cases o with
    | action pc a =>
      have hnone : (Occurrence.errors before (.action pc a)).filter (fun e => e.violation = v) = [] := by
        rw [List.filter_eq_nil_iff]
        intro e he
        rw [List.eq_of_mem_replicate he, decide_eq_true_eq]
        exact (hv a.kind).symm
      rw [hnone]
      rfl
    | emptyTrigger pc | emptyThen pc | emptyElse pc | constantComparison pc =>
      simp only [Occurrence.errors, Occurrence.breaks, List.filter_cons, List.filter_nil,
        decide_eq_true_eq, eq_comm (a := v)]
      split <;> rfl

/-- There is one error for each node that breaks a rule by itself. -/
theorem map_pc_filter_check_perm {v : Violation} (hv : ∀ k, v ≠ .repeated k) (p : Program) :
    ((p.check.filter fun e => e.violation = v).map SemanticError.pc).Perm
      (p.visits.filterMap (Visit.breaks v)) := by
  rw [check_occurrences, map_pc_filter_report hv,
    ← filterMap_flatMap_occurrences (filterMap_breaks_occurrences v)]
  exact (occurrences_perm p).filterMap _

/-- The errors of any kind but repetition are as many as the nodes that break the rule. -/
theorem violations_of_ne {v : Violation} (hv : ∀ k, v ≠ .repeated k) (p : Program) :
    p.violations v = (p.visits.filterMap (Visit.breaks v)).length := by
  rw [← (map_pc_filter_check_perm hv p).length_eq, List.length_map, ← List.countP_eq_length_filter]
  rfl

/-- The keys that are remembered are those of the actions, in some order. -/
theorem filterMap_key?_occurrences_perm (p : Program) :
    (p.occurrences.filterMap Occurrence.key?).Perm (p.actions.map Action.key) := by
  rw [Program.actions, List.map_filterMap,
    ← filterMap_flatMap_occurrences filterMap_key?_occurrences]
  exact (occurrences_perm p).filterMap _

/-- There are as many errors because of repeated actions as the numbers of their keys say. -/
theorem violations_repeated (k : ActionKind) (p : Program) :
    p.violations (.repeated k) =
      (k.keys.map fun key => key.excess ((p.actions.map Action.key).count key)).sum := by
  have hrun := Seen.excess_seenIn_append k [] p.occurrences
  have hzero : Seen.excess k (seenIn []) = 0 := by
    cases k <;> decide
  rw [hzero, Nat.zero_add, List.nil_append, ← check_occurrences] at hrun
  unfold Program.violations
  rw [← hrun, Seen.excess]
  apply congrArg List.sum
  apply List.map_congr_left
  intro key _
  rw [seenIn, List.count_reverse, (filterMap_key?_occurrences_perm p).count_eq]

/-- A key is made of the kind, the target and the stat of an action. -/
theorem Action.key_eq (a : Action) : a.key = ⟨a.kind, a.target?, a.stat?⟩ := by
  cases a <;> rfl

/-- The actions with a key are those of its kind that name its target and its stat. -/
theorem count_map_key (as : List Action) (key : ActionKey) :
    (as.map Action.key).count key =
      as.countP fun a => a.kind = key.kind ∧ a.target? = key.target ∧ a.stat? = key.stat := by
  rw [List.count, List.countP_map]
  apply List.countP_congr
  intro a _
  obtain ⟨k, t, s⟩ := key
  simp [Action.key_eq]

/-- The number of errors depends only on which actions there are and on how many nodes break a rule. -/
theorem violations_eq_of_perm (hactions : p.actions.Perm q.actions)
    (hnodes : ∀ v, p.visits.countP (fun w => (w.breaks v).isSome) =
      q.visits.countP fun w => (w.breaks v).isSome) (v : Violation) :
    p.violations v = q.violations v := by
  cases v with
  | repeated k =>
    simp only [violations_repeated, (hactions.map Action.key).count_eq]
  | emptyThen | emptyElse | constantComparison | emptyTrigger =>
    rw [violations_of_ne (by simp), violations_of_ne (by simp), List.length_filterMap_eq_countP,
      List.length_filterMap_eq_countP, hnodes]

end Counts

section Rearrangement

variable {p q : Program}

/-- The number of errors does not depend on offsets. -/
theorem violations_erase (p : Program) (v : Violation) : p.erase.violations v = p.violations v := by
  rw [Program.violations, Program.erase_eq_relocate, Program.check_relocate, List.countP_map]
  rfl

/-- The order of the members of the outermost level does not matter. -/
theorem violations_eq_of_topLevel_perm (h : p.topLevel.Perm q.topLevel) (v : Violation) :
    p.violations v = q.violations v := by
  have hvisits := h.flatMap_right TopLevel.visits
  apply violations_eq_of_perm
  · exact hvisits.filterMap _
  · intro v
    rw [Program.visits, List.countP_cons, Program.visits, List.countP_cons, hvisits.countP_eq]
    rfl

/-- Two blocks are the same but for actions and offsets, and where one has an empty branch the other
has one too. -/
inductive Block.SameFrame : Block → Block → Prop
  | nil : SameFrame [] []
  | actionLeft {pc : Nat} {a : Action} {b b' : Block} : SameFrame b b' → SameFrame (.action pc a :: b) b'
  | actionRight {pc : Nat} {a : Action} {b b' : Block} : SameFrame b b' → SameFrame b (.action pc a :: b')
  | ifThen {pc pc' : Nat} {c : Comparison} {body body' b b' : Block} : (body = [] ↔ body' = []) →
      SameFrame body body' → SameFrame b b' →
      SameFrame (.cond pc c body none :: b) (.cond pc' c body' none :: b')
  | ifElse {pc pc' : Nat} {c : Comparison} {body body' other other' b b' : Block} :
      (body = [] ↔ body' = []) → (other = [] ↔ other' = []) →
      SameFrame body body' → SameFrame other other' → SameFrame b b' →
      SameFrame (.cond pc c body (some other) :: b) (.cond pc' c body' (some other') :: b')

/-- The members of two outermost levels are the same but for actions and offsets, and where one has an
empty block the other has one too. -/
inductive SameOutermostFrame : List TopLevel → List TopLevel → Prop
  | nil : SameOutermostFrame [] []
  | block {b b' : Block} {ms ms' : List TopLevel} : b.SameFrame b' → SameOutermostFrame ms ms' →
      SameOutermostFrame (b.map .stmt ++ ms) (b'.map .stmt ++ ms')
  | trigger {pc pc' : Nat} {e : Event} {body body' : Block} {ms ms' : List TopLevel} :
      (body = [] ↔ body' = []) → body.SameFrame body' → SameOutermostFrame ms ms' →
      SameOutermostFrame (.trigger pc e body :: ms) (.trigger pc' e body' :: ms')

/-- Two programs have the same actions, in whatever order and in whatever blocks they stand, and are
otherwise the same. No block is empty in only one of them. -/
structure Program.ActionsMoved (p q : Program) : Prop where
  frame : SameOutermostFrame p.topLevel q.topLevel
  actions : p.actions.Perm q.actions

/-- A trigger breaks the rule about empty triggers if its body is empty, and no other. -/
theorem Visit.isSome_breaks_trigger (v : Violation) (pc : Nat) (e : Event) (body : Block) :
    (breaks v (.trigger pc e body)).isSome = decide (v = .emptyTrigger ∧ body = []) := by
  rw [breaks, Bool.eq_iff_iff, Option.isSome_ite, decide_eq_true_iff]

/-- A conditional breaks the rules about its branches and about its comparison. -/
theorem Visit.isSome_breaks_cond (v : Violation) (pc : Nat) (c : Comparison) (body : Block)
    (other : Option Block) :
    (breaks v (.stmt (.cond pc c body other))).isSome =
      decide (v = .emptyThen ∧ body = [] ∨ v = .emptyElse ∧ other = some [] ∨
        v = .constantComparison ∧ c.BothImmediate) := by
  rw [breaks, Bool.eq_iff_iff, Option.isSome_ite, decide_eq_true_iff]

/-- Blocks of the same frame hold as many nodes that break a rule. -/
theorem Block.SameFrame.countP_breaks {b b' : Block} (h : b.SameFrame b') (v : Violation) :
    (Block.visits b).countP (fun w => (w.breaks v).isSome) =
      (Block.visits b').countP fun w => (w.breaks v).isSome := by
  induction h with
  | nil => rfl
  | actionLeft _ ih => exact ih
  | actionRight _ ih => exact ih
  | ifThen hbody _ _ ihbody ih =>
    simp only [Block.visits, Stmt.visits, List.countP_append, List.countP_cons, ihbody, ih,
      Visit.isSome_breaks_cond, hbody]
    rfl
  | ifElse hbody hother _ _ _ ihbody ihother ih =>
    simp only [Block.visits, Stmt.visits, List.countP_append, List.countP_cons, ihbody, ihother, ih,
      Visit.isSome_breaks_cond, hbody, hother, Option.some.injEq]
    rfl

/-- The nodes of a block that break a rule are as many at the outermost level. -/
theorem countP_breaks_map_stmt (v : Violation) (b : Block) :
    ((b.map .stmt).flatMap TopLevel.visits).countP (fun w => (w.breaks v).isSome) =
      (Block.visits b).countP fun w => (w.breaks v).isSome := by
  rw [← List.length_filterMap_eq_countP, filterMap_visits_map_stmt fun _ => rfl,
    List.length_filterMap_eq_countP]

/-- Outermost levels of the same frame hold as many nodes that break a rule. -/
theorem SameOutermostFrame.countP_breaks {ms ms' : List TopLevel} (h : SameOutermostFrame ms ms')
    (v : Violation) :
    (ms.flatMap TopLevel.visits).countP (fun w => (w.breaks v).isSome) =
      (ms'.flatMap TopLevel.visits).countP fun w => (w.breaks v).isSome := by
  induction h with
  | nil => rfl
  | block hblock _ ih =>
    rw [List.flatMap_append, List.countP_append, List.flatMap_append, List.countP_append, ih,
      countP_breaks_map_stmt, countP_breaks_map_stmt, hblock.countP_breaks]
  | trigger hempty hbody _ ih =>
    simp only [List.flatMap_cons, List.countP_append, TopLevel.visits, List.countP_cons, ih,
      hbody.countP_breaks, Visit.isSome_breaks_trigger, hempty]
    rfl

/-- Where the actions stand does not matter. -/
theorem violations_eq_of_actionsMoved (h : p.ActionsMoved q) (v : Violation) :
    p.violations v = q.violations v := by
  apply violations_eq_of_perm h.actions
  intro v
  rw [Program.visits, List.countP_cons, Program.visits, List.countP_cons, h.frame.countP_breaks]
  rfl

end Rearrangement

section ClosedForm

variable {k : ActionKind}

/-- Actions without a target are reported once each, but for the first of their kind. -/
theorem violations_untargeted (hk : k ∈ [ActionKind.draw, .discard, .createToken]) (p : Program) :
    p.violations (.repeated k) = (p.actions.countP fun a => a.kind = k) - 1 := by
  have hkeys : k.keys = [⟨k, none, none⟩] := by
    revert k
    decide
  have hnames : ∀ a : Action, a.kind = k → a.target? = none ∧ a.stat? = none := by
    intro a ha
    subst ha
    cases a <;> simp_all [Action.kind, Action.target?, Action.stat?]
  have hcount : (p.actions.map Action.key).count ⟨k, none, none⟩ =
      p.actions.countP fun a => a.kind = k := by
    rw [count_map_key]
    apply List.countP_congr
    intro a _
    rw [decide_eq_true_iff, decide_eq_true_iff]
    exact and_iff_left_of_imp (hnames a)
  rw [violations_repeated, hkeys, List.map_singleton, List.sum_singleton, hcount]
  rfl

/-- Actions with a target are reported once for each pair with the same target. -/
theorem violations_targeted (hk : k ∈ [ActionKind.destroy, .damage, .heal]) (p : Program) :
    p.violations (.repeated k) = ((ByteCoded.all Target).map fun t =>
      let n := p.actions.countP fun a => a.kind = k ∧ a.target? = some t
      n * (n - 1) / 2).sum := by
  have hkeys : k.keys = (ByteCoded.all Target).map fun t => ⟨k, some t, none⟩ := by
    revert k
    decide
  have hnames : ∀ a : Action, a.kind = k → a.stat? = none := by
    intro a ha
    subst ha
    cases a <;> simp_all [Action.kind, Action.stat?]
  have hcount (t : Target) : (p.actions.map Action.key).count ⟨k, some t, none⟩ =
      p.actions.countP fun a => a.kind = k ∧ a.target? = some t := by
    rw [count_map_key]
    apply List.countP_congr
    intro a _
    rw [decide_eq_true_iff, decide_eq_true_iff, ← and_assoc]
    exact and_iff_left_of_imp fun h => hnames a h.1
  rw [violations_repeated, hkeys, List.map_map]
  apply congrArg List.sum
  apply List.map_congr_left
  intro t _
  rw [Function.comp_apply, hcount]
  rfl

/-- Actions with a stat are reported once for each pair with the same target and stat. -/
theorem violations_of_stat (hk : k ∈ [ActionKind.buffStat, .debuffStat]) (p : Program) :
    p.violations (.repeated k) = ((ByteCoded.all Target).map fun t =>
      ((ByteCoded.all Stat).map fun s =>
        let n := p.actions.countP fun a => a.kind = k ∧ a.target? = some t ∧ a.stat? = some s
        n * (n - 1) / 2).sum).sum := by
  have hkeys : k.keys = (ByteCoded.all Target).flatMap fun t =>
      (ByteCoded.all Stat).map fun s => ⟨k, some t, some s⟩ := by
    revert k
    decide
  rw [violations_repeated, hkeys, List.map_flatMap, List.flatMap_def, List.sum_flatten, List.map_map]
  apply congrArg List.sum
  apply List.map_congr_left
  intro t _
  rw [Function.comp_apply, List.map_map]
  apply congrArg List.sum
  apply List.map_congr_left
  intro s _
  rw [Function.comp_apply, count_map_key]
  rfl

end ClosedForm

/-- Among `n` actions of a kind without a target the check finds `n - 1` errors. If there is a target it
finds `n * (n - 1) / 2` for every target, and for changes of stats for every target and stat. Of the
other errors there is one for each node that breaks a rule, at the offset of that node. The numbers of
errors do not change when members of the outermost level change places, nor when actions move from
block to block and no block becomes empty or ceases to be, whatever the offsets are. -/
theorem violations_closed_form (p : Program) :
    (∀ k ∈ [ActionKind.draw, .discard, .createToken],
      p.violations (.repeated k) = (p.actions.countP fun a => a.kind = k) - 1) ∧
    (∀ k ∈ [ActionKind.destroy, .damage, .heal],
      p.violations (.repeated k) = ((ByteCoded.all Target).map fun t =>
        let n := p.actions.countP fun a => a.kind = k ∧ a.target? = some t
        n * (n - 1) / 2).sum) ∧
    (∀ k ∈ [ActionKind.buffStat, .debuffStat],
      p.violations (.repeated k) = ((ByteCoded.all Target).map fun t =>
        ((ByteCoded.all Stat).map fun s =>
          let n := p.actions.countP fun a => a.kind = k ∧ a.target? = some t ∧ a.stat? = some s
          n * (n - 1) / 2).sum).sum) ∧
    (∀ v, (∀ k, v ≠ .repeated k) →
      ((p.check.filter fun e => e.violation = v).map SemanticError.pc).Perm
        (p.visits.filterMap (Visit.breaks v))) ∧
    (∀ q : Program, p.erase.topLevel.Perm q.erase.topLevel →
      ∀ v, p.violations v = q.violations v) ∧
    ∀ q : Program, p.ActionsMoved q → ∀ v, p.violations v = q.violations v := by
  refine ⟨fun k hk => violations_untargeted hk p, fun k hk => violations_targeted hk p,
    fun k hk => violations_of_stat hk p, fun v hv => map_pc_filter_check_perm hv p, ?_, ?_⟩
  · intro q hperm v
    rw [← violations_erase, violations_eq_of_topLevel_perm hperm, violations_erase]
  · intro q hmoved v
    exact violations_eq_of_actionsMoved hmoved v

/-- Three times the enemy is destroyed, which is three errors. They stay three when the actions are moved
into the trigger and its conditional, and when the trigger comes first. -/
theorem violations_closed_form_of_moved_actions :
    let c : Comparison := ⟨.gt, .imm ⟨5⟩, .statOf .opponent .attack⟩
    let destroy (pc : Nat) : Stmt := .action pc (.destroy .enemy)
    let p : Program :=
      ⟨[.stmt (destroy 1), .trigger 3 .onDeath [destroy 5, .cond 7 c [.action 14 (.draw ⟨1⟩)] none],
        .stmt (destroy 18)],
        20⟩
    let moved : Program :=
      ⟨[.trigger 1 .onDeath [.cond 3 c [destroy 10, destroy 12, .action 14 (.draw ⟨1⟩)] none, destroy 17]],
        20⟩
    let reordered : Program :=
      ⟨[.trigger 1 .onDeath [destroy 3, .cond 5 c [.action 12 (.draw ⟨1⟩)] none], .stmt (destroy 16),
        .stmt (destroy 18)],
        20⟩
    p.violations (.repeated .destroy) = 3 ∧
      p.ActionsMoved moved ∧ moved.violations (.repeated .destroy) = 3 ∧
      p.erase.topLevel.Perm reordered.erase.topLevel ∧ reordered.violations (.repeated .destroy) = 3 := by
  intro c destroy p moved reordered
  obtain ⟨-, htargeted, -, -, hreordered, hmoved⟩ := violations_closed_form p
  have hthree : p.violations (.repeated .destroy) = 3 := by
    rw [htargeted .destroy (by decide)]
    decide
  have hgone (pc : Nat) : Block.SameFrame [destroy pc] [] := .actionLeft .nil
  have hbranch : Block.SameFrame [.action 14 (.draw ⟨1⟩)]
      [destroy 10, destroy 12, .action 14 (.draw ⟨1⟩)] :=
    .actionLeft (.actionRight (.actionRight (.actionRight .nil)))
  have hbody : Block.SameFrame [destroy 5, .cond 7 c [.action 14 (.draw ⟨1⟩)] none]
      [.cond 3 c [destroy 10, destroy 12, .action 14 (.draw ⟨1⟩)] none, destroy 17] :=
    .actionLeft (.ifThen (by decide) hbranch (.actionRight .nil))
  have hframe : p.ActionsMoved moved :=
    ⟨.block (hgone 1) (.trigger (by decide) hbody (.block (hgone 18) .nil)), by decide⟩
  have hperm : p.erase.topLevel.Perm reordered.erase.topLevel := by decide
  exact ⟨hthree, hframe, hmoved moved hframe _ ▸ hthree, hperm, hreordered reordered hperm _ ▸ hthree⟩

end AbilityScript
