import AbilityScript.Proofs.Blocks.Grammar

/-!
# Recovery by a single scan

The recovery of blocks recurses into a block and waits for what closes it. Here the same is done by
one scan from left to right that only remembers which blocks are open. An instruction that fits
nowhere is stray and changes nothing; the scan ends at the first `END` outside all blocks.

The two agree on every instruction list, however malformed: `parse_refines_blockScan`. The induction
is over the rules of the recovery. It says that what a rule reads adds its own errors in front of
those of the scan of what it leaves, with the blocks around it still open. At the end of the
instructions this puts the complaints about open blocks in order, the innermost first.

## Main definitions

* `OpenBlock`, `OpenBlock.after`: an open block, and the open blocks after an instruction.
* `blockScan`: the scan, and what it keeps, drops and leaves open.

## Main statements

* `parse_refines_blockScan`: the recovery finds the program, and the errors, of the scan.
-/

set_option autoImplicit false

namespace AbilityScript

/-- A block that is open. -/
inductive OpenBlock where
  | thenBranch
  | elseBranch
  | trigger
deriving DecidableEq, Repr

namespace OpenBlock

/-- The instruction that closes a block. -/
def closer : OpenBlock → Opcode
  | .thenBranch | .elseBranch => .endIf
  | .trigger => .endWhen

/-- What the statements inside open blocks belong to; the innermost block comes first. -/
def context : List OpenBlock → Context
  | [] => .outermost
  | .thenBranch :: _ => .thenBranch
  | .elseBranch :: _ => .elseBranch
  | .trigger :: _ => .trigger

/-- The open blocks after an instruction, the innermost first, unless the instruction is stray. -/
def after : List OpenBlock → Instruction → Option (List OpenBlock)
  | stack, .action _ => some stack
  | stack, .ifTest _ => some (.thenBranch :: stack)
  | [], .whenEvent _ => some [.trigger]
  | .thenBranch :: stack, .elseMark => some (.elseBranch :: stack)
  | .thenBranch :: stack, .endIf | .elseBranch :: stack, .endIf => some stack
  | .trigger :: stack, .endWhen => some stack
  | _, _ => none

end OpenBlock

/-- How a scan ends. -/
inductive ScanEnd where
  /-- At an `END` outside all blocks, with the instructions after it. -/
  | closed (pc : Nat) (after : List Located)
  /-- At the end of the instructions, with the blocks that are still open. -/
  | exhausted (stack : List OpenBlock)
deriving DecidableEq, Repr

/-- What a scan finds. -/
structure BlockScan where
  /-- The instructions that have a place, without the `END` that closes the outermost level. -/
  kept : List Located
  /-- The instructions that fit nowhere. -/
  stray : List Located
  /-- How the scan ends. -/
  ending : ScanEnd
deriving DecidableEq, Repr

namespace BlockScan

/-- A scan with one more instruction in front that has a place. -/
def keep (i : Located) (s : BlockScan) : BlockScan :=
  { s with kept := i :: s.kept }

/-- A scan with one more instruction in front that fits nowhere. -/
def drop (i : Located) (s : BlockScan) : BlockScan :=
  { s with stray := i :: s.stray }

/-- What a scan complains about: every `END` inside a block, and at the end of the instructions every
open block, the innermost first, and the lack of an `END`. -/
def errors (s : BlockScan) : List ParseError :=
  (s.stray.filter Located.isStop).map (fun l => .unexpectedTerminator .stop l.pc) ++
    match s.ending with
    | .closed _ _ => []
    | .exhausted stack =>
      stack.map (fun b => .expectedButReachedEnd b.closer) ++ [.missingTerminator]

/-- The offset of the `END` that closes the outermost level, and the instructions after it. -/
def closed? (s : BlockScan) : Option (Nat × List Located) :=
  match s.ending with
  | .closed pc after => some (pc, after)
  | .exhausted _ => none

end BlockScan

/-- Scans instructions from left to right inside open blocks, the innermost of which comes first. -/
def blockScan (stack : List OpenBlock) : List Located → BlockScan
  | [] => { kept := [], stray := [], ending := .exhausted stack }
  | i :: is =>
    if stack = [] ∧ i.instr = .stop then { kept := [], stray := [], ending := .closed i.pc is }
    else
      match OpenBlock.after stack i.instr with
      | some stack => (blockScan stack is).keep i
      | none => (blockScan stack is).drop i

namespace BlockScan

/-- An instruction that has a place gives no cause for complaint. -/
@[simp] theorem errors_keep (i : Located) (s : BlockScan) : (s.keep i).errors = s.errors := rfl

/-- An instruction that has a place leaves the end of the outermost level where it is. -/
@[simp] theorem closed?_keep (i : Located) (s : BlockScan) : (s.keep i).closed? = s.closed? := rfl

/-- A scan is closed exactly if it ends so. -/
theorem closed?_eq_some {s : BlockScan} {pc : Nat} {after : List Located} :
    s.closed? = some (pc, after) ↔ s.ending = .closed pc after := by
  obtain ⟨kept, stray, ending⟩ := s
  cases ending <;> simp [closed?]

/-- A scan is closed exactly if it does not reach the end of the instructions. -/
theorem isSome_closed? {s : BlockScan} :
    s.closed?.isSome ↔ ∃ pc after, s.ending = .closed pc after := by
  simp [Option.isSome_iff_exists, closed?_eq_some]

/-- There are three kinds of complaints. -/
theorem mem_errors {s : BlockScan} {e : ParseError} (he : e ∈ s.errors) :
    (∃ pc, e = .unexpectedTerminator .stop pc) ∨ (∃ closer, e = .expectedButReachedEnd closer) ∨
      e = .missingTerminator := by
  rw [errors, List.mem_append] at he
  obtain he | he := he
  · obtain ⟨l, -, rfl⟩ := List.mem_map.1 he
    exact .inl ⟨l.pc, rfl⟩
  · split at he
    · exact absurd he List.not_mem_nil
    · rw [List.mem_append, List.mem_map, List.mem_singleton] at he
      obtain ⟨b, -, rfl⟩ | rfl := he
      · exact .inr (.inl ⟨b.closer, rfl⟩)
      · exact .inr (.inr rfl)

/-- Only an `END` that fits nowhere is complained about. -/
theorem errors_drop_of_ne {i : Located} (hi : i.instr ≠ .stop) (s : BlockScan) :
    (s.drop i).errors = s.errors := by
  simp [errors, drop, Located.isStop, hi]

/-- An `END` that fits nowhere is complained about before anything else. -/
theorem errors_drop_stop (pc : Nat) (s : BlockScan) :
    (s.drop ⟨pc, .stop⟩).errors = .unexpectedTerminator .stop pc :: s.errors := by
  simp [errors, drop, Located.isStop]

end BlockScan

/-- A scan keeps an instruction that has a place, and goes on in the blocks that are open after it. -/
theorem blockScan_keep {stack stack' : List OpenBlock} {i : Located}
    (h : OpenBlock.after stack i.instr = some stack') (is : List Located) :
    blockScan stack (i :: is) = (blockScan stack' is).keep i := by
  have hstop : ¬(stack = [] ∧ i.instr = .stop) := by
    rintro ⟨rfl, hi⟩
    rw [hi] at h
    simp [OpenBlock.after] at h
  rw [blockScan, if_neg hstop, h]

/-- A scan drops an instruction that fits nowhere, and goes on in the same blocks. -/
theorem blockScan_drop {stack : List OpenBlock} {i : Located}
    (h : OpenBlock.after stack i.instr = none) (hi : stack = [] → i.instr ≠ .stop)
    (is : List Located) :
    blockScan stack (i :: is) = (blockScan stack is).drop i := by
  have hstop : ¬(stack = [] ∧ i.instr = .stop) := fun h => hi h.1 h.2
  rw [blockScan, if_neg hstop, h]

/-- An action has a place everywhere. -/
theorem blockScan_action (stack : List OpenBlock) (pc : Nat) (a : Action) (is : List Located) :
    blockScan stack (⟨pc, .action a⟩ :: is) = (blockScan stack is).keep ⟨pc, .action a⟩ := by
  cases stack <;> exact blockScan_keep rfl is

/-- A condition has a place everywhere and opens a branch. -/
theorem blockScan_ifTest (stack : List OpenBlock) (pc : Nat) (c : Comparison) (is : List Located) :
    blockScan stack (⟨pc, .ifTest c⟩ :: is) =
      (blockScan (.thenBranch :: stack) is).keep ⟨pc, .ifTest c⟩ := by
  cases stack <;> exact blockScan_keep rfl is

/-- An `ELSE` has a place at the end of a first branch and opens the second one. -/
theorem blockScan_elseMark (stack : List OpenBlock) (pc : Nat) (is : List Located) :
    blockScan (.thenBranch :: stack) (⟨pc, .elseMark⟩ :: is) =
      (blockScan (.elseBranch :: stack) is).keep ⟨pc, .elseMark⟩ :=
  blockScan_keep rfl is

/-- An event has a place outside all blocks and opens a trigger. -/
theorem blockScan_whenEvent (pc : Nat) (e : Event) (is : List Located) :
    blockScan [] (⟨pc, .whenEvent e⟩ :: is) =
      (blockScan [.trigger] is).keep ⟨pc, .whenEvent e⟩ :=
  blockScan_keep rfl is

/-- An `END` outside all blocks ends the scan. -/
theorem blockScan_stop (pc : Nat) (is : List Located) :
    blockScan [] (⟨pc, .stop⟩ :: is) = { kept := [], stray := [], ending := .closed pc is } := by
  rw [blockScan, if_pos ⟨rfl, rfl⟩]

namespace OpenBlock

/-- A delimiter at which the innermost open block does not stop is stray. -/
theorem after_eq_none {stack : List OpenBlock} {i : Instruction} (hi : i.isDelimiter = true)
    (hstops : (context stack).stopsAt i = false) : after stack i = none := by
  match stack with
  | [] => cases i <;> simp_all [context, after, Context.stopsAt, Instruction.isDelimiter]
  | b :: stack =>
    cases b <;> cases i <;> simp_all [context, after, Context.stopsAt, Instruction.isDelimiter]

/-- No block goes on behind an `END`. -/
theorem after_stop (stack : List OpenBlock) : after stack .stop = none := by
  match stack with
  | [] => rfl
  | b :: stack => cases b <;> rfl

/-- An instruction at which the innermost open block stops closes it, unless it is the `ELSE` of that
block. -/
theorem after_closer {b : OpenBlock} {i : Instruction} (stack : List OpenBlock)
    (hstops : (context (b :: stack)).stopsAt i = true) (hi : b = .thenBranch → i ≠ .elseMark) :
    after (b :: stack) i = some stack ∧ i.opcode = b.closer := by
  cases b <;> cases i <;>
    simp_all [context, after, Context.stopsAt, closer, Instruction.opcode]

end OpenBlock

/-- Where the innermost open block stops, its closing adds the complaint, if there is one, to the scan
of what follows. -/
theorem blockScan_closeBlock (b : OpenBlock) (stack : List OpenBlock) {mid : List Located}
    (hmid : mid = [] ∨ ∃ i js, mid = i :: js ∧
      (OpenBlock.context (b :: stack)).stopsAt i.instr = true)
    (helse : b = .thenBranch → ∀ mark js, mid ≠ ⟨mark, .elseMark⟩ :: js) :
    (blockScan (b :: stack) mid).errors = (closeBlock b.closer mid).errors ++
        (blockScan stack (closeBlock b.closer mid).rest).errors ∧
      (blockScan (b :: stack) mid).closed? =
        (blockScan stack (closeBlock b.closer mid).rest).closed? := by
  obtain rfl | ⟨⟨pc, i⟩, js, rfl, hstops⟩ := hmid
  · exact ⟨rfl, rfl⟩
  · have hi : b = .thenBranch → i ≠ .elseMark := by
      rintro hb rfl
      exact helse hb pc js rfl
    obtain ⟨hafter, hop⟩ := OpenBlock.after_closer stack hstops hi
    rw [blockScan_keep hafter]
    simp [closeBlock, hop]

/-- What a rule reads puts its errors in front of those of the scan of what it leaves. -/
theorem ReadsBlock.blockScan_eq {ctx : Context} {is rest : List Located} {b : Block}
    {errors : List ParseError} (h : ReadsBlock ctx is b errors rest) :
    ∀ stack, OpenBlock.context stack = ctx →
      (blockScan stack is).errors = errors ++ (blockScan stack rest).errors ∧
        (blockScan stack is).closed? = (blockScan stack rest).closed? := by
  induction h with
  | nil | stops =>
    intro stack _
    exact ⟨rfl, rfl⟩
  | action _ ih =>
    intro stack hctx
    rw [blockScan_action]
    exact ih stack hctx
  | @ifThen ctx pc c is mid _ _ _ inBody errors hbody hmid _ ihbody ihrest =>
    intro stack hctx
    obtain ⟨herrors, hclosed⟩ := ihbody (.thenBranch :: stack) rfl
    obtain ⟨herrors', hclosed'⟩ := blockScan_closeBlock .thenBranch stack hbody.rest_eq
      fun _ => hmid
    obtain ⟨herrors'', hclosed''⟩ := ihrest stack hctx
    rw [blockScan_ifTest]
    constructor
    · simp only [BlockScan.errors_keep, herrors, herrors', OpenBlock.closer, herrors'',
        List.append_assoc]
    · simp only [BlockScan.closed?_keep, hclosed, hclosed', OpenBlock.closer, hclosed'']
  | @ifElse ctx pc mark c is js mid _ _ _ _ _ _ _ hbody hother _ ihbody ihother ihrest =>
    intro stack hctx
    obtain ⟨herrors, hclosed⟩ := ihbody (.thenBranch :: stack) rfl
    obtain ⟨herrors', hclosed'⟩ := ihother (.elseBranch :: stack) rfl
    obtain ⟨herrors'', hclosed''⟩ := blockScan_closeBlock .elseBranch stack hother.rest_eq
      fun h => by cases h
    obtain ⟨herrorsRest, hclosedRest⟩ := ihrest stack hctx
    rw [blockScan_ifTest]
    rw [blockScan_elseMark] at herrors hclosed
    constructor
    · simp only [BlockScan.errors_keep, herrors, herrors', OpenBlock.closer, herrors'', herrorsRest,
        List.append_assoc]
    · simp only [BlockScan.closed?_keep, hclosed, hclosed', OpenBlock.closer, hclosed'', hclosedRest]
  | @stop ctx pc is _ _ _ hctx _ ih =>
    rintro stack rfl
    have hstack : stack ≠ [] := by
      rintro rfl
      exact hctx rfl
    rw [blockScan_drop (OpenBlock.after_stop stack) (fun h => absurd h hstack),
      BlockScan.errors_drop_stop, (ih stack rfl).1]
    exact ⟨rfl, (ih stack rfl).2⟩
  | @stray ctx i is _ _ _ hi hctx _ ih =>
    rintro stack rfl
    have hstop : i.instr ≠ .stop := by
      intro h
      simp [h, Instruction.isDelimiter] at hi
    rw [blockScan_drop (OpenBlock.after_eq_none hi hctx) (fun _ => hstop),
      BlockScan.errors_drop_of_ne hstop]
    exact ih stack rfl

/-- The outermost level is complained about as by the scan, and closed where the scan ends. -/
theorem ReadsOutermost.blockScan_eq {is : List Located} {members : List TopLevel}
    {endPc : Option Nat} {errors : List ParseError}
    (h : ReadsOutermost is members endPc errors) :
    (blockScan [] is).errors = errors ∧ (blockScan [] is).closed?.map Prod.fst = endPc := by
  induction h with
  | exhausted hblock =>
    obtain ⟨herrors, hclosed⟩ := hblock.blockScan_eq [] rfl
    rw [herrors, hclosed]
    exact ⟨rfl, rfl⟩
  | closed hblock =>
    obtain ⟨herrors, hclosed⟩ := hblock.blockScan_eq [] rfl
    rw [herrors, hclosed, blockScan_stop]
    exact ⟨List.append_nil _, rfl⟩
  | trigger hblock hbody _ ih =>
    obtain ⟨herrors, hclosed⟩ := hblock.blockScan_eq [] rfl
    obtain ⟨herrors', hclosed'⟩ := hbody.blockScan_eq [.trigger] rfl
    obtain ⟨herrors'', hclosed''⟩ := blockScan_closeBlock .trigger [] hbody.rest_eq
      fun h => by cases h
    rw [blockScan_whenEvent] at herrors hclosed
    rw [herrors, hclosed, BlockScan.errors_keep, BlockScan.closed?_keep, herrors', hclosed',
      herrors'', hclosed'']
    constructor
    · rw [← ih.1]
      simp only [OpenBlock.closer, List.append_assoc]
    · exact ih.2

/-- If something is left behind a closed block, an instruction was taken to close it. -/
theorem exists_of_rest_closeBlock {closer : Opcode} {mid front tail : List Located} {l : Located}
    (h : (closeBlock closer mid).rest = front ++ l :: tail) :
    ∃ m, mid = m :: (front ++ l :: tail) := by
  cases mid with
  | nil => simp [closeBlock] at h
  | cons m js => exact ⟨m, by rw [← h]; rfl⟩

/-- What a sequence of statements is does not depend on what follows the instruction it ends at. -/
theorem ReadsBlock.exists_front {ctx : Context} {is tail : List Located} {l : Located} {b : Block}
    {errors : List ParseError} (h : ReadsBlock ctx is b errors (l :: tail)) :
    ∃ front, is = front ++ l :: tail ∧
      ∀ other, ReadsBlock ctx (front ++ l :: other) b errors (l :: other) := by
  generalize hrest : l :: tail = rest at h
  induction h generalizing l tail with
  | nil => exact absurd hrest (List.cons_ne_nil _ _)
  | stops h =>
    obtain ⟨rfl, rfl⟩ := List.cons.inj hrest
    exact ⟨[], rfl, fun other => .stops h⟩
  | action _ ih =>
    obtain ⟨front, rfl, hfront⟩ := ih hrest
    exact ⟨_ :: front, rfl, fun other => .action (hfront other)⟩
  | @ifThen _ pc c _ _ _ _ _ _ _ _ hmid _ ihbody ihrest =>
    subst hrest
    obtain ⟨front, hfront, hleft⟩ := ihrest rfl
    obtain ⟨m, rfl⟩ := exists_of_rest_closeBlock hfront
    obtain ⟨frontBody, rfl, hbody⟩ := ihbody rfl
    refine ⟨⟨pc, .ifTest c⟩ :: (frontBody ++ m :: front), by simp, fun other => ?_⟩
    have hmid' : ∀ mark js, m :: (front ++ l :: other) ≠ ⟨mark, .elseMark⟩ :: js :=
      fun mark js h => hmid mark _ (by rw [(List.cons.inj h).1])
    have hread : ReadsBlock _ (⟨pc, .ifTest c⟩ :: _) _ _ _ := .ifThen (hbody _) hmid' (hleft other)
    rw [List.cons_append, List.append_assoc]
    exact hread
  | @ifElse _ pc mark c _ _ _ _ _ _ _ _ _ _ _ _ _ ihbody ihother ihrest =>
    subst hrest
    obtain ⟨front, hfront, hleft⟩ := ihrest rfl
    obtain ⟨m, rfl⟩ := exists_of_rest_closeBlock hfront
    obtain ⟨frontOther, rfl, hother⟩ := ihother rfl
    obtain ⟨frontBody, rfl, hbody⟩ := ihbody rfl
    refine ⟨⟨pc, .ifTest c⟩ :: (frontBody ++ ⟨mark, .elseMark⟩ :: (frontOther ++ m :: front)),
      by simp, fun other => ?_⟩
    have hread : ReadsBlock _ (⟨pc, .ifTest c⟩ :: _) _ _ _ :=
      .ifElse (hbody _) (hother _) (hleft other)
    rw [List.cons_append, List.append_assoc, List.cons_append, List.append_assoc]
    exact hread
  | stop hctx _ ih =>
    obtain ⟨front, rfl, hfront⟩ := ih hrest
    exact ⟨_ :: front, rfl, fun other => .stop hctx (hfront other)⟩
  | stray hi hctx _ ih =>
    obtain ⟨front, rfl, hfront⟩ := ih hrest
    exact ⟨_ :: front, rfl, fun other => .stray hi hctx (hfront other)⟩

/-- What follows the `END` that closes the outermost level has no influence. -/
theorem ReadsOutermost.exists_front {is : List Located} {members : List TopLevel} {pc : Nat}
    {errors : List ParseError} (h : ReadsOutermost is members (some pc) errors) :
    ∃ front tail, is = front ++ ⟨pc, .stop⟩ :: tail ∧ (blockScan [] is).closed? = some (pc, tail) ∧
      ∀ other, ReadsOutermost (front ++ ⟨pc, .stop⟩ :: other) members (some pc) errors := by
  generalize hend : some pc = endPc at h
  induction h with
  | exhausted => exact absurd hend (Option.some_ne_none pc)
  | @closed _ tail _ _ _ hblock =>
    obtain rfl := Option.some.inj hend
    obtain ⟨front, rfl, hfront⟩ := hblock.exists_front
    refine ⟨front, tail, rfl, ?_, fun other => .closed (hfront other)⟩
    rw [(hblock.blockScan_eq [] rfl).2, blockScan_stop]
    rfl
  | @trigger _ _ _ _ _ _ _ _ _ _ when e hblock hbody _ ih =>
    obtain ⟨front, tail, hfront, hclosed, hleft⟩ := ih hend
    obtain ⟨m, rfl⟩ := exists_of_rest_closeBlock hfront
    obtain ⟨frontBody, rfl, hbody'⟩ := hbody.exists_front
    obtain ⟨frontBlock, rfl, hblock'⟩ := hblock.exists_front
    refine ⟨frontBlock ++ ⟨when, .whenEvent e⟩ :: (frontBody ++ m :: front), tail, by simp, ?_,
      fun other => ?_⟩
    · rw [(hblock.blockScan_eq [] rfl).2, blockScan_whenEvent, BlockScan.closed?_keep,
        (hbody.blockScan_eq [.trigger] rfl).2,
        (blockScan_closeBlock .trigger [] hbody.rest_eq fun h => by cases h).2]
      exact hclosed
    · have hread := ReadsOutermost.trigger (hblock' _) (hbody' _) (hleft other)
      rw [List.append_assoc, List.cons_append, List.append_assoc]
      exact hread

/-- The recovery of blocks does what the scan does. There is a program exactly if the scan ends at an
`END` outside all blocks; that `END` closes it, and what follows has no influence. The errors are one
for each `END` inside a block, in order, and if no `END` closes the outermost level, then one for each
block that is still open, the innermost first, and one for the lack of an `END`. So no other error
occurs: the branches of `readStmt`, `readCond`, `readTrigger` and of closing a block that have one are
never taken. -/
theorem parse_refines_blockScan (is : List Located) :
    let scan := blockScan [] is
    ((parse is).program.isSome ↔ ∃ pc after, scan.ending = .closed pc after) ∧
    (∀ pc after, scan.ending = .closed pc after →
      (parse is).program.map Program.endPc = some pc ∧
      ∃ before, is = before ++ ⟨pc, .stop⟩ :: after ∧
        ∀ other, parse (before ++ ⟨pc, .stop⟩ :: other) = parse is) ∧
    (parse is).errors =
      (scan.stray.filter Located.isStop).map (fun l => .unexpectedTerminator .stop l.pc) ++
        (match scan.ending with
        | .closed _ _ => []
        | .exhausted stack =>
          stack.map (fun b => .expectedButReachedEnd b.closer) ++ [.missingTerminator]) ∧
    ∀ e ∈ (parse is).errors,
      (∀ closer found pc, e ≠ .expected closer found pc) ∧ (∀ pc, e ≠ .missingComparison pc) ∧
        e ≠ .unexpectedEndOfInput := by
  have hread := readsOutermost_readOutermost is
  obtain ⟨herrors, hclosed⟩ := hread.blockScan_eq
  have hparse := hread.parse_eq
  have herrors' : (parse is).errors = (blockScan [] is).errors := by rw [hparse, herrors]
  refine ⟨?_, fun pc after hending => ?_, herrors', fun e he => ?_⟩
  · rw [hparse, Option.isSome_map, ← hclosed, Option.isSome_map]
    exact BlockScan.isSome_closed?
  · have hscan := BlockScan.closed?_eq_some.2 hending
    have hend : (readOutermost is).2.1 = some pc := by rw [← hclosed, hscan]; rfl
    rw [hend] at hread hparse
    obtain ⟨before, tail, hsplit, htail, hother⟩ := hread.exists_front
    obtain rfl : after = tail := by
      rw [hscan] at htail
      exact (Prod.mk.inj (Option.some.inj htail)).2
    refine ⟨by rw [hparse]; rfl, before, hsplit, fun other => ?_⟩
    rw [(hother other).parse_eq, hparse]
  · rw [herrors'] at he
    obtain ⟨_, rfl⟩ | ⟨_, rfl⟩ | rfl := BlockScan.mem_errors he <;> simp

end AbilityScript
