import AbilityScript.Proofs.Blocks.Nesting

/-!
# What is left without stray instructions

The scan of distinct instructions splits them by membership: what is not stray is what the scan keeps,
then the `END` that closes the outermost level and what follows it. So a program is spelled by the
instructions that it was recovered from, once the stray ones are removed.

## Main statements

* `filter_notMem_stray`: the instructions that are not stray.
* `spelledBy_filter_stray`: they spell the program that is recovered, if an `END` comes last.
-/

set_option autoImplicit false

namespace AbilityScript

/-- The instructions that a scan does not look at, with the `END` before them. -/
def ScanEnd.left : ScanEnd → List Located
  | .closed pc after => ⟨pc, .stop⟩ :: after
  | .exhausted _ => []

/-- Only delimiters and `END` can be stray. -/
theorem isDelimiter_of_mem_stray {stack : List OpenBlock} {is : List Located} {l : Located}
    (h : l ∈ (blockScan stack is).stray) : l.instr.isDelimiter = true ∨ l.instr = .stop := by
  obtain ⟨-, stack', hstray⟩ := mem_stray h
  cases hi : l.instr with
  | action a | ifTest c =>
    rw [hi] at hstray
    exact absurd hstray Bool.false_ne_true
  | elseMark | endIf | whenEvent e | endWhen => exact .inl rfl
  | stop => exact .inr rfl

/-- Of distinct instructions, those that are not stray are the ones that are kept and the ones that
are left. -/
theorem filter_notMem_stray {is : List Located} (hnodup : is.Nodup) (stack : List OpenBlock) :
    is.filter (fun l => l ∉ (blockScan stack is).stray) =
      (blockScan stack is).kept ++ (blockScan stack is).ending.left := by
  induction is generalizing stack with
  | nil => rfl
  | cons i is ih =>
    obtain ⟨hi, hnodup⟩ := List.nodup_cons.1 hnodup
    rw [blockScan]
    split
    · rename_i hstop
      obtain ⟨pc, instr⟩ := i
      obtain rfl : instr = .stop := hstop.2
      simp [ScanEnd.left]
    · split
      · rename_i after _
        have hstray : i ∉ (blockScan after is).stray := fun hmem => hi (mem_stray hmem).1
        show (i :: is).filter (fun l => l ∉ (blockScan after is).stray) =
          i :: ((blockScan after is).kept ++ (blockScan after is).ending.left)
        rw [List.filter_cons_of_pos (by simpa using hstray), ih hnodup after]
      · have htail : is.filter (fun l => l ∉ i :: (blockScan stack is).stray) =
            is.filter (fun l => l ∉ (blockScan stack is).stray) := by
          refine List.filter_congr fun l hl => ?_
          have hne : l ≠ i := by
            rintro rfl
            exact hi hl
          simp [hne]
        show (i :: is).filter (fun l => l ∉ i :: (blockScan stack is).stray) =
          (blockScan stack is).kept ++ (blockScan stack is).ending.left
        rw [List.filter_cons_of_neg (by simp), htail, ih hnodup stack]

/-- If distinct instructions end in their only `END` and a program is recovered from them, then those
that are not stray spell the program, and the stray ones are delimiters. -/
theorem spelledBy_filter_stray {is front : List Located} {last : Nat} {p : Program}
    (his : is = front ++ [⟨last, .stop⟩]) (hfront : ∀ l ∈ front, l.instr ≠ .stop)
    (hnodup : is.Nodup) (hp : (parse is).program = some p) :
    p.SpelledBy (is.filter fun l => l ∉ (blockScan [] is).stray) ∧
      ∀ l ∈ (blockScan [] is).stray, l.instr.isDelimiter = true := by
  have hread := readsOutermost_readOutermost is
  rw [hread.parse_eq, Option.map_eq_some_iff] at hp
  obtain ⟨pc, hpc, rfl⟩ := hp
  rw [hpc] at hread
  obtain ⟨before, after, hsplit, hclosed, -⟩ := hread.exists_front
  have hfilter := filter_notMem_stray hnodup []
  rw [BlockScan.closed?_eq_some] at hclosed
  rw [his] at hsplit
  -- the closing `END` is the only one, so nothing is left behind it
  obtain rfl : after = [] := by
    cases hafter : after.getLast? with
    | none => exact List.getLast?_eq_none_iff.1 hafter
    | some l =>
      obtain ⟨mid, rfl⟩ := List.getLast?_eq_some_iff.1 hafter
      rw [← List.cons_append, ← List.append_assoc] at hsplit
      have hmem : (⟨pc, .stop⟩ : Located) ∈ front := by
        rw [(List.append_inj' hsplit rfl).1]
        exact List.mem_append_right _ List.mem_cons_self
      exact absurd rfl (hfront _ hmem)
  have hpcs : (⟨pc, .stop⟩ : Located) = ⟨last, .stop⟩ :=
    (List.cons.inj (List.append_inj' hsplit rfl).2).1.symm
  rw [hclosed] at hfilter
  constructor
  · exact ⟨_, hread.exists_spells, hfilter⟩
  · intro l hl
    refine (isDelimiter_of_mem_stray hl).resolve_right fun hstop => ?_
    have hlast : l = ⟨last, .stop⟩ := by
      have hmem := (mem_stray hl).1
      rw [his] at hmem
      obtain hmem | hmem := List.mem_append.1 hmem
      · exact absurd hstop (hfront l hmem)
      · exact List.mem_singleton.1 hmem
    have hkept : l ∈ is.filter fun l => l ∉ (blockScan [] is).stray := by
      rw [hfilter, hlast, ← hpcs]
      exact List.mem_append_right _ List.mem_cons_self
    exact absurd hl (by simpa using (List.mem_filter.1 hkept).2)

end AbilityScript
