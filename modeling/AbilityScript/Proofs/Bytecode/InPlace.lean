import AbilityScript.Proofs.Bytecode.Layout

/-!
# Writing instructions back in place

An instruction that is read from bytecode may be written over the bytes it was read from: it takes as
many, and it is read again as itself, so nothing else moves or changes. Doing this with all
instructions of bytecode reduces every byte that was read and leaves the others, among them what is
behind an `END` and what is too short to be read. An `END` that was only put where reading ended is
not written.

## Main definitions

* `overwrite`: bytecode with an instruction written at its offset.
* `presentInstrs`: the instructions that stand in bytecode.
* `rewriteInPlace`: bytecode with all its instructions written back.

## Main statements

* `decode_rewriteInPlace`: what is read after writing back.
-/

set_option autoImplicit false

namespace AbilityScript

open ByteCoded (clamp)

/-- Bytecode in which the bytes from the offset of an instruction on are replaced by the instruction as
it is written. -/
def overwrite (bs : Bytes) (l : Located) : Bytes :=
  bs.take l.pc ++ l.instr.encode ++ bs.drop (l.pc + l.instr.encode.length)

/-- Whether an instruction that was read stands in the bytecode. An `END` does only if the byte at its
offset is one; otherwise it was put there. -/
def Located.isPresent (bs : Bytes) (l : Located) : Bool :=
  l.instr != .stop || bs[l.pc]?.map clamp == some Opcode.stop

/-- The instructions read from bytecode that stand in it. -/
def presentInstrs (config : DecodeConfig) (bs : Bytes) : List Located :=
  (decode config bs).instrs.filter (Located.isPresent bs)

/-- Bytecode with all instructions that stand in it written back to their places. -/
def rewriteInPlace (config : DecodeConfig) (bs : Bytes) : Bytes :=
  (presentInstrs config bs).foldl overwrite bs

section Overwriting

variable {front raw rest bs : Bytes} {i : Instruction} {is : List Instruction} {l : Located}
  {ls : List Located} {k : Nat}

/-- Writing an instruction over as many bytes replaces just these. -/
theorem overwrite_append (h : raw.length = i.size) (front rest : Bytes) :
    overwrite (front ++ raw ++ rest) ⟨front.length, i⟩ = front ++ i.encode ++ rest := by
  have htake : (front ++ raw ++ rest).take front.length = front := by
    rw [List.append_assoc, List.take_left]
  have hdrop : (front ++ raw ++ rest).drop (front.length + i.encode.length) = rest := by
    rw [length_encode, ← h, ← List.length_append, List.drop_left]
  simp only [overwrite, htake, hdrop]

/-- Instructions that are written over the bytes they are read from replace just these. -/
theorem foldl_overwrite_locate (h : DenotesAll raw is) (front rest : Bytes) :
    (locate front.length is).foldl overwrite (front ++ raw ++ rest) = front ++ code is ++ rest := by
  induction h generalizing front with
  | nil => rfl
  | @cons raw raw' i is hraw _ ih =>
    have hhead := overwrite_append hraw.length_eq front (raw' ++ rest)
    have htail := ih (front ++ i.encode)
    rw [List.length_append, length_encode] at htail
    rw [locate_cons, List.foldl_cons]
    simp only [code_cons, List.append_assoc] at hhead htail ⊢
    rw [hhead, htail]

/-- Writing an instruction where it has room leaves the length as it is. -/
theorem length_overwrite (h : l.pc + l.instr.encode.length ≤ bs.length) :
    (overwrite bs l).length = bs.length := by
  simp only [overwrite, List.length_append, List.length_take, List.length_drop]
  omega

/-- Writing an instruction changes no byte outside its place. -/
theorem getElem?_overwrite (h : l.pc + l.instr.encode.length ≤ bs.length)
    (hk : k < l.pc ∨ l.pc + l.instr.encode.length ≤ k) : (overwrite bs l)[k]? = bs[k]? := by
  have htake : (bs.take l.pc).length = l.pc := by
    rw [List.length_take]
    omega
  rw [overwrite, List.append_assoc]
  obtain hk | hk := hk
  · rw [List.getElem?_append_left (by omega), List.getElem?_take_of_lt hk]
  · rw [List.getElem?_append_right (by omega), List.getElem?_append_right (by omega),
      List.getElem?_drop, htake]
    congr 1
    omega

/-- A byte where no instruction is written stays as it is. -/
theorem getElem?_foldl_overwrite (h : ∀ l ∈ ls, l.pc + l.instr.encode.length ≤ bs.length)
    (hk : ∀ l ∈ ls, k < l.pc ∨ l.pc + l.instr.encode.length ≤ k) :
    (ls.foldl overwrite bs)[k]? = bs[k]? := by
  induction ls generalizing bs with
  | nil => rfl
  | cons l ls ih =>
    have hl := h l List.mem_cons_self
    rw [List.foldl_cons, ih, getElem?_overwrite hl (hk l List.mem_cons_self)]
    · intro m hm
      rw [length_overwrite hl]
      exact h m (List.mem_cons_of_mem _ hm)
    · exact fun m hm => hk m (List.mem_cons_of_mem _ hm)

end Overwriting

/-- The instructions `js` stand in bytecode behind the header, as the bytes `raw`, with a rest behind
them. Whatever bytes denote them, the same is read. -/
structure Stands (raw : Bytes) (js : List Instruction) (rest : Bytes) (is : List Located)
    (errors : List DecodeError) : Prop where
  denotes : DenotesAll raw js
  reads : ∀ raw', DenotesAll raw' js → Reads 1 (raw' ++ rest) is errors
  present : ∀ raw' header, DenotesAll raw' js →
    is.filter (Located.isPresent (header :: (raw' ++ rest))) = locate 1 js

/-- Instructions other than `END` are present. -/
theorem LaysOut.filter_isPresent {pc : Nat} {raw tail : Bytes} {js : List Instruction}
    {errors : List DecodeError} (h : LaysOut pc raw js tail errors) (bs : Bytes) :
    (locate pc js).filter (Located.isPresent bs) = locate pc js := by
  refine List.filter_eq_self.2 fun l hl => ?_
  simp [Located.isPresent, h.ne_stop_of_mem hl]

/-- Where reading ends, an `END` is present exactly if the first byte of the rest is one. -/
theorem isPresent_stop (header : UInt8) (raw tail : Bytes) :
    Located.isPresent (header :: (raw ++ tail)) ⟨1 + raw.length, .stop⟩ =
      (tail.head?.map clamp == some Opcode.stop) := by
  have hlast : (header :: (raw ++ tail))[1 + raw.length]? = tail.head? := by
    rw [Nat.add_comm, List.getElem?_cons_succ, List.getElem?_append_right (Nat.le_refl _),
      Nat.sub_self, List.head?_eq_getElem?]
  simp [Located.isPresent, hlast]

/-- Other bytes that are read as the same instructions are laid out the same. -/
theorem LaysOut.of_denotes {pc : Nat} {raw raw' tail : Bytes} {js : List Instruction}
    {errors : List DecodeError} (h : LaysOut pc raw js tail errors) (hraw : DenotesAll raw' js) :
    raw.length = raw'.length ∧ LaysOut pc raw' js tail errors := by
  have hlength : raw.length = raw'.length := by rw [hraw.length_eq, h.denotes.length_eq]
  exact ⟨hlength, hraw, h.stop_notMem, h.hasRoom, hlength ▸ h.ends⟩

section Standing

variable {raw tail : Bytes} {js : List Instruction} {errors : List DecodeError}

/-- Where reading does not end at an `END`, exactly the instructions before that place stand. -/
theorem LaysOut.stands (h : LaysOut 1 raw js tail errors)
    (htail : (tail.head?.map clamp == some Opcode.stop) = false) :
    Stands raw js tail (locate 1 js ++ [⟨1 + raw.length, .stop⟩]) errors := by
  refine ⟨h.denotes, fun raw' hraw => ?_, fun raw' header hraw => ?_⟩
  · obtain ⟨hlength, hlays⟩ := h.of_denotes hraw
    rw [hlength]
    exact hlays.reads
  · have habsent := isPresent_stop header raw' tail
    rw [htail, ← (h.of_denotes hraw).1] at habsent
    rw [List.filter_append, h.filter_isPresent,
      List.filter_cons_of_neg (Bool.not_eq_true _ ▸ habsent), List.filter_nil, List.append_nil]

/-- Where reading ends at an `END`, that stands too. -/
theorem LaysOut.stands_stop {b : UInt8} (h : LaysOut 1 raw js (b :: tail) errors)
    (hb : (clamp b : Opcode) = .stop) :
    Stands (raw ++ [b]) (js ++ [.stop]) tail (locate 1 js ++ [⟨1 + raw.length, .stop⟩]) [] := by
  refine ⟨h.denotes.append (DenotesAll.stop_iff.2 ⟨b, rfl, hb⟩), fun raw' hraw => ?_,
    fun raw' header hraw => ?_⟩
  · obtain ⟨raw₁, _, rfl, hraw₁, hraw₂⟩ := hraw.exists_append
    obtain ⟨c, rfl, hc⟩ := DenotesAll.stop_iff.1 hraw₂
    rw [(h.of_denotes hraw₁).1, List.append_assoc]
    exact Reads.denotes_append (.stopped hc) hraw₁ h.stop_notMem h.hasRoom
  · obtain ⟨raw₁, _, rfl, hraw₁, hraw₂⟩ := hraw.exists_append
    obtain ⟨c, rfl, hc⟩ := DenotesAll.stop_iff.1 hraw₂
    have hpresent := isPresent_stop header raw₁ (c :: tail)
    rw [List.head?_cons, Option.map_some, hc, beq_self_eq_true, ← (h.of_denotes hraw₁).1] at hpresent
    rw [List.append_assoc, List.singleton_append, List.filter_append,
      h.filter_isPresent, List.filter_cons_of_pos hpresent, List.filter_nil,
      locate_append, h.denotes.length_eq]
    rfl

/-- In whatever is read, some instructions stand. -/
theorem Reads.exists_stands {bs : Bytes} {is : List Located} (h : Reads 1 bs is errors) :
    ∃ raw js rest, bs = raw ++ rest ∧ Stands raw js rest is errors := by
  obtain ⟨raw, js, tail, rfl, rfl, hlays⟩ := h.exists_laysOut
  obtain ⟨rfl, b, bs, rfl, hb⟩ | hend := hlays.ends.head?_cases
  · exact ⟨raw ++ [b], js ++ [.stop], bs, by simp, hlays.stands_stop hb⟩
  · exact ⟨raw, js, tail, rfl, hlays.stands hend⟩

end Standing

/-- The place of an instruction that stands in bytecode is the one byte of the `END`, or reaches to the
instruction that is read next. -/
theorem exists_next_of_mem_presentInstrs {config : DecodeConfig} {header : UInt8} {tail : Bytes}
    {l : Located} (h : l ∈ presentInstrs config (header :: tail)) :
    l.instr = .stop ∧ l.instr.encode.length = 1 ∨
      ∃ before m after, (decode config (header :: tail)).instrs = before ++ l :: m :: after ∧
        m.pc = l.pc + l.instr.encode.length := by
  have hread := reads_decodeFrom 1 tail
  have hinstrs : (decode config (header :: tail)).instrs = (decodeFrom 1 tail).1 := by
    rw [hread.decode_eq config]
  by_cases hstop : l.instr = .stop
  · rw [hstop]
    exact .inl ⟨rfl, rfl⟩
  · rw [hinstrs]
    rw [presentInstrs, hinstrs] at h
    exact .inr (hread.exists_next (List.mem_filter.1 h).1 hstop)

/-- Writing back the instructions that stand in bytecode keeps its length and every byte outside their
places, and puts every one of them at its place as it is written. A place is as wide as what is read
there: it reaches to the instruction that is read next, or is the one byte of the `END`. Nothing changes
that is read: neither the header nor the instructions, their offsets and the errors. So writing back again
changes nothing at all. -/
theorem decode_rewriteInPlace (config : DecodeConfig) (header : UInt8) (tail : Bytes) :
    let bs := header :: tail
    let n := rewriteInPlace config bs
    n.length = bs.length ∧
      (∀ k, (∀ l ∈ presentInstrs config bs, k < l.pc ∨ l.pc + l.instr.encode.length ≤ k) →
        n[k]? = bs[k]?) ∧
      (∀ l ∈ presentInstrs config bs, l.instr.encode <+: n.drop l.pc) ∧
      (∀ l ∈ presentInstrs config bs, l.instr = .stop ∧ l.instr.encode.length = 1 ∨
        ∃ before m after, (decode config bs).instrs = before ++ l :: m :: after ∧
          m.pc = l.pc + l.instr.encode.length) ∧
      decode config n = decode config bs ∧
      rewriteInPlace config n = n := by
  obtain ⟨raw, js, rest, hsplit, hstands⟩ := (reads_decodeFrom 1 tail).exists_stands
  have hdecode (raw' : Bytes) (hraw : DenotesAll raw' js) :
      decode config (header :: (raw' ++ rest)) = _ :=
    (hstands.reads raw' hraw).decode_eq config
  have hpresent (raw' : Bytes) (hraw : DenotesAll raw' js) :
      presentInstrs config (header :: (raw' ++ rest)) = locate [header].length js := by
    rw [presentInstrs, hdecode raw' hraw]
    exact hstands.present raw' header hraw
  have hrewrite (raw' : Bytes) (hraw : DenotesAll raw' js) :
      rewriteInPlace config (header :: (raw' ++ rest)) = header :: (code js ++ rest) := by
    rw [rewriteInPlace, hpresent raw' hraw]
    exact foldl_overwrite_locate hraw [header] rest
  have hlength := hstands.denotes.length_eq
  intro bs n
  have hbs : bs = header :: (raw ++ rest) := by rw [← hsplit]
  have hn : n = header :: (code js ++ rest) := by
    rw [← hrewrite raw hstands.denotes, ← hbs]
  rw [hbs, hpresent raw hstands.denotes, hn]
  refine ⟨by simp [hlength], fun k hk => ?_, fun l hl => ?_, fun l hl => ?_, ?_,
    hrewrite _ (.code js)⟩
  · rw [← hrewrite raw hstands.denotes, rewriteInPlace, hpresent raw hstands.denotes]
    refine getElem?_foldl_overwrite (fun l hl => ?_) hk
    have hle := pc_add_size_le_of_mem_locate hl
    simp only [List.length_cons, List.length_nil, List.length_append, length_encode, hlength] at hle ⊢
    omega
  · show l.instr.encode <+: (([header] ++ code js) ++ rest).drop l.pc
    rw [List.drop_append]
    exact (encode_prefix_drop [header] hl).trans (List.prefix_append ..)
  · rw [← hpresent raw hstands.denotes] at hl
    exact exists_next_of_mem_presentInstrs hl
  · rw [hdecode _ (.code js), hdecode raw hstands.denotes]

end AbilityScript
