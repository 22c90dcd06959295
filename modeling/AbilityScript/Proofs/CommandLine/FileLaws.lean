import AbilityScript.CommandLine.Files

/-!
# What is relied on of files

A command knows files only by reading and writing them. What is said of commands here is said of any files
whose state, of whatever kind, goes through the computation. Nothing is assumed of what names mean or of
where files are. It is enough that a file which is read gives its contents, and that what was written to a
file is read from it afterwards. The files in a directory that is a value are like that.

## Main definitions

* `FileAccess.Reads`: reading a file gives data.
* `FileAccess.Stores`: what is written to a file is read from it.

## Main statements

* `Directory.reads_access_iff`, `Directory.stores_access_iff`: what this means for a directory.
-/

set_option autoImplicit false

namespace AbilityScript

namespace FileAccess

variable {σ : Type}

/-- In a state, reading a file gives data and leaves all files as they are. -/
def Reads (files : FileAccess (StateM σ)) (s : σ) (name : Text) (bs : Bytes) : Prop :=
  (files.read name).run s = (.ok bs, s)

/-- In a state, any data can be written to a file, and is then what is read from it. -/
def Stores (files : FileAccess (StateM σ)) (s : σ) (name : Text) : Prop :=
  ∀ bs, ∃ later, (files.write name bs).run s = (.ok (), later) ∧ files.Reads later name bs

variable {α : Type} {files : FileAccess (StateM σ)} {s later : σ} {name : Text} {bs : Bytes}

/-- What follows the reading of a file goes on with its contents. -/
theorem Reads.run_bind (h : files.Reads s name bs) (next : Except FileError Bytes → StateM σ α) :
    (files.read name >>= next).run s = (next (.ok bs)).run s := by
  rw [StateT.run_bind, h]
  rfl

/-- What follows the writing of a file goes on with the new state. -/
theorem run_write_bind (h : (files.write name bs).run s = (.ok (), later))
    (next : Except FileError Unit → StateM σ α) :
    (files.write name bs >>= next).run s = (next (.ok ())).run later := by
  rw [StateT.run_bind, h]
  rfl

end FileAccess

namespace Directory

variable {d later : Directory} {name : Text} {bs : Bytes}

/-- Reading a file in a directory gives its contents. -/
theorem reads_access_iff : access.Reads d name bs ↔ d.read name = .ok bs := by
  have hrun : (access.read name).run d = (d.read name, d) := rfl
  rw [FileAccess.Reads, hrun, Prod.mk.injEq, and_iff_left rfl]

/-- What was put at a path is found there. -/
theorem get?_put (d : Directory) (path : Path) (bs : Bytes) :
    (d.put path bs).get? path = some bs := by
  have hnone : (d.files.filter fun f => f.1 ≠ path).lookup path = none := by
    rw [List.lookup_eq_none_iff]
    intro f hf
    have hne : f.1 ≠ path := of_decide_eq_true (List.mem_filter.1 hf).2
    simpa using hne.symm
  rw [get?, put, List.lookup_append, hnone, List.lookup_cons_self]
  rfl

/-- What was written to a file is read from it. -/
theorem read_of_write (h : d.write name bs = .ok later) : later.read name = .ok bs := by
  unfold write at h
  cases hpath : Path.ofName? name with
  | none =>
    rw [hpath] at h
    cases h
  | some path =>
    rw [hpath] at h
    dsimp only at h
    split at h
    · obtain rfl := Except.ok.inj h
      rw [read, hpath, Option.bind_some, get?_put]
    · cases h

/-- What comes of writing a file in a directory: the directory that holds it, or nothing. -/
theorem run_write_access (d : Directory) (name : Text) (bs : Bytes) :
    (access.write name bs).run d = match d.write name bs with
      | .ok later => (.ok (), later)
      | .error e => (.error e, d) := by
  have hrun : (access.write name bs).run d = (match d.write name bs with
      | .ok later => do
        set later
        return .ok ()
      | .error e => return .error e : StateM Directory (Except FileError Unit)).run d := rfl
  rw [hrun]
  cases d.write name bs <;> rfl

/-- A file in a directory stores what is written to it exactly if anything can be written there. -/
theorem stores_access_iff :
    access.Stores d name ↔ ∀ bs, ∃ later, d.write name bs = .ok later := by
  constructor
  · intro h bs
    obtain ⟨later, hwrite, -⟩ := h bs
    rw [run_write_access] at hwrite
    cases hresult : d.write name bs with
    | ok d' => exact ⟨d', rfl⟩
    | error e =>
      rw [hresult] at hwrite
      cases hwrite
  · intro h bs
    obtain ⟨later, hwrite⟩ := h bs
    refine ⟨later, ?_, reads_access_iff.2 (read_of_write hwrite)⟩
    rw [run_write_access, hwrite]

end Directory

end AbilityScript
