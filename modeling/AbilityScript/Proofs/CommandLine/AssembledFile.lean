import AbilityScript.Proofs.CommandLine.Verdict
import AbilityScript.Proofs.RoundTrip.Text

/-!
# Reading what was assembled

Assembling goes well exactly if the self-check finds nothing, and only then does it write a file. The
self-check reads the bytecode as the other subcommands do, with no regard to the header. In a file that
was written the header is the one that was asked for, so it is not at fault under a strict reading with
the same version byte either. Then nothing can go wrong for the readers but legality, of which assembling
has already warned.

## Main statements

* `Assembled.exists_disassemble`: how the bytecode of a good text is read.
* `run_assemble_of_isOk`, `run_assemble_of_not_isOk`, `run_disassemble`: what subcommands do.
* `assembled_file_agrees`: what becomes of a file that is assembled and read.
-/

set_option autoImplicit false

namespace AbilityScript

section Reading

variable {config : DecodeConfig} {version : UInt8} {source : Text}

/-- Readers that accept a header read the same behind it. -/
theorem disassemble_of_header (h : config.strict = true → config.version = version) (rest : Bytes) :
    disassemble config (version :: rest) = disassemble { version } (version :: rest) := by
  have hself : headerErrors { version } version = [] := headerErrors_eq_nil fun _ => rfl
  simp only [disassemble, decode, headerErrors_eq_nil h, hself]

/-- The bytecode of a text that assembles without errors is read without errors as one program, by all
that accept its header. -/
theorem Assembled.exists_disassemble (hok : (assemble version source).isOk) :
    ∃ p : Program, ∀ config : DecodeConfig, (config.strict = true → config.version = version) →
      disassemble config (assemble version source).bytecode =
        { lines := (assemble version source).disassembly
          program := some p
          decodeErrors := []
          parseErrors := [] } := by
  obtain ⟨herrors, hcheck⟩ := Assembled.isOk_iff.1 hok
  have hself := assemble_selfCheck version source
  rw [herrors, hcheck, selfCheck_eq] at hself
  obtain ⟨hnone, hlines⟩ := Prod.mk.inj hself
  obtain ⟨hdecode, hparse⟩ := List.append_eq_nil_iff.1 hnone.symm
  rw [List.map_eq_nil_iff] at hdecode hparse
  obtain ⟨p, hp⟩ := Option.isSome_iff_exists.1 ((program_isSome_iff_parseErrors _ _).2 hparse)
  refine ⟨p, fun config hconfig => ?_⟩
  have hread : disassemble config (assemble version source).bytecode =
      disassemble { version } (assemble version source).bytecode :=
    disassemble_of_header hconfig _
  rw [hread, Disassembly.mk.injEq]
  exact ⟨hlines.symm, hp, hdecode, hparse⟩

/-- There are warnings exactly if the program is not legal. -/
theorem Assembled.warnings_eq_nil_iff {r : Assembled} {p : Program}
    (hp : (disassemble config r.bytecode).program = some p) : r.warnings config = [] ↔ p.check = [] := by
  rw [warnings, hp]
  exact List.map_eq_nil_iff

/-- The check of bytecode with nothing wrong before legality. -/
theorem runCheck_of_program {a : Arguments} {bs : Bytes} {p : Program}
    (herrors : (disassemble a.config bs).decodeErrors = [])
    (hp : (disassemble a.config bs).program = some p) :
    ((runCheck a bs).stdout = a.input ++ ": valid\n".toList ∨
      (runCheck a bs).stdout = a.input ++ ": invalid (semantic stage)\n".toList) ∧
    ((runCheck a bs).exitCode = 0 ↔ p.check = []) := by
  unfold runCheck
  rw [validate_of_program herrors hp]
  by_cases hlegal : p.check = []
  · rw [if_pos hlegal]
    refine ⟨.inl ?_, iff_of_true rfl hlegal⟩
    show Text.withBreak (a.input ++ ": ".toList ++ "valid".toList) = _
    rw [Text.withBreak, List.append_assoc, List.append_assoc]
    rfl
  · rw [if_neg hlegal]
    refine ⟨.inr ?_, iff_of_false Nat.one_ne_zero hlegal⟩
    show Text.withBreak (a.input ++ ": ".toList ++ "invalid (semantic stage)".toList) = _
    rw [Text.withBreak, List.append_assoc, List.append_assoc]
    rfl

end Reading

section Arguments

/-- The decimal numeral of a byte stands for it. -/
theorem value?_ofNat (v : UInt8) : Numeral.value? (Text.ofNat v.toNat) = some v.toNat := by
  have hall : ∀ n : Fin 256, Numeral.value? (Text.ofNat n.val) = some n.val := by decide +kernel
  exact hall ⟨v.toNat, v.toNat_lt⟩

/-- Arguments with a version byte and one file, which ask neither for help nor for the version. -/
theorem readArguments_of_readOptions {c : Subcommand} {args : List Text} {g : GivenArguments}
    {v : UInt8} {input : Text} (hgiven : readOptions c.options args = .ok g)
    (hhelp : g.has Options.help.long = false) (hversion : g.has Options.version.long = false)
    (hbyte : g.value? Options.versionByte.long = some (Text.ofNat v.toNat))
    (hothers : g.others = [input]) :
    readArguments c args = .ok (.run {
      input
      output := g.value? Options.output.long
      json := g.has Options.json.long
      config := { version := v, strict := g.has Options.strictVersion.long } }) := by
  have hread : readVersionByte g = .ok v := by
    rw [readVersionByte, hbyte]
    dsimp only
    rw [value?_ofNat]
    exact congrArg Except.ok UInt8.ofNat_toNat
  rw [readArguments, hgiven]
  dsimp only
  rw [hhelp, hversion, if_neg Bool.false_ne_true, if_neg Bool.false_ne_true, ofGiven, hothers]
  dsimp only
  rw [hread]
  rfl

variable (v : UInt8) (input out : Text)

/-- The arguments with a version byte and an output file are read as these. -/
theorem readArguments_assemble :
    readArguments .assemble
        ["--version-byte".toList, Text.ofNat v.toNat, "-o".toList, out, "--".toList, input] =
      .ok (.run { input, output := some out, config := { version := v } }) :=
  readArguments_of_readOptions (v := v)
    (g := ⟨[⟨Options.versionByte, some (Text.ofNat v.toNat)⟩, ⟨Options.output, some out⟩], [input]⟩)
    rfl rfl rfl rfl rfl

/-- The arguments with a version byte that is insisted on are read as that. -/
theorem readArguments_strict {c : Subcommand} (hc : c = .check ∨ c = .disassemble) :
    readArguments c
        ["--version-byte".toList, Text.ofNat v.toNat, "--strict-version".toList, "--".toList, input] =
      .ok (.run { input, config := { version := v, strict := true } }) := by
  obtain rfl | rfl := hc <;>
  exact readArguments_of_readOptions (v := v)
    (g := ⟨[⟨Options.versionByte, some (Text.ofNat v.toNat)⟩, ⟨Options.strictVersion, none⟩], [input]⟩)
    rfl rfl rfl rfl rfl

end Arguments

section Running

/-- The summary of an assembly is its size and its disassembly. -/
theorem assembledSummary_eq (r : Assembled) :
    assembledSummary r = s!"assembled {r.bytecode.length} bytes\n\n".toList ++
      Text.unlines (r.disassembly.map offsetLine) := by
  rw [assembledSummary, Text.unlines, List.flatMap_cons, List.flatMap_cons, Text.withBreak,
    Text.withBreak]
  simp only [String.toList_append, List.append_assoc, List.nil_append]
  rfl

variable {σ : Type} {files : FileAccess (StateM σ)} {s later : σ} {a : Arguments} {args : List Text}
  {bs : Bytes}

/-- Assembling a good text writes the bytecode. -/
theorem run_assemble_of_isOk {source out : Text} (hargs : readArguments .assemble args = .ok (.run a))
    (hread : files.Reads s a.input bs) (hsource : Utf8.decode bs = .ok source)
    (hok : (assemble a.config.version source).isOk) (hout : a.output = some out)
    (hwrite : (files.write out (assemble a.config.version source).bytecode).run s = (.ok (), later)) :
    let r := assemble a.config.version source
    (run files (Subcommand.assemble.name.toList :: args)).run s =
      ({ stdout := assembledSummary r ++ s!"\nbytecode written to '{String.ofList out}'\n".toList
         stderr := emitted ⟨a.input, source⟩ (r.warnings { version := a.config.version }) },
        later) := by
  rw [run_eq_runOn _ hargs, Subcommand.runOn, hread.run_bind]
  dsimp only
  rw [runAssemble, hsource]
  dsimp only
  rw [if_pos hok, hout]
  dsimp only
  rw [FileAccess.run_write_bind hwrite]
  rfl

/-- Assembling any other text writes nothing. -/
theorem run_assemble_of_not_isOk {source : Text} (hargs : readArguments .assemble args = .ok (.run a))
    (hread : files.Reads s a.input bs) (hsource : Utf8.decode bs = .ok source)
    (hok : ¬(assemble a.config.version source).isOk) :
    (run files (Subcommand.assemble.name.toList :: args)).run s =
      (assembledFailure ⟨a.input, source⟩ (assemble a.config.version source), s) := by
  rw [run_eq_runOn _ hargs, Subcommand.runOn, hread.run_bind]
  dsimp only
  rw [runAssemble, hsource]
  dsimp only
  rw [if_neg hok]
  rfl

/-- Disassembling a file shows the disassembly, and reports what is wrong. -/
theorem run_disassemble (hargs : readArguments .disassemble args = .ok (.run a))
    (hread : files.Reads s a.input bs) (hout : a.output = none) :
    (run files (Subcommand.disassemble.name.toList :: args)).run s =
      ({ success := (disassemble a.config bs).isOk
         stdout := (disassemble a.config bs).text
         stderr := emitted ⟨a.input, []⟩ (disassemble a.config bs).diagnostics },
        s) := by
  rw [run_eq_runOn _ hargs, Subcommand.runOn, hread.run_bind]
  dsimp only
  rw [runDisassemble, hout]
  rfl

end Running

/-- Among any files, whatever text is assembled to a file that stores what is written to it, all goes well
and the file holds the bytecode exactly if the text is good; otherwise no file changes. A check of the file
that accepts its header then finds fault with nothing but legality, and not with that if assembling had
nothing to say on standard error. Disassembling it goes well and shows the lines that assembling showed one
level in. -/
theorem assembled_file_agrees {σ : Type} {files : FileAccess (StateM σ)} {s : σ} {a : Arguments}
    {args : List Text} {bs : Bytes} {source out : Text}
    (hargs : readArguments .assemble args = .ok (.run a)) (hread : files.Reads s a.input bs)
    (hsource : Utf8.decode bs = .ok source) (hout : a.output = some out) (hwrite : files.Stores s out) :
    let r := assemble a.config.version source
    let o := ((run files ("assemble".toList :: args)).run s).1
    let later := ((run files ("assemble".toList :: args)).run s).2
    ((o.exitCode = 0 ∧ files.Reads later out r.bytecode) ↔ r.isOk) ∧
    (¬r.isOk → o.exitCode = 1 ∧ later = s) ∧
    (r.isOk →
      o.stdout =
        s!"assembled {r.bytecode.length} bytes\n\n".toList ++
          Text.unlines (r.disassembly.map fun line => "    ".toList ++ line) ++
          s!"\nbytecode written to '{String.ofList out}'\n".toList ∧
      ∀ b : Arguments, b.input = out → (b.config.strict = true → b.config.version = a.config.version) →
        (∀ args', readArguments .check args' = .ok (.run b) →
          let o' := ((run files ("check".toList :: args')).run later).1
          (o'.stdout = out ++ ": valid\n".toList ∨
            o'.stdout = out ++ ": invalid (semantic stage)\n".toList) ∧
          (o'.exitCode = 0 ↔ o.stderr = [])) ∧
        (∀ args', readArguments .disassemble args' = .ok (.run b) → b.output = none →
          let o' := ((run files ("disassemble".toList :: args')).run later).1
          o'.exitCode = 0 ∧ o'.stdout = Text.unlines r.disassembly)) := by
  intro r
  by_cases hok : r.isOk
  · obtain ⟨later, hlater, hfile⟩ := hwrite r.bytecode
    have hrun := run_assemble_of_isOk hargs hread hsource hok hout hlater
    rw [show "assemble".toList = Subcommand.assemble.name.toList from rfl, hrun]
    refine ⟨iff_of_true ⟨rfl, hfile⟩ hok, fun h => absurd hok h, fun _ => ⟨?_, ?_⟩⟩
    · show assembledSummary r ++ _ = _
      rw [assembledSummary_eq]
      rfl
    · rintro b rfl hheader
      -- the program that the warnings are about is the one that the readers find
      obtain ⟨p, hp⟩ := Assembled.exists_disassemble hok
      have hread' := hp b.config hheader
      have hwarnings : r.warnings { version := a.config.version } = [] ↔ p.check = [] :=
        Assembled.warnings_eq_nil_iff (congrArg Disassembly.program (hp _ fun _ => rfl))
      constructor
      · intro args' hargs'
        obtain ⟨hstdout, hexit⟩ := runCheck_of_program (a := b) (congrArg Disassembly.decodeErrors hread')
          (congrArg Disassembly.program hread')
        rw [show "check".toList = Subcommand.check.name.toList from rfl, run_check hfile hargs']
        refine ⟨hstdout, hexit.trans ?_⟩
        rw [emitted_eq_nil_iff, hwarnings]
      · intro args' hargs' hnone
        rw [show "disassemble".toList = Subcommand.disassemble.name.toList from rfl,
          run_disassemble hargs' hfile hnone, hread']
        exact ⟨rfl, rfl⟩
  · rw [show "assemble".toList = Subcommand.assemble.name.toList from rfl,
      run_assemble_of_not_isOk hargs hread hsource hok]
    exact ⟨iff_of_false (fun h => Nat.one_ne_zero h.1) hok, fun _ => ⟨rfl, rfl⟩, fun h => absurd h hok⟩

/-- A text that destroys the enemy twice is written with a warning, and is then read but not legal. -/
theorem assembled_file_agrees_on_repeated_action :
    let source : Text := "DESTROY ENEMY\nDESTROY ENEMY\n".toList
    let files : Directory := ⟨[(["card.txt".toList], source.utf8)]⟩
    let outcome (files : Directory) (args : List String) : Outcome × Directory :=
      (run Directory.access (args.map String.toList)).run files
    let r := assemble 7 source
    let written := outcome files ["assemble", "--version-byte", "7", "-o", "card", "--", "card.txt"]
    let checked := outcome written.2 ["check", "--version-byte", "7", "--strict-version", "--", "card"]
    let shown := outcome written.2 ["disassemble", "--version-byte", "7", "--strict-version", "--", "card"]
    (∀ data, ∃ later, files.write "card".toList data = .ok later) ∧ r.isOk ∧
      written.1.exitCode = 0 ∧ written.2.read "card".toList = .ok r.bytecode ∧
      written.1.stderr ≠ [] ∧ checked.1.exitCode ≠ 0 ∧
      shown.1.exitCode = 0 ∧ shown.1.stdout = Text.unlines r.disassembly := by
  intro source files outcome r written checked shown
  have hwrite : ∀ data, ∃ later, files.write "card".toList data = .ok later := fun data => ⟨_, rfl⟩
  have hstores : Directory.access.Stores files "card".toList := Directory.stores_access_iff.2 hwrite
  have hok : r.isOk := by decide +kernel
  have hread : Directory.access.Reads files "card.txt".toList source.utf8 :=
    Directory.reads_access_iff.2 rfl
  have hsource : Utf8.decode source.utf8 = .ok source := by
    have hsome : (Utf8.decode source.utf8).toOption = some source := by decide +kernel
    cases hdecode : Utf8.decode source.utf8 with
    | error e =>
      rw [hdecode] at hsome
      cases hsome
    | ok t =>
      rw [hdecode] at hsome
      exact congrArg Except.ok (Option.some.inj hsome)
  have hwarned : written.1.stderr ≠ [] := by decide +kernel
  obtain ⟨hgood, -, hreaders⟩ :=
    assembled_file_agrees (readArguments_assemble 7 "card.txt".toList "card".toList) hread hsource rfl
      hstores
  obtain ⟨hexit, hfile⟩ := hgood.2 hok
  obtain ⟨-, hagree⟩ := hreaders hok
  obtain ⟨hcheck, hshow⟩ := hagree { input := "card".toList, config := { version := 7, strict := true } }
    rfl fun _ => rfl
  obtain ⟨-, hsilent⟩ := hcheck _ (readArguments_strict 7 "card".toList (.inl rfl))
  obtain ⟨hclean, hlines⟩ := hshow _ (readArguments_strict 7 "card".toList (.inr rfl)) rfl
  exact ⟨hwrite, hok, hexit, Directory.reads_access_iff.1 hfile, hwarned, fun h => hwarned (hsilent.1 h), hclean, hlines⟩

end AbilityScript
