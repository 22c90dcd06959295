import AbilityScript.CommandLine.Run
import AbilityScript.Proofs.CommandLine.FileLaws
import AbilityScript.Proofs.Reading.Validity

/-!
# One verdict on all ways

The subcommands look at bytecode in different ways: one validates it stage by stage, one makes a report
of all stages, and one prints what the stages complain about. Each has a test of its own for whether the
bytecode is a legal ability. On a file that can be read they agree with each other and with what
disassembling the same bytes finds.

## Main definitions

* `SaysValid`: a text is a report on a legal ability.

## Main statements

* `run_name`: the first argument chooses the subcommand.
* `isValid_examine`: the examination and the validation of bytecode agree.
* `verdicts_agree`: so do all subcommands that judge bytecode.
-/

set_option autoImplicit false

namespace AbilityScript

section Reports

/-- The fields of two objects are printed one after the other. -/
theorem Json.prettyFields_append (level : Nat) (fs gs : List (String × Json)) :
    prettyFields level (fs ++ gs) = prettyFields level fs ++ prettyFields level gs := by
  induction fs with
  | nil => rfl
  | cons f fs ih => simp only [List.cons_append, prettyFields, ih, List.append_assoc]

/-- The text of a document ends in its last member. -/
theorem Json.exists_pretty_eq (fields : List (String × Json)) (f : String × Json) :
    ∃ front, (obj (fields ++ [f])).pretty = front ++ prettyField 1 f ++ "\n\x7d".toList := by
  cases fields with
  | nil => exact ⟨'\x7b' :: lineStart 1, by simp [pretty, prettyAt, prettyFields, lineStart]⟩
  | cons g fields =>
    refine ⟨'\x7b' :: lineStart 1 ++ prettyField 1 g ++ prettyFields 1 fields ++
      ',' :: lineStart 1, ?_⟩
    simp [pretty, prettyAt, prettyFields_append, prettyFields, lineStart]

/-- A text is the report on a legal ability: a document with a last member that says so. -/
def SaysValid (t : Text) : Prop :=
  ∃ fields, t = Text.withBreak (Json.obj (fields ++ [("valid", .bool true)])).pretty

/-- A report with the last member `valid` says what that member says. -/
theorem saysValid_iff (fields : List (String × Json)) (b : Bool) :
    SaysValid (Text.withBreak (Json.obj (fields ++ [("valid", .bool b)])).pretty) ↔ b := by
  constructor
  · rintro ⟨others, heq⟩
    obtain ⟨front, hfront⟩ := Json.exists_pretty_eq fields ("valid", .bool b)
    obtain ⟨front', hfront'⟩ := Json.exists_pretty_eq others ("valid", .bool true)
    rw [hfront, hfront'] at heq
    -- the two words differ in the last letter but one
    have hletter := congrArg (fun t : Text => t.reverse[4]?) heq
    cases b with
    | false => simp [Text.withBreak, Json.prettyField, Json.prettyAt] at hletter
    | true => rfl
  · intro hb
    exact ⟨fields, by rw [hb]⟩

end Reports

section Emitting

/-- Diagnostics are printed one after another behind what was printed before. -/
theorem output_emitAll (e : Emitter) (ds : List Diagnostic) :
    (e.emitAll ds).output = e.output ++ ds.flatMap (Diagnostic.render e.file) := by
  induction ds generalizing e with
  | nil => exact (List.append_nil _).symm
  | cons d ds ih =>
    have hrest := ih (e.emit d)
    rw [List.flatMap_cons, ← List.append_assoc]
    exact hrest

/-- No diagnostic is printed as nothing. -/
theorem render_ne_nil (f : SourceFile) (d : Diagnostic) : d.render f ≠ [] := by
  rw [Diagnostic.render, Text.unlines, List.cons_append, List.cons_append, List.flatMap_cons,
    Text.withBreak]
  simp

/-- Whatever diagnostics there are, something is shown. -/
theorem emitted_eq_nil_iff (file : SourceFile) (ds : List Diagnostic) :
    emitted file ds = [] ↔ ds = [] := by
  rw [emitted, output_emitAll, List.nil_append, List.flatMap_eq_nil_iff]
  constructor
  · intro h
    rw [List.eq_nil_iff_forall_not_mem]
    intro d hd
    exact render_ne_nil file d (h d hd)
  · rintro rfl d hd
    cases hd

end Emitting

section Running

/-- The first argument chooses the subcommand. -/
theorem run_name {m : Type → Type} [Monad m] (files : FileAccess m) (c : Subcommand)
    (args : List Text) : run files (c.name.toList :: args) = c.run files args := by
  cases c <;> rfl

variable {a : Arguments} {args : List Text}

/-- A subcommand with its arguments is run as these ask for. -/
theorem run_eq_runOn {m : Type → Type} [Monad m] (files : FileAccess m) {c : Subcommand}
    (hargs : readArguments c args = .ok (.run a)) :
    run files (c.name.toList :: args) = c.runOn files a := by
  rw [run_name, Subcommand.run, hargs]

variable {σ : Type} {files : FileAccess (StateM σ)} {s : σ} {bs : Bytes}

/-- The check looks at the contents of its file. -/
theorem run_check (hread : files.Reads s a.input bs)
    (hargs : readArguments .check args = .ok (.run a)) :
    (run files (Subcommand.check.name.toList :: args)).run s = (runCheck a bs, s) := by
  rw [run_eq_runOn _ hargs, Subcommand.runOn, hread.run_bind]
  rfl

/-- Decoding looks at the contents of its file. -/
theorem run_decode (hread : files.Reads s a.input bs)
    (hargs : readArguments .decode args = .ok (.run a)) :
    (run files (Subcommand.decode.name.toList :: args)).run s = (runDecode a bs, s) := by
  rw [run_eq_runOn _ hargs, Subcommand.runOn, hread.run_bind]
  rfl

end Running

section Judging

variable {config : DecodeConfig} {bs : Bytes}

/-- Where there is a program, its check is what is reported about its meaning. -/
theorem semanticErrors_examine {p : Program} (hp : (disassemble config bs).program = some p) :
    (examine config bs).semanticErrors = p.check := by
  have hparse : (parse (decode config bs).instrs).program = some p := hp
  show ((parse (decode config bs).instrs).program.map Program.check).getD [] = p.check
  rw [hparse]
  rfl

/-- Nothing is reported exactly if neither decoding nor parsing nor checking finds anything. -/
theorem Examination.diagnostics_eq_nil_iff (x : Examination) :
    x.diagnostics = [] ↔ x.decoded.errors = [] ∧ x.parsed.errors = [] ∧ x.semanticErrors = [] := by
  rw [diagnostics, List.append_eq_nil_iff, List.append_eq_nil_iff, List.map_eq_nil_iff,
    List.map_eq_nil_iff, List.map_eq_nil_iff, and_assoc]

/-- The stages of an examination complain about nothing exactly if the ability is legal. -/
theorem diagnostics_examine_eq_nil_iff (config : DecodeConfig) (bs : Bytes) :
    (examine config bs).diagnostics = [] ↔ (validate config bs).isValid := by
  rw [Examination.diagnostics_eq_nil_iff, isValid_validate_iff]
  constructor
  · rintro ⟨hdecode, hparse, hlegal⟩
    obtain ⟨p, hp⟩ := Option.isSome_iff_exists.1 ((program_isSome_iff_parseErrors config bs).2 hparse)
    rw [semanticErrors_examine hp] at hlegal
    exact ⟨p, hdecode, hp, hlegal⟩
  · rintro ⟨p, hdecode, hp, hlegal⟩
    rw [semanticErrors_examine hp]
    exact ⟨hdecode, parseErrors_of_program hp, hlegal⟩

/-- The examination of bytecode finds it valid exactly if the stages complain about nothing: a program
is never missing without a complaint. -/
theorem isValid_examine (config : DecodeConfig) (bs : Bytes) :
    (examine config bs).isValid = (validate config bs).isValid := by
  rw [Bool.eq_iff_iff, ← diagnostics_examine_eq_nil_iff, Examination.diagnostics_eq_nil_iff]
  simp only [Examination.isValid, Decoded.isOk, Parsed.isOk, Bool.and_eq_true, List.isEmpty_iff,
    and_assoc]
  have hprogram : (examine config bs).parsed.program.isSome ↔ (examine config bs).parsed.errors = [] :=
    program_isSome_iff_parseErrors config bs
  constructor
  · rintro ⟨hdecode, -, hparse, hlegal⟩
    exact ⟨hdecode, hparse, hlegal⟩
  · rintro ⟨hdecode, hparse, hlegal⟩
    exact ⟨hdecode, hprogram.2 hparse, hparse, hlegal⟩

/-- The exit code of the check tells whether the ability is legal. -/
theorem exitCode_runCheck (a : Arguments) (bs : Bytes) :
    (runCheck a bs).exitCode = 0 ↔ (validate a.config bs).isValid := by
  unfold runCheck
  cases validate a.config bs with
  | valid p => exact iff_of_true rfl rfl
  | invalid stage => exact iff_of_false Nat.one_ne_zero Bool.false_ne_true

/-- The report on bytecode says whether the ability is legal. -/
theorem saysValid_runDecode {a : Arguments} (hjson : a.json = true) (bs : Bytes) :
    SaysValid (runDecode a bs).stdout ↔ (validate a.config bs).isValid := by
  rw [runDecode, if_pos hjson, ← isValid_examine]
  -- the report has six members before the last one
  exact saysValid_iff (_ :: _ :: _ :: _ :: _ :: [_]) _

/-- Without a report, something is complained about exactly if the ability is not legal. -/
theorem stderr_runDecode {a : Arguments} (hjson : a.json = false) (bs : Bytes) :
    (runDecode a bs).stderr = [] ↔ (validate a.config bs).isValid := by
  rw [runDecode, hjson, ← diagnostics_examine_eq_nil_iff]
  exact emitted_eq_nil_iff _ _

end Judging

/-- Bytecode is judged in the same way on all ways. It disassembles to a program exactly if nothing is
wrong with the block structure, and exactly if there are lines, of which the last is then `END`. It is
valid exactly if it disassembles without errors to a program that is legal, and otherwise the stage that
found fault is the first at which something is wrong or missing. On a file that can be read, among any
files, the exit code of the check, the report, and the silence of decoding without a report say the
same. -/
theorem verdicts_agree (config : DecodeConfig) (bs : Bytes) :
    let d := disassemble config bs
    let v := validate config bs
    (d.parseErrors = [] ↔ d.program.isSome) ∧ (d.program.isSome ↔ d.lines ≠ []) ∧
    (d.lines ≠ [] → d.lines.getLast? = some "END".toList) ∧ (d.isOk → d.program.isSome) ∧
    (∀ p, v = .valid p ↔
      d.decodeErrors = [] ∧ d.parseErrors = [] ∧ d.program = some p ∧ p.check = []) ∧
    (v = .invalid .decode ↔ d.decodeErrors ≠ []) ∧
    (v = .invalid .parse ↔ d.decodeErrors = [] ∧ d.program = none) ∧
    (v = .invalid .semantic ↔ d.decodeErrors = [] ∧ ∃ p, d.program = some p ∧ p.check ≠ []) ∧
    ∀ {σ : Type} (files : FileAccess (StateM σ)) (s : σ) (a : Arguments) (args : List Text),
      a.config = config → files.Reads s a.input bs →
      (readArguments .check args = .ok (.run a) →
        let o := ((run files ("check".toList :: args)).run s).1
        o.exitCode = 0 ↔ v.isValid) ∧
      (readArguments .decode args = .ok (.run a) →
        let o := ((run files ("decode".toList :: args)).run s).1
        if a.json then SaysValid o.stdout ↔ v.isValid else o.stderr = [] ↔ v.isValid) := by
  intro d v
  refine ⟨(program_isSome_iff_parseErrors config bs).symm, program_isSome_iff_lines config bs, ?_, ?_,
    fun p => validate_eq_valid_iff, validate_eq_invalid_decode_iff, validate_eq_invalid_parse_iff,
    validate_eq_invalid_semantic_iff, ?_⟩
  · intro hlines
    obtain ⟨p, hp⟩ := Option.isSome_iff_exists.1 ((program_isSome_iff_lines config bs).2 hlines)
    exact getLast?_lines_of_program hp
  · intro hok
    rw [Disassembly.isOk, Bool.and_eq_true, List.isEmpty_iff, List.isEmpty_iff] at hok
    exact (program_isSome_iff_parseErrors config bs).2 hok.2
  · rintro σ files s a args rfl hread
    constructor
    · intro hargs o
      have ho : o = runCheck a bs := congrArg Prod.fst (run_check hread hargs)
      rw [ho]
      exact exitCode_runCheck a bs
    · intro hargs o
      have ho : o = runDecode a bs := congrArg Prod.fst (run_decode hread hargs)
      rw [ho]
      split
      case isTrue hjson => exact saysValid_runDecode hjson bs
      case isFalse hjson => exact stderr_runDecode (eq_false_of_ne_true hjson) bs

/-- A file with a legal ability and one with an action that is repeated. -/
theorem verdicts_agree_on_repeated_action :
    let legal : Bytes := [1, 4, 0, 13]
    let twice : Bytes := [1, 4, 0, 4, 1]
    let files : Directory := ⟨[(["legal".toList], legal), (["twice".toList], twice)]⟩
    let outcome (args : List String) : Outcome :=
      ((run Directory.access (args.map String.toList)).run files).1
    (disassemble {} legal).isOk ∧ (disassemble {} legal).program.isSome ∧
      (outcome ["check", "legal"]).exitCode = 0 ∧
      SaysValid (outcome ["decode", "--json", "legal"]).stdout ∧
      (outcome ["decode", "legal"]).stderr = [] ∧
      validate {} twice = .invalid .semantic ∧
      (outcome ["check", "twice"]).exitCode ≠ 0 ∧
      ¬SaysValid (outcome ["decode", "--json", "twice"]).stdout ∧
      (outcome ["decode", "twice"]).stderr ≠ [] := by
  intro legal twice files outcome
  have hvalid : (validate {} legal).isValid := by decide +kernel
  have htwice : validate {} twice = .invalid .semantic := by decide +kernel
  have hinvalid : ¬(validate {} twice).isValid := by
    rw [htwice]
    exact Bool.false_ne_true
  obtain ⟨-, -, -, hok, -, -, -, -, hlegal⟩ := verdicts_agree {} legal
  obtain ⟨-, -, -, -, -, -, -, -, hrepeated⟩ := verdicts_agree {} twice
  have hread : Directory.access.Reads files "legal".toList legal := Directory.reads_access_iff.2 rfl
  have hread' : Directory.access.Reads files "twice".toList twice := Directory.reads_access_iff.2 rfl
  have hclean : (disassemble {} legal).isOk := by decide +kernel
  refine ⟨hclean, hok hclean, ?_, ?_, ?_, htwice, ?_, ?_, ?_⟩
  · exact ((hlegal Directory.access files ⟨"legal".toList, none, false, {}⟩ ["legal".toList] rfl hread).1 rfl).2 hvalid
  · exact ((hlegal Directory.access files ⟨"legal".toList, none, true, {}⟩ ["--json".toList, "legal".toList] rfl
      hread).2 rfl).2 hvalid
  · exact ((hlegal Directory.access files ⟨"legal".toList, none, false, {}⟩ ["legal".toList] rfl hread).2 rfl).2 hvalid
  · exact fun h => hinvalid
      (((hrepeated Directory.access files ⟨"twice".toList, none, false, {}⟩ ["twice".toList] rfl hread').1 rfl).1 h)
  · exact fun h => hinvalid
      (((hrepeated Directory.access files ⟨"twice".toList, none, true, {}⟩ ["--json".toList, "twice".toList] rfl
        hread').2 rfl).1 h)
  · exact fun h => hinvalid
      (((hrepeated Directory.access files ⟨"twice".toList, none, false, {}⟩ ["twice".toList] rfl hread').2 rfl).1 h)

end AbilityScript
