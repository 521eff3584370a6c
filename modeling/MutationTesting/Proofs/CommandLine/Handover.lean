import Mathlib.Tactic.Common
import MutationTesting.CommandLine.Run
import MutationTesting.Proofs.CommandLine.Reading
import MutationTesting.Proofs.Duration

/-!
# What a process is told of its cycle

A batch tells a process of its cycle by arguments, and the process reads them next to its
settings file.
-/

namespace MutationTesting

namespace Batch

/-- The options by which a process is told of its cycle, with the values that they are given. -/
def handed (m : Mutation) (options : BatchOptions) (catalog : String)
    (testCommand workdir : Option String) : List (String × Option String) :=
  [("catalog", some catalog), ("id", some m.id),
    ("output", some (Store.resultPath options.outputDir m.id)),
    ("timeout", some s!"{options.cycle.timeout.toMillis}ms"),
    ("invalid-mutants", some options.cycle.invalidMutants.name),
    ("scope", if options.cycle.scope.isEmpty then none else some options.cycle.scope),
    ("test-cmd", testCommand), ("workdir", workdir)]

/-- The run of one cycle that a process is told of. -/
def told (m : Mutation) (options : BatchOptions) (catalog : String)
    (testCommand workdir : Option String) : CommandLine.Invocation where
  verbose := false
  command := .test catalog m.id (some (Store.resultPath options.outputDir m.id)) {
    timeout := some options.cycle.timeout
    testCommand := testCommand
    scope := if options.cycle.scope.isEmpty then none else some options.cycle.scope
    workdir := workdir
    invalidMutants := some options.cycle.invalidMutants }

theorem cycleArgs_eq (m : Mutation) (options : BatchOptions) (catalog : String)
    (testCommand workdir : Option String) :
  cycleArgs m options catalog testCommand workdir
    = "test" :: CommandLine.flags
      (CommandLine.given (handed m options catalog testCommand workdir))
  := by
  rw [cycleArgs, handed]
  cases testCommand <;> cases workdir <;> split <;> rfl

end Batch

namespace CommandLine

/-! ### Reading what a process is told -/

/-- What the command `test` takes. -/
def testForm : Form where
  options := commonOptions ++ [catalogOption, idOption, outputOption] ++ oracleOptions

theorem parse_test (args : List String) :
  parse ("test" :: args)
    = testForm.read args >>= fun r => .ok ⟨r.has "verbose", subcommandOf "test" r⟩
  := rfl

section

variable {m : Mutation} {options : BatchOptions} {catalog : String}
  {testCommand workdir : Option String}

theorem nodup_handed :
  ((Batch.handed m options catalog testCommand workdir).map (·.1)).Nodup
  := by
  simp only [Batch.handed, List.map_cons, List.map_nil]
  decide

theorem takes_of_mem_handed {name : String}
    (h : name ∈ (Batch.handed m options catalog testCommand workdir).map (·.1)) :
  ∃ a, testForm.Takes name a
  := by
  revert name
  simp only [Batch.handed, List.map_cons, List.map_nil, List.forall_mem_cons, List.not_mem_nil,
    false_implies, implies_true, and_true]
  repeat' apply And.intro
  all_goals exact ⟨_, rfl, rfl, by decide, by decide⟩

theorem InvalidMutantPolicy.ofName?_name (policy : InvalidMutantPolicy) :
  InvalidMutantPolicy.ofName? policy.name = some policy
  := by
  cases policy with
  | test => decide
  | assumeKilled => decide

theorem checkPath_eq_none {path : String} (h : path ≠ "") :
  checkPath path = none
  := by
  simp [checkPath, h]

theorem checkRead_eq_none_iff {α : Type} {error : UsageError} {read? : String → Option α}
    {value : String} :
  checkRead error read? value = none ↔ (read? value).isSome = true
  := by
  rw [checkRead]
  split
  · next h => simp [h]
  · next h => simp [h]

theorem resultPath_ne_empty (directory id : String) :
  Store.resultPath directory id ≠ ""
  := by
  have hnot (front : String) : front ++ ".json" ≠ "" := by
    rw [Ne, String.append_eq_empty_iff, not_and]
    intro
    decide
  rw [Store.resultPath, Path.join]
  split
  · apply hnot
  · rw [← String.append_assoc]
    split
    · apply hnot
    · rw [← String.append_assoc]
      apply hnot

/-- The values that a process is given pass the checks of their options, if its limit of time
fits into 64 bits. -/
theorem checks_handed_iff (hcatalog : catalog ≠ "") (hworkdir : workdir ≠ some "")
    (hwhole : options.cycle.timeout.IsWhole) :
  (∀ pair ∈ given (Batch.handed m options catalog testCommand workdir),
      ∀ a, testForm.long? pair.1 = some a → a.check pair.2 = none)
    ↔ options.cycle.timeout.toMillis ≤ Text.maxWord
  := by
  have hlimit : checkRead .valueValidation duration? s!"{options.cycle.timeout.toMillis}ms" = none
      ↔ options.cycle.timeout.toMillis ≤ Text.maxWord := by
    rw [checkRead_eq_none_iff, duration?, Duration.toOption_parse_toMillis hwhole]
    split
    · next h => simp [h]
    · next h => simp [h]
  -- An option is found under its name, so that its check is known.
  have hcheck {name value : String} {a : Argument} (check : String → Option UsageError)
      (ha : testForm.long? name = some a)
      (hfound : (testForm.long? name).map (·.check) = some check) :
      a.check value = none ↔ check value = none := by
    rw [ha] at hfound
    rw [← Option.some.inj hfound]
  constructor
  · intro h
    have hmem : ("timeout", some s!"{options.cycle.timeout.toMillis}ms")
        ∈ Batch.handed m options catalog testCommand workdir := by
      simp [Batch.handed]
    obtain ⟨a, ha⟩ := takes_of_mem_handed (List.mem_map_of_mem hmem)
    rw [← hlimit, ← hcheck (checkRead .valueValidation duration?) ha.long rfl]
    exact h _ (mem_given_iff.mpr hmem) a ha.long
  · rintro hfits ⟨name, value⟩ hmem a ha
    rw [mem_given_iff] at hmem
    simp only [Batch.handed, List.mem_cons, Prod.mk.injEq, List.not_mem_nil, or_false,
      Option.some.injEq] at hmem
    obtain ⟨rfl, rfl⟩ | ⟨rfl, rfl⟩ | ⟨rfl, rfl⟩ | ⟨rfl, rfl⟩ | ⟨rfl, rfl⟩ | ⟨rfl, -⟩
      | ⟨rfl, -⟩ | ⟨rfl, hdirectory⟩ := hmem
    · rw [hcheck checkPath ha rfl]
      exact checkPath_eq_none hcatalog
    · rw [hcheck (fun _ => none) ha rfl]
    · rw [hcheck checkPath ha rfl]
      exact checkPath_eq_none (resultPath_ne_empty options.outputDir m.id)
    · rw [hcheck (checkRead .valueValidation duration?) ha rfl]
      exact hlimit.mpr hfits
    · rw [hcheck (checkRead .invalidValue InvalidMutantPolicy.ofName?) ha rfl,
        checkRead_eq_none_iff, InvalidMutantPolicy.ofName?_name]
      rfl
    · rw [hcheck (fun _ => none) ha rfl]
    · rw [hcheck (fun _ => none) ha rfl]
    · rw [hcheck checkPath ha rfl]
      apply checkPath_eq_none
      rintro rfl
      exact hworkdir hdirectory.symm

/-- What stands for the options is what a process is told of. -/
theorem subcommandOf_handed (hwhole : options.cycle.timeout.IsWhole)
    (hlimit : options.cycle.timeout.toMillis ≤ Text.maxWord) :
  subcommandOf "test" { found := given (Batch.handed m options catalog testCommand workdir) }
    = (Batch.told m options catalog testCommand workdir).command
  := by
  have htimeout : duration? s!"{options.cycle.timeout.toMillis}ms"
      = some options.cycle.timeout := by
    rw [duration?, Duration.toOption_parse_toMillis hwhole, if_pos hlimit]
  have hvalues : ∀ entry ∈ Batch.handed m options catalog testCommand workdir,
      ({ found := given (Batch.handed m options catalog testCommand workdir) }
        : Reading).value? entry.1 = entry.2 :=
    fun entry hmem => value?_given nodup_handed hmem
  generalize ({ found := given (Batch.handed m options catalog testCommand workdir) }
    : Reading) = r at hvalues ⊢
  simp only [Batch.handed, List.forall_mem_cons] at hvalues
  obtain ⟨hcatalog, hid, houtput, htime, hpolicy, hscope, htest, hdirectory, -⟩ := hvalues
  change Subcommand.test ((r.value? "catalog").getD "") ((r.value? "id").getD "")
    (r.value? "output") (oracleArgs r) = _
  rw [oracleArgs, hcatalog, hid, houtput, htime, hpolicy, hscope, htest, hdirectory,
    Option.bind_some, Option.bind_some, htimeout, InvalidMutantPolicy.ofName?_name]
  rfl

/-- A process reads the options that it is told, if their values can be read and pass their
checks. -/
theorem read_handed_iff {r : Reading} :
  testForm.read (flags (given (Batch.handed m options catalog testCommand workdir))) = .ok r
    ↔ (∀ entry ∈ Batch.handed m options catalog testCommand workdir,
        ∀ value ∈ entry.2, IsValue value)
      ∧ r = { found := given (Batch.handed m options catalog testCommand workdir) }
      ∧ ∀ pair ∈ given (Batch.handed m options catalog testCommand workdir),
        ∀ a, testForm.long? pair.1 = some a → a.check pair.2 = none
  := by
  have hnames := names_given_sublist (Batch.handed m options catalog testCommand workdir)
  have htakes : ∀ pair ∈ given (Batch.handed m options catalog testCommand workdir),
      ∃ a, testForm.Takes pair.1 a := fun pair hpair =>
    takes_of_mem_handed (hnames.subset (List.mem_map_of_mem hpair))
  have hrequired : ∀ a ∈ testForm.options ++ testForm.positionals, a.required = true →
      a.name ∈ (given (Batch.handed m options catalog testCommand workdir)).map (·.1) := by
    have hrequired : ∀ a ∈ testForm.options ++ testForm.positionals,
        a.required = true → a.name ∈ ["catalog", "id"] := by
      simp [testForm, commonOptions, verboseOption, helpOption, catalogOption, idOption,
        outputOption, oracleOptions]
    have hgiven : ∀ name ∈ ["catalog", "id"],
        name ∈ (given (Batch.handed m options catalog testCommand workdir)).map (·.1) := by
      simp [given, Batch.handed]
    intro a ha hrequire
    exact hgiven a.name (hrequired a ha hrequire)
  have hvalues : (∀ pair ∈ given (Batch.handed m options catalog testCommand workdir),
        IsValue pair.2)
      ↔ ∀ entry ∈ Batch.handed m options catalog testCommand workdir,
        ∀ value ∈ entry.2, IsValue value := by
    constructor
    · rintro h ⟨name, _⟩ hentry value rfl
      exact h _ (mem_given_iff.mpr hentry)
    · rintro h ⟨name, value⟩ hpair
      exact h _ (mem_given_iff.mp hpair) value rfl
  rw [← hvalues]
  constructor
  · intro h
    obtain ⟨⟨r₁, rest, hread, hsettle⟩, -⟩ := Form.read_eq_ok_iff.mp h
    have hvalues := Form.isValue_of_readFrom_flags rfl rfl htakes rfl hread hsettle
    use hvalues
    apply (Form.read_flags_iff rfl htakes hvalues (hnames.nodup nodup_handed) hrequired).mp h
  · rintro ⟨hvalues, h⟩
    apply (Form.read_flags_iff rfl htakes hvalues (hnames.nodup nodup_handed) hrequired).mpr h

/-- A process reads what it is told, if its limit of time fits into 64 bits. -/
theorem parse_cycleArgs_iff (hcatalog : catalog ≠ "") (hworkdir : workdir ≠ some "")
    (hwhole : options.cycle.timeout.IsWhole)
    (hvalues : ∀ entry ∈ Batch.handed m options catalog testCommand workdir,
      ∀ value ∈ entry.2, IsValue value)
    {i : Invocation} :
  parse (Batch.cycleArgs m options catalog testCommand workdir) = .ok i
    ↔ options.cycle.timeout.toMillis ≤ Text.maxWord
      ∧ i = Batch.told m options catalog testCommand workdir
  := by
  have hverbose : Reading.has
      { found := given (Batch.handed m options catalog testCommand workdir) } "verbose"
        = false := by
    rw [has_eq_isSome_value?, value?_given_of_not_mem]
    · rfl
    · simp [Batch.handed]
  rw [Batch.cycleArgs_eq, parse_test]
  constructor
  · intro h
    obtain ⟨r, hr, hi⟩ := exists_of_bind_eq_ok h
    obtain ⟨-, rfl, hchecks⟩ := read_handed_iff.mp hr
    have hlimit := (checks_handed_iff hcatalog hworkdir hwhole).mp hchecks
    rw [hverbose, subcommandOf_handed hwhole hlimit] at hi
    cases hi
    exact ⟨hlimit, rfl⟩
  · rintro ⟨hlimit, rfl⟩
    rw [read_handed_iff.mpr
      ⟨hvalues, rfl, (checks_handed_iff hcatalog hworkdir hwhole).mpr hlimit⟩]
    change Except.ok (Invocation.mk _ _) = _
    rw [hverbose, subcommandOf_handed hwhole hlimit]
    rfl

/-- If a process reads what it is told, it is to run a cycle of the mutation with the id. -/
theorem exists_of_parse_cycleArgs {i : Invocation}
    (h : parse (Batch.cycleArgs m options catalog testCommand workdir) = .ok i) :
  ∃ oracle, i.command
    = .test catalog m.id (some (Store.resultPath options.outputDir m.id)) oracle
  := by
  rw [Batch.cycleArgs_eq, parse_test] at h
  obtain ⟨r, hr, hi⟩ := exists_of_bind_eq_ok h
  obtain ⟨-, rfl, -⟩ := read_handed_iff.mp hr
  obtain rfl := Except.ok.inj hi
  have hvalues : ∀ entry ∈ Batch.handed m options catalog testCommand workdir,
      ({ found := given (Batch.handed m options catalog testCommand workdir) }
        : Reading).value? entry.1 = entry.2 :=
    fun entry hmem => value?_given nodup_handed hmem
  generalize ({ found := given (Batch.handed m options catalog testCommand workdir) }
    : Reading) = r at hvalues ⊢
  simp only [Batch.handed, List.forall_mem_cons] at hvalues
  obtain ⟨hcatalog, hid, houtput, -⟩ := hvalues
  use oracleArgs r
  change Subcommand.test ((r.value? "catalog").getD "") ((r.value? "id").getD "")
    (r.value? "output") (oracleArgs r) = _
  rw [hcatalog, hid, houtput]
  rfl

end

/-! ### Reading the arguments of a batch -/

/-- What the command `batch` takes. -/
def batchForm : Form where
  options := commonOptions ++ batchOptions ++ oracleOptions

/-- What is read for a batch was read as its arguments. -/
theorem exists_of_parse_batch {args : List String} {i : Invocation} {a : BatchArgs}
    (h : parse args = .ok i) (hbatch : i.command = .batch a) :
  ∃ args r, batchForm.read args = .ok r ∧ a = batchArgs r
  := by
  obtain ⟨⟨top, rest⟩, -, h⟩ := exists_of_bind_eq_ok h
  dsimp only at h
  split at h
  · contradiction
  · next name args _ =>
    split at h
    · contradiction
    · next s hs =>
      obtain ⟨r, hr, hi⟩ := exists_of_bind_eq_ok h
      have hcommand : subcommandOf name r = .batch a := by
        rw [← hbatch, ← Except.ok.inj hi]
      unfold subcommandOf at hcommand
      split at hcommand <;> cases hcommand
      cases hs
      exact ⟨args, r, hr, rfl⟩
  · split at h <;> contradiction

/-- A batch has a catalog and no empty directory to work in, and a limit of its own for the
tests is a whole number of milliseconds. -/
theorem of_parse_batch {args : List String} {i : Invocation} {a : BatchArgs}
    (h : parse args = .ok i) (hbatch : i.command = .batch a) :
  a.catalog ≠ "" ∧ a.oracle.workdir ≠ some ""
    ∧ ∀ limit, a.oracle.timeout = some limit → limit.IsWhole
  := by
  obtain ⟨args, r, hr, rfl⟩ := exists_of_parse_batch h hbatch
  have hchecked := Form.checked_of_read hr
  have hpaths : ∀ a ∈ batchForm.options ++ batchForm.positionals,
      a.name = "catalog" ∨ a.name = "workdir" → a.takesValue = true ∧ a.check = checkPath := by
    simp [batchForm, commonOptions, verboseOption, helpOption, batchOptions, catalogOption,
      oracleOptions, Argument.takesValue]
  have hpath {name value : String} (hname : name = "catalog" ∨ name = "workdir")
      (hvalue : r.value? name = some value) : value ≠ "" := by
    obtain ⟨a, ha, hadmits⟩ := hchecked.value? hvalue
    obtain ⟨htakes, hcheck⟩ := hpaths a ha (hadmits.1 ▸ hname)
    have hpass := hadmits.2 htakes
    rw [hcheck] at hpass
    rintro rfl
    contradiction
  constructor
  · have hhas : r.has "catalog" = true :=
      (Form.read_eq_ok_iff.mp hr).2 catalogOption (by simp [batchForm, batchOptions]) rfl
    rw [has_eq_isSome_value?] at hhas
    obtain ⟨value, hvalue⟩ := Option.isSome_iff_exists.mp hhas
    rw [batchArgs, hvalue]
    exact hpath (.inl rfl) hvalue
  · constructor
    · intro hempty
      exact hpath (.inr rfl) hempty rfl
    · intro limit hlimit
      obtain ⟨value, -, hparse⟩ := Option.bind_eq_some_iff.mp hlimit
      exact Duration.isWhole_of_parse hparse

end CommandLine

end MutationTesting
