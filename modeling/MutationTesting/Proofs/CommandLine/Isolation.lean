import Mathlib.Tactic.Common
import MutationTesting.Proofs.CommandLine.Handover
import MutationTesting.Proofs.Cycle.Restoration
import MutationTesting.Proofs.Store

/-!
# Cycles in this process and in processes of their own

A cycle is run with a `Setup`. The setup of a batch that runs its cycles in this process is the
setup that a process reads from its arguments, up to three things that the arguments do not hand
over: an empty scope that stands against the settings file, a limit of time that does not fit
into 64 bits, and the default test command of other languages.
-/

namespace MutationTesting.CommandLine

/-- The settings with which an invocation works, where some are loaded. -/
def Invocation.effective (i : Invocation) (settings : Settings) : Settings :=
  let settings := { settings with verbose := settings.verbose || i.verbose }
  match i.command with
  | .test _ _ _ oracle => oracle.mergeInto settings
  | .batch a => a.mergeInto settings
  | _ => settings

/-- What a cycle is run with: its options and the command of its tests. -/
structure Setup where
  options : CycleOptions
  command : TestCommand
  deriving DecidableEq, Repr

namespace Setup

/-- The setup that settings give to cycles on some mutations. -/
def ofSettings (settings : Settings) (mutations : List Mutation) (workdir : Option String) :
    Except Failure Setup :=
  (chooseTestCommand settings mutations workdir).map fun command =>
    ⟨.ofSettings settings, command⟩

/-- The setup of the cycles that an invocation runs itself, where some settings are loaded and
`catalogs` says what is in files. -/
def ofInvocation? (settings : Settings) (catalogs : String → Option (List Mutation))
    (i : Invocation) : Option Setup :=
  match i.command with
  | .test catalog id _ oracle => do
    let m ← (Store.findMutation (← catalogs catalog) id).toOption
    (ofSettings (i.effective settings) [m] oracle.workdir).toOption
  | .batch a => do
    let selected := (Filter.ofSettings (i.effective settings)).select (← catalogs a.catalog)
    (ofSettings (i.effective settings) selected a.oracle.workdir).toOption
  | _ => none

end Setup

/-- The arguments of the process to which a batch leaves the cycle of a mutation. -/
def BatchArgs.processArgs (a : BatchArgs) (settings : Settings) (m : Mutation) : List String :=
  Batch.cycleArgs m (.ofSettings settings a.outputDir) a.catalog settings.testCommand
    a.oracle.workdir

/-- The values that such a process is given. -/
def BatchArgs.handed (a : BatchArgs) (settings : Settings) (m : Mutation) :
    List (String × Option String) :=
  Batch.handed m (.ofSettings settings a.outputDir) a.catalog settings.testCommand
    a.oracle.workdir

/-- The invocation that such a process is told of. -/
def BatchArgs.told (a : BatchArgs) (settings : Settings) (m : Mutation) : Invocation :=
  Batch.told m (.ofSettings settings a.outputDir) a.catalog settings.testCommand a.oracle.workdir

/-! ### Choosing the test command -/

section

variable {settings : Settings} {mutations : List Mutation} {workdir : Option String}

theorem chooseTestCommand_eq_ok_iff {command : TestCommand} :
  chooseTestCommand settings mutations workdir = .ok command
    ↔ ∃ text, testCommandText settings mutations = some text
      ∧ Text.trim text.toList ≠ [] ∧ command = .parse text workdir
  := by
  rw [chooseTestCommand]
  constructor
  · intro h
    split at h
    · contradiction
    · next text htext =>
      split at h
      · contradiction
      · next hempty =>
        cases h
        rw [List.isEmpty_iff] at hempty
        exact ⟨text, htext, hempty, rfl⟩
  · rintro ⟨text, htext, hempty, rfl⟩
    rw [htext]
    dsimp only
    rw [if_neg]
    rwa [List.isEmpty_iff]

theorem Setup.ofSettings_eq_some_iff {setup : Setup} :
  (Setup.ofSettings settings mutations workdir).toOption = some setup
    ↔ setup.options = .ofSettings settings
      ∧ chooseTestCommand settings mutations workdir = .ok setup.command
  := by
  obtain ⟨options, command⟩ := setup
  rw [Setup.ofSettings]
  cases chooseTestCommand settings mutations workdir with
  | error e => simp [Except.map, Except.toOption]
  | ok command' => simp [Except.map, Except.toOption, eq_comm]

/-- The default test commands run different programs, or are the same. -/
theorem defaultTestCommand_eq_of_parse_eq {language language' : Language}
    (h : TestCommand.parse language.defaultTestCommand workdir
      = .parse language'.defaultTestCommand workdir) :
  language.defaultTestCommand = language'.defaultTestCommand
  := by
  have hprogram (text : String) :
      (TestCommand.parse text workdir).program = (TestCommand.parse text none).program := by
    rw [TestCommand.parse, TestCommand.parse]
    split <;> rfl
  have hsame := congrArg TestCommand.program h
  rw [hprogram, hprogram] at hsame
  revert hsame
  cases language <;> cases language' <;> decide

/-- The same command is chosen for different mutations just when its text is the same. -/
theorem chooseTestCommand_eq_ok_iff_of_eq {mutations' : List Mutation} {command : TestCommand}
    (h : chooseTestCommand settings mutations workdir = .ok command) :
  chooseTestCommand settings mutations' workdir = .ok command
    ↔ testCommandText settings mutations' = testCommandText settings mutations
  := by
  obtain ⟨text, htext, hempty, rfl⟩ := chooseTestCommand_eq_ok_iff.mp h
  rw [chooseTestCommand_eq_ok_iff, htext]
  constructor
  · rintro ⟨text', htext', -, hparse⟩
    rw [htext', Option.some.injEq]
    rw [testCommandText] at htext htext'
    cases hconfigured : settings.testCommand with
    | some configured =>
      rw [hconfigured, Option.some_or] at htext htext'
      rw [← Option.some.inj htext, ← Option.some.inj htext']
    | none =>
      rw [hconfigured, Option.none_or] at htext htext'
      obtain ⟨language, -, rfl⟩ := Option.map_eq_some_iff.mp htext
      obtain ⟨language', -, rfl⟩ := Option.map_eq_some_iff.mp htext'
      exact defaultTestCommand_eq_of_parse_eq hparse.symm
  · intro htext'
    exact ⟨text, htext', hempty, rfl⟩

end

/-! ### The effective settings of a process -/

section

variable {settings : Settings} {i : Invocation} {a : BatchArgs} {m : Mutation}

/-- A process chooses the test command as the batch would do for the same mutations. -/
theorem chooseTestCommand_told (hbatch : i.command = .batch a) (mutations : List Mutation)
    (workdir : Option String) :
  chooseTestCommand ((a.told (i.effective settings) m).effective settings) mutations workdir
    = chooseTestCommand (i.effective settings) mutations workdir
  := by
  have hcommand : ((a.told (i.effective settings) m).effective settings).testCommand
      = (i.effective settings).testCommand := by
    obtain ⟨verbose, command⟩ := i
    cases hbatch
    change (a.oracle.testCommand.or settings.testCommand).or settings.testCommand
      = a.oracle.testCommand.or settings.testCommand
    rw [Option.or_assoc, Option.or_self]
  rw [chooseTestCommand, chooseTestCommand, testCommandText, testCommandText, hcommand]

/-- The options of the cycle in a process are those in the batch, but for an empty scope. -/
theorem options_told_iff (hbatch : i.command = .batch a) :
  CycleOptions.ofSettings (i.effective settings)
    = .ofSettings ((a.told (i.effective settings) m).effective settings)
    ↔ ((i.effective settings).scope = "" → settings.scope = "")
  := by
  have hscope : ((a.told (i.effective settings) m).effective settings).scope
      = if (i.effective settings).scope = "" then settings.scope else (i.effective settings).scope := by
    change Option.getD (if (i.effective settings).scope.isEmpty then _ else _) settings.scope = _
    simp only [String.isEmpty_iff]
    split
    · rfl
    · rfl
  have hrest : CycleOptions.ofSettings ((a.told (i.effective settings) m).effective settings)
      = { CycleOptions.ofSettings (i.effective settings) with
          scope := ((a.told (i.effective settings) m).effective settings).scope } := by
    obtain ⟨verbose, command⟩ := i
    cases hbatch
    rfl
  rw [hrest, hscope]
  generalize (i.effective settings) = effective
  constructor
  · intro h hempty
    have hsame := congrArg CycleOptions.scope h
    dsimp only at hsame
    rw [if_pos hempty] at hsame
    rw [← hsame]
    exact hempty
  · intro h
    by_cases hempty : effective.scope = ""
    · rw [if_pos hempty, h hempty, ← hempty]
      rfl
    · rw [if_neg hempty]
      rfl

/-- The limit of the tests in a batch is a whole number of milliseconds. -/
theorem isWhole_effective {args : List String}
    (hsettings : settings = {} ∨ ∃ text, Settings.parse? text = some settings)
    (hargs : parse args = .ok i) (hbatch : i.command = .batch a) :
  (i.effective settings).timeout.IsWhole
  := by
  have hlimits := (of_parse_batch hargs hbatch).2.2
  obtain ⟨verbose, command⟩ := i
  cases hbatch
  change (a.oracle.timeout.getD settings.timeout).IsWhole
  cases hlimit : a.oracle.timeout with
  | some limit => exact hlimits limit hlimit
  | none =>
    obtain rfl | ⟨text, htext⟩ := hsettings
    · exact Duration.isWhole_ofSeconds 60
    · exact Settings.isWhole_of_parse? htext

end

/-- A process runs the cycle of a mutation with the setup that the batch would use for it, just
when the limit of time fits into 64 bits, an empty scope does not stand against the settings
file, and the default test command for the mutation is that for the batch. -/
theorem process_setup_iff {settings : Settings}
    (hsettings : settings = {} ∨ ∃ text, Settings.parse? text = some settings)
    {args : List String} {i : Invocation} {a : BatchArgs}
    (hargs : parse args = .ok i) (hbatch : i.command = .batch a)
    {catalogs : String → Option (List Mutation)} {mutations : List Mutation}
    (hcatalog : catalogs a.catalog = some mutations) {m : Mutation}
    (hm : m ∈ (Filter.ofSettings (i.effective settings)).select mutations) {setup : Setup}
    (hsetup : Setup.ofInvocation? settings catalogs i = some setup)
    (hvalues : ∀ entry ∈ a.handed (i.effective settings) m, ∀ value ∈ entry.2, IsValue value) :
  ∃ m', Store.findMutation mutations m.id = .ok m' ∧
    ((∃ j, parse (a.processArgs (i.effective settings) m) = .ok j
        ∧ Setup.ofInvocation? settings catalogs j = some setup)
      ↔ (i.effective settings).timeout.toMillis ≤ Text.maxWord
        ∧ ((i.effective settings).scope = "" → settings.scope = "")
        ∧ testCommandText (i.effective settings) [m']
          = testCommandText (i.effective settings)
            ((Filter.ofSettings (i.effective settings)).select mutations))
  := by
  obtain ⟨m', hfind⟩ := Store.exists_findMutation (List.mem_of_mem_filter hm)
  use m', hfind
  have hbatchSetup : Setup.ofInvocation? settings catalogs i
      = (Setup.ofSettings (i.effective settings)
        ((Filter.ofSettings (i.effective settings)).select mutations) a.oracle.workdir).toOption := by
    rw [Setup.ofInvocation?, hbatch]
    dsimp only
    rw [hcatalog]
    rfl
  have hprocessSetup :
      Setup.ofInvocation? settings catalogs (a.told (i.effective settings) m)
        = (Setup.ofSettings ((a.told (i.effective settings) m).effective settings) [m']
          a.oracle.workdir).toOption := by
    change ((catalogs a.catalog).bind fun mutations =>
      (Store.findMutation mutations m.id).toOption.bind _) = _
    rw [hcatalog, Option.bind_some, hfind]
    rfl
  obtain ⟨hoptions, hcommand⟩ := Setup.ofSettings_eq_some_iff.mp (hbatchSetup.symm.trans hsetup)
  have hsame : Setup.ofInvocation? settings catalogs (a.told (i.effective settings) m) = some setup
      ↔ ((i.effective settings).scope = "" → settings.scope = "")
        ∧ testCommandText (i.effective settings) [m']
          = testCommandText (i.effective settings)
            ((Filter.ofSettings (i.effective settings)).select mutations) := by
    rw [hprocessSetup, Setup.ofSettings_eq_some_iff, hoptions, options_told_iff hbatch,
      chooseTestCommand_told hbatch, chooseTestCommand_eq_ok_iff_of_eq hcommand]
  obtain ⟨hpath, hworkdir, -⟩ := of_parse_batch hargs hbatch
  have hparse {j : Invocation} :
      parse (a.processArgs (i.effective settings) m) = .ok j
        ↔ (i.effective settings).timeout.toMillis ≤ Text.maxWord
          ∧ j = a.told (i.effective settings) m := by
    have hwhole : (BatchOptions.ofSettings (i.effective settings) a.outputDir).cycle.timeout.IsWhole :=
      isWhole_effective hsettings hargs hbatch
    exact parse_cycleArgs_iff hpath hworkdir hwhole hvalues
  rw [← hsame]
  constructor
  · rintro ⟨j, hj, hsetup⟩
    obtain ⟨hlimit, rfl⟩ := hparse.mp hj
    exact ⟨hlimit, hsetup⟩
  · rintro ⟨hlimit, hsetup⟩
    exact ⟨_, hparse.mpr ⟨hlimit, rfl⟩, hsetup⟩

/-- The arguments of a batch that leaves the cycles on `c.json` to processes, up to what they
say about the tests. -/
def BatchArgs.isolating (oracle : OracleArgs) : BatchArgs where
  catalog := "c.json"
  outputDir := defaultOutputDir
  maxConcurrency := none
  skipLowLines := some false
  minLine := none
  maxLine := none
  categories := []
  minPriority := none
  isolated := true
  oracle := oracle

/-- A process runs its cycle as the batch would run it. -/
theorem process_setup_scoped :
  let m := Mutation.atStart "a.go" "<" ">"
  let catalogs : String → Option (List Mutation) := fun _ => some [m]
  let args := ["batch", "--catalog", "c.json", "--isolation", "subprocess", "--skip-low-lines",
    "false", "--scope", "p", "--timeout", "500ms"]
  let a := BatchArgs.isolating ⟨some (.ofMillis 500), none, some "p", none, none⟩
  let i : Invocation := ⟨false, .batch a⟩
  let setup : Setup := ⟨⟨"p", .ofMillis 500, true, .test, 10000⟩, ⟨"go", ["test", "-v"], none⟩⟩
  parse args = .ok i ∧ Setup.ofInvocation? {} catalogs i = some setup
    ∧ ∃ j, parse (a.processArgs (i.effective {}) m) = .ok j
      ∧ Setup.ofInvocation? {} catalogs j = some setup
  := by
  intro m catalogs args a i setup
  have hargs : parse args = .ok i := by decide +kernel
  have hsetup : Setup.ofInvocation? {} catalogs i = some setup := by decide +kernel
  have hm : m ∈ (Filter.ofSettings (i.effective {})).select [m] := by decide +kernel
  have hvalues : ∀ entry ∈ a.handed (i.effective {}) m, ∀ value ∈ entry.2, IsValue value := by
    decide +kernel
  have hfound : Store.findMutation [m] m.id = .ok m := by decide +kernel
  obtain ⟨m', hm', hiff⟩ := process_setup_iff (.inl rfl) hargs rfl rfl hm hsetup hvalues
  cases hfound.symm.trans hm'
  use hargs, hsetup
  apply hiff.mpr
  decide +kernel

/-- A process runs its tests with the scope of the settings file, though the arguments of the
batch set it to be empty. -/
theorem process_setup_ne :
  let m := Mutation.atStart "a.go" "<" ">"
  let catalogs : String → Option (List Mutation) := fun _ => some [m]
  let settings : Settings := { scope := "x" }
  let args := ["batch", "--catalog", "c.json", "--isolation", "subprocess", "--skip-low-lines",
    "false", "--scope", "", "--test-cmd", "true"]
  let a := BatchArgs.isolating ⟨none, some "true", some "", none, none⟩
  let i : Invocation := ⟨false, .batch a⟩
  let setup : Setup := ⟨⟨"", .ofSeconds 60, true, .test, 10000⟩, ⟨"true", [], none⟩⟩
  Settings.parse? "[run]\nscope = \"x\"\n" = some settings ∧ parse args = .ok i
    ∧ m ∈ (Filter.ofSettings (i.effective settings)).select [m]
    ∧ Setup.ofInvocation? settings catalogs i = some setup
    ∧ parse (a.processArgs (i.effective settings) m) = .ok (a.told (i.effective settings) m)
    ∧ Setup.ofInvocation? settings catalogs (a.told (i.effective settings) m)
      = some { setup with options := { setup.options with scope := "x" } }
  := by
  decide +kernel

end MutationTesting.CommandLine
