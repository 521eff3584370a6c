import MutationTesting.Proofs.Safekeeping.Batch

/-!
# Mutants never stack

A session is a sequence of commands, each of which may fail anywhere and may be killed anywhere
but in the midst of making a backup. If all of them are `Admissible`, each disk that is
`Reachable` has every target safe, and whenever tests are run, the mutation that is `underTest?`
stands in the text that its target had at first, so that no mutant is made of a mutant.
-/

namespace MutationTesting

open Disk Procedure CommandLine

/-- The mutation that a command tests, given the disk where it starts and what was asked and
answered up to there. -/
def CommandLine.Invocation.underTest? (i : Invocation) (d : Disk) (events : List Event) :
    Option Mutation :=
  match i.command with
  | .test catalog id _ _ => do
    let mutations ← Store.catalog? d catalog
    (Store.findMutation mutations id).toOption
  | .batch args => do
    let settings ← Settings.found? d "."
    let mutations ← Store.catalog? d args.catalog
    let settings := args.mergeInto { settings with verbose := settings.verbose || i.verbose }
    ((Filter.ofSettings settings).select mutations)[rounds events - 1]?
  | .generate _ _ _ _ | .functions _ | .apply _ _ _ _ | .report _ _ | .restore _ => none

/-- A command writes only to some paths and works only on some files, and its cycles run in its
own process. -/
def CommandLine.Subcommand.Admissible (writable workable : String → Prop) (d : Disk) :
    Subcommand → Prop
  | .generate _ _ _ output | .apply _ _ output _ => ∀ path ∈ output, writable path
  | .test catalog _ output _ => (∀ path ∈ output, writable path)
    ∧ ∀ mutations, Store.catalog? d catalog = some mutations → ∀ m ∈ mutations, workable m.file
  | .batch args => args.isolated = false ∧ writable args.outputDir
    ∧ ∀ mutations, Store.catalog? d args.catalog = some mutations →
      ∀ m ∈ mutations, workable m.file ∧ writable (Store.resultPath args.outputDir m.id)
  | .restore file => workable file
  | .functions _ | .report _ _ => False

/-- What is reached by commands, each of which goes on from what the one before it has left when
it ended or was killed. Making a backup counts as one step, so that none is killed in its midst. -/
inductive Reachable (parser : Parser) (targets : Set String)
    (admissible : Disk → Subcommand → Prop) (d : Disk) : Disk → Prop where
  | refl : Reachable parser targets admissible d d
  | step {d' d'' : Disk} {i : Invocation} {events : List Event} {rest : Procedure Ending} :
      Reachable parser targets admissible d d' → admissible d' i.command →
      Reaches (World.hazardous targets) (CommandLine.run parser i) d' events rest d'' →
      CleansUp events → (∀ event ∈ events.getLast?, event.isUnfinished = false) →
      Reachable parser targets admissible d d''

variable {targets : Set String} {text : String → String} {home : Location} {parser : Parser}
  {i : Invocation} {d d' : Disk}

/-- The tests are run for a mutation that stands in its target. -/
def Tested (targets : Set String) (text : String → String) (parser : Parser) (i : Invocation)
    (d : Disk) (s : List Event × Disk) : Prop :=
  ∃ m, i.underTest? d s.1 = some m ∧ (m.file ∈ targets → m.Stands parser (text m.file) s.2)

/-- If a command tests only one mutation, the file of this mutation is as it should be. -/
def Mended (targets : Set String) (text : String → String) (i : Invocation) (d : Disk)
    (s : List Event × Disk) : Prop :=
  ∀ catalog id output oracle, i.command = .test catalog id output oracle →
    ∃ m, i.underTest? d s.1 = some m ∧ (m.file ∈ targets → Intact m.file (text m.file) s.2)

/-- A command that is admissible keeps the targets, whatever the settings are. -/
theorem CommandLine.safekeeps_command {s : List Event × Disk} {settings : Settings}
    (hadmissible : i.command.Admissible (Writable targets home) (Workable targets home) d)
    (hsteady : Steady ([], d) s) (hsettings : Settings.found? d "." = some settings)
    (hs : Secured targets text home s.2) :
  Safekeeps targets text home (Tested targets text parser i d)
    (fun result s => Secured targets text home s.2 ∧ (result = .ok 0 → Mended targets text i d s))
    (command parser { settings with verbose := settings.verbose || i.verbose } i.command).run s
  := by
  have hother : (∀ catalog id output oracle, i.command ≠ .test catalog id output oracle) →
      ∀ {result : Except Failure Nat} {s}, Secured targets text home s.2 →
        Secured targets text home s.2 ∧ (result = .ok 0 → Mended targets text i d s) :=
    fun hne _ _ hs => ⟨hs, fun _ _ _ _ _ heq => absurd heq (hne _ _ _ _)⟩
  have hdisk : s.2 = d := hsteady.disk
  obtain ⟨verbose, c⟩ := i
  cases c with
  | generate file function lines output =>
    apply (safekeeps_of_harmless (asks_generateCommand hadmissible) hs).mono
    exact fun _ _ habides => hother (by simp) habides.secured
  | functions file => cases hadmissible
  | apply catalog id output verify =>
    apply (safekeeps_of_harmless (asks_applyCommand hadmissible) hs).mono
    exact fun _ _ habides => hother (by simp) habides.secured
  | test catalog id output oracle =>
    obtain ⟨houtput, hcatalog⟩ := hadmissible
    have hunder : ∀ {mutations m events}, Store.catalog? s.2 catalog = some mutations →
        Store.findMutation mutations id = .ok m →
        (Invocation.mk verbose (.test catalog id output oracle)).underTest? d events = some m := by
      intro mutations m events hmutations hfind
      rw [hdisk] at hmutations
      simp [Invocation.underTest?, hmutations, hfind, Except.toOption]
    rw [← hdisk] at hcatalog
    apply (safekeeps_testCommand hcatalog houtput _ hs).mono
    · rintro result s' ⟨hs', hsuccess⟩
      use hs'
      rintro hresult _ _ _ _ ⟨⟩
      obtain ⟨mutations, m, hmutations, hfind, hintact⟩ := hsuccess hresult
      use m, hunder hmutations hfind
    · intro mutations m hmutations hfind s' hstands
      use m, hunder hmutations hfind
  | batch args =>
    obtain ⟨hisolated, hdirectory, hcatalog⟩ := hadmissible
    rw [← hdisk] at hcatalog
    apply (safekeeps_batchCommand hisolated hdirectory hcatalog _ hsteady.rounds hs).mono
    · exact fun _ _ hs' => hother (by simp) hs'
    · intro mutations hmutations j m hm s' hrounds hstands
      use m
      constructor
      · rw [hdisk] at hmutations
        simp [Invocation.underTest?, hmutations, hsettings, hrounds, hm]
      · apply hstands
  | report results output => cases hadmissible
  | restore file =>
    apply (safekeeps_restoreCommand hadmissible hs).mono
    exact fun _ _ habides => hother (by simp) habides.secured

/-- A command that is admissible keeps the targets, and a test that succeeds leaves the file of its
mutation as it should be. -/
theorem CommandLine.safekeeps_run
    (hadmissible : i.command.Admissible (Writable targets home) (Workable targets home) d)
    (hs : Secured targets text home d) :
  Safekeeps targets text home (Tested targets text parser i d)
    (fun ending s => Secured targets text home s.2
      ∧ (ending = .exited 0 → Mended targets text i d s)) (CommandLine.run parser i) ([], d)
  := by
  have hstart : Safekeeps targets text home (Tested targets text parser i d)
      (fun result s => Secured targets text home s.2
        ∧ (result = .ok 0 → Mended targets text i d s)) (start parser i).run ([], d) := by
    rw [start]
    apply Command.ensures_bind
    apply Command.ensures_attempt
    apply (Settings.safekeeps_load hs).mono
    rintro (e | settings) s ⟨hsteady, hsettings⟩
    · use (hsteady.abides hs).secured
      rintro ⟨⟩
    · apply safekeeps_command hadmissible hsteady (hsettings settings rfl)
      apply (hsteady.abides hs).secured
  have hprint : ∀ {message s} {code : Nat}, Secured targets text home s.2 → code ≠ 0 →
      Safekeeps targets text home (Tested targets text parser i d)
        (fun ending s => Secured targets text home s.2
          ∧ (ending = .exited 0 → Mended targets text i d s))
        (do
          Procedure.print message
          return .exited code : Procedure Ending) s := by
    intro message s code hs hcode
    apply safekeeps_reading rfl rfl hs
    rintro _ s' hsteady - _ rfl
    use (hsteady.abides hs).secured
    rintro ⟨⟩
    contradiction
  rw [CommandLine.run]
  apply Ensures.bind (fun _ => rfl)
  apply hstart.mono
  rintro result s ⟨hs, hsuccess⟩
  cases result with
  | ok code =>
    rintro _ rfl
    use hs
    rintro ⟨⟩
    apply hsuccess rfl
  | error failure =>
    cases failure with
    | badInput messages => apply hprint hs (by decide)
    | unrestored messages => apply hprint hs (by decide)
    | brokenDown message =>
      rintro _ rfl
      use hs
      rintro ⟨⟩

/-! ### Sessions -/

theorem CommandLine.Subcommand.Admissible.mono
    {writable writable' workable workable' : String → Prop} {c : Subcommand}
    (hwritable : ∀ path, writable path → writable' path)
    (hworkable : ∀ file, workable file → workable' file) (h : c.Admissible writable workable d) :
  c.Admissible writable' workable' d
  := by
  cases c with
  | generate file function lines output => exact fun path hpath => hwritable path (h path hpath)
  | functions file => cases h
  | apply catalog id output verify => exact fun path hpath => hwritable path (h path hpath)
  | test catalog id output oracle =>
    constructor
    · exact fun path hpath => hwritable path (h.1 path hpath)
    · exact fun mutations hmutations m hm => hworkable _ (h.2 mutations hmutations m hm)
  | batch args =>
    obtain ⟨hisolated, hdirectory, hcatalog⟩ := h
    use hisolated, hwritable _ hdirectory
    intro mutations hmutations m hm
    obtain ⟨hfile, hresult⟩ := hcatalog mutations hmutations m hm
    use hworkable _ hfile, hwritable _ hresult
  | report results output => cases h
  | restore file => apply hworkable _ h

section

variable {events : List Event}

theorem CleansUp.of_prefix {part : List Event} (h : CleansUp events) (hpart : part <+: events) :
  CleansUp part
  := by
  obtain ⟨rest, rfl⟩ := hpart
  apply h.left_of_append

theorem CleansUp.append_single {event : Event} (h : CleansUp events)
    (hevent : event.isFailedRemoval = false) :
  CleansUp (events ++ [event])
  := by
  apply List.isChain_append.mpr
  use h, List.isChain_singleton event
  rintro last - _ ⟨⟩ ⟨-, hremoval⟩
  cases hevent.symm.trans hremoval

/-- What a command that is admissible reaches, it reaches with a log that is fair. -/
theorem CommandLine.logged_of_reaches {rest : Procedure Ending}
    (h : Reaches (World.hazardous targets) (CommandLine.run parser i) d events rest d')
    (hclean : CleansUp events) :
  Reaches ((World.hazardous targets).logged CleansUp) (CommandLine.run parser i) ([], d) events rest
    (events, d')
  := h.logged fun _ hpart => hclean.of_prefix hpart

/-- What a command that is admissible reaches keeps the targets. -/
theorem CommandLine.secured_of_reaches {rest : Procedure Ending}
    (hadmissible : i.command.Admissible (Writable targets home) (Workable targets home) d)
    (hs : Secured targets text home d)
    (h : Reaches (World.hazardous targets) (CommandLine.run parser i) d events rest d')
    (hclean : CleansUp events) (hlast : ∀ event ∈ events.getLast?, event.isUnfinished = false) :
  Secured targets text home d'
  := by
  obtain ⟨rfl, hd⟩ | ⟨before, event, s, rfl, hwatched⟩ :=
    (safekeeps_run hadmissible hs).last_step (fun _ => rfl) (logged_of_reaches h hclean)
  · cases hd
    apply hs
  · apply hwatched.secured
    apply hlast
    simp

/-- A command that is admissible runs tests only while the mutation under test stands. -/
theorem CommandLine.tested_of_reaches {l : Launch}
    {next : Except FileError Completion → Procedure Ending}
    (hadmissible : i.command.Admissible (Writable targets home) (Workable targets home) d)
    (hs : Secured targets text home d)
    (h : Reaches (World.hazardous targets) (CommandLine.run parser i) d events
      (.ask (.launch l) next) d') (hclean : CleansUp events) :
  Tested targets text parser i d (events, d')
  := by
  have hensures : Ensures _ _ _ _ (.ask (.launch l) next) (events, d') :=
    (safekeeps_run hadmissible hs).of_reaches (fun _ => rfl) (logged_of_reaches h hclean)
  have hlaunch : World.hazardous targets (.launch l) d' (.error .notFound) d' :=
    fun _ _ => ⟨Unchanged.refl _ _, Unchanged.refl _ _⟩
  have hclean' : CleansUp (events ++ [⟨.launch l, .error .notFound⟩]) :=
    hclean.append_single rfl
  apply (hensures _ rfl _ (_, d') ⟨hlaunch, rfl, hclean'⟩).1.trial rfl

end

/-! ### Small sessions -/

/-- Whether the next request of a procedure is to run a program. -/
def Procedure.isLaunching {α : Type} : Procedure α → Bool
  | .ask (.launch _) _ => true
  | _ => false

theorem Procedure.exists_of_isLaunching {α : Type} {p : Procedure α} (h : p.isLaunching = true) :
  ∃ l next, p = .ask (.launch l) next
  := by
  unfold isLaunching at h
  split at h
  · next l next => use l, next
  · cases h

/-- A catalog with a mutation that puts one text for another where a file starts. -/
def Disk.withCatalog (d : Disk) (file : String) : Disk :=
  d.put ["home", "c"] (.file (.text ("[[\"M\",\"" ++ file
    ++ "\",1,1,\"relational_operator\",\"<\",\">\",\"\",\"low\"]]")))

/-- A test of the mutation in the catalog. -/
def CommandLine.Invocation.plain : Invocation :=
  ⟨false, .test "c" "M" none ⟨none, none, none, none, none⟩⟩

theorem Store.file_mem_of_catalog? {path : String} {files : List String} {mutations : List Mutation}
    (hfiles : (Store.catalog? d path).map (·.map (·.file)) = some files)
    (h : Store.catalog? d path = some mutations) :
  ∀ m ∈ mutations, m.file ∈ files
  := by
  intro m hm
  rw [h] at hfiles
  cases hfiles
  apply List.mem_map_of_mem hm

/-- A disk with a module, its compiled code and a catalog for the module. -/
def Disk.compiledModule : Disk :=
  (((Disk.single "a.py" "<").put ["home", "__pycache__"] .directory).put
    ["home", "__pycache__", "a.x.pyc"] (.file (.text "P"))).withCatalog "a.py"

/-- A command that lists the mutations of a file into a directory where its backup should be. -/
def CommandLine.Invocation.misplaced : Invocation :=
  ⟨false, .generate "a.go" none none (some ".a.go.mutscore.bak/x.json")⟩

theorem Reachable.of_advance {targets : Set String} {parser : Parser} {d : Disk}
    {admissible : Disk → Subcommand → Prop} {i : Invocation} {n : Nat}
    {reached : List Event × Procedure Ending × Disk} (hadmissible : admissible d i.command)
    (hadvance : (CommandLine.run parser i).advance Disk.serve n d = reached)
    (hclean : CleansUp reached.1)
    (hlast : ∀ event ∈ reached.1.getLast?, event.isUnfinished = false) :
  Reachable parser targets admissible d reached.2.2
  := .step .refl hadmissible (World.reaches_of_advance targets hadvance) hclean hlast

/-! ### Targets along a session -/

/-- Starting from targets that hold their texts and have no backups, each disk that a session
reaches has every target either like that or with a backup that holds its text. Whenever a command
of a session runs tests, the mutation under test stands in the text that its target had at first. -/
theorem Reachable.never_stacked
    (hintact : ∀ file ∈ targets, Intact file (text file) d)
    (hnamed : Set.InjOn (place d.home) targets)
    (hcompiled : ∀ file ∈ targets, ∀ path, Backup.Clears file path → ∀ other ∈ targets,
      place d.home other ≠ place d.home path)
    (h : Reachable parser targets (fun d' c => c.Admissible (Writable targets d.home)
      (fun file => file ∈ targets ∨ Workable targets d.home file) d') d d') :
  (∀ file ∈ targets, Intact file (text file) d' ∨ BackedUp file (text file) d')
    ∧ ∀ (i : Invocation) events l next d'',
      i.command.Admissible (Writable targets d.home)
        (fun file => file ∈ targets ∨ Workable targets d.home file) d' →
      Reaches (World.hazardous targets) (CommandLine.run parser i) d' events (.ask (.launch l) next)
        d'' → CleansUp events →
      ∃ m, i.underTest? d' events = some m
        ∧ (m.file ∈ targets → m.Stands parser (text m.file) d'')
  := by
  have hworkable : ∀ file, file ∈ targets ∨ Workable targets d.home file →
      Workable targets d.home file := by
    rintro file (hfile | hwork)
    · apply workable_of_intact hintact hnamed hcompiled hfile
    · apply hwork
  have hsecured : Secured targets text d.home d' := by
    induction h with
    | refl => exact fun file hfile => ⟨rfl, .inl (hintact file hfile)⟩
    | step _ hadmissible hreach hclean hlast ih =>
      apply CommandLine.secured_of_reaches (hadmissible.mono (fun _ => id) hworkable) ih hreach
        hclean hlast
  constructor
  · exact fun file hfile => (hsecured file hfile).kept
  · intro i events l next d'' hadmissible hreach hclean
    apply CommandLine.tested_of_reaches (hadmissible.mono (fun _ => id) hworkable) hsecured hreach
      hclean

/-- A test that is killed while the mutant is in the file, just before the tests are run, leaves a
backup of the file, and the tests would have been run on the mutant. -/
theorem Reachable.never_stacked_single :
  let d := (Disk.single "a.go" "<").withCatalog "a.go"
  let killed := (CommandLine.run Parser.single .plain).advance Disk.serve 9 d
  killed.2.2.readText "a.go" = .ok ">" ∧ BackedUp "a.go" "<" killed.2.2
    ∧ killed.2.1.isLaunching = true ∧ ∃ m, Invocation.plain.underTest? d killed.1 = some m
      ∧ m.Stands Parser.single "<" killed.2.2
  := by
  intro d killed
  have hcatalog : (Store.catalog? d "c").map (·.map (·.file)) = some ["a.go"]
      ∧ d.readText "a.go" = .ok "<" ∧ d.isPresent (Backup.path "a.go") = false := by
    decide +kernel
  have hkilled : CleansUp killed.1 ∧ (∀ event ∈ killed.1.getLast?, event.isUnfinished = false)
      ∧ killed.2.2.readText "a.go" = .ok ">" ∧ killed.2.1.isLaunching = true
      ∧ (Invocation.plain.underTest? d killed.1).map (·.file) = some "a.go" := by
    decide +kernel
  have hadvance : (CommandLine.run Parser.single .plain).advance Disk.serve 9 d = killed := rfl
  -- From here on the disks are variables, so that no step of the proof computes them.
  clear_value killed d
  have hintact : ∀ file ∈ ({"a.go"} : Set String), Intact file "<" d := by
    rintro _ rfl
    exact ⟨hcatalog.2.1, hcatalog.2.2⟩
  have hnamed : Set.InjOn (place d.home) {"a.go"} := Set.injOn_singleton _ _
  have hcompiled : ∀ file ∈ ({"a.go"} : Set String), ∀ path, Backup.Clears file path →
      ∀ other ∈ ({"a.go"} : Set String), place d.home other ≠ place d.home path := by
    rintro _ rfl path ⟨hextension, -⟩
    have hother : Path.extension? "a.go" ≠ some "py" := by decide
    cases hother hextension
  have hadmissible : Invocation.plain.command.Admissible (Writable {"a.go"} d.home)
      (fun file => file ∈ ({"a.go"} : Set String) ∨ Workable {"a.go"} d.home file) d := by
    constructor
    · simp
    · intro mutations hmutations m hm
      left
      simpa using Store.file_mem_of_catalog? hcatalog.1 hmutations m hm
  have hreach := World.reaches_of_advance {"a.go"} hadvance
  obtain ⟨hclean, hlast, htext, hlaunching, hm⟩ := hkilled
  obtain ⟨l, next, hlaunch⟩ := exists_of_isLaunching hlaunching
  have hkept := (Reachable.never_stacked hintact hnamed hcompiled
    (.step .refl hadmissible hreach hclean hlast)).1
  rw [hlaunch] at hreach
  obtain ⟨m, hunder, hstands⟩ := (Reachable.never_stacked hintact hnamed hcompiled .refl).2
    _ _ _ _ _ hadmissible hreach hclean
  use htext
  constructor
  · obtain hintact' | hbackedUp := hkept "a.go" rfl
    · have hother := htext.symm.trans hintact'.content
      simp at hother
    · apply hbackedUp
  · use hlaunching, m, hunder
    apply hstands
    rw [hunder] at hm
    exact Option.some.inj hm

/-- A test of a module takes away its compiled code. If that is a target too, it is lost. -/
theorem Reachable.compiled_lost :
  let d := Disk.compiledModule
  let targets : Set String := {"a.py", "__pycache__/a.x.pyc"}
  let text : String → String := fun file => if file = "a.py" then "<" else "P"
  (∀ file ∈ targets, Intact file (text file) d) ∧ Set.InjOn (place d.home) targets
    ∧ ∃ d', Reachable Parser.single targets
      (fun d' c => c.Admissible (Apart targets d.home) (· ∈ targets) d') d d'
      ∧ d'.isPresent "__pycache__/a.x.pyc" = false
  := by
  intro d targets text
  generalize hreached : (CommandLine.run Parser.single .plain).advance Disk.serve 30 d = reached
  have hd : (Store.catalog? d "c").map (·.map (·.file)) = some ["a.py"]
      ∧ d.readText "a.py" = .ok "<" ∧ d.isPresent (Backup.path "a.py") = false
      ∧ d.readText "__pycache__/a.x.pyc" = .ok "P"
      ∧ d.isPresent (Backup.path "__pycache__/a.x.pyc") = false
      ∧ place d.home "a.py" ≠ place d.home "__pycache__/a.x.pyc" := by
    decide +kernel
  have hend : CleansUp reached.1 ∧ (∀ event ∈ reached.1.getLast?, event.isUnfinished = false)
      ∧ reached.2.2.isPresent "__pycache__/a.x.pyc" = false := by
    rw [← hreached]
    decide +kernel
  -- From here on the disks are variables, so that no step of the proof computes them.
  clear_value d
  obtain ⟨hcatalog, htext, hbackup, htext', hbackup', hne⟩ := hd
  constructor
  · rintro _ (rfl | rfl)
    · exact ⟨htext, hbackup⟩
    · exact ⟨htext', hbackup'⟩
  · constructor
    · apply Set.injOn_pair.mpr
      intro heq
      cases hne heq
    · use reached.2.2
      constructor
      · apply Reachable.of_advance _ hreached hend.1 hend.2.1
        constructor
        · simp
        · intro mutations hmutations m hm
          left
          simpa using Store.file_mem_of_catalog? hcatalog hmutations m hm
      · apply hend.2.2

/-- An output path that goes through the place of a backup makes a directory there. -/
theorem Reachable.backup_taken :
  let d := Disk.single "a.go" "<"
  let targets : Set String := {"a.go"}
  (∀ file ∈ targets, Intact file "<" d) ∧ (∀ path, ¬ Backup.Clears "a.go" path)
    ∧ ∃ d', Reachable Parser.single targets
      (fun d' c => c.Admissible (Apart targets d.home) (· ∈ targets) d') d d'
      ∧ d'.isPresent (Backup.path "a.go") = true
      ∧ d'.readText (Backup.path "a.go") = .error .isADirectory
  := by
  intro d targets
  generalize hreached : (CommandLine.run Parser.single .misplaced).advance Disk.serve 30 d = reached
  have hd : d.readText "a.go" = .ok "<" ∧ d.isPresent (Backup.path "a.go") = false
      ∧ place d.home "a.go" ≠ place d.home ".a.go.mutscore.bak/x.json"
      ∧ place d.home (Backup.path "a.go") ≠ place d.home ".a.go.mutscore.bak/x.json"
      ∧ Path.extension? "a.go" ≠ some "py" := by
    decide +kernel
  have hend : CleansUp reached.1 ∧ (∀ event ∈ reached.1.getLast?, event.isUnfinished = false)
      ∧ reached.2.2.isPresent (Backup.path "a.go") = true
      ∧ reached.2.2.readText (Backup.path "a.go") = .error .isADirectory := by
    rw [← hreached]
    decide +kernel
  clear_value d
  obtain ⟨htext, hbackup, hne, hne', hextension⟩ := hd
  constructor
  · rintro _ rfl
    exact ⟨htext, hbackup⟩
  · use fun path hclears => hextension hclears.1, reached.2.2
    constructor
    · apply Reachable.of_advance _ hreached hend.1 hend.2.1
      rintro _ ⟨⟩ _ rfl
      exact ⟨fun _ _ => hne, fun _ _ => hne'⟩
    · apply hend.2.2

/-- Targets can be lost if one is compiled code of another one, and if an output path goes through
the place of a backup, though it leads to no target and to no backup. -/
theorem Reachable.not_kept :
  (¬ ∀ (targets : Set String) (text : String → String) (d d' : Disk),
      (∀ file ∈ targets, Intact file (text file) d) → Set.InjOn (place d.home) targets →
      Reachable Parser.single targets
        (fun d' c => c.Admissible (Apart targets d.home) (· ∈ targets) d') d d' →
      ∀ file ∈ targets, Intact file (text file) d' ∨ BackedUp file (text file) d')
    ∧ ¬ ∀ (targets : Set String) (text : String → String) (d d' : Disk),
      (∀ file ∈ targets, Intact file (text file) d) → Set.InjOn (place d.home) targets →
      (∀ file ∈ targets, ∀ path, Backup.Clears file path → ∀ other ∈ targets,
        place d.home other ≠ place d.home path) →
      Reachable Parser.single targets
        (fun d' c => c.Admissible (Apart targets d.home) (· ∈ targets) d') d d' →
      ∀ file ∈ targets, Intact file (text file) d' ∨ BackedUp file (text file) d'
  := by
  constructor
  · intro h
    obtain ⟨hintact, hnamed, d', hreach, habsent⟩ := Reachable.compiled_lost
    have hkept := h _ _ _ d' hintact hnamed hreach "__pycache__/a.x.pyc" (.inr rfl)
    obtain ⟨content, hcontent⟩ : ∃ content, d'.readContent "__pycache__/a.x.pyc" = .ok content := by
      obtain hintact' | hbackedUp := hkept
      · use .text "P"
        apply readText_ok_iff.mp hintact'.content
      · apply hbackedUp.content
    cases habsent.symm.trans (isPresent_of_readContent hcontent)
  · intro h
    obtain ⟨hintact, hcompiled, d', hreach, hpresent, hdirectory⟩ := Reachable.backup_taken
    have hnone : ∀ file ∈ ({"a.go"} : Set String), ∀ path, Backup.Clears file path →
        ∀ other ∈ ({"a.go"} : Set String), place (Disk.single "a.go" "<").home other
          ≠ place (Disk.single "a.go" "<").home path := by
      rintro _ rfl path hclears
      cases hcompiled path hclears
    have hkept := h _ (fun _ => "<") _ d' hintact (Set.injOn_singleton _ _) hnone hreach "a.go" rfl
    obtain hintact' | hbackedUp := hkept
    · cases hpresent.symm.trans hintact'.backup
    · cases hdirectory.symm.trans hbackedUp.backup

end MutationTesting
