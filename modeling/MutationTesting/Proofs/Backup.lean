import MutationTesting.Proofs.Disk.Way

/-!
# The places of a file, its backup and its compiled code

Where a path leads to a file, its backup has another place, and so has every file that is
taken for its compiled code. Clearing the compiled code therefore changes neither.
-/

namespace MutationTesting.Backup

open Disk Procedure

variable {file : String} {d d' : Disk}

/-- A path is one of those that clearing the compiled code of a file may remove. -/
def IsCompiled (file path : String) : Prop :=
  Path.extension? file = some "py"
    ∧ ∃ name, (names path).getLast? = some name ∧ ".pyc".toList <:+ name.toList

/-- Clearing the compiled code of a file may remove what is on a path. -/
def Clears (file path : String) : Prop :=
  Path.extension? file = some "py" ∧ ∃ parent stem name, Path.parent? file = some parent
    ∧ Path.fileStem? file = some stem ∧ isCompiledCode stem name = true
    ∧ path = Path.join (Path.join parent "__pycache__") name

theorem Clears.isCompiled {path : String} (h : Clears file path) :
  IsCompiled file path
  := by
  obtain ⟨hextension, parent, stem, name, -, -, hname, rfl⟩ := h
  use hextension
  apply Path.isSuffix_of_getLast?_names (by decide) (by decide)
  apply List.IsSuffix.trans _ (Path.suffix_join _ name)
  rw [isCompiledCode, Bool.and_eq_true] at hname
  apply Text.suffix_of_endsWith hname.2

/-- What is read is a file with a name. -/
theorem exists_endsIn {content : Content} (h : d.readContent file = .ok content) :
  ∃ name, EndsIn file name
  := by
  obtain ⟨l, hlocate, -⟩ := readContent_ok_iff.mp h
  apply (locate_name hlocate).2

/-- The backup of a file ends in the name of the backup. -/
theorem endsIn_path {name : String} (h : EndsIn file name) :
  EndsIn (path file) (Backup.name name)
  := by
  use getLast?_names_path h.1 h.2.1 h.2.2
  exact ⟨name_ne_of_length_le (by decide), name_ne_of_length_le (by decide)⟩

theorem suffix_path (file : String) :
  ".mutscore.bak".toList <:+ (path file).toList
  := by
  have hjoin : ∃ base, path file
      = Path.join base ("." ++ (Path.fileName? file).getD "" ++ ".mutscore.bak") := by
    rw [path, Path.withFileName]
    split
    · use file
    · use (Path.parent? file).getD ""
  obtain ⟨base, hjoin⟩ := hjoin
  apply List.IsSuffix.trans _ (hjoin ▸ Path.suffix_join base _)
  rw [String.toList_append]
  apply List.suffix_append

theorem getLast?_path (file : String) :
  (path file).toList.getLast? = some 'k'
  := by
  obtain ⟨front, hfront⟩ := suffix_path file
  rw [← hfront, List.getLast?_append]
  rfl

theorem place_path_ne {name : String} (h : EndsIn file name) (home : Location) :
  place home (path file) ≠ place home file
  := by
  apply (endsIn_path h).place_ne h
  apply name_ne_self

/-- What is done to the backup leaves the file alone. -/
theorem unchanged_of_endsIn {name : String} (h : EndsIn file name)
    (htouched : Touched (path file) d d') :
  Unchanged file d d'
  := htouched.unchanged (place_path_ne h _).symm

/-- What is done to the file leaves the backup alone. -/
theorem unchanged_path_of_endsIn {name : String} (h : EndsIn file name)
    (htouched : Touched file d d') :
  Unchanged (path file) d d'
  := htouched.unchanged (place_path_ne h _)

theorem unchanged_of_touched_path {content : Content} (hread : d.readContent file = .ok content)
    (htouched : Touched (path file) d d') :
  Unchanged file d d'
  := by
  obtain ⟨name, hname⟩ := exists_endsIn hread
  apply unchanged_of_endsIn hname htouched

theorem unchanged_path_of_touched {content : Content} (hread : d.readContent file = .ok content)
    (htouched : Touched file d d') :
  Unchanged (path file) d d'
  := by
  obtain ⟨name, hname⟩ := exists_endsIn hread
  apply unchanged_path_of_endsIn hname htouched

/-- The backup of a file has its name behind the names of the parent, and between those and the
name of the file there are only steps to `.`. -/
theorem exists_names_path {name : String} (h : EndsIn file name) :
  ∃ parent dots, Path.isAbsolute (path file) = Path.isAbsolute file
    ∧ names (path file) = names parent ++ [Backup.name name]
    ∧ names file = names parent ++ dots ++ [name] ∧ ∀ dot ∈ dots, dot = "."
  := by
  obtain ⟨hlast, hdot, hdots⟩ := h
  obtain ⟨parent, dots, hparent, habsolute, hnames, heq⟩ := Path.exists_parent? hlast hdot hdots
  have hfile := Path.fileName?_of_getLast?_names hlast hdot hdots
  have hslash := Path.slash_not_mem_of_mem_names (List.mem_of_getLast? hlast)
  have hplain : '/' ∉ (Backup.name name).toList := by simpa [Backup.name] using hslash
  have hpath : path file = Path.join parent (Backup.name name) := by
    rw [path, Path.withFileName, hfile, hparent]
    rfl
  use parent, dots
  rw [hpath]
  constructor
  · rw [Path.isAbsolute_join hplain, habsolute]
  constructor
  · apply Path.names_join _ hplain
    simp [Backup.name, ← String.toList_inj]
  · use hnames

/-- The place of a backup is beside the place of the file. -/
theorem place_path {name : String} (h : EndsIn file name) (home : Location) :
  place home (path file) = (place home file).dropLast ++ [Backup.name name]
  := by
  obtain ⟨parent, dots, habsolute, hpath, hfile, heq⟩ := exists_names_path h
  obtain ⟨-, hdot', hdots'⟩ := endsIn_path h
  obtain ⟨-, hdot, hdots⟩ := h
  rw [place, place, hpath, hfile, start, start, habsolute]
  simp only [List.foldl_append, foldl_step_of_dots heq, List.foldl_cons, List.foldl_nil]
  rw [step, step, if_neg hdot, if_neg hdots, if_neg hdot', if_neg hdots', List.dropLast_concat]

/-- Files at different places have their backups at different places. -/
theorem place_path_ne_place_path {other name name' : String} (h : EndsIn file name)
    (h' : EndsIn other name') {home : Location} (hne : place home file ≠ place home other) :
  place home (path file) ≠ place home (path other)
  := by
  intro heq
  rw [place_path h, place_path h'] at heq
  obtain ⟨hparent, hname⟩ := List.append_inj' heq rfl
  have hnames := name_injective (List.cons.inj hname).1
  apply hne
  rw [← List.dropLast_append_getLast? name (h.getLast?_place home), hparent,
    hnames, List.dropLast_append_getLast? name' (h'.getLast?_place home)]

/-- Where a file can be read, more directories do not let the path of its backup lead anywhere
new. -/
theorem locate_path_of_keepsDirectories {content : Content} {target : Target}
    (hread : d.readContent file = .ok content) (hkeeps : KeepsDirectories d d')
    (h : d'.locate (path file) = .ok target) :
  d.locate (path file) = .ok target
  := by
  obtain ⟨l, hlocate, -⟩ := readContent_ok_iff.mp hread
  obtain ⟨-, name, hname⟩ := locate_name hlocate
  obtain ⟨base, dots, habsolute, hnames, hfile, -⟩ := exists_names_path hname
  have hstart : start d.home (path file) = start d.home file := by
    rw [start, start, habsolute]
  obtain ⟨-, hroot, ⟨-, hl⟩ | ⟨before, last, parent, hbefore, hwalk, -⟩⟩ :=
    locate_ok_iff.mp hlocate
  · cases hl
  rw [hfile] at hbefore
  obtain ⟨rfl, -⟩ := List.append_inj' hbefore rfl
  obtain ⟨stop, hstop⟩ := exists_walk_of_append hwalk
  obtain ⟨hpath, -, ⟨hnil, -⟩ | ⟨before', last', parent', hbefore', hwalk', harrive⟩⟩ :=
    locate_ok_iff.mp h
  · rw [hnames] at hnil
    simp at hnil
  rw [hnames] at hbefore'
  obtain ⟨rfl, hlast⟩ := List.append_inj' hbefore' rfl
  rw [hkeeps.1, hstart, walk_of_keepsDirectories hkeeps hstop] at hwalk'
  cases hwalk'
  apply locate_ok_iff.mpr
  rw [hstart]
  use hpath, hroot
  right
  use names base, last', stop
  rw [hnames, hlast]
  use rfl, hstop

/-- The backup of a file that can be read has a place, if it has a path and a name that are short
enough. -/
theorem locate_path_eq {content : Content} {name : String}
    (hread : d.readContent file = .ok content) (hname : EndsIn file name)
    (hpath : IsPath (path file)) (hshort : (Backup.name name).utf8ByteSize ≤ maxNameLength) :
  d.locate (path file) = .ok (.name (place d.home (path file)) false)
  := by
  obtain ⟨l, hlocate, -⟩ := readContent_ok_iff.mp hread
  obtain ⟨base, dots, habsolute, hnames, hfile, -⟩ := exists_names_path hname
  obtain ⟨-, hdot, hdots⟩ := endsIn_path hname
  have hstart : start d.home (path file) = start d.home file := by
    rw [start, start, habsolute]
  obtain ⟨-, hroot, ⟨-, hl⟩ | ⟨before, last, parent, hbefore, hwalk, -⟩⟩ :=
    locate_ok_iff.mp hlocate
  · cases hl
  rw [hfile] at hbefore
  obtain ⟨rfl, -⟩ := List.append_inj' hbefore rfl
  obtain ⟨stop, hstop⟩ := exists_walk_of_append hwalk
  have hslash : ((path file).toList.getLast? == some '/') = false := by
    rw [getLast?_path]
    rfl
  have htarget : d.locate (path file) = .ok (.name (stop ++ [Backup.name name]) false) := by
    apply locate_ok_iff.mpr
    rw [hstart]
    use hpath, hroot
    right
    use names base, Backup.name name, stop, hnames, hstop
    rw [arrive, if_neg (by simp [hdot, hdots]), if_neg (by omega), hslash]
  rw [htarget, ← (locate_name htarget).1]

/-- A file that can be read where the backup of another one would be is that backup. -/
theorem isPresent_path_of_place_eq {other : String} {content content' : Content}
    (hread : d.readContent file = .ok content) (hother : d.readContent other = .ok content')
    (hpath : IsPath (path file)) (heq : place d.home other = place d.home (path file)) :
  d.isPresent (path file) = true
  := by
  obtain ⟨name, hname⟩ := exists_endsIn hread
  obtain ⟨l, hlocate, hl⟩ := readContent_ok_iff.mp hother
  obtain ⟨rfl, name', hname'⟩ := locate_name hlocate
  have hlast : name' = Backup.name name := by
    have hplace := hname'.getLast?_place d.home
    rw [heq, (endsIn_path hname).getLast?_place d.home] at hplace
    apply (Option.some.inj hplace).symm
  have hshort := hname'.utf8ByteSize_le hlocate
  rw [hlast] at hshort
  apply isPresent_iff.mpr
  right
  use place d.home (path file), false, locate_path_eq hread hname hpath hshort
  right
  rw [← heq, hl]
  use rfl, content'

/-- More directories along a path that does not pass the place of the backup change neither a
file that can be read nor its backup. -/
theorem unchanged_of_extends {content : Content} {made : String}
    (hread : d.readContent file = .ok content) (hextends : Extends d d') (halong : Along made d d')
    (havoids : place d.home (path file) ∉ passes d.home made) :
  Unchanged file d d' ∧ Unchanged (path file) d d'
  := by
  use hextends.unchanged hread
  apply hextends.keepsDirectories.unchanged
  · intro target
    apply locate_path_of_keepsDirectories hread hextends.keepsDirectories
  · apply halong.other havoids

namespace IsCompiled

variable {compiled : String}

theorem endsIn (h : IsCompiled file compiled) :
  ∃ name, EndsIn compiled name ∧ ".pyc".toList <:+ name.toList
  := by
  obtain ⟨-, name, hname, hsuffix⟩ := h
  use name
  constructor
  · use hname
    constructor
    · rintro rfl
      revert hsuffix
      decide
    · rintro rfl
      revert hsuffix
      decide
  · apply hsuffix

theorem place_ne_file {name : String} (h : IsCompiled file compiled) (hfile : EndsIn file name)
    (home : Location) :
  place home file ≠ place home compiled
  := by
  obtain ⟨other, hother, hsuffix⟩ := h.endsIn
  apply hfile.place_ne hother
  rintro rfl
  have hextension := h.1
  rw [Path.extension?, Path.fileName?_of_getLast?_names hfile.1 hfile.2.1 hfile.2.2,
    Option.bind_some, Path.splitName] at hextension
  split at hextension
  · cases hextension
  · have htail := Option.some.inj hextension
    have hpy : "py".toList <:+ name.toList := by
      rw [← htail, String.toList_ofList, ← List.reverse_prefix, List.reverse_reverse]
      apply List.takeWhile_prefix
    have hlast := hpy.getLast (by decide)
    rw [← hsuffix.getLast (by decide)] at hlast
    revert hlast
    decide

theorem place_ne_path {other name : String} (h : IsCompiled file compiled)
    (hother : EndsIn other name) (home : Location) :
  place home (path other) ≠ place home compiled
  := by
  obtain ⟨name', hname', hsuffix⟩ := h.endsIn
  apply (endsIn_path hother).place_ne hname'
  rintro rfl
  have hbak : ".mutscore.bak".toList <:+ (Backup.name name).toList := by
    rw [Backup.name, String.toList_append]
    apply List.suffix_append
  have hlast := hbak.getLast (by decide)
  rw [← hsuffix.getLast (by decide)] at hlast
  revert hlast
  decide

/-- A change to compiled code of a file changes neither the file nor its backup. -/
theorem unchanged {name : String} (h : IsCompiled file compiled) (hfile : EndsIn file name)
    (htouched : Touched compiled d d') :
  Unchanged file d d' ∧ Unchanged (path file) d d'
  := ⟨htouched.unchanged (h.place_ne_file hfile _), htouched.unchanged (h.place_ne_path hfile _)⟩

end IsCompiled

/-! ### Clearing compiled code -/

section

variable {σ : Type} {w : World σ} {rely : σ → σ → Prop} {step : σ → Event → σ → Prop}
  {I : σ → Prop} {s : σ}

theorem ensures_removeAll (hrely : ∀ s s', rely s s' → I s → I s') {paths : List String}
    (hremove : ∀ path ∈ paths, ∀ s a s', w (.file (.remove path)) s a s' → I s →
      step s ⟨.file (.remove path), a⟩ s' ∧ I s') (h : I s) :
  Ensures w rely step (fun _ s' => I s') (removeAll paths) s
  := by
  induction paths generalizing s with
  | nil =>
    intro s' hs'
    apply hrely _ _ hs' h
  | cons path paths ih =>
    apply Ensures.request
    intro s' hs' a s'' hstep
    obtain ⟨h₁, h₂⟩ := hremove path List.mem_cons_self _ _ _ hstep (hrely _ _ hs' h)
    use h₁
    apply ih _ h₂
    intro other hother
    apply hremove _ (List.mem_cons_of_mem _ hother)

/-- What the listing of a directory keeps and the removal of compiled code, clearing the
compiled code keeps. -/
theorem ensures_clearCompiledCode (hrely : ∀ s s', rely s s' → I s → I s')
    (hlist : ∀ cache s a s', w (.file (.list cache)) s a s' → I s →
      step s ⟨.file (.list cache), a⟩ s' ∧ I s')
    (hremove : ∀ path, Clears file path → ∀ s a s', w (.file (.remove path)) s a s' → I s →
      step s ⟨.file (.remove path), a⟩ s' ∧ I s') (h : I s) :
  Ensures w rely step (fun _ s' => I s') (clearCompiledCode file) s
  := by
  rw [clearCompiledCode]
  split
  · next parent stem hextension hparent hstem =>
    apply Ensures.request
    intro s' hs' a s'' hstep
    obtain ⟨h₁, h₂⟩ := hlist _ _ _ _ hstep (hrely _ _ hs' h)
    use h₁
    split
    · intro s' hs'
      apply hrely _ _ hs' h₂
    · next names =>
      apply ensures_removeAll hrely _ h₂
      intro path hpath
      obtain ⟨name, hname, rfl⟩ := List.mem_map.mp hpath
      apply hremove
      use hextension, parent, stem, name, hparent, hstem, (List.mem_filter.mp hname).2
  · intro s' hs'
    apply hrely _ _ hs' h

end

end MutationTesting.Backup
