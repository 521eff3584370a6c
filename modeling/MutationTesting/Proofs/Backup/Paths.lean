import MutationTesting.Language
import MutationTesting.Proofs.Path.Components

/-!
# The path of a backup

The backup of a file is beside the file, under a name that no language claims and that tells the
name of the file. Its path is therefore never that of the file, and two files have one path for
their backups only if they have one path themselves (`paths_apart`).
-/

namespace MutationTesting.Backup

open MutationTesting.Path

variable {file name : String}

theorem isPlain_name (hslash : '/' ∉ name.toList) :
  IsPlain (Backup.name name)
  := by
  constructor
  · apply name_ne_of_length_le (by decide)
  · apply name_ne_of_length_le (by decide)
  · apply name_ne_of_length_le (by decide)
  · simpa [Backup.name] using hslash

/-- The extension of a backup is the same for all files. -/
theorem splitName_name (name : String) :
  splitName (Backup.name name) = ("." ++ name ++ ".mutscore", some "bak")
  := by
  have hparts : (Backup.name name).toList.reverse
      = "kab".toList ++ '.' :: ("." ++ name ++ ".mutscore").toList.reverse := by
    simp [Backup.name]
  have htail : (Backup.name name).toList.reverse.takeWhile (· != '.') = "kab".toList := by
    rw [hparts]
    rfl
  have hstem : (Backup.name name).toList.reverse.dropWhile (· != '.')
      = '.' :: ("." ++ name ++ ".mutscore").toList.reverse := by
    rw [hparts]
    rfl
  have hdots : Backup.name name ≠ ".." := name_ne_of_length_le (by decide)
  have hne : ("." ++ name ++ ".mutscore").toList.isEmpty = false := by simp
  rw [splitName]
  simp only [htail, hstem, List.drop_succ_cons, List.drop_zero, List.reverse_reverse, hne, hdots]
  rw [String.ofList_toList]
  rfl

/-- The backup of a file with a name is the path that has the components of the parent of the file
and the name of the backup, and its parent is that of the file. -/
theorem exists_parent (h : fileName? file = some name) :
  ∃ parent, parent? file = some parent ∧ parent? (path file) = some parent
    ∧ components file = components parent ++ [.normal name]
    ∧ components (path file) = components parent ++ [.normal (Backup.name name)]
    ∧ fileName? (path file) = some (Backup.name name)
  := by
  obtain ⟨parent, hparent, hcomponents, htight⟩ := exists_parent?_of_fileName? h
  obtain ⟨init, stop, hinit⟩ := fileName?_eq_some_iff.mp h
  have hmem : (.normal name, stop) ∈ placedComponents file.toList := by
    rw [hinit]
    apply List.mem_concat_self
  have hslash := slash_not_mem_of_mem_placedComponents hmem
  have hplain := isPlain_name hslash
  have hpath : path file = join parent (Backup.name name) := by
    rw [path, withFileName, h, hparent]
    rfl
  use parent, hparent
  rw [hpath]
  use parent?_join hplain htight, hcomponents, components_join hplain parent,
    fileName?_join hplain parent

/-- The backup of a file with a name is beside the file under a name that tells that of the file,
and has no language. Its path is not that of the file, and the backups of two files have one path
only if the files have one parent and one name. The same holds of the places that the paths lead to
from any home directory. -/
theorem paths_apart {other name' : String} (h : fileName? file = some name)
    (h' : fileName? other = some name') :
  (∃ parent, parent? file = some parent ∧ parent? (path file) = some parent)
    ∧ fileName? (path file) = some ("." ++ name ++ ".mutscore.bak")
    ∧ components (path file) ≠ components file
    ∧ Language.ofPath? (path file) = none
    ∧ (components (path file) = components (path other) →
      (parent? file).map components = (parent? other).map components ∧ name = name')
    ∧ ∀ home, Disk.place home (path file) ≠ Disk.place home file
      ∧ (Disk.place home (path file) = Disk.place home (path other) →
        Disk.place home file = Disk.place home other)
  := by
  obtain ⟨parent, hparent, hbeside, hfile, hpath, hname⟩ := exists_parent h
  obtain ⟨parent', hparent', -, hother, hpath', -⟩ := exists_parent h'
  use ⟨parent, hparent, hbeside⟩, hname
  constructor
  · intro heq
    rw [hpath, hfile] at heq
    apply name_ne_self name
    simpa using heq
  constructor
  · rw [Language.ofPath?, extension?, hname, Option.bind_some, splitName_name]
    rfl
  constructor
  · intro heq
    rw [hpath, hpath'] at heq
    obtain ⟨hparents, hnames⟩ := List.append_inj' heq rfl
    rw [hparent, hparent', Option.map_some, Option.map_some, hparents]
    use rfl
    apply name_injective
    simpa using hnames
  · intro home
    simp only [Disk.place_eq_foldl_components, hpath, hpath', hfile, hother, List.foldl_append,
      List.foldl_cons, List.foldl_nil, Disk.move]
    constructor
    · intro heq
      apply name_ne_self name
      simpa using heq
    · intro heq
      obtain ⟨hparents, hnames⟩ := List.append_inj' heq rfl
      rw [hparents, name_injective (List.cons.inj hnames).1]

/-- Two spellings of one path, one with a step to `.` and slashes at its end. -/
theorem paths_apart_detour :
  fileName? "a/./b.go//" = some "b.go" ∧ fileName? "a/b.go" = some "b.go"
    ∧ components (path "a/./b.go//") = components (path "a/b.go")
    ∧ (parent? "a/./b.go//").map components = (parent? "a/b.go").map components
    ∧ components (path "a/./b.go//") ≠ components "a/./b.go//"
    ∧ Language.ofPath? (path "a/./b.go//") = none
  := by
  have h : fileName? "a/./b.go//" = some "b.go" := by decide
  have h' : fileName? "a/b.go" = some "b.go" := by decide
  have heq : components (path "a/./b.go//") = components (path "a/b.go") := by decide
  obtain ⟨-, -, hne, hlanguage, hparents, -⟩ := paths_apart h h'
  exact ⟨h, h', heq, (hparents heq).1, hne, hlanguage⟩

end MutationTesting.Backup
