import Mathlib.Data.List.Infix
import MutationTesting.Proofs.Disk.World
import MutationTesting.Proofs.Path.Parent

/-!
# The way of a path

A path `Disk.passes` the locations that its first names lead to. A disk that `Disk.Extends`
another one holds everything that is there, so that paths which led somewhere still lead
there, and making the directories of a path changes nothing but locations `Disk.Along` it.
-/

namespace MutationTesting.Disk

variable {d d' d'' : Disk} {path parent : String} {home location : Location}

/-- The locations that the first names of a path lead to, from where it starts. -/
def passes (home : Location) (path : String) : List Location :=
  (names path).inits.map fun front => front.foldl step (start home path)

theorem mem_passes_iff :
  location ∈ passes home path
    ↔ ∃ front, front <+: names path ∧ front.foldl step (start home path) = location
  := by
  simp [passes]

theorem place_mem_passes (home : Location) (path : String) :
  place home path ∈ passes home path
  := by
  apply mem_passes_iff.mpr
  use names path, List.prefix_rfl
  rfl

/-- The parent of a path passes nothing that the path does not pass. -/
theorem passes_of_parent? (h : Path.parent? path = some parent) (hne : parent ≠ "") :
  passes home parent ⊆ passes home path
  := by
  obtain ⟨hstart, hnames⟩ := Path.names_of_parent? h
  intro location hlocation
  obtain ⟨front, hfront, rfl⟩ := mem_passes_iff.mp hlocation
  apply mem_passes_iff.mpr
  use front, hfront.trans hnames
  rw [start, start, hstart.resolve_left hne]

theorem foldl_step_of_dots {dots : List String} (h : ∀ dot ∈ dots, dot = ".")
    (location : Location) :
  dots.foldl step location = location
  := by
  induction dots with
  | nil => rfl
  | cons dot dots ih =>
    rw [List.foldl_cons, h dot List.mem_cons_self, step, if_pos rfl]
    apply ih
    intro dot hdot
    apply h dot (List.mem_cons_of_mem _ hdot)

/-! ### More on a disk -/

/-- A disk holds everything that another one holds. -/
structure Extends (d d' : Disk) : Prop where
  home : d'.home = d.home
  lookup? : ∀ {location entry}, d.lookup? location = some entry → d'.lookup? location = some entry

/-- Two disks differ at most at locations that a path passes. -/
structure Along (path : String) (d d' : Disk) : Prop where
  home : d'.home = d.home
  other : ∀ {location}, location ∉ passes d.home path → d'.lookup? location = d.lookup? location

namespace Extends

theorem refl (d : Disk) :
  Extends d d
  := ⟨rfl, id⟩

theorem trans (h : Extends d d') (h' : Extends d' d'') :
  Extends d d''
  := ⟨h'.home.trans h.home, fun hl => h'.lookup? (h.lookup? hl)⟩

theorem keepsDirectories (h : Extends d d') :
  KeepsDirectories d d'
  := ⟨h.home, fun _ hl => h.lookup? hl⟩

end Extends

namespace Along

theorem refl (path : String) (d : Disk) :
  Along path d d
  := ⟨rfl, fun _ => rfl⟩

theorem trans (h : Along path d d') (h' : Along path d' d'') :
  Along path d d''
  := by
  constructor
  · rw [h'.home, h.home]
  · intro location hlocation
    rw [h'.other (h.home ▸ hlocation), h.other hlocation]

/-- What lies along the parent of a path lies along the path. -/
theorem of_parent? (h : Along parent d d') (hparent : Path.parent? path = some parent)
    (hne : parent ≠ "") :
  Along path d d'
  := by
  use h.home
  intro location hlocation
  apply h.other
  intro hmem
  apply hlocation (passes_of_parent? hparent hne hmem)

end Along

/-! ### What a path finds when there are more directories -/

theorem exists_walk_of_append {before after : List String}
    (h : d.walk location (before ++ after) = .ok home) :
  ∃ stop, d.walk location before = .ok stop
  := by
  induction before generalizing location with
  | nil => exact ⟨location, rfl⟩
  | cons name before ih =>
    rw [List.cons_append, walk] at h
    rw [walk]
    split at h
    · cases h
    · next hname =>
      rw [if_neg hname]
      split at h
      · cases h
      · cases h
      · apply ih h

/-- Where a path does not lead anywhere new, it finds what it has found if its place holds what
it has held. -/
theorem KeepsDirectories.unchanged (h : KeepsDirectories d d')
    (hlocate : ∀ target, d'.locate path = .ok target → d.locate path = .ok target)
    (hlookup : d'.lookup? (place d.home path) = d.lookup? (place d.home path)) :
  Unchanged path d d'
  := by
  have hiff : ∀ target, d'.locate path = .ok target ↔ d.locate path = .ok target :=
    fun target => ⟨hlocate target, locate_of_keepsDirectories h⟩
  have hsame : ∀ {l slash}, d.locate path = .ok (.name l slash) →
      d'.lookup? l = d.lookup? l := by
    intro l slash hl
    rw [(locate_name hl).1, hlookup]
  constructor
  · apply h.1
  · intro content
    rw [readContent_ok_iff, readContent_ok_iff]
    apply exists_congr
    intro l
    rw [hiff]
    apply and_congr_right
    intro hl
    rw [hsame hl]
  · rw [Bool.eq_iff_iff, isPresent_iff, isPresent_iff]
    simp only [hiff]
    apply or_congr_right
    apply exists_congr
    intro l
    apply exists_congr
    intro slash
    apply and_congr_right
    intro hl
    rw [hsame hl]

/-- A file that can be read is read as before when there is more on the disk. -/
theorem Extends.unchanged {content : Content} (h : Extends d d')
    (hread : d.readContent path = .ok content) :
  Unchanged path d d'
  := by
  obtain ⟨l, hlocate, hl⟩ := readContent_ok_iff.mp hread
  apply h.keepsDirectories.unchanged
  · intro target htarget
    rw [locate_of_keepsDirectories h.keepsDirectories hlocate] at htarget
    rw [hlocate, htarget]
  · rw [← (locate_name hlocate).1, hl]
    apply h.lookup? hl

/-! ### Making directories -/

theorem makeDirectory_ok_iff :
  d.makeDirectory path = .ok d' ↔ ∃ l slash, d.locate path = .ok (.name l slash)
    ∧ d.lookup? l = none ∧ d' = d.put l .directory
  := by
  rw [makeDirectory]
  simp only [bind, Except.bind, pure, Except.pure, throw, throwThe, MonadExceptOf.throw]
  cases d.locate path with
  | error e => simp
  | ok target =>
    cases target with
    | directory l => simp
    | name l slash => cases hl : d.lookup? l <;> grind

theorem extends_of_makeDirectory (h : d.makeDirectory path = .ok d') :
  Extends d d' ∧ Along path d d'
  := by
  obtain ⟨l, slash, hlocate, hl, rfl⟩ := makeDirectory_ok_iff.mp h
  constructor
  · use rfl
    intro location entry hentry
    rw [lookup?_put_of_ne, hentry]
    rintro rfl
    cases hl.symm.trans hentry
  · use rfl
    intro location hlocation
    apply lookup?_put_of_ne
    rintro rfl
    apply hlocation
    rw [(locate_name hlocate).1]
    apply place_mem_passes

theorem extends_of_makeDirectoriesWithin {fuel : Nat}
    (h : makeDirectoriesWithin fuel d path = .ok d') :
  Extends d d' ∧ Along path d d'
  := by
  induction fuel generalizing path d' with
  | zero => cases h
  | succ fuel ih =>
    rw [makeDirectoriesWithin] at h
    split at h
    · cases h
      exact ⟨Extends.refl d, Along.refl path d⟩
    · split at h
      · next hmake =>
        cases h
        apply extends_of_makeDirectory hmake
      · split at h
        · cases h
        · next parent hparent =>
          simp only [bind, Except.bind, pure, Except.pure, throw, throwThe,
            MonadExceptOf.throw] at h
          cases habove : makeDirectoriesWithin fuel d parent with
          | error e => simp [habove] at h
          | ok d₁ =>
            have hfirst : Extends d d₁ ∧ Along path d d₁ := by
              by_cases hempty : parent = ""
              · cases fuel with
                | zero => cases habove
                | succ fuel =>
                  obtain rfl : d = d₁ := by
                    simpa [makeDirectoriesWithin, hempty] using habove
                  exact ⟨Extends.refl d, Along.refl path d⟩
              · obtain ⟨hextends, halong⟩ := ih habove
                use hextends
                apply halong.of_parent? hparent hempty
            simp only [habove] at h
            split at h
            · next d₂ hmake =>
              cases h
              obtain ⟨hextends, halong⟩ := extends_of_makeDirectory hmake
              use hfirst.1.trans hextends
              apply hfirst.2.trans halong
            · split at h
              · cases h
                exact hfirst
              · cases h
      · split at h
        · cases h
          exact ⟨Extends.refl d, Along.refl path d⟩
        · cases h

/-- Making the directories of a path adds directories along the path. -/
theorem extends_of_makeDirectories (h : d.makeDirectories path = .ok d') :
  Extends d d' ∧ Along path d d'
  := extends_of_makeDirectoriesWithin h

/-! ### The directory above a path -/

theorem isDirectory_of_find (h : d.find path = .ok (location, .directory)) :
  d.isDirectory path = true
  := by
  rw [isDirectory, h]
  rfl

theorem find_directory_iff :
  d.find path = .ok (location, .directory) ↔ d.locate path = .ok (.directory location)
    ∨ ∃ slash, d.locate path = .ok (.name location slash) ∧ d.lookup? location = some .directory
  := by
  rw [find]
  simp only [bind, Except.bind, pure, Except.pure, throw, throwThe, MonadExceptOf.throw]
  cases d.locate path with
  | error e => simp
  | ok target =>
    cases target with
    | directory l => simp
    | name l slash => cases hl : d.lookup? l <;> grind

/-- A directory that is there is not made again. -/
theorem makeDirectories_of_find (hne : path ≠ "") (h : d.find path = .ok (location, .directory)) :
  d.makeDirectories path = .ok d
  := by
  have hmake : d.makeDirectory path = .error .alreadyExists := by
    rw [makeDirectory]
    obtain hlocate | ⟨slash, hlocate, hl⟩ := find_directory_iff.mp h
    · rw [hlocate]
      rfl
    · simp only [hlocate, hl, bind, Except.bind]
      rfl
  rw [makeDirectories, makeDirectoriesWithin, hmake]
  simp [hne, isDirectory_of_find h]

/-- The last step of a walk leads to a directory. -/
theorem exists_of_walk_concat {start stop : Location} {names : List String} {name : String}
    (h : d.walk start (names ++ [name]) = .ok stop) :
  ∃ before, d.walk start names = .ok before ∧ name.utf8ByteSize ≤ maxNameLength
    ∧ d.lookup? (step before name) = some .directory
  := by
  induction names generalizing start with
  | nil =>
    use start, rfl
    rw [List.nil_append, walk] at h
    grind
  | cons first names ih =>
    rw [List.cons_append, walk] at h
    rw [walk]
    split at h
    · cases h
    · next hfirst =>
      rw [if_neg hfirst]
      split at h
      · cases h
      · cases h
      · apply ih h

/-- Where a path leads to a name, its parent leads to a directory. -/
theorem exists_find_of_parent? {slash : Bool} (hlocate : d.locate path = .ok (.name location slash))
    (hparent : Path.parent? path = some parent) (hne : parent ≠ "") :
  ∃ l, d.find parent = .ok (l, .directory)
  := by
  obtain ⟨-, name, hlast, hdot, hdots⟩ := locate_name hlocate
  obtain ⟨_, dots, hparent', habsolute, hnames, -⟩ := Path.exists_parent? hlast hdot hdots
  obtain rfl := Option.some.inj (hparent.symm.trans hparent')
  obtain ⟨⟨-, hzero, hsize⟩, hstart, ⟨-, ⟨⟩⟩ | ⟨before, last, stop, hbefore, hwalk, -⟩⟩ :=
    locate_ok_iff.mp hlocate
  obtain ⟨rfl, -⟩ := List.append_inj' (hbefore.symm.trans hnames) rfl
  obtain ⟨stop', hwalk'⟩ := exists_walk_of_append hwalk
  have hisPath : IsPath parent := by
    obtain ⟨rest, rfl⟩ := Path.exists_append_of_parent? hparent
    rw [String.utf8ByteSize_append] at hsize
    refine ⟨by simpa using hne, ?_, by omega⟩
    simp only [String.toList_append, List.contains_eq_mem, decide_eq_false_iff_not,
      List.mem_append, not_or] at hzero ⊢
    exact hzero.1
  have hsame : start d.home parent = start d.home path := by rw [start, start, habsolute]
  rw [← hsame] at hstart hwalk'
  obtain hnil | ⟨front, last', hfront⟩ := List.eq_nil_or_concat (names parent)
  · use start d.home parent
    apply find_directory_iff.mpr
    left
    apply locate_ok_iff.mpr
    use hisPath, hstart
    left
    use hnil
  · rw [List.concat_eq_append] at hfront
    rw [hfront] at hwalk'
    obtain ⟨above, hwalk', hshort, hlookup⟩ := exists_of_walk_concat hwalk'
    have hlocate' : ∀ {target}, arrive parent above last' = .ok target →
        d.locate parent = .ok target := fun harrive =>
      locate_ok_iff.mpr ⟨hisPath, hstart, .inr ⟨front, last', above, hfront, hwalk', harrive⟩⟩
    use step above last'
    apply find_directory_iff.mpr
    by_cases hstep : last' = "." ∨ last' = ".."
    · left
      apply hlocate'
      rw [arrive, if_pos (by simpa using hstep)]
    · right
      rw [not_or] at hstep
      have hname : step above last' = above ++ [last'] := by
        rw [step, if_neg hstep.1, if_neg hstep.2]
      rw [hname] at hlookup ⊢
      use parent.toList.getLast? == some '/'
      constructor
      · apply hlocate'
        rw [arrive, if_neg (by simpa using hstep), if_neg (by omega)]
      · apply hlookup

end MutationTesting.Disk
