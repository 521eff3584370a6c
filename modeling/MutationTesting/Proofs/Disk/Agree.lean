import MutationTesting.Proofs.Disk.Way

/-!
# Disks that agree

Two disks `Agree` at some locations if they hold the same there. A path that passes no other
locations finds the same on both, and operations on it answer alike and leave disks that agree.
What is done elsewhere makes no difference.
-/

namespace MutationTesting

/-- The path that an operation follows if it follows one and looks at nothing else. -/
def FileOperation.way? : FileOperation → Option String
  | .readText path | .create path | .fill path _ | .write path _ | .remove path => some path
  | .isPresent _ | .isDirectory _ | .copy _ _ | .makeDirectories _ | .list _ | .identify _ => none

namespace Disk

variable {home location : Location} {locations : Set Location} {d d' d'' : Disk}
  {path text : String}

/-- Two disks have one home directory and hold the same at some locations. -/
structure Agree (home : Location) (locations : Set Location) (d d' : Disk) : Prop where
  left : d.home = home
  right : d'.home = home
  lookup? : ∀ {location}, location ∈ locations → d'.lookup? location = d.lookup? location

namespace Agree

theorem refl (h : d.home = home) :
  Agree home locations d d
  := ⟨h, h, fun _ => rfl⟩

theorem symm (h : Agree home locations d d') :
  Agree home locations d' d
  := ⟨h.right, h.left, fun hl => (h.lookup? hl).symm⟩

theorem trans (h : Agree home locations d d') (h' : Agree home locations d' d'') :
  Agree home locations d d''
  := ⟨h.left, h'.right, fun hl => (h'.lookup? hl).trans (h.lookup? hl)⟩

/-! ### What a path finds -/

variable (h : Agree home locations d d')

include h

theorem walk_eq {start : Location} {names : List String}
    (hnames : ∀ front, front <+: names → front.foldl step start ∈ locations) :
  d'.walk start names = d.walk start names
  := by
  induction names generalizing start with
  | nil => rfl
  | cons name names ih =>
    have hname : step start name ∈ locations := hnames [name] (List.prefix_append [name] names)
    rw [walk, walk, h.lookup? hname, ih]
    intro front hfront
    apply hnames (name :: front) ((List.prefix_cons_inj name).mpr hfront)

variable (hpath : ∀ l ∈ passes home path, l ∈ locations)

include hpath

theorem locate_eq :
  d'.locate path = d.locate path
  := by
  have hfront : ∀ front, front <+: names path → front.foldl step (start home path) ∈ locations :=
    fun front hfront => hpath _ (mem_passes_iff.mpr ⟨front, hfront, rfl⟩)
  have hstart := h.lookup? (hfront [] List.nil_prefix)
  rw [List.foldl_nil] at hstart
  rw [locate, locate, h.left, h.right]
  unfold start at hstart hfront
  simp only [bind, Except.bind, pure, Except.pure, throw, throwThe, MonadExceptOf.throw, hstart]
  cases hnames : (names path).reverse with
  | nil => rfl
  | cons last before =>
    have hwalk : d'.walk (if Path.isAbsolute path then [] else home) before.reverse
        = d.walk (if Path.isAbsolute path then [] else home) before.reverse := by
      apply h.walk_eq
      intro front hprefix
      apply hfront
      rw [List.reverse_eq_cons_iff.mp hnames]
      apply hprefix.trans (List.prefix_append _ _)
    simp only [hwalk]

/-- What a path leads to is the same on both disks. -/
theorem lookup?_of_locate {slash : Bool} (hlocate : d.locate path = .ok (.name location slash)) :
  d'.lookup? location = d.lookup? location
  := by
  apply h.lookup?
  apply hpath
  rw [(locate_name hlocate).1, h.left]
  apply place_mem_passes

theorem find_eq :
  d'.find path = d.find path
  := by
  rw [find, find, h.locate_eq hpath]
  cases hlocate : d.locate path with
  | error e => rfl
  | ok target =>
    cases target with
    | directory l => rfl
    | name l slash =>
      have hl := h.lookup?_of_locate hpath hlocate
      simp only [bind, Except.bind, hl]

theorem readContent_eq :
  d'.readContent path = d.readContent path
  := by rw [readContent, readContent, h.find_eq hpath]

theorem readText_eq :
  d'.readText path = d.readText path
  := by rw [readText, readText, h.readContent_eq hpath]

/-- A path leads to a file on one disk if it leads there on the other one. -/
theorem isPresent_eq :
  d'.isPresent path = d.isPresent path
  := by rw [isPresent, isPresent, h.find_eq hpath]

end Agree

/-! ### Operations -/

/-- Two attempts to change a disk fail in the same way or come to disks that agree. -/
inductive Concur (home : Location) (locations : Set Location) :
    Except FileError Disk → Except FileError Disk → Prop where
  | ok {d d' : Disk} : Agree home locations d d' → Concur home locations (.ok d) (.ok d')
  | error {e : FileError} : Concur home locations (.error e) (.error e)

theorem Concur.commit {result result' : Except FileError Disk}
    (h : Concur home locations result result') (hagree : Agree home locations d d') :
  (d'.commit result').1 = (d.commit result).1
    ∧ Agree home locations (d.commit result).2 (d'.commit result').2
  := by
  cases h with
  | ok h => exact ⟨rfl, h⟩
  | error => exact ⟨rfl, hagree⟩

namespace Agree

theorem put (h : Agree home locations d d') (location : Location) (entry : Entry) :
  Agree home locations (d.put location entry) (d'.put location entry)
  := by
  use h.left, h.right
  intro l hl
  by_cases heq : l = location
  · subst heq
    by_cases hroot : l = []
    · subst hroot
      rfl
    · rw [lookup?_put_same d' hroot, lookup?_put_same d hroot]
  · rw [lookup?_put_of_ne d' heq, lookup?_put_of_ne d heq, h.lookup? hl]

theorem erase (h : Agree home locations d d') (location : Location) :
  Agree home locations (d.erase location) (d'.erase location)
  := by
  use h.left, h.right
  intro l hl
  by_cases heq : l = location
  · subst heq
    by_cases hroot : l = []
    · subst hroot
      rfl
    · rw [lookup?_erase_same d' hroot, lookup?_erase_same d hroot]
  · rw [lookup?_erase_of_ne d' heq, lookup?_erase_of_ne d heq, h.lookup? hl]

section

variable (h : Agree home locations d d') (hpath : ∀ l ∈ passes home path, l ∈ locations)

include h hpath

theorem create :
  Concur home locations (d.create path) (d'.create path)
  := by
  rw [Disk.create, Disk.create, h.locate_eq hpath]
  simp only [bind, Except.bind, pure, Except.pure, throw, throwThe, MonadExceptOf.throw]
  cases hlocate : d.locate path with
  | error e => apply Concur.error
  | ok target =>
    cases target with
    | directory l => apply Concur.error
    | name l slash =>
      simp only [h.lookup?_of_locate hpath hlocate]
      split
      · apply Concur.error
      · split
        · apply Concur.error
        · apply Concur.ok (h.put l _)

theorem writeContent (content : Content) :
  Concur home locations (d.writeContent path content) (d'.writeContent path content)
  := by
  rw [Disk.writeContent, Disk.writeContent, h.locate_eq hpath]
  simp only [bind, Except.bind, pure, Except.pure, throw, throwThe, MonadExceptOf.throw]
  cases hlocate : d.locate path with
  | error e => apply Concur.error
  | ok target =>
    cases target with
    | directory l => apply Concur.error
    | name l slash =>
      simp only [h.lookup?_of_locate hpath hlocate]
      split
      · apply Concur.error
      · apply Concur.ok (h.put l _)

theorem remove :
  Concur home locations (d.remove path) (d'.remove path)
  := by
  rw [Disk.remove, Disk.remove, h.locate_eq hpath]
  simp only [bind, Except.bind, pure, Except.pure, throw, throwThe, MonadExceptOf.throw]
  cases hlocate : d.locate path with
  | error e => apply Concur.error
  | ok target =>
    cases target with
    | directory l => apply Concur.error
    | name l slash =>
      simp only [h.lookup?_of_locate hpath hlocate]
      split
      · apply Concur.error
      · apply Concur.error
      · split
        · apply Concur.error
        · apply Concur.ok (h.erase l)

theorem fill (text : String) :
  Agree home locations (d.fill path text) (d'.fill path text)
  := by
  rw [Disk.fill, Disk.fill, h.find_eq hpath]
  split
  · apply h.put
  · apply h

/-- An operation that follows a path answers alike on disks that agree on the way, and leaves
disks that agree. -/
theorem perform {operation : FileOperation} (hway : operation.way? = some path) :
  (d'.perform operation).1 = (d.perform operation).1
    ∧ Agree home locations (d.perform operation).2 (d'.perform operation).2
  := by
  cases operation <;> cases hway
  case readText => exact ⟨h.readText_eq hpath, h⟩
  case create => apply (h.create hpath).commit h
  case fill text => exact ⟨rfl, h.fill hpath text⟩
  case write text => apply (h.writeContent hpath (.text text)).commit h
  case remove => apply (h.remove hpath).commit h

end

end Agree

/-! ### What is done elsewhere -/

/-- What is done at a place elsewhere leaves disks that agree. -/
theorem Touched.agree (h : Touched path d d') (hhome : d.home = home)
    (hpath : IsPath path → place home path ∉ locations) :
  Agree home locations d d'
  := by
  obtain rfl | ⟨hispath, hdiffer⟩ := h
  · apply Agree.refl hhome
  · use hhome, hdiffer.home.trans hhome
    intro l hl
    apply hdiffer.other
    rintro rfl
    apply hpath hispath
    rw [← hhome]
    apply hl

/-- More directories along a path leave disks that agree where there is something already. -/
theorem Extends.agree (h : Extends d d') (halong : Along path d d') (hhome : d.home = home)
    (hpath : ∀ l ∈ passes home path, l ∈ locations → d.lookup? l ≠ none) :
  Agree home locations d d'
  := by
  use hhome, h.home.trans hhome
  intro l hl
  by_cases hpasses : l ∈ passes d.home path
  · obtain ⟨entry, hentry⟩ := Option.ne_none_iff_exists'.mp (hpath l (hhome ▸ hpasses) hl)
    rw [hentry, h.lookup? hentry]
  · apply halong.other hpasses

end Disk

end MutationTesting
