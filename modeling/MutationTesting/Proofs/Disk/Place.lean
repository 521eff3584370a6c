import Mathlib.Tactic.Common
import MutationTesting.Proofs.Path.Names

/-!
# Places

A path leads, where it leads to a name at all, to its `Disk.place`, which depends only on
the home directory and not on what is on the disk. A change at one location, where no
directory is before or after, keeps what every path finds whose place is another one.
-/

namespace MutationTesting.Disk

variable {d d' d'' : Disk} {path : String} {location : Location}

/-! ### Where a path leads -/

/-- Where the walk along a path starts. -/
def start (home : Location) (path : String) : Location :=
  if Path.isAbsolute path then [] else home

/-- The location that the names of a path lead to from the home directory. -/
def place (home : Location) (path : String) : Location :=
  (names path).foldl step (start home path)

/-- Where a path leads whose names but the last lead to a directory. -/
def arrive (path : String) (parent : Location) (last : String) : Except FileError Target :=
  if last = "." || last = ".." then .ok (.directory (step parent last))
  else if maxNameLength < last.utf8ByteSize then .error .nameTooLong
  else .ok (.name (parent ++ [last]) (path.toList.getLast? == some '/'))

/-- A text can be a path. -/
def IsPath (path : String) : Prop :=
  path.isEmpty = false ∧ path.toList.contains '\x00' = false ∧ path.utf8ByteSize ≤ maxPathLength

theorem locate_ok_iff {target : Target} :
  d.locate path = .ok target ↔ IsPath path ∧ d.lookup? (start d.home path) = some .directory
    ∧ ((names path = [] ∧ target = .directory (start d.home path))
      ∨ ∃ before last parent, names path = before ++ [last]
        ∧ d.walk (start d.home path) before = .ok parent ∧ arrive path parent last = .ok target)
  := by
  rw [locate]
  simp only [bind, Except.bind, pure, Except.pure, throw, throwThe, MonadExceptOf.throw]
  unfold IsPath arrive start
  generalize (if Path.isAbsolute path then [] else d.home) = s
  cases hnames : (names path).reverse with
  | nil =>
    obtain hnames := List.reverse_eq_nil_iff.mp hnames
    simp only [hnames]
    grind
  | cons last before =>
    obtain hnames := List.reverse_eq_cons_iff.mp hnames
    simp only [hnames]
    cases hwalk : d.walk s before.reverse <;> grind

theorem walk_eq_foldl {start stop : Location} {names : List String}
    (h : d.walk start names = .ok stop) :
  stop = names.foldl step start
  := by
  induction names generalizing start with
  | nil =>
    cases h
    rfl
  | cons name names ih =>
    rw [walk] at h
    split at h
    · cases h
    · split at h
      · cases h
      · cases h
      · apply ih h

/-- A path ends in a name that stands for a file, and not for a step along directories. -/
def EndsIn (path name : String) : Prop :=
  (names path).getLast? = some name ∧ name ≠ "." ∧ name ≠ ".."

/-- A place ends in the last name of its path. -/
theorem EndsIn.getLast?_place {name : String} (h : EndsIn path name) (home : Location) :
  (place home path).getLast? = some name
  := by
  obtain ⟨hlast, hdot, hdots⟩ := h
  obtain ⟨before, hnames⟩ := List.getLast?_eq_some_iff.mp hlast
  rw [place, hnames, List.foldl_append, List.foldl_cons, List.foldl_nil, step, if_neg hdot,
    if_neg hdots]
  apply List.getLast?_concat

/-- Paths that end in different names have different places. -/
theorem EndsIn.place_ne {path' name name' : String} (h : EndsIn path name)
    (h' : EndsIn path' name') (hne : name ≠ name') (home : Location) :
  place home path ≠ place home path'
  := by
  intro heq
  have hlast := h.getLast?_place home
  rw [heq, h'.getLast?_place home] at hlast
  apply hne (Option.some.inj hlast).symm

/-- A path that ends with a text ends in a name that ends with it, if the text stands for no step. -/
theorem exists_endsIn_of_suffix {tail : List Char} (hne : tail ≠ []) (hslash : '/' ∉ tail)
    (hstep : ¬tail <:+ ['.', '.']) (h : tail <:+ path.toList) :
  ∃ name, EndsIn path name ∧ tail <:+ name.toList
  := by
  obtain ⟨name, hname, hsuffix⟩ := Path.isSuffix_of_getLast?_names hne hslash h
  use name
  constructor
  · use hname
    constructor
    · rintro rfl
      apply hstep (hsuffix.trans (by decide))
    · rintro rfl
      apply hstep hsuffix
  · apply hsuffix

/-- A path that leads to a name leads to its place. -/
theorem locate_name {slash : Bool} (h : d.locate path = .ok (.name location slash)) :
  location = place d.home path ∧ ∃ name, EndsIn path name
  := by
  obtain ⟨-, -, ⟨-, h⟩ | ⟨before, last, parent, hnames, hwalk, h⟩⟩ := locate_ok_iff.mp h
  · cases h
  · rw [arrive] at h
    split at h
    · cases h
    · next hlast =>
      split at h
      · cases h
      · cases h
        simp only [Bool.or_eq_true, decide_eq_true_eq, not_or] at hlast
        constructor
        · rw [place, hnames, List.foldl_append, ← walk_eq_foldl hwalk, List.foldl_cons,
            List.foldl_nil, step, if_neg hlast.1, if_neg hlast.2]
        · use last, by simp [hnames], hlast.1, hlast.2

/-- A path that leads to a name has a last name that is short enough. -/
theorem EndsIn.utf8ByteSize_le {slash : Bool} {name : String} (h : EndsIn path name)
    (hlocate : d.locate path = .ok (.name location slash)) :
  name.utf8ByteSize ≤ maxNameLength
  := by
  obtain ⟨-, -, ⟨-, hnil⟩ | ⟨before, last, parent, hnames, -, harrive⟩⟩ := locate_ok_iff.mp hlocate
  · cases hnil
  · have hlast := h.1
    rw [hnames, List.getLast?_concat] at hlast
    obtain rfl := Option.some.inj hlast
    rw [arrive] at harrive
    grind

/-- A place that is led to is not the root. -/
theorem ne_nil_of_locate {slash : Bool} (h : d.locate path = .ok (.name location slash)) :
  location ≠ []
  := by
  obtain ⟨hplace, name, hname⟩ := locate_name h
  rintro rfl
  have hlast := hname.getLast?_place d.home
  rw [← hplace] at hlast
  cases hlast

/-! ### Changes at one location -/

/-- Every directory of a disk is one of another disk with the same home directory. -/
def KeepsDirectories (d d' : Disk) : Prop :=
  d'.home = d.home ∧ ∀ l, d.lookup? l = some .directory → d'.lookup? l = some .directory

theorem walk_of_keepsDirectories (hd : KeepsDirectories d d') {start stop : Location}
    {names : List String} (h : d.walk start names = .ok stop) :
  d'.walk start names = .ok stop
  := by
  induction names generalizing start with
  | nil => apply h
  | cons name names ih =>
    rw [walk] at h ⊢
    split at h
    · cases h
    · next hname =>
      split at h
      · cases h
      · cases h
      · next hdir =>
        rw [if_neg hname, hd.2 _ hdir]
        apply ih h

theorem locate_of_keepsDirectories (hd : KeepsDirectories d d') {target : Target}
    (h : d.locate path = .ok target) :
  d'.locate path = .ok target
  := by
  obtain ⟨hpath, hstart, h⟩ := locate_ok_iff.mp h
  rw [locate_ok_iff, hd.1]
  use hpath, hd.2 _ hstart
  obtain h | ⟨before, last, parent, hnames, hwalk, h⟩ := h
  · left
    apply h
  · right
    use before, last, parent, hnames, walk_of_keepsDirectories hd hwalk

/-- Two disks differ at most at one location, and neither has a directory there. -/
structure DifferAt (location : Location) (d d' : Disk) : Prop where
  home : d'.home = d.home
  other : ∀ l, l ≠ location → d'.lookup? l = d.lookup? l
  before : d.lookup? location ≠ some .directory
  after : d'.lookup? location ≠ some .directory

namespace DifferAt

theorem symm (h : DifferAt location d d') :
  DifferAt location d' d
  := ⟨h.home.symm, fun l hl => (h.other l hl).symm, h.after, h.before⟩

theorem trans (h : DifferAt location d d') (h' : DifferAt location d' d'') :
  DifferAt location d d''
  := by
  constructor
  · rw [h'.home, h.home]
  · intro l hl
    rw [h'.other l hl, h.other l hl]
  · apply h.before
  · apply h'.after

theorem keepsDirectories (h : DifferAt location d d') :
  KeepsDirectories d d'
  := by
  use h.home
  intro l hl
  by_cases heq : l = location
  · subst heq
    apply absurd hl h.before
  · rw [h.other l heq, hl]

/-- Paths lead to the same places on both disks. -/
theorem locate_iff (h : DifferAt location d d') {target : Target} :
  d'.locate path = .ok target ↔ d.locate path = .ok target
  := ⟨locate_of_keepsDirectories h.symm.keepsDirectories,
    locate_of_keepsDirectories h.keepsDirectories⟩

end DifferAt

/-! ### What a path finds -/

theorem find_file_iff {content : Content} :
  d.find path = .ok (location, .file content)
    ↔ d.locate path = .ok (.name location false) ∧ d.lookup? location = some (.file content)
  := by
  rw [find]
  simp only [bind, Except.bind, pure, Except.pure, throw, throwThe, MonadExceptOf.throw]
  cases d.locate path with
  | error e => simp
  | ok target =>
    cases target with
    | directory l => simp
    | name l slash =>
      cases hl : d.lookup? l with
      | none => grind
      | some entry => cases entry <;> grind

theorem readContent_ok_iff {content : Content} :
  d.readContent path = .ok content
    ↔ ∃ l, d.locate path = .ok (.name l false) ∧ d.lookup? l = some (.file content)
  := by
  simp only [← find_file_iff]
  rw [readContent]
  simp only [bind, Except.bind, pure, Except.pure, throw, throwThe, MonadExceptOf.throw]
  cases d.find path with
  | error e => simp
  | ok found =>
    obtain ⟨l, _ | content⟩ := found <;> simp

theorem readText_ok_iff {text : String} :
  d.readText path = .ok text ↔ d.readContent path = .ok (.text text)
  := by
  rw [readText]
  simp only [bind, Except.bind, pure, Except.pure, throw, throwThe, MonadExceptOf.throw]
  cases d.readContent path with
  | error e => simp
  | ok content => cases content <;> simp

theorem isPresent_iff :
  d.isPresent path = true ↔ (∃ l, d.locate path = .ok (.directory l))
    ∨ ∃ l slash, d.locate path = .ok (.name l slash) ∧ (d.lookup? l = some .directory
      ∨ (slash = false ∧ ∃ content, d.lookup? l = some (.file content)))
  := by
  rw [isPresent, find]
  simp only [bind, Except.bind, pure, Except.pure, throw, throwThe, MonadExceptOf.throw]
  cases d.locate path with
  | error e => simp [Except.toOption]
  | ok target =>
    cases target with
    | directory l => simp [Except.toOption]
    | name l slash =>
      cases hl : d.lookup? l with
      | none => grind [Except.toOption]
      | some entry => cases entry <;> cases slash <;> simp [Except.toOption, hl]

/-- What can be read is at the place of its path. -/
theorem lookup?_place {content : Content} (h : d.readContent path = .ok content) :
  d.lookup? (place d.home path) = some (.file content)
  := by
  obtain ⟨l, hlocate, hl⟩ := readContent_ok_iff.mp h
  rw [← (locate_name hlocate).1]
  apply hl

/-- Where a path leads to a name and finds nothing, there is nothing. -/
theorem lookup?_of_isPresent (hlocate : d.locate path = .ok (.name location false))
    (h : d.isPresent path = false) :
  d.lookup? location = none
  := by
  cases hl : d.lookup? location with
  | none => rfl
  | some entry =>
    have hpresent : d.isPresent path = true := by
      apply isPresent_iff.mpr
      right
      use location, false, hlocate
      cases entry with
      | directory => exact .inl hl
      | file content => exact .inr ⟨rfl, content, hl⟩
    cases h.symm.trans hpresent

theorem isPresent_of_readContent {content : Content} (h : d.readContent path = .ok content) :
  d.isPresent path = true
  := by
  obtain ⟨l, hlocate, hl⟩ := readContent_ok_iff.mp h
  apply isPresent_iff.mpr
  right
  use l, false, hlocate
  right
  use rfl, content

namespace DifferAt

variable (h : DifferAt location d d') (hplace : place d.home path ≠ location)

include h hplace

/-- A path to another place finds the same file. -/
theorem readContent_iff {content : Content} :
  d'.readContent path = .ok content ↔ d.readContent path = .ok content
  := by
  rw [readContent_ok_iff, readContent_ok_iff]
  apply exists_congr
  intro l
  rw [h.locate_iff]
  apply and_congr_right
  intro hlocate
  rw [h.other]
  rw [(locate_name hlocate).1]
  apply hplace

/-- A path to another place finds something as before or nothing as before. -/
theorem isPresent_eq :
  d'.isPresent path = d.isPresent path
  := by
  rw [Bool.eq_iff_iff, isPresent_iff, isPresent_iff]
  apply or_congr
  · apply exists_congr
    intro l
    rw [h.locate_iff]
  · apply exists_congr
    intro l
    apply exists_congr
    intro slash
    rw [h.locate_iff]
    apply and_congr_right
    intro hlocate
    rw [h.other]
    rw [(locate_name hlocate).1]
    apply hplace

end DifferAt

/-! ### Operations -/

theorem differAt_put {content : Content} (hne : location ≠ [])
    (h : d.lookup? location ≠ some .directory) :
  DifferAt location d (d.put location (.file content))
  := by
  constructor
  · rfl
  · intro l hl
    apply lookup?_put_of_ne d hl
  · apply h
  · simp [hne]

theorem differAt_erase (hne : location ≠ []) (h : d.lookup? location ≠ some .directory) :
  DifferAt location d (d.erase location)
  := by
  constructor
  · rfl
  · intro l hl
    apply lookup?_erase_of_ne d hl
  · apply h
  · simp [hne]

theorem writeContent_ok_iff {content : Content} :
  d.writeContent path content = .ok d' ↔ ∃ l, d.locate path = .ok (.name l false)
    ∧ d.lookup? l ≠ some .directory ∧ d' = d.put l (.file content)
  := by
  rw [writeContent]
  simp only [bind, Except.bind, pure, Except.pure, throw, throwThe, MonadExceptOf.throw]
  cases d.locate path with
  | error e => simp
  | ok target =>
    cases target with
    | directory l => simp
    | name l slash => grind

theorem create_ok_iff :
  d.create path = .ok d' ↔ ∃ l, d.locate path = .ok (.name l false) ∧ d.lookup? l = none
    ∧ d' = d.put l (.file (.text ""))
  := by
  rw [create]
  simp only [bind, Except.bind, pure, Except.pure, throw, throwThe, MonadExceptOf.throw]
  cases d.locate path with
  | error e => simp
  | ok target =>
    cases target with
    | directory l => simp
    | name l slash => cases hl : d.lookup? l <;> grind

theorem remove_ok_iff :
  d.remove path = .ok d' ↔ ∃ l content, d.locate path = .ok (.name l false)
    ∧ d.lookup? l = some (.file content) ∧ d' = d.erase l
  := by
  rw [remove]
  simp only [bind, Except.bind, pure, Except.pure, throw, throwThe, MonadExceptOf.throw]
  cases d.locate path with
  | error e => simp
  | ok target =>
    cases target with
    | directory l => simp
    | name l slash =>
      cases hl : d.lookup? l with
      | none => grind
      | some entry => cases entry <;> grind

/-- Where there is nothing to remove, the path finds nothing. -/
theorem isPresent_of_remove_notFound (h : d.remove path = .error .notFound) :
  d.isPresent path = false
  := by
  rw [remove] at h
  rw [isPresent, find]
  simp only [bind, Except.bind, pure, Except.pure, throw, throwThe, MonadExceptOf.throw] at h ⊢
  cases hlocate : d.locate path with
  | error e => rfl
  | ok target =>
    cases target with
    | directory l => simp [hlocate] at h
    | name l slash =>
      cases hl : d.lookup? l with
      | none => simp [hl, Except.toOption]
      | some entry => cases entry <;> grind

end MutationTesting.Disk
