import MutationTesting.Proofs.Disk.Place
import MutationTesting.Proofs.Procedure.Run

/-!
# Disks as worlds

`World.faulty` is a disk on which any operation may fail, and a program or a test oracle may
change everything. On `World.sparing` operations do what they should, and programs and
oracles leave some paths alone. `Disk.serve` is a disk with nothing unforeseen, which both
worlds allow for.

What an operation makes of a disk is told by what paths find before and after: an operation
on one path leaves what other places hold `Unchanged`.
-/

namespace MutationTesting

namespace FileOperation

/-- What an operation may answer at any time because it failed. An absence that a removal
reports is one, and what cannot be looked for counts as absent. -/
def Fails : (operation : FileOperation) → operation.Answer → Prop
  | .isPresent _, a | .isDirectory _, a => a = false
  | .remove _, a => ∃ e, e ≠ .notFound ∧ a = .error e
  | .readText _, a => ∃ e, a = .error e
  | .create _, a | .fill _ _, a | .write _ _, a | .copy _ _, a | .makeDirectories _, a =>
    ∃ e, a = .error e
  | .list _, a => ∃ e, a = .error e
  | .identify _, a => ∃ e, a = .error e

/-- What an operation that failed may leave: a file that was to be written may hold anything,
and some directories may have been made. -/
def Leaves (d d' : Disk) : FileOperation → Prop
  | .fill path _ | .write path _ | .copy _ path =>
    d' = d ∨ ∃ content, d.writeContent path content = .ok d'
  | .makeDirectories _ => ∃ path, d.makeDirectories path = .ok d'
  | .readText _ | .isPresent _ | .isDirectory _ | .create _ | .remove _ | .list _
  | .identify _ => d' = d

/-- The path whose file an operation may change. -/
def target? : FileOperation → Option String
  | .create path | .fill path _ | .write path _ | .copy _ path | .remove path => some path
  | .readText _ | .isPresent _ | .isDirectory _ | .makeDirectories _ | .list _
  | .identify _ => none

end FileOperation

namespace Disk

/-- A path finds the same file on two disks, or nothing on both. -/
structure Unchanged (path : String) (d d' : Disk) : Prop where
  home : d'.home = d.home
  content : ∀ {content}, d'.readContent path = .ok content ↔ d.readContent path = .ok content
  present : d'.isPresent path = d.isPresent path

/-- Two disks differ at most at the place of a path, and only if it can be one. -/
def Touched (path : String) (d d' : Disk) : Prop :=
  d' = d ∨ (IsPath path ∧ DifferAt (place d.home path) d d')

/-- An operation gives an answer and changes the disk as it should, or it fails. -/
def Yields (d : Disk) (operation : FileOperation) (a : operation.Answer) (d' : Disk) : Prop :=
  d.perform operation = (a, d') ∨ (operation.Fails a ∧ operation.Leaves d d')

/-- Answers requests with a disk on which no operation fails that can be done, where all
tests pass, there are no programs, and no time goes by. -/
def serve : (request : Request) → Disk → request.Answer × Disk
  | .file operation, d => d.perform operation
  | .consult _ _, d => (.ok (.passed ""), d)
  | .launch _, d => (.error .notFound, d)
  | .isInterrupted, d => (false, d)
  | .clock, d => (.ofSeconds 0, d)
  | .print _, d => ((), d)

/-- A disk with one file in its home directory. -/
def single (name text : String) : Disk where
  entries := [(["home"], .directory), (["home", name], .file (.text text))]
  home := ["home"]

end Disk

namespace World

/-- A disk where any operation may fail, and programs and oracles do anything to it. -/
def faulty : World Disk
  | .file operation, d, a, d' => d.Yields operation a d'
  | .consult _ _, _, _, _ | .launch _, _, _, _ => True
  | .isInterrupted, d, _, d' | .clock, d, _, d' | .print _, d, _, d' => d' = d

/-- A disk whose programs and oracles leave what some paths find unchanged. -/
def sparing (paths : List String) : World Disk
  | .file operation, d, a, d' => d.perform operation = (a, d')
  | .consult _ _, d, _, d' | .launch _, d, _, d' => ∀ path ∈ paths, Disk.Unchanged path d d'
  | .isInterrupted, d, _, d' | .clock, d, _, d' | .print _, d, _, d' => d' = d

end World

/-- On a disk with nothing unforeseen nothing happens that could not happen on a faulty one. -/
theorem World.faulty_of_serve (request : Request) (d : Disk) (a : request.Answer) (d' : Disk)
    (h : World.ofAnswer Disk.serve request d a d') :
  World.faulty request d a d'
  := by
  cases request with
  | file operation =>
    left
    apply h
  | consult => trivial
  | launch => trivial
  | isInterrupted =>
    cases h
    rfl
  | clock =>
    cases h
    rfl
  | print =>
    cases h
    rfl

/-- On a disk with nothing unforeseen programs and oracles leave everything alone. -/
theorem World.sparing_of_serve (paths : List String) (request : Request) (d : Disk)
    (a : request.Answer) (d' : Disk) (h : World.ofAnswer Disk.serve request d a d') :
  World.sparing paths request d a d'
  := by
  cases request with
  | file operation => apply h
  | consult =>
    cases h
    exact fun _ _ => ⟨rfl, Iff.rfl, rfl⟩
  | launch =>
    cases h
    exact fun _ _ => ⟨rfl, Iff.rfl, rfl⟩
  | isInterrupted =>
    cases h
    rfl
  | clock =>
    cases h
    rfl
  | print =>
    cases h
    rfl

namespace Disk

variable {d d' d'' : Disk} {path other : String}

namespace Unchanged

theorem refl (path : String) (d : Disk) :
  Unchanged path d d
  := ⟨rfl, Iff.rfl, rfl⟩

theorem trans (h : Unchanged path d d') (h' : Unchanged path d' d'') :
  Unchanged path d d''
  := by
  constructor
  · rw [h'.home, h.home]
  · intro content
    rw [h'.content, h.content]
  · rw [h'.present, h.present]

/-- A text that cannot be a path finds nothing on any disk. -/
theorem of_not_isPath (h : ¬IsPath path) (hhome : d'.home = d.home) :
  Unchanged path d d'
  := by
  have hnever : ∀ (d : Disk) target, d.locate path ≠ .ok target :=
    fun d target htarget => h (locate_ok_iff.mp htarget).1
  constructor
  · apply hhome
  · intro content
    simp [readContent_ok_iff, hnever]
  · rw [Bool.eq_iff_iff, isPresent_iff, isPresent_iff]
    simp [hnever]

/-- A path that finds nothing finds no file. -/
theorem of_absent (hhome : d'.home = d.home) (h : d.isPresent path = false)
    (h' : d'.isPresent path = false) :
  Unchanged path d d'
  := by
  have hnever : ∀ {d : Disk} {content}, d.isPresent path = false →
      d.readContent path ≠ .ok content := by
    intro d content habsent hread
    cases habsent.symm.trans (isPresent_of_readContent hread)
  constructor
  · apply hhome
  · intro content
    simp [hnever h, hnever h']
  · rw [h, h']

theorem readText_iff (h : Unchanged path d d') {text : String} :
  d'.readText path = .ok text ↔ d.readText path = .ok text
  := by
  rw [readText_ok_iff, readText_ok_iff, h.content]

theorem toOption_readText (h : Unchanged path d d') :
  (d'.readText path).toOption = (d.readText path).toOption
  := by
  apply Option.ext
  intro text
  have hiff : ∀ {r : Except FileError String}, r.toOption = some text ↔ r = .ok text := by
    intro r
    cases r <;> simp [Except.toOption]
  rw [hiff, hiff, h.readText_iff]

end Unchanged

/-! ### Places that operations change -/

theorem DifferAt.unchanged {location : Location} (h : DifferAt location d d')
    (hne : place d.home path ≠ location) :
  Unchanged path d d'
  := ⟨h.home, h.readContent_iff hne, h.isPresent_eq hne⟩

namespace Touched

theorem home (h : Touched path d d') :
  d'.home = d.home
  := by
  obtain rfl | ⟨-, h⟩ := h
  · rfl
  · apply h.home

/-- A path to another place finds the same. -/
theorem unchanged_of_isPath (h : Touched path d d')
    (hne : IsPath path → place d.home other ≠ place d.home path) :
  Unchanged other d d'
  := by
  obtain rfl | ⟨hpath, h⟩ := h
  · apply Unchanged.refl
  · apply h.unchanged (hne hpath)

theorem unchanged (h : Touched path d d') (hne : place d.home other ≠ place d.home path) :
  Unchanged other d d'
  := h.unchanged_of_isPath fun _ => hne

end Touched

theorem differAt_of_writeContent {content : Content}
    (h : d.writeContent path content = .ok d') :
  IsPath path ∧ DifferAt (place d.home path) d d'
  := by
  obtain ⟨l, hlocate, hl, rfl⟩ := writeContent_ok_iff.mp h
  rw [← (locate_name hlocate).1]
  use (locate_ok_iff.mp hlocate).1
  apply differAt_put (ne_nil_of_locate hlocate) hl

theorem differAt_of_create (h : d.create path = .ok d') :
  IsPath path ∧ DifferAt (place d.home path) d d'
  := by
  obtain ⟨l, hlocate, hl, rfl⟩ := create_ok_iff.mp h
  rw [← (locate_name hlocate).1]
  use (locate_ok_iff.mp hlocate).1
  apply differAt_put (ne_nil_of_locate hlocate)
  simp [hl]

theorem differAt_of_remove (h : d.remove path = .ok d') :
  IsPath path ∧ DifferAt (place d.home path) d d'
  := by
  obtain ⟨l, content, hlocate, hl, rfl⟩ := remove_ok_iff.mp h
  rw [← (locate_name hlocate).1]
  use (locate_ok_iff.mp hlocate).1
  apply differAt_erase (ne_nil_of_locate hlocate)
  simp [hl]

/-- Filling a file writes to it, if it is there. -/
theorem fill_eq (d : Disk) (path text : String) :
  d.fill path text = d ∨ d.writeContent path (.text text) = .ok (d.fill path text)
  := by
  rw [fill]
  split
  · next l content hfind =>
    right
    obtain ⟨hlocate, hl⟩ := find_file_iff.mp hfind
    apply writeContent_ok_iff.mpr
    use l, hlocate
    simp [hl]
  · left
    rfl

/-! ### What operations do to their own path -/

theorem readContent_of_writeContent {content : Content}
    (h : d.writeContent path content = .ok d') :
  d'.readContent path = .ok content
  := by
  have hdiffer := (differAt_of_writeContent h).2
  obtain ⟨l, hlocate, hl, rfl⟩ := writeContent_ok_iff.mp h
  apply readContent_ok_iff.mpr
  use l
  rw [hdiffer.locate_iff]
  use hlocate
  apply lookup?_put_same d (ne_nil_of_locate hlocate)

/-- A file that can be read can be written. -/
theorem exists_writeContent {content : Content} (h : d.readContent path = .ok content)
    (content' : Content) :
  ∃ d', d.writeContent path content' = .ok d'
  := by
  obtain ⟨l, hlocate, hl⟩ := readContent_ok_iff.mp h
  use d.put l (.file content')
  apply writeContent_ok_iff.mpr
  use l, hlocate
  simp [hl]

theorem isPresent_of_create (h : d.create path = .ok d') :
  d.isPresent path = false
  := by
  obtain ⟨l, hlocate, hl, rfl⟩ := create_ok_iff.mp h
  rw [← Bool.not_eq_true, isPresent_iff]
  simp [hlocate, hl]

theorem readContent_of_create (h : d.create path = .ok d') :
  d'.readContent path = .ok (.text "")
  := by
  obtain ⟨l, hlocate, hl, rfl⟩ := create_ok_iff.mp h
  apply readContent_of_writeContent (d := d)
  apply writeContent_ok_iff.mpr
  use l, hlocate
  simp [hl]

theorem isPresent_of_remove (h : d.remove path = .ok d') :
  d'.isPresent path = false
  := by
  have hdiffer := (differAt_of_remove h).2
  obtain ⟨l, content, hlocate, hl, rfl⟩ := remove_ok_iff.mp h
  rw [← Bool.not_eq_true, isPresent_iff]
  simp [hdiffer.locate_iff, hlocate, ne_nil_of_locate hlocate]

/-- A file that can be read can be removed. -/
theorem exists_remove {content : Content} (h : d.readContent path = .ok content) :
  ∃ d', d.remove path = .ok d'
  := by
  obtain ⟨l, hlocate, hl⟩ := readContent_ok_iff.mp h
  use d.erase l
  apply remove_ok_iff.mpr
  use l, content

/-- A file that can be read is filled with what it is filled with. -/
theorem readContent_fill {content : Content} (h : d.readContent path = .ok content)
    (text : String) :
  (d.fill path text).readContent path = .ok (.text text)
  := by
  obtain ⟨l, hlocate, hl⟩ := readContent_ok_iff.mp h
  have hfind := find_file_iff.mpr ⟨hlocate, hl⟩
  apply readContent_of_writeContent (d := d)
  apply writeContent_ok_iff.mpr
  use l, hlocate
  simp [hl, fill, hfind]

/-- Which files are programs makes no difference to what a path finds. -/
theorem unchanged_setProgram (location : Location) (on : Bool) :
  Unchanged path d (d.setProgram location on)
  := by
  have hkeeps : KeepsDirectories d (d.setProgram location on) := ⟨rfl, fun _ hl => hl⟩
  have hkeeps' : KeepsDirectories (d.setProgram location on) d := ⟨rfl, fun _ hl => hl⟩
  have hlocate : ∀ target, (d.setProgram location on).locate path = .ok target
      ↔ d.locate path = .ok target := fun target =>
    ⟨locate_of_keepsDirectories hkeeps', locate_of_keepsDirectories hkeeps⟩
  constructor
  · rfl
  · intro content
    simp only [readContent_ok_iff, hlocate]
    rfl
  · rw [Bool.eq_iff_iff]
    simp only [isPresent_iff, hlocate]
    rfl

/-- A copy writes to its target what its source holds. -/
theorem exists_of_copy {source : String} (h : d.copy source path = .ok d') :
  ∃ content d₁, d.readContent source = .ok content ∧ d.writeContent path content = .ok d₁
    ∧ ∃ location on, d' = d₁.setProgram location on
  := by
  rw [copy] at h
  simp only [bind, Except.bind, pure, Except.pure, throw, throwThe, MonadExceptOf.throw] at h
  cases hfind : d.find source with
  | error e => simp [hfind] at h
  | ok found =>
    obtain ⟨l, _ | content⟩ := found
    · simp [hfind] at h
    · simp only [hfind] at h
      cases hwrite : d.writeContent path content with
      | error e => simp [hwrite] at h
      | ok d₁ =>
        obtain ⟨place, hplace, hl⟩ := readContent_ok_iff.mp (readContent_of_writeContent hwrite)
        simp only [hwrite, find_file_iff.mpr ⟨hplace, hl⟩, Except.ok.injEq] at h
        have hread := readContent_ok_iff.mpr ⟨l, find_file_iff.mp hfind⟩
        exact ⟨content, d₁, hread, hwrite, _, _, h.symm⟩

theorem readContent_of_copy {source : String} {content : Content}
    (hsource : d.readContent source = .ok content) (h : d.copy source path = .ok d') :
  d'.readContent path = .ok content
  := by
  obtain ⟨content', d₁, hsource', hwrite, location, on, rfl⟩ := exists_of_copy h
  obtain rfl := Except.ok.inj (hsource.symm.trans hsource')
  rw [(unchanged_setProgram location on).content]
  apply readContent_of_writeContent hwrite

/-- A file that can be read can be copied to where something can be written. -/
theorem exists_copy {source : String} {content : Content} {d₁ : Disk}
    (hsource : d.readContent source = .ok content) (h : d.writeContent path content = .ok d₁) :
  ∃ d', d.copy source path = .ok d'
  := by
  obtain ⟨l, hlocate, hl⟩ := readContent_ok_iff.mp hsource
  obtain ⟨place, hplace, hcontent⟩ := readContent_ok_iff.mp (readContent_of_writeContent h)
  rw [copy, find_file_iff.mpr ⟨hlocate, hl⟩]
  simp only [bind, Except.bind, pure, Except.pure, h, find_file_iff.mpr ⟨hplace, hcontent⟩]
  exact ⟨_, rfl⟩

/-! ### Answers of operations -/

namespace Yields

variable {operation : FileOperation} {a : operation.Answer}

/-- What a committed operation answers tells what it made of the disk. -/
theorem of_commit {result : Except FileError Disk} {a : Except FileError Unit}
    (h : d.commit result = (a, d')) :
  (a = .ok () ∧ result = .ok d') ∨ (d' = d ∧ ∃ e, a = .error e ∧ result = .error e)
  := by
  cases result with
  | ok d₁ =>
    cases h
    left
    use rfl
  | error e =>
    cases h
    right
    use rfl, e

/-- What a committed operation leaves alone, its answers leave alone. -/
theorem touched_of_commit {result : Except FileError Disk} {a : Except FileError Unit}
    (hresult : ∀ d₁, result = .ok d₁ → IsPath path ∧ DifferAt (place d.home path) d d₁)
    (h : d.commit result = (a, d')) :
  Touched path d d'
  := by
  obtain ⟨-, h⟩ | ⟨h, -⟩ := of_commit h
  · right
    apply hresult _ h
  · left
    apply h

/-- An operation changes at most the place of its target. -/
theorem touched (h : d.Yields operation a d') (htarget : operation.target? = some path) :
  Touched path d d'
  := by
  have hleaves : (d' = d ∨ ∃ content, d.writeContent path content = .ok d') →
      Touched path d d' := by
    rintro (rfl | ⟨content, h⟩)
    · left
      rfl
    · right
      apply differAt_of_writeContent h
  cases operation <;> cases htarget
  case create =>
    obtain h | ⟨-, h⟩ := h
    · apply touched_of_commit (fun _ => differAt_of_create) h
    · left
      apply h
  case fill text =>
    obtain h | ⟨-, h⟩ := h
    · cases h
      apply hleaves
      obtain h | h := fill_eq d path text
      · left
        apply h
      · right
        use .text text
    · apply hleaves h
  case write text =>
    obtain h | ⟨-, h⟩ := h
    · apply touched_of_commit (fun _ => differAt_of_writeContent) h
    · apply hleaves h
  case copy source =>
    obtain h | ⟨-, h⟩ := h
    · apply touched_of_commit _ h
      intro d₁ hcopy
      obtain ⟨content, d₂, -, hwrite, location, on, rfl⟩ := exists_of_copy hcopy
      obtain ⟨hpath, hdiffer⟩ := differAt_of_writeContent hwrite
      use hpath
      exact ⟨hdiffer.home, hdiffer.other, hdiffer.before, hdiffer.after⟩
    · apply hleaves h
  case remove =>
    obtain h | ⟨-, h⟩ := h
    · apply touched_of_commit (fun _ => differAt_of_remove) h
    · left
      apply h

theorem readText {a : Except FileError String} (h : d.Yields (.readText path) a d') :
  d' = d ∧ ∀ text, a = .ok text → d.readText path = .ok text
  := by
  obtain h | ⟨⟨e, rfl⟩, rfl⟩ := h
  · cases h
    use rfl
    intro text h
    apply h
  · use rfl
    intro text h
    cases h

theorem list {a : Except FileError (List String)} (h : d.Yields (.list path) a d') :
  d' = d
  := by
  obtain h | ⟨-, rfl⟩ := h
  · cases h
    rfl
  · rfl

theorem create_ok (h : d.Yields (.create path) (.ok ()) d') :
  d.create path = .ok d'
  := by
  obtain h | ⟨⟨e, h⟩, -⟩ := h
  · obtain ⟨-, h⟩ | ⟨-, e, h, -⟩ := of_commit h
    · apply h
    · cases h
  · cases h

theorem create_error {e : FileError} (h : d.Yields (.create path) (.error e) d') :
  d' = d
  := by
  obtain h | ⟨-, h⟩ := h
  · obtain ⟨h, -⟩ | ⟨h, -⟩ := of_commit h
    · cases h
    · apply h
  · apply h

theorem fill_ok {text : String} {content : Content} (h : d.Yields (.fill path text) (.ok ()) d')
    (hread : d.readContent path = .ok content) :
  d'.readText path = .ok text
  := by
  obtain h | ⟨⟨e, h⟩, -⟩ := h
  · cases h
    apply readText_ok_iff.mpr (readContent_fill hread text)
  · cases h

theorem write_ok {text : String} (h : d.Yields (.write path text) (.ok ()) d') :
  d'.readContent path = .ok (.text text)
  := by
  obtain h | ⟨⟨e, h⟩, -⟩ := h
  · obtain ⟨-, h⟩ | ⟨-, e, h, -⟩ := of_commit h
    · apply readContent_of_writeContent h
    · cases h
  · cases h

/-- A file that can be read can still be read after something was written to it or not. -/
theorem exists_readContent_of_leaves {content : Content}
    (h : d' = d ∨ ∃ content, d.writeContent path content = .ok d')
    (hread : d.readContent path = .ok content) :
  ∃ content', d'.readContent path = .ok content'
  := by
  obtain rfl | ⟨content', hwrite⟩ := h
  · use content
  · use content'
    apply readContent_of_writeContent hwrite

/-- A file that can be read can still be read after a text was to be written to it. -/
theorem exists_readContent_of_write {text : String} {content : Content} {a : Except FileError Unit}
    (h : d.Yields (.write path text) a d') (hread : d.readContent path = .ok content) :
  ∃ content', d'.readContent path = .ok content'
  := by
  obtain h | ⟨-, h⟩ := h
  · obtain ⟨-, h⟩ | ⟨rfl, -⟩ := of_commit h
    · use .text text
      apply readContent_of_writeContent h
    · use content
  · apply exists_readContent_of_leaves h hread

/-- A file that can be read can still be read after another one was to be copied to it. -/
theorem exists_readContent_of_copy {source : String} {content : Content}
    {a : Except FileError Unit} (h : d.Yields (.copy source path) a d')
    (hread : d.readContent path = .ok content) :
  ∃ content', d'.readContent path = .ok content'
  := by
  obtain h | ⟨-, h⟩ := h
  · obtain ⟨-, h⟩ | ⟨rfl, -⟩ := of_commit h
    · obtain ⟨content', _, hsource, -⟩ := exists_of_copy h
      use content'
      apply readContent_of_copy hsource h
    · use content
  · apply exists_readContent_of_leaves h hread

theorem copy_ok {source : String} {content : Content} (h : d.Yields (.copy source path) (.ok ()) d')
    (hsource : d.readContent source = .ok content) :
  d'.readContent path = .ok content
  := by
  obtain h | ⟨⟨e, h⟩, -⟩ := h
  · obtain ⟨-, h⟩ | ⟨-, e, h, -⟩ := of_commit h
    · apply readContent_of_copy hsource h
    · cases h
  · cases h

theorem remove_ok (h : d.Yields (.remove path) (.ok ()) d') :
  d'.isPresent path = false
  := by
  obtain h | ⟨⟨e, -, h⟩, -⟩ := h
  · obtain ⟨-, h⟩ | ⟨-, e, h, -⟩ := of_commit h
    · apply isPresent_of_remove h
    · cases h
  · cases h

theorem remove_notFound (h : d.Yields (.remove path) (.error .notFound) d') :
  d'.isPresent path = false
  := by
  obtain h | ⟨⟨e, hne, h⟩, -⟩ := h
  · obtain ⟨h, -⟩ | ⟨rfl, e, h, hremove⟩ := of_commit h
    · cases h
    · cases h
      apply isPresent_of_remove_notFound hremove
  · cases h
    contradiction

theorem remove_error {e : FileError} (h : d.Yields (.remove path) (.error e) d') :
  d' = d
  := by
  obtain h | ⟨-, h⟩ := h
  · obtain ⟨h, -⟩ | ⟨h, -⟩ := of_commit h
    · cases h
    · apply h
  · apply h

end Yields

/-! ### Operations on a file that can be read -/

section

variable {content : Content} {text : String} {a : Except FileError Unit}

theorem readText_of_perform_fill (hread : d.readContent path = .ok content)
    (h : d.perform (.fill path text) = (a, d')) :
  a = .ok () ∧ d'.readText path = .ok text
  := by
  cases h
  use rfl
  apply readText_ok_iff.mpr (readContent_fill hread text)

theorem readText_of_perform_write (hread : d.readContent path = .ok content)
    (h : d.perform (.write path text) = (a, d')) :
  a = .ok () ∧ d'.readText path = .ok text
  := by
  obtain ⟨d₁, hwrite⟩ := exists_writeContent hread (.text text)
  obtain ⟨rfl, hperform⟩ | ⟨-, e, -, herror⟩ := Yields.of_commit h
  · use rfl
    apply readText_ok_iff.mpr (readContent_of_writeContent hperform)
  · cases hwrite.symm.trans herror

theorem isPresent_of_perform_remove (hread : d.readContent path = .ok content)
    (h : d.perform (.remove path) = (a, d')) :
  a = .ok () ∧ d'.isPresent path = false
  := by
  obtain ⟨d₁, hremove⟩ := exists_remove hread
  obtain ⟨rfl, hperform⟩ | ⟨-, e, -, herror⟩ := Yields.of_commit h
  · use rfl
    apply isPresent_of_remove hperform
  · cases hremove.symm.trans herror

end

end Disk

end MutationTesting
