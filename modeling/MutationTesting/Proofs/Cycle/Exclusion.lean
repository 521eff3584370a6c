import MutationTesting.Proofs.Cycle.Recovery
import MutationTesting.Proofs.Procedure.Interleaving

/-!
# Two cycles on one file

Two processes run a cycle each on the same file, and their requests are answered in any
order. The backup keeps them apart while it is there, but a process reads the file before it
makes the backup. So everything is as it should be unless a process is `Overtaken`: it reads
a mutant of the other process, and makes its backup when that one has removed its own.
-/

namespace MutationTesting

open Disk Procedure

/-! ### Histories of two cycles -/

namespace Event

/-- A file has been found to hold a text. -/
abbrev read (file text : String) : Event := ⟨.file (.readText file), .ok text⟩

/-- The backup of a file has been filled with a text. -/
abbrev filled (file text : String) : Event := ⟨.file (.fill (Backup.path file) text), .ok ()⟩

/-- The backup of a file has been removed. -/
abbrev removed (file : String) : Event := ⟨.file (.remove (Backup.path file)), .ok ()⟩

def isMade (file : String) : Event → Bool
  | ⟨.file (.create path), .ok _⟩ => path == Backup.path file
  | _ => false

def isRemoved (file : String) : Event → Bool
  | ⟨.file (.remove path), .ok _⟩ => path == Backup.path file
  | _ => false

theorem isMade_iff {file : String} {event : Event} :
  event.isMade file = true ↔ event = .made file
  := by
  constructor
  · intro h
    unfold isMade at h
    split at h
    · rw [beq_iff_eq.mp h]
    · cases h
  · rintro rfl
    simp [isMade]

theorem isRemoved_iff {file : String} {event : Event} :
  event.isRemoved file = true ↔ event = .removed file
  := by
  constructor
  · intro h
    unfold isRemoved at h
    split at h
    · rw [beq_iff_eq.mp h]
    · cases h
  · rintro rfl
    simp [isRemoved]

end Event

/-- The process that has made the backup of a file, as long as it is not removed. -/
def History.holder? (file : String) (history : History) : Option Bool :=
  history.foldl (fun holder (b, event) =>
    if event.isMade file then some b else if event.isRemoved file then none else holder) none

/-- A process reads a text that is not the one of the file, the other process removes the
backup, and the first one makes it anew with what it has read. -/
def History.Overtaken (file text : String) (history : History) : Prop :=
  ∃ b other, other ≠ text ∧ List.Sublist [(b, .read file other), (!b, .removed file),
    (b, .made file), (b, .filled file other)] history

/-- A text is the one of the file, or else a process was overtaken. -/
def History.Faithful (file text current : String) (history : History) : Prop :=
  current = text ∨ history.Overtaken file text

/-- A world that allows for everything. -/
def World.any : World Unit := fun _ _ _ _ => True

/-- A guard that a process got for a file in the course of its requests. -/
def Acquired (file : String) (events : List Event) (g : Guard) : Prop :=
  ∃ taking, taking <:+: events ∧ Runs World.any (Guard.acquire file) () taking (.ok g) ()

/-- The guard of a file with a saved text. -/
def Guard.holding (file saved : String) : Guard := ⟨file, Backup.path file, saved, false⟩

variable {file text saved : String} {history more : History} {b c : Bool} {event : Event}
  {events : List Event}

theorem acquired_iff {g : Guard} :
  Acquired file events g ↔ ∃ saved, g = .holding file saved
    ∧ [.read file saved, .made file, .filled file saved] <:+: events
  := by
  constructor
  · rintro ⟨taking, htaking, hruns⟩
    rw [Guard.acquire] at hruns
    obtain ⟨a, _, _, -, hrest, rfl⟩ := runs_request_iff.mp hruns
    cases a with
    | error e => cases (runs_pure_iff.mp hrest).2.1
    | ok saved =>
      obtain ⟨a, _, _, -, hnext, rfl⟩ := runs_request_iff.mp hrest
      cases a with
      | error e => cases (runs_pure_iff.mp hnext).2.1
      | ok =>
        obtain ⟨a, _, _, -, hlast, rfl⟩ := runs_request_iff.mp hnext
        cases a with
        | error e =>
          obtain ⟨_, _, _, -, hdone, -⟩ := runs_request_iff.mp hlast
          cases (runs_pure_iff.mp hdone).2.1
        | ok =>
          obtain ⟨rfl, hg, -⟩ := runs_pure_iff.mp hlast
          cases hg
          use saved, rfl
  · rintro ⟨saved, rfl, h⟩
    use [.read file saved, .made file, .filled file saved], h
    apply Reaches.step trivial
    apply Reaches.step (s := ()) trivial
    apply Reaches.step (s := ()) trivial
    apply Reaches.refl (s := ())

theorem Acquired.append {g : Guard} (h : Acquired file events g) (more : List Event) :
  Acquired file (events ++ more) g
  := by
  obtain ⟨taking, htaking, hruns⟩ := h
  use taking, htaking.trans (List.prefix_append events more).isInfix

namespace History

theorem holder?_append_single :
  (history ++ [(b, event)]).holder? file = if event.isMade file then some b
    else if event.isRemoved file then none else history.holder? file
  := by
  simp [holder?]

theorem Overtaken.append (h : history.Overtaken file text) (more : History) :
  (history ++ more).Overtaken file text
  := by
  obtain ⟨b, other, hne, h⟩ := h
  use b, other, hne
  apply h.trans (List.sublist_append_left history more)

theorem Faithful.append {current : String} (h : history.Faithful file text current)
    (more : History) :
  (history ++ more).Faithful file text current
  := by
  apply h.imp_right
  intro hovertaken
  apply hovertaken.append

/-- Where the backup has gone, the other process has removed it. -/
theorem removed_mem_of_holder? (hmore : ∀ entry ∈ more, entry.1 = b)
    (hheld : history.holder? file ≠ none) (hfree : (history ++ more).holder? file = none) :
  (b, .removed file) ∈ more
  := by
  induction more using List.reverseRecOn with
  | nil => simp_all
  | append_singleton more entry ih =>
    obtain ⟨c, event⟩ := entry
    obtain rfl := hmore (c, event) (by simp)
    rw [← List.append_assoc, holder?_append_single] at hfree
    split at hfree
    · cases hfree
    · split at hfree
      · next hremoved => simp [Event.isRemoved_iff.mp hremoved]
      · apply List.mem_append_left
        apply ih _ hfree
        intro entry hentry
        apply hmore _ (List.mem_append_left _ hentry)

end History

/-! ### What two cycles keep -/

/-- A disk is as its history tells, and no guard has saved another text unless a process was
overtaken. -/
structure Coherent (file text : String) (s : History × Disk) : Prop where
  free : s.1.holder? file = none → ∃ current, Intact file current s.2
    ∧ s.1.Faithful file text current
  held : s.1.holder? file ≠ none → ∃ saved, BackedUp file saved s.2
  filled : ∀ b saved, (b, .filled file saved) ∈ s.1 →
    Acquired file (s.1.of b) (.holding file saved) ∧ s.1.Faithful file text saved

/-- What a process may meet with between two of its requests. -/
structure Interferes (file text : String) (b : Bool) (s s' : History × Disk) : Prop where
  history : ∃ more, s'.1 = s.1 ++ more ∧ ∀ entry ∈ more, entry.1 = !b
  coherent : Coherent file text s → Coherent file text s'
  holder : s'.1.holder? file = some b ↔ s.1.holder? file = some b
  unchanged : s.1.holder? file = some b →
    Unchanged file s.2 s'.2 ∧ Unchanged (Backup.path file) s.2 s'.2

variable {s s' s'' : History × Disk}

theorem Interferes.refl (file text : String) (b : Bool) (s : History × Disk) :
  Interferes file text b s s
  := by
  constructor
  · use []
    simp
  · exact id
  · rfl
  · intro _
    constructor <;> apply Unchanged.refl

theorem Interferes.trans (h : Interferes file text b s s') (h' : Interferes file text b s' s'') :
  Interferes file text b s s''
  := by
  obtain ⟨more, hmore, hall⟩ := h.history
  obtain ⟨more', hmore', hall'⟩ := h'.history
  constructor
  · use more ++ more'
    constructor
    · rw [hmore', hmore, List.append_assoc]
    · intro entry hentry
      obtain hentry | hentry := List.mem_append.mp hentry
      · apply hall _ hentry
      · apply hall' _ hentry
  · exact h'.coherent ∘ h.coherent
  · rw [h'.holder, h.holder]
  · intro hheld
    obtain ⟨hfile, hbackup⟩ := h.unchanged hheld
    obtain ⟨hfile', hbackup'⟩ := h'.unchanged (h.holder.mpr hheld)
    use hfile.trans hfile'
    apply hbackup.trans hbackup'

/-- An event that says nothing about the backup of a file. -/
structure Event.IsNeutral (file : String) (event : Event) : Prop where
  made : event ≠ .made file
  removed : event ≠ .removed file
  filled : ∀ saved, event ≠ .filled file saved

theorem Event.IsNeutral.holder? (h : event.IsNeutral file) :
  (history ++ [(b, event)]).holder? file = history.holder? file
  := by
  rw [History.holder?_append_single, if_neg, if_neg]
  · rw [Event.isRemoved_iff]
    apply h.removed
  · rw [Event.isMade_iff]
    apply h.made

variable {d d' : Disk}

/-- A guard that was got earlier is the same after another event. -/
theorem Coherent.filled_of_append (h : Coherent file text (history, d))
    (hfilled : (c, .filled file saved) ∈ history) (more : History) :
  Acquired file ((history ++ more).of c) (.holding file saved)
    ∧ (history ++ more).Faithful file text saved
  := by
  obtain ⟨hacquired, hfaithful⟩ := h.filled c saved hfilled
  constructor
  · rw [History.of_append]
    apply hacquired.append
  · apply hfaithful.append

/-- An event that says nothing about the backup keeps a disk coherent, where it keeps what
the file and its backup hold. -/
theorem Coherent.neutral (h : Coherent file text (history, d)) (hneutral : event.IsNeutral file)
    (hfree : history.holder? file = none → ∀ current, Intact file current d →
      Intact file current d')
    (hheld : history.holder? file ≠ none → ∀ saved, BackedUp file saved d →
      BackedUp file saved d') :
  Coherent file text (history ++ [(b, event)], d')
  := by
  constructor
  · intro hholder
    rw [hneutral.holder?] at hholder
    obtain ⟨current, hintact, hfaithful⟩ := h.free hholder
    use current, hfree hholder current hintact
    apply hfaithful.append
  · intro hholder
    rw [hneutral.holder?] at hholder
    obtain ⟨saved, hbackedUp⟩ := h.held hholder
    exact ⟨saved, hheld hholder saved hbackedUp⟩
  · intro c saved hmem
    obtain hmem | hmem := List.mem_append.mp hmem
    · apply h.filled_of_append hmem
    · simp only [List.mem_singleton, Prod.mk.injEq] at hmem
      apply absurd hmem.2.symm (hneutral.filled saved)

/-- A request of one process is what the other one may meet with. -/
theorem Interferes.of_request
    (hcoherent : Coherent file text (history, d) → Coherent file text (history ++ [(b, event)], d'))
    (hholder : (history ++ [(b, event)]).holder? file = some (!b)
      ↔ history.holder? file = some (!b))
    (hunchanged : history.holder? file = some (!b) →
      Unchanged file d d' ∧ Unchanged (Backup.path file) d d') :
  Interferes file text (!b) (history, d) (history ++ [(b, event)], d')
  := by
  constructor
  · use [(b, event)]
    simp
  · apply hcoherent
  · apply hholder
  · apply hunchanged

/-- A request that changes neither the file nor its backup is one that the other process may
meet with. -/
theorem Interferes.of_unchanged (hneutral : event.IsNeutral file) (hfile : Unchanged file d d')
    (hbackup : Unchanged (Backup.path file) d d') :
  Interferes file text (!b) (history, d) (history ++ [(b, event)], d')
  := by
  apply Interferes.of_request
  · intro hcoherent
    apply hcoherent.neutral hneutral
    · intro _ current hintact
      apply hintact.of_unchanged hfile hbackup
    · intro _ saved hbackedUp
      apply hbackedUp.of_unchanged hfile hbackup
  · rw [hneutral.holder?]
  · intro _
    use hfile

/-- A request of the process that holds the file is one that the other process may meet with,
if it still holds the file, or has given it free. -/
theorem Interferes.of_holder (hholder : history.holder? file = some b)
    (hnext : (history ++ [(b, event)]).holder? file ≠ some (!b))
    (hcoherent : Coherent file text (history ++ [(b, event)], d')) :
  Interferes file text (!b) (history, d) (history ++ [(b, event)], d')
  := by
  apply Interferes.of_request
  · intro _
    apply hcoherent
  · simp [hholder, hnext]
  · simp [hholder]

/-! ### The stages of one process -/

/-- A process does not hold the file. -/
def Idle (file text : String) (b : Bool) (s : History × Disk) : Prop :=
  Coherent file text s ∧ s.1.holder? file ≠ some b

/-- A process has read a text while the file was not held, or the other process has not
removed the backup in the meantime, or it has. -/
def Fresh (file text : String) (b : Bool) (saved : String) (history : History) : Prop :=
  history.Faithful file text saved
    ∨ ((b, .read file saved) ∈ history ∧ history.holder? file ≠ none)
    ∨ List.Sublist [(b, .read file saved), (!b, .removed file)] history

theorem Fresh.of_interferes (h : Fresh file text b saved s.1) (hs : Interferes file text b s s') :
  Fresh file text b saved s'.1
  := by
  obtain ⟨more, hmore, hall⟩ := hs.history
  rw [hmore]
  obtain hfaithful | ⟨hread, hheld⟩ | hremoved := h
  · left
    apply hfaithful.append
  · right
    cases hholder : (s.1 ++ more).holder? file with
    | none =>
      right
      have hmem := History.removed_mem_of_holder? hall hheld hholder
      apply List.Sublist.append (List.singleton_sublist.mpr hread)
        (List.singleton_sublist.mpr hmem)
    | some c =>
      left
      use List.mem_append_left _ hread
      simp
  · right; right
    apply hremoved.trans (List.sublist_append_left s.1 more)

/-- A process has made the backup, and has not been overtaken but perhaps by a removal. -/
def Making (file text : String) (b : Bool) (saved : String) (s : History × Disk) : Prop :=
  Coherent file text s ∧ s.1.holder? file = some b ∧ [.read file saved, .made file] <:+ s.1.of b
    ∧ (s.1.Faithful file text saved
      ∨ List.Sublist [(b, .read file saved), (!b, .removed file), (b, .made file)] s.1)

/-- A process holds the file with a saved text. -/
def Holding (file text : String) (b : Bool) (saved : String) (s : History × Disk) : Prop :=
  Coherent file text s ∧ s.1.holder? file = some b ∧ s.1.Faithful file text saved

/-- The requests of a process stay the same while the other one makes requests. -/
theorem Interferes.of_eq (h : Interferes file text b s s') :
  s'.1.of b = s.1.of b
  := by
  obtain ⟨more, hmore, hall⟩ := h.history
  rw [hmore, History.of_append, History.of_eq_nil hall, List.append_nil]

theorem Idle.of_interferes (h : Idle file text b s) (hs : Interferes file text b s s') :
  Idle file text b s'
  := by
  obtain ⟨hcoherent, hholder⟩ := h
  use hs.coherent hcoherent
  rwa [Ne, hs.holder]

theorem Making.of_interferes (h : Making file text b saved s)
    (hs : Interferes file text b s s') :
  Making file text b saved s'
  := by
  obtain ⟨hcoherent, hholder, hmade, hfaithful⟩ := h
  use hs.coherent hcoherent, hs.holder.mpr hholder
  rw [hs.of_eq]
  use hmade
  obtain ⟨more, hmore, -⟩ := hs.history
  rw [hmore]
  apply hfaithful.imp
  · intro hfaithful
    apply hfaithful.append
  · intro hsublist
    apply hsublist.trans (List.sublist_append_left s.1 more)

theorem Holding.of_interferes (h : Holding file text b saved s)
    (hs : Interferes file text b s s') :
  Holding file text b saved s'
  := by
  obtain ⟨hcoherent, hholder, hfaithful⟩ := h
  use hs.coherent hcoherent, hs.holder.mpr hholder
  obtain ⟨more, hmore, -⟩ := hs.history
  rw [hmore]
  apply hfaithful.append

section

variable (hneutral : event.IsNeutral file) (hfile : Unchanged file d d')
  (hbackup : Unchanged (Backup.path file) d d')

include hneutral hfile hbackup

theorem Idle.of_unchanged (h : Idle file text b (history, d)) :
  Interferes file text (!b) (history, d) (history ++ [(b, event)], d')
    ∧ Idle file text b (history ++ [(b, event)], d')
  := by
  have hstep : Interferes file text (!b) (history, d) (history ++ [(b, event)], d') :=
    .of_unchanged hneutral hfile hbackup
  use hstep, hstep.coherent h.1
  rw [hneutral.holder?]
  apply h.2

theorem Holding.of_unchanged (h : Holding file text b saved (history, d)) :
  Interferes file text (!b) (history, d) (history ++ [(b, event)], d')
    ∧ Holding file text b saved (history ++ [(b, event)], d')
  := by
  have hstep : Interferes file text (!b) (history, d) (history ++ [(b, event)], d') :=
    .of_unchanged hneutral hfile hbackup
  use hstep, hstep.coherent h.1
  rw [hneutral.holder?]
  use h.2.1
  apply h.2.2.append

end

/-! ### Requests about the file and its backup -/

/-- A backup can be made where no process holds the file. -/
theorem Coherent.made (h : Coherent file text (history, d))
    (hcreate : d.perform (.create (Backup.path file)) = (.ok (), d')) :
  history.holder? file = none ∧ Coherent file text (history ++ [(b, .made file)], d')
  := by
  have habsent := isPresent_of_create (Yields.create_ok (.inl hcreate))
  have hholder : history.holder? file = none := by
    by_contra hne
    obtain ⟨saved, hbackedUp⟩ := h.held hne
    rw [isPresent_of_readContent (readText_ok_iff.mp hbackedUp.backup)] at habsent
    cases habsent
  obtain ⟨current, hintact, -⟩ := h.free hholder
  use hholder
  constructor
  · simp [History.holder?_append_single, Event.isMade]
  · intro _
    exact ⟨"", (hintact.create hcreate).2⟩
  · intro c saved hmem
    apply h.filled_of_append
    simpa using hmem

/-- What a process reads while it does not hold the file is fresh. -/
theorem Idle.read (h : Idle file text b (history, d)) (hread : d.readText file = .ok saved) :
  Fresh file text b saved (history ++ [(b, .read file saved)])
  := by
  have hneutral : Event.IsNeutral file (.read file saved) := ⟨by simp, by simp, by simp⟩
  cases hholder : history.holder? file with
  | none =>
    left
    obtain ⟨current, hintact, hfaithful⟩ := h.1.free hholder
    obtain rfl := Except.ok.inj (hintact.content.symm.trans hread)
    apply hfaithful.append
  | some c =>
    right; left
    rw [hneutral.holder?, hholder]
    simp

/-- A process that makes the backup of a file that it has read holds it from then on. -/
theorem Idle.made (h : Idle file text b (history, d))
    (hread : [.read file saved] <:+ history.of b) (hfresh : Fresh file text b saved history)
    (hcreate : d.perform (.create (Backup.path file)) = (.ok (), d')) :
  Interferes file text (!b) (history, d) (history ++ [(b, .made file)], d')
    ∧ Making file text b saved (history ++ [(b, .made file)], d')
  := by
  obtain ⟨hfree, hcoherent⟩ := h.1.made (b := b) hcreate
  have hholder : (history ++ [(b, Event.made file)]).holder? file = some b := by
    simp [History.holder?_append_single, Event.isMade]
  constructor
  · apply Interferes.of_request
    · intro _
      apply hcoherent
    · simp [hholder, hfree]
    · simp [hfree]
  · use hcoherent, hholder
    constructor
    · rw [History.of_append, History.of_single_same]
      obtain ⟨before, hbefore⟩ := hread
      use before
      rw [← hbefore, List.append_assoc]
      rfl
    · obtain hfaithful | ⟨-, hheld⟩ | hremoved := hfresh
      · left
        apply hfaithful.append
      · contradiction
      · right
        apply hremoved.append (List.Sublist.refl [(b, Event.made file)])

/-- A process gets its guard when it has filled the backup. -/
theorem Making.fill {a : Except FileError Unit} (h : Making file text b saved (history, d))
    (hfill : d.perform (.fill (Backup.path file) saved) = (a, d')) :
  a = .ok () ∧ Interferes file text (!b) (history, d) (history ++ [(b, .filled file saved)], d')
    ∧ Holding file text b saved (history ++ [(b, .filled file saved)], d')
  := by
  obtain ⟨hcoherent, hholder, hmade, hfaithful⟩ := h
  obtain ⟨other, hbackedUp⟩ := hcoherent.held (by simp [hholder])
  obtain ⟨rfl, hbackedUp⟩ := hbackedUp.fill hfill
  have hsame : (history ++ [(b, Event.filled file saved)]).holder? file = some b := by
    rw [History.holder?_append_single, hholder]
    simp [Event.isMade, Event.isRemoved]
  have hfaithful : (history ++ [(b, Event.filled file saved)]).Faithful file text saved := by
    obtain hfaithful | hsublist := hfaithful
    · apply hfaithful.append
    · apply or_iff_not_imp_left.mpr
      intro hne
      use b, saved, hne
      apply hsublist.append (List.Sublist.refl [(b, Event.filled file saved)])
  have hcoherent : Coherent file text (history ++ [(b, .filled file saved)], d') := by
    constructor
    · simp [hsame]
    · intro _
      exact ⟨saved, hbackedUp⟩
    · intro c saved' hmem
      obtain hmem | hmem := List.mem_append.mp hmem
      · apply hcoherent.filled_of_append hmem
      · simp only [List.mem_singleton, Prod.mk.injEq, Sigma.mk.injEq, Request.file.injEq,
          FileOperation.fill.injEq, true_and] at hmem
        obtain ⟨rfl, rfl, -⟩ := hmem
        constructor
        · apply acquired_iff.mpr
          obtain ⟨before, hbefore⟩ := hmade
          simp only [History.of_append, History.of_single_same, ← hbefore]
          use saved', rfl, before, []
          simp
        · apply hfaithful
  use rfl
  constructor
  · apply Interferes.of_holder hholder _ hcoherent
    simp [hsame]
  · use hcoherent, hsame

/-- The process that holds the file can write it. -/
theorem Holding.write {a : Except FileError Unit} {current : String}
    (h : Holding file text b saved (history, d))
    (hwrite : d.perform (.write file current) = (a, d')) :
  a = .ok () ∧ d'.readText file = .ok current
    ∧ Interferes file text (!b) (history, d) (history ++ [(b, ⟨.file (.write file current), a⟩)], d')
    ∧ Holding file text b saved (history ++ [(b, ⟨.file (.write file current), a⟩)], d')
  := by
  obtain ⟨hcoherent, hholder, hfaithful⟩ := h
  obtain ⟨other, hbackedUp⟩ := hcoherent.held (by simp [hholder])
  obtain ⟨rfl, htext, -⟩ := hbackedUp.write hwrite
  have hneutral : Event.IsNeutral file ⟨.file (.write file current), .ok ()⟩ :=
    ⟨by simp, by simp, by simp⟩
  have hcoherent : Coherent file text
      (history ++ [(b, ⟨.file (.write file current), .ok ()⟩)], d') := by
    apply hcoherent.neutral hneutral
    · simp [hholder]
    · intro _ other hbackedUp
      apply (hbackedUp.write hwrite).2.2
  use rfl, htext
  constructor
  · apply Interferes.of_holder hholder _ hcoherent
    simp [hneutral.holder?, hholder]
  · use hcoherent, hneutral.holder?.trans hholder
    apply hfaithful.append

/-- The process that holds the file gives it free when the text is back. -/
theorem Holding.remove {a : Except FileError Unit} (h : Holding file text b saved (history, d))
    (htext : d.readText file = .ok saved)
    (hremove : d.perform (.remove (Backup.path file)) = (a, d')) :
  a = .ok () ∧ Interferes file text (!b) (history, d) (history ++ [(b, .removed file)], d')
    ∧ Idle file text b (history ++ [(b, .removed file)], d')
  := by
  obtain ⟨hcoherent, hholder, hfaithful⟩ := h
  obtain ⟨other, hbackedUp⟩ := hcoherent.held (by simp [hholder])
  obtain ⟨rfl, hintact⟩ := hbackedUp.remove htext hremove
  have hfree : (history ++ [(b, Event.removed file)]).holder? file = none := by
    simp [History.holder?_append_single, Event.isMade, Event.isRemoved]
  have hcoherent : Coherent file text (history ++ [(b, .removed file)], d') := by
    constructor
    · intro _
      exact ⟨saved, hintact, hfaithful.append _⟩
    · simp [hfree]
    · intro c saved' hmem
      apply hcoherent.filled_of_append
      simpa using hmem
  use rfl
  constructor
  · apply Interferes.of_holder hholder _ hcoherent
    simp [hfree]
  · use hcoherent
    simp [hfree]

/-- Removing compiled code is nothing to the file and its backup. -/
theorem Idle.removeCompiled {path : String} {a : Except FileError Unit}
    (h : Idle file text b (history, d)) (hcompiled : Backup.IsCompiled file path)
    (hremove : d.perform (.remove path) = (a, d')) :
  Interferes file text (!b) (history, d) (history ++ [(b, ⟨.file (.remove path), a⟩)], d')
    ∧ Idle file text b (history ++ [(b, ⟨.file (.remove path), a⟩)], d')
  := by
  obtain ⟨name, hname⟩ : ∃ name, EndsIn file name := by
    cases hholder : history.holder? file with
    | none =>
      obtain ⟨current, hintact, -⟩ := h.1.free hholder
      apply Backup.exists_endsIn (readText_ok_iff.mp hintact.content)
    | some c =>
      obtain ⟨saved, hbackedUp⟩ := h.1.held (by simp [hholder])
      obtain ⟨content, hcontent⟩ := hbackedUp.content
      apply Backup.exists_endsIn hcontent
  obtain ⟨hfile, hbackup⟩ := hcompiled.unchanged hname (Yields.touched (.inl hremove) rfl)
  have hne : path ≠ Backup.path file := by
    rintro rfl
    apply hcompiled.place_ne_path hname d.home rfl
  apply h.of_unchanged _ hfile hbackup
  constructor
  · simp
  · simp [hne]
  · simp

/-! ### Both processes -/

/-- The stages of a cycle of one process beside another one. -/
def exclusionOutline (file text : String) (b : Bool) :
    Outline ((World.sparing [file, Backup.path file]).noted b) (Interferes file text b)
      (fun s _ s' => Interferes file text (!b) s s') file where
  Free := Idle file text b
  Read saved s := Idle file text b s ∧ [.read file saved] <:+ s.1.of b
    ∧ Fresh file text b saved s.1
  Made := Making file text b
  Held := Holding file text b
  Back saved s := Holding file text b saved s ∧ s.2.readText file = .ok saved
  rely_refl := Interferes.refl file text b
  free_stable hs h := h.of_interferes hs
  read_stable := by
    rintro s s' saved hs ⟨hidle, hread, hfresh⟩
    rw [hs.of_eq]
    use hidle.of_interferes hs, hread
    apply hfresh.of_interferes hs
  made_stable hs h := h.of_interferes hs
  held_stable hs h := h.of_interferes hs
  back_stable := by
    rintro s s' saved hs ⟨hholding, hback⟩
    use hholding.of_interferes hs
    apply (hs.unchanged hholding.2.1).1.readText_iff.mpr hback
  clock := by
    rintro ⟨history, d⟩ _ a hidle ⟨_, rfl, rfl⟩
    apply hidle.of_unchanged ⟨by simp, by simp, by simp⟩ (.refl _ _) (.refl _ _)
  read := by
    rintro ⟨history, d⟩ _ a hidle ⟨d', hread, rfl⟩
    obtain ⟨rfl, hsaved⟩ := Yields.readText (.inl hread)
    have hneutral : Event.IsNeutral file ⟨.file (.readText file), a⟩ :=
      ⟨by simp, by simp, by simp⟩
    obtain ⟨hstep, hidle'⟩ := hidle.of_unchanged hneutral (.refl _ _) (.refl _ _)
    use hstep, hidle'
    rintro saved rfl
    use hidle'
    constructor
    · rw [History.of_append, History.of_single_same]
      apply List.suffix_append
    · apply hidle.read (hsaved saved rfl)
  create := by
    rintro ⟨history, d⟩ _ saved a ⟨hidle, hread, hfresh⟩ ⟨d', hcreate, rfl⟩
    cases a with
    | error e =>
      obtain rfl := Yields.create_error (.inl hcreate)
      have hneutral : Event.IsNeutral file ⟨.file (.create (Backup.path file)), .error e⟩ :=
        ⟨by simp, by simp, by simp⟩
      obtain ⟨hstep, hidle⟩ := hidle.of_unchanged hneutral (.refl _ _) (.refl _ _)
      simp [hstep, hidle]
    | ok =>
      obtain ⟨hstep, hmaking⟩ := hidle.made hread hfresh hcreate
      simp [hstep, hmaking]
  fill := by
    rintro ⟨history, d⟩ _ saved a hmaking ⟨d', hfill, rfl⟩
    obtain ⟨rfl, hstep, hholding⟩ := hmaking.fill hfill
    use rfl, hstep
  write := by
    rintro ⟨history, d⟩ _ saved current a hholding ⟨d', hwrite, rfl⟩
    obtain ⟨rfl, htext, hstep, hholding⟩ := hholding.write hwrite
    use rfl, hstep, hholding
    rintro rfl
    use hholding
  consult := by
    rintro ⟨history, d⟩ _ saved scope limit a hholding ⟨d', hconsult, rfl⟩
    apply hholding.of_unchanged ⟨by simp, by simp, by simp⟩ (hconsult _ (by simp))
      (hconsult _ (by simp))
  reread := by
    rintro ⟨history, d⟩ _ saved a hholding ⟨d', hread, rfl⟩
    obtain ⟨rfl, hsaved⟩ := Yields.readText (.inl hread)
    have hneutral : Event.IsNeutral file ⟨.file (.readText file), a⟩ :=
      ⟨by simp, by simp, by simp⟩
    obtain ⟨hstep, hholding⟩ := hholding.of_unchanged hneutral (.refl _ _) (.refl _ _)
    use hstep, hholding
    intro ha
    use hholding
    apply hsaved saved ha
  remove := by
    rintro ⟨history, d⟩ _ saved a ⟨hholding, hback⟩ ⟨d', hremove, rfl⟩
    obtain ⟨rfl, hstep, hidle⟩ := hholding.remove hback hremove
    use rfl, hstep
  list := by
    rintro ⟨history, d⟩ _ cache a hidle ⟨d', hlist, rfl⟩
    obtain rfl := Yields.list (.inl hlist)
    apply hidle.of_unchanged ⟨by simp, by simp, by simp⟩ (.refl _ _) (.refl _ _)
  removeCompiled := by
    rintro ⟨history, d⟩ _ path a hcompiled hidle ⟨d', hremove, rfl⟩
    apply hidle.removeCompiled hcompiled hremove

/-- Every guard has saved the text of the file, and when both processes have ended, the file
holds it and has no backup. -/
structure Exclusive (file text : String) (history : History) (q : Bool → Procedure CycleRun)
    (d : Disk) : Prop where
  saved : ∀ b g, Acquired file (history.of b) g → g.saved = text
  finished : (∀ b, ∃ run, q b = done run) → Intact file text d

namespace Cycle

/-- However the requests of two cycles on one file are interleaved, each process owns the file
while it has a guard, unless one of them is overtaken. -/
theorem exclusive_iff (parser : Bool → Parser) (m : Bool → Mutation)
    (options : Bool → CycleOptions) {q : Bool → Procedure CycleRun}
    (hm : ∀ b, (m b).file = file) (htext : d.readText file = .ok text)
    (habsent : d.isPresent (Backup.path file) = false)
    (h : Interleaves (World.sparing [file, Backup.path file])
      (fun b => Cycle.run (parser b) (m b) (options b)) d history q d') :
  Exclusive file text history q d' ↔ ¬history.Overtaken file text
  := by
  have hcoherent : Coherent file text ([], d) := by
    constructor
    · intro _
      exact ⟨text, ⟨htext, habsent⟩, .inl rfl⟩
    · simp [History.holder?]
    · simp
  have hensures : ∀ b, Ensures _ _ _ _ (Cycle.run (parser b) (m b) (options b)) ([], d) :=
    fun b => (exclusionOutline file text b).ensures_run (hm b)
      ⟨hcoherent, by simp [History.holder?]⟩
  obtain ⟨hensures, hcoherent⟩ := h.sound (Interferes file text) (Interferes.refl file text)
    (fun _ _ _ _ => Interferes.trans) (fun _ _ _ _ h => h) (fun _ _ _ _ h => h.coherent)
    hensures hcoherent
  constructor
  · rintro hexclusive ⟨b, other, hne, hsublist⟩
    apply hne
    apply hexclusive.saved b (.holding file other)
    apply (hcoherent.filled b other _).1
    apply hsublist.subset
    simp
  · intro hnot
    constructor
    · intro b g hg
      obtain ⟨saved, rfl, hinfix⟩ := acquired_iff.mp hg
      have hfilled : Event.filled file saved ∈ history.of b := by
        apply hinfix.subset
        simp
      obtain ⟨-, hfaithful⟩ := hcoherent.filled b saved (History.mem_of_iff.mp hfilled)
      apply hfaithful.resolve_right hnot
    · intro hdone
      have hidle : ∀ b, Idle file text b (history, d') := by
        intro b
        obtain ⟨run, hrun⟩ := hdone b
        have hpost := hensures b
        rw [hrun] at hpost
        apply hpost _ (Interferes.refl _ _ _ _)
      have hfree : history.holder? file = none := by
        cases hholder : history.holder? file with
        | none => rfl
        | some b => apply absurd hholder (hidle b).2
      obtain ⟨current, hintact, hfaithful⟩ := hcoherent.free hfree
      obtain rfl := hfaithful.resolve_right hnot
      apply hintact

/-- One process writes a mutant, which the other one then reads. When the first one is through,
the second one goes on. -/
def overtaking : List Bool :=
  List.replicate 5 false ++ List.replicate 2 true ++ List.replicate 5 false
    ++ List.replicate 6 true

/-- Two processes that make the same mutation in a file with one character. -/
def twins : Bool → Procedure CycleRun := fun _ =>
  Cycle.run Parser.single (.atStart "a.go" "<" ">") .plain

/-- In that order both processes end, and the file holds the mutant. -/
theorem twins_overtaking :
  let r := schedule Disk.serve overtaking twins (.single "a.go" "<")
  (∀ b, ∃ run, r.2.1 b = done run) ∧ r.2.2.readText "a.go" = .ok ">"
  := by
  intro r
  have hdone : ∀ b, (r.2.1 b).value?.isSome := by decide +kernel
  constructor
  · intro b
    obtain ⟨run, hrun⟩ := Option.isSome_iff_exists.mp (hdone b)
    use run
    apply value?_eq_some_iff.mp hrun
  · decide +kernel

/-- In that order a process is overtaken. -/
theorem overtaken_twins :
  History.Overtaken "a.go" "<" (schedule Disk.serve overtaking twins (.single "a.go" "<")).1
  := by
  obtain ⟨hdone, htext⟩ := twins_overtaking
  have hinterleaves := interleaves_schedule Disk.serve
    (World.sparing_of_serve ["a.go", Backup.path "a.go"]) overtaking twins (.single "a.go" "<")
  have hbefore : (Disk.single "a.go" "<").readText "a.go" = .ok "<" := by decide +kernel
  have habsent : (Disk.single "a.go" "<").isPresent (Backup.path "a.go") = false := by
    decide +kernel
  by_contra hnot
  have hexclusive := (exclusive_iff (fun _ => Parser.single) (fun _ => .atStart "a.go" "<" ">")
    (fun _ => .plain) (fun _ => rfl) hbefore habsent hinterleaves).mpr hnot
  have hsame := htext.symm.trans (hexclusive.finished hdone).content
  simp at hsame

/-- Two cycles on one file can end with a mutant in the file. -/
theorem not_exclusive :
  ¬∀ (parser : Bool → Parser) (m : Bool → Mutation) (options : Bool → CycleOptions)
    (file text : String) (d d' : Disk) (history : History) (q : Bool → Procedure CycleRun),
    (∀ b, (m b).file = file) → d.readText file = .ok text →
    d.isPresent (Backup.path file) = false →
    Interleaves (World.sparing [file, Backup.path file])
      (fun b => Cycle.run (parser b) (m b) (options b)) d history q d' →
    Exclusive file text history q d'
  := by
  intro h
  obtain ⟨hdone, htext⟩ := twins_overtaking
  have hinterleaves := interleaves_schedule Disk.serve
    (World.sparing_of_serve ["a.go", Backup.path "a.go"]) overtaking twins (.single "a.go" "<")
  have hexclusive := h (fun _ => Parser.single) (fun _ => .atStart "a.go" "<" ">")
    (fun _ => .plain) "a.go" "<" _ _ _ _ (fun _ => rfl) (by decide +kernel) (by decide +kernel)
    hinterleaves
  have hsame := htext.symm.trans (hexclusive.finished hdone).content
  simp at hsame

end Cycle

end MutationTesting
