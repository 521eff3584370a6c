import Mathlib.Tactic.Common
import MutationTesting.Backup

/-!
# The names in a path

`Path.parts` are the texts between the slashes of a path, and `Disk.names` are those that
are not empty. Joining a path to a name appends that name. The last name of a path, unless
it is `.` or `..`, is the file name of the path, and the last name of the backup of a file
is longer than that of the file.
-/

namespace MutationTesting

namespace Path

/-- A character put in front of the first of several texts. -/
def consHead (c : Char) : List (List Char) → List (List Char)
  | [] => [[c]]
  | part :: parts => (c :: part) :: parts

/-- The texts between the slashes of a path. -/
def parts : List Char → List (List Char)
  | [] => [[]]
  | c :: cs => if c = '/' then [] :: parts cs else consHead c (parts cs)

theorem parts_ne_nil (cs : List Char) :
  parts cs ≠ []
  := by
  cases cs with
  | nil => simp [parts]
  | cons c cs =>
    simp only [parts]
    split
    · simp
    · cases parts cs <;> simp [consHead]

theorem consHead_append {parts : List (List Char)} (h : parts ≠ []) (c : Char)
    (more : List (List Char)) :
  consHead c (parts ++ more) = consHead c parts ++ more
  := by
  cases parts with
  | nil => contradiction
  | cons part parts => rfl

/-- A slash parts a path. -/
theorem parts_append_slash (xs ys : List Char) :
  parts (xs ++ '/' :: ys) = parts xs ++ parts ys
  := by
  induction xs with
  | nil => simp [parts]
  | cons x xs ih =>
    simp only [List.cons_append, parts, ih]
    split
    · rfl
    · apply consHead_append (parts_ne_nil xs)

/-- A text without a slash is its own only part. -/
theorem parts_of_not_mem {cs : List Char} (h : '/' ∉ cs) :
  parts cs = [cs]
  := by
  induction cs with
  | nil => rfl
  | cons c cs ih =>
    rw [List.mem_cons, not_or] at h
    obtain ⟨hc, hcs⟩ := h
    rw [parts, if_neg (Ne.symm hc), ih hcs, consHead]

/-- No part has a slash. -/
theorem slash_not_mem_of_mem_parts {cs part : List Char} (h : part ∈ parts cs) :
  '/' ∉ part
  := by
  induction cs generalizing part with
  | nil => simp_all [parts]
  | cons c cs ih =>
    simp only [parts] at h
    split at h
    · obtain rfl | h := List.mem_cons.mp h
      · simp
      · apply ih h
    · next hc =>
      cases hp : parts cs with
      | nil => apply absurd hp (parts_ne_nil cs)
      | cons first rest =>
        rw [hp, consHead] at h
        obtain rfl | h := List.mem_cons.mp h
        · have hfirst : '/' ∉ first := ih (by simp [hp])
          rw [List.mem_cons, not_or]
          use Ne.symm hc
        · apply ih
          simp [hp, h]

/-- The last part of a text that ends with a text without a slash ends with it. -/
theorem isSuffix_of_getLast?_parts {tail : List Char} (htail : '/' ∉ tail) (cs : List Char) :
  ∃ last, (parts (cs ++ tail)).getLast? = some last ∧ tail <:+ last
  := by
  induction cs with
  | nil =>
    use tail
    rw [List.nil_append, parts_of_not_mem htail]
    exact ⟨rfl, List.suffix_rfl⟩
  | cons c cs ih =>
    obtain ⟨last, hlast, hsuffix⟩ := ih
    simp only [List.cons_append, parts]
    cases hp : parts (cs ++ tail) with
    | nil => apply absurd hp (parts_ne_nil _)
    | cons first rest =>
      rw [hp] at hlast
      split
      · use last
        rw [List.getLast?_cons_cons]
        use hlast
      · cases rest with
        | nil =>
          obtain rfl : first = last := by simpa using hlast
          use c :: first
          use rfl
          apply List.IsSuffix.trans hsuffix (List.suffix_cons c first)
        | cons second rest =>
          use last
          rw [consHead, List.getLast?_cons_cons]
          rw [List.getLast?_cons_cons] at hlast
          use hlast

/-! ### Segments -/

/-- Texts in a row with a character between any two, each with where it ends. -/
def placed : Nat → List (List Char) → List (List Char × Nat)
  | _, [] => []
  | n, part :: parts => (part, n + part.length) :: placed (n + part.length + 1) parts

theorem map_fst_placed (n : Nat) (parts : List (List Char)) :
  (placed n parts).map (·.1) = parts
  := by
  induction parts generalizing n with
  | nil => rfl
  | cons part parts ih => simp [placed, ih]

/-- The segments of a path are its parts, each with where it ends. -/
theorem segments_eq (cs : List Char) :
  segments cs = placed 0 (parts cs)
  := by
  have hplace : ∀ (list : List (List Char)) (acc : List (List Char × Nat) × Nat),
      (list.foldl (fun (acc : List (List Char × Nat) × Nat) part =>
        ((part, acc.2 + part.length) :: acc.1, acc.2 + part.length + 1)) acc).1.reverse
        = acc.1.reverse ++ placed acc.2 list := by
    intro list
    induction list with
    | nil => simp [placed]
    | cons part list ih =>
      intro acc
      rw [List.foldl_cons, ih]
      simp [placed]
  have hparts : ∀ cs : List Char, cs.foldr (fun c acc => match acc with
      | [] => [[c]]
      | s :: rest => if c = '/' then [] :: s :: rest else (c :: s) :: rest) [[]] = parts cs := by
    intro cs
    induction cs with
    | nil => rfl
    | cons c cs ih =>
      rw [List.foldr_cons, ih, parts]
      cases hp : parts cs with
      | nil => apply absurd hp (parts_ne_nil cs)
      | cons first rest => rfl
  rw [segments, hplace, ← hparts cs]
  rfl

theorem map_fst_segments (cs : List Char) :
  (segments cs).map (·.1) = parts cs
  := by
  rw [segments_eq, map_fst_placed]

/-! ### The last name of a path -/

/-- The names of a path are its parts that are not empty. -/
theorem names_eq (path : String) :
  Disk.names path = ((parts path.toList).filter (!·.isEmpty)).map String.ofList
  := by
  have hempty : (fun cs : List Char => !(String.ofList cs).isEmpty) = (!·.isEmpty) := by
    funext cs
    rw [Bool.eq_iff_iff]
    simp [String.isEmpty_eq_false_iff, ← String.toList_inj]
  rw [Disk.names, ← map_fst_segments, ← hempty, List.filter_map, List.filter_map, List.map_map]
  rfl

theorem isAbsolute_of_not_mem {name : String} (hslash : '/' ∉ name.toList) :
  isAbsolute name = false
  := by
  rw [isAbsolute]
  cases hcs : name.toList with
  | nil => rfl
  | cons c cs =>
    rw [hcs, List.mem_cons, not_or] at hslash
    simpa using Ne.symm hslash.1

/-- A path that is joined to a name starts where it has started. -/
theorem isAbsolute_join {name : String} (hslash : '/' ∉ name.toList) (base : String) :
  isAbsolute (join base name) = isAbsolute base
  := by
  have hhead : ∀ {more : String}, base ≠ "" → isAbsolute (base ++ more) = isAbsolute base := by
    intro more hbase
    obtain ⟨c, cs, hcs⟩ := List.exists_cons_of_ne_nil (String.toList_eq_nil_iff.not.mpr hbase)
    rw [isAbsolute, isAbsolute, String.toList_append, hcs]
    rfl
  rw [join, isAbsolute_of_not_mem hslash]
  split
  · next h =>
    obtain rfl : base = "" := by simpa using h
    rw [isAbsolute_of_not_mem hslash]
    rfl
  · next h =>
    have hbase : base ≠ "" := by simpa using h
    split
    · apply hhead hbase
    · rw [String.append_assoc]
      apply hhead hbase

/-- Joining a path to a name appends the name. -/
theorem names_join {name : String} (hname : name ≠ "") (hslash : '/' ∉ name.toList)
    (base : String) :
  Disk.names (join base name) = Disk.names base ++ [name]
  := by
  have hparts := parts_of_not_mem hslash
  have hlast : (([name.toList] : List (List Char)).filter (!·.isEmpty)).map String.ofList
      = [name] := by
    simp [hname]
  rw [join, isAbsolute_of_not_mem hslash]
  split
  · next h =>
    obtain rfl : base = "" := by simpa using h
    simp only [names_eq, hparts, hlast]
    rfl
  · split
    · next h =>
      -- a base that ends in a slash has an empty last part, which is no name
      obtain ⟨front, hfront⟩ := List.getLast?_eq_some_iff.mp (by simpa using h)
      simp only [names_eq, String.toList_append, hfront, List.append_assoc,
        List.singleton_append, parts_append_slash, hparts, List.filter_append, List.map_append,
        hlast]
      simp [parts]
    · have happend : (base ++ "/" ++ name).toList = base.toList ++ '/' :: name.toList := by
        simp
      simp only [names_eq, happend, parts_append_slash, hparts, List.filter_append,
        List.map_append, hlast]

/-- No name has a slash. -/
theorem slash_not_mem_of_mem_names {path name : String} (h : name ∈ Disk.names path) :
  '/' ∉ name.toList
  := by
  rw [names_eq] at h
  obtain ⟨part, hpart, rfl⟩ := List.mem_map.mp h
  rw [String.toList_ofList]
  apply slash_not_mem_of_mem_parts (List.mem_filter.mp hpart).1

/-- The last name of a path is one of its segments, and those behind it are empty. -/
theorem exists_last_segment {path name : String}
    (h : (Disk.names path).getLast? = some name) :
  ∃ before stop after, segments path.toList = before ++ (name.toList, stop) :: after
    ∧ ∀ s ∈ after, s.1 = []
  := by
  obtain ⟨front, hfront⟩ := List.getLast?_eq_some_iff.mp h
  rw [names_eq] at hfront
  obtain ⟨_, _, hfilter, -, hlast⟩ := List.map_eq_append_iff.mp hfront
  obtain ⟨part, _, rfl, rfl, hnil⟩ := List.map_eq_cons_iff.mp hlast
  obtain rfl := List.map_eq_nil_iff.mp hnil
  obtain ⟨before, _, hbefore, -, hfilter⟩ := List.filter_eq_append_iff.mp hfilter
  obtain ⟨skipped, _, rfl, -, -, hafter⟩ := List.filter_eq_cons_iff.mp hfilter
  rw [← map_fst_segments, ← List.append_assoc] at hbefore
  obtain ⟨s₁, _, hsegments, -, hs⟩ := List.map_eq_append_iff.mp hbefore
  obtain ⟨⟨part, stop⟩, s₂, rfl, rfl, rfl⟩ := List.map_eq_cons_iff.mp hs
  use s₁, stop, s₂
  rw [String.toList_ofList]
  use hsegments
  intro s hs
  simpa using List.filter_eq_nil_iff.mp hafter s.1 (List.mem_map_of_mem hs)

theorem ne_empty_of_mem_names {path name : String} (h : name ∈ Disk.names path) :
  name ≠ ""
  := by
  rintro rfl
  have hne := (List.mem_filter.mp h).2
  simp at hne

/-- The last name of a path is its file name, unless it leads to a directory. -/
theorem fileName?_of_getLast?_names {path name : String}
    (h : (Disk.names path).getLast? = some name) (hdot : name ≠ ".") (hdots : name ≠ "..") :
  fileName? path = some name
  := by
  obtain ⟨s₁, stop, s₂, hsegments, hempty⟩ := exists_last_segment h
  -- what follows the last name are empty parts, which take no step
  have hnone : ∀ (f : (List Char × Nat) × Nat → Option (Component × Nat)) k,
      (∀ stop i, f (([], stop), i) = none) → (s₂.zipIdx k).filterMap f = [] := by
    intro f k hf
    apply List.filterMap_eq_nil_iff.mpr
    rintro ⟨⟨part, stop⟩, i⟩ hs
    obtain rfl := hempty _ (List.fst_mem_of_mem_zipIdx hs)
    apply hf
  have hpart : name.toList ≠ [] := by
    simpa using ne_empty_of_mem_names (List.mem_of_getLast? h)
  have hdot : name.toList ≠ ['.'] := by
    intro heq
    apply hdot (String.toList_inj.mp heq)
  have hdots : name.toList ≠ ['.', '.'] := by
    intro heq
    apply hdots (String.toList_inj.mp heq)
  have hlast : ∀ (rooted : Bool) (body : List (Component × Nat)) (c : Component × Nat),
      ((if rooted then (.root, 1) :: (body ++ [c]) else body ++ [c]).map (·.1)).getLast?
        = some c.1 := by
    intro rooted body c
    cases rooted <;> simp [List.getLast?_cons]
  rw [fileName?, components, placedComponents, hsegments, List.zipIdx_append,
    List.filterMap_append, List.zipIdx_cons, List.filterMap_cons, hnone _ _ (by simp)]
  simp only [List.isEmpty_iff, hpart, hdot, hdots, if_false, hlast, String.ofList_toList]

/-- The last name of a path that ends with a text without a slash ends with it. -/
theorem isSuffix_of_getLast?_names {tail : List Char} (hne : tail ≠ []) (hslash : '/' ∉ tail)
    {path : String} (h : tail <:+ path.toList) :
  ∃ last, (Disk.names path).getLast? = some last ∧ tail <:+ last.toList
  := by
  obtain ⟨front, hfront⟩ := h
  obtain ⟨last, hlast, hsuffix⟩ := isSuffix_of_getLast?_parts hslash front
  obtain ⟨parts, hparts⟩ := List.getLast?_eq_some_iff.mp hlast
  have hlast : last ≠ [] := List.IsSuffix.ne_nil hsuffix hne
  use String.ofList last
  rw [names_eq, ← hfront, hparts, List.filter_append, List.filter_cons_of_pos (by simpa)]
  simp [hsuffix]

/-- A path that leads on along another one ends with it. -/
theorem suffix_join (base path : String) :
  path.toList <:+ (join base path).toList
  := by
  rw [join]
  split
  · apply List.suffix_rfl
  · split
    · rw [String.toList_append]
      apply List.suffix_append
    · rw [String.toList_append]
      apply List.suffix_append

end Path

theorem Text.suffix_of_endsWith {tail cs : List Char} (h : Text.endsWith tail cs = true) :
  tail <:+ cs
  := by
  obtain ⟨rest, h⟩ := Option.isSome_iff_exists.mp h
  rw [← List.reverse_prefix, Text.afterStart?_eq_some_iff.mp h]
  apply List.prefix_append

namespace Backup

/-- The last name of the backup of a file. -/
def name (file : String) : String := "." ++ file ++ ".mutscore.bak"

/-- The name of a backup is too long to be one of the names that stand for steps. -/
theorem name_ne_of_length_le {file short : String} (h : short.length ≤ 2) :
  name file ≠ short
  := by
  rintro rfl
  rw [name, String.length_append] at h
  have hsuffix : ".mutscore.bak".length = 13 := rfl
  omega

/-- A backup has a longer name than its file. -/
theorem name_ne_self (file : String) :
  name file ≠ file
  := by
  intro heq
  have hlength := congrArg String.length heq
  rw [name, String.length_append, String.length_append] at hlength
  have hdot : ".".length = 1 := rfl
  omega

theorem name_injective {file other : String} (h : name file = name other) :
  file = other
  := by
  rw [← String.toList_inj] at h
  simp only [name, String.toList_append, List.append_left_inj, List.append_right_inj] at h
  apply String.toList_inj.mp h

/-- The backup of a file has its own name as its last. -/
theorem getLast?_names_path {file name : String}
    (h : (Disk.names file).getLast? = some name) (hdot : name ≠ ".") (hdots : name ≠ "..") :
  (Disk.names (path file)).getLast? = some (Backup.name name)
  := by
  have hname := Path.fileName?_of_getLast?_names h hdot hdots
  have hslash := Path.slash_not_mem_of_mem_names (List.mem_of_getLast? h)
  have hplain : '/' ∉ (Backup.name name).toList := by
    simpa [Backup.name] using hslash
  rw [path, Path.withFileName, hname]
  apply Eq.trans (congrArg List.getLast? (Path.names_join _ hplain _))
  · simp [Backup.name]
  · simp [Backup.name, ← String.toList_inj]

end Backup

end MutationTesting
