import MutationTesting.Proofs.Path.Names

/-!
# The path without its last step

The names of the parent of a path are the first ones of the path. Where the path ends in a
file name, nothing but steps to `.` comes between them and that name.
-/

namespace MutationTesting.Path

variable {cs part : List Char} {before after : List (List Char)}

/-! ### The start of a path -/

/-- A text up to the end of one of its parts has the parts up to that one. -/
theorem exists_prefix_of_parts (h : parts cs = before ++ part :: after) :
  ∃ front, front <+: cs ∧ parts front = before ++ [part]
  := by
  induction cs generalizing before part with
  | nil =>
    use [], List.nil_prefix
    cases before with
    | nil => simp_all [parts]
    | cons => simp [parts] at h
  | cons c cs ih =>
    rw [parts] at h
    split at h
    · next hc =>
      cases before with
      | nil =>
        obtain ⟨rfl, -⟩ := List.cons.inj h
        use [], List.nil_prefix
        rfl
      | cons first before =>
        obtain ⟨rfl, hparts⟩ := List.cons.inj h
        obtain ⟨front, hfront, heq⟩ := ih hparts
        use c :: front, (List.prefix_cons_inj c).mpr hfront
        rw [parts, if_pos hc, heq, List.cons_append]
    · next hc =>
      cases hp : parts cs with
      | nil => apply absurd hp (parts_ne_nil cs)
      | cons first rest =>
        rw [hp, consHead] at h
        cases before with
        | nil =>
          obtain ⟨rfl, rfl⟩ := List.cons.inj h
          obtain ⟨front, hfront, heq⟩ := ih (hp.trans (List.nil_append _).symm)
          use c :: front, (List.prefix_cons_inj c).mpr hfront
          rw [parts, if_neg hc, heq]
          rfl
        | cons second before =>
          obtain ⟨rfl, rfl⟩ := List.cons.inj h
          obtain ⟨front, hfront, heq⟩ := ih (hp.trans (List.cons_append ..).symm)
          use c :: front, (List.prefix_cons_inj c).mpr hfront
          rw [parts, if_neg hc, heq]
          rfl

/-- The length of some parts of a text, each with a slash behind it. -/
def extent : List (List Char) → Nat
  | [] => 0
  | part :: parts => part.length + 1 + extent parts

theorem extent_append (before after : List (List Char)) :
  extent (before ++ after) = extent before + extent after
  := by
  induction before with
  | nil => rw [List.nil_append, extent, Nat.zero_add]
  | cons part before ih =>
    rw [List.cons_append, extent, extent, ih]
    omega

/-- Every part of a text takes its characters and one slash, but for the last one. -/
theorem extent_parts (cs : List Char) :
  extent (parts cs) = cs.length + 1
  := by
  induction cs with
  | nil => rfl
  | cons c cs ih =>
    rw [parts]
    split
    · rw [extent, ih, List.length_nil, List.length_cons, Nat.add_comm]
    · cases hp : parts cs with
      | nil => apply absurd hp (parts_ne_nil cs)
      | cons first rest =>
        rw [hp] at ih
        simp only [consHead, extent, List.length_cons] at ih ⊢
        omega

@[simp] theorem length_placed (n : Nat) (parts : List (List Char)) :
  (placed n parts).length = parts.length
  := by
  rw [← List.length_map, map_fst_placed]

theorem placed_append (n : Nat) (before after : List (List Char)) :
  placed n (before ++ after)
    = placed n before ++ placed (n + extent before) after
  := by
  induction before generalizing n with
  | nil => simp [placed, extent]
  | cons part before ih =>
    simp only [List.cons_append, placed, ih, extent]
    congr 3
    omega

/-- A path that is cut where one of its segments ends has the segments up to that one. -/
theorem parts_take {before after : List (List Char × Nat)} {stop : Nat}
    (h : segments cs = before ++ (part, stop) :: after) :
  parts (cs.take stop) = before.map (·.1) ++ [part]
  := by
  have hparts : parts cs = before.map (·.1) ++ part :: after.map (·.1) := by
    rw [← map_fst_segments, h, List.map_append, List.map_cons]
  obtain ⟨front, hfront, heq⟩ := exists_prefix_of_parts hparts
  have hlength := extent_parts front
  rw [segments_eq, hparts, placed_append, placed] at h
  obtain ⟨-, hstop⟩ := List.append_inj h (by simp)
  obtain ⟨hpart, -⟩ := List.cons.inj hstop
  obtain rfl : stop = front.length := by
    rw [heq, extent_append, extent, extent] at hlength
    simp only [Prod.mk.injEq, true_and] at hpart
    omega
  rw [← List.prefix_iff_eq_take.mp hfront]
  apply heq

/-! ### The parent of a path -/

/-- The component that a segment of a path stands for, if it stands for one. -/
def component? (rooted : Bool) : (List Char × Nat) × Nat → Option (Component × Nat)
  | ((name, stop), i) =>
    if name.isEmpty then none
    else if name = ['.'] then if i = 0 && !rooted then some (.current, stop) else none
    else if name = ['.', '.'] then some (.parent, stop)
    else some (.normal (String.ofList name), stop)

theorem placedComponents_eq (cs : List Char) :
  placedComponents cs = (if cs.head? == some '/' then [(.root, 1)] else [])
    ++ (segments cs).zipIdx.filterMap (component? (cs.head? == some '/'))
  := by
  rw [placedComponents]
  split <;> rfl

variable {rooted : Bool} {segment : (List Char × Nat) × Nat}

theorem component?_eq_some {c : Component} {stop : Nat}
    (h : component? rooted segment = some (c, stop)) :
  segment.1.2 = stop ∧ segment.1.1 ≠ []
  := by
  obtain ⟨⟨name, end_⟩, i⟩ := segment
  rw [component?] at h
  grind

theorem component?_eq_none (h : component? rooted segment = none) :
  segment.1.1 = [] ∨ segment.1.1 = ['.']
  := by
  obtain ⟨⟨name, stop⟩, i⟩ := segment
  rw [component?] at h
  grind

/-- The names among some segments. -/
def namesOf (segments : List (List Char × Nat)) : List String :=
  ((segments.map (·.1)).filter (!·.isEmpty)).map String.ofList

theorem namesOf_append (before after : List (List Char × Nat)) :
  namesOf (before ++ after) = namesOf before ++ namesOf after
  := by
  simp [namesOf]

theorem names_eq_namesOf (path : String) :
  Disk.names path = namesOf (segments path.toList)
  := by
  rw [names_eq, ← map_fst_segments]
  rfl

/-- Segments that stand for no component are steps to `.`, if they are names at all. -/
theorem eq_dot_of_component?_eq_none {segments : List (List Char × Nat)}
    (h : ∀ segment ∈ segments, ∃ i, component? rooted (segment, i) = none) {name : String}
    (hname : name ∈ namesOf segments) :
  name = "."
  := by
  obtain ⟨part, hpart, rfl⟩ := List.mem_map.mp hname
  obtain ⟨hmem, hne⟩ := List.mem_filter.mp hpart
  obtain ⟨segment, hsegment, rfl⟩ := List.mem_map.mp hmem
  obtain ⟨i, hnone⟩ := h segment hsegment
  obtain hempty | hdot : segment.1 = [] ∨ segment.1 = ['.'] := component?_eq_none hnone
  · simp [hempty] at hne
  · rw [hdot]

/-- A path that is cut where one of its segments ends has the names up to that one. -/
theorem names_take {path : String} {before after : List (List Char × Nat)} {stop : Nat}
    (h : segments path.toList = before ++ (part, stop) :: after) :
  Disk.names (String.ofList (path.toList.take stop)) = namesOf (before ++ [(part, stop)])
  := by
  rw [names_eq, String.toList_ofList, parts_take h]
  simp [namesOf]

/-- A path that is cut where one of its components ends starts where the path starts, and its
names are the first ones of the path. -/
theorem names_of_component {path : String} {c : Component} {stop : Nat}
    (h : (c, stop) ∈ placedComponents path.toList) :
  isAbsolute (String.ofList (path.toList.take stop)) = isAbsolute path
    ∧ Disk.names (String.ofList (path.toList.take stop)) <+: Disk.names path
  := by
  rw [placedComponents_eq, List.mem_append] at h
  obtain hroot | hsegment := h
  · split at hroot
    · next habsolute =>
      obtain ⟨rest, hpath⟩ := List.head?_eq_some_iff.mp (by simpa using habsolute)
      obtain ⟨-, rfl⟩ : c = .root ∧ stop = 1 := by simpa using hroot
      rw [isAbsolute, isAbsolute, String.toList_ofList, hpath]
      have hnames : Disk.names (String.ofList (List.take 1 ('/' :: rest))) = [] := by
        simp [names_eq, parts]
      rw [hnames]
      use rfl
      apply List.nil_prefix
    · cases hroot
  · obtain ⟨⟨⟨part, stop'⟩, i⟩, hmem, hcomponent⟩ := List.mem_filterMap.mp hsegment
    obtain ⟨rfl, hne⟩ : stop' = stop ∧ part ≠ [] := component?_eq_some hcomponent
    have hmem : (part, stop') ∈ segments path.toList := List.fst_mem_of_mem_zipIdx hmem
    obtain ⟨before, after, hsegments⟩ := List.append_of_mem hmem
    constructor
    · have hstop : stop' ≠ 0 := by
        rintro rfl
        have hlast := congrArg List.getLast? (parts_take hsegments)
        rw [List.take_zero, List.getLast?_concat] at hlast
        apply hne (Option.some.inj hlast).symm
      rw [isAbsolute, isAbsolute, String.toList_ofList, List.head?_take, if_neg hstop]
    · rw [names_take hsegments, names_eq_namesOf, hsegments, List.append_cons before _ after,
        namesOf_append _ after]
      apply List.prefix_append

/-- A path and its parent start at the same place, and the names of the parent are the first
ones of the path. -/
theorem names_of_parent? {path parent : String} (h : parent? path = some parent) :
  (parent = "" ∨ isAbsolute parent = isAbsolute path) ∧ Disk.names parent <+: Disk.names path
  := by
  rw [parent?] at h
  split at h
  · cases h
  · cases h
  · cases h
    constructor
    · left
      rfl
    · apply List.nil_prefix
  · next last c stop rest _ hcomponents =>
    cases h
    have hmem : (c, stop) ∈ placedComponents path.toList := by
      rw [← List.mem_reverse, hcomponents]
      simp
    obtain ⟨habsolute, hnames⟩ := names_of_component hmem
    use .inr habsolute

/-- A path starts with its parent. -/
theorem exists_append_of_parent? {path parent : String} (h : parent? path = some parent) :
  ∃ rest, path = parent ++ rest
  := by
  have htake : ∀ n, path
      = String.ofList (path.toList.take n) ++ String.ofList (path.toList.drop n) := by
    intro n
    rw [← String.ofList_append, List.take_append_drop, String.ofList_toList]
  rw [parent?] at h
  split at h
  · cases h
  · cases h
  · cases h
    use path
    simp
  · cases h
    exact ⟨_, htake _⟩

/-- The components that some segments stand for, without the last one, belong to the segments
up to another one, and the segments behind that one stand for nothing. -/
theorem exists_of_filterMap_eq_concat {segments : List (List Char × Nat)} {k : Nat}
    {components : List (Component × Nat)} {c : Component} {stop : Nat}
    (h : (segments.zipIdx k).filterMap (component? rooted) = components ++ [(c, stop)]) :
  ∃ before part after, segments = before ++ (part, stop) :: after
    ∧ ∀ segment ∈ after, ∃ i, component? rooted (segment, i) = none
  := by
  obtain ⟨s₁, s₂, hsegments, -, hlast⟩ := List.filterMap_eq_append_iff.mp h
  obtain ⟨skipped, last, after, rfl, -, hcomponent, hafter⟩ := List.filterMap_eq_cons_iff.mp hlast
  have hfst := congrArg (List.map (·.1)) hsegments
  rw [List.zipIdx_map_fst] at hfst
  obtain ⟨⟨part, stop'⟩, i⟩ := last
  obtain ⟨rfl, -⟩ := component?_eq_some hcomponent
  use (s₁ ++ skipped).map (·.1), part, after.map (·.1)
  constructor
  · simpa using hfst
  · intro segment hsegment
    obtain ⟨⟨_, i⟩, hmem, rfl⟩ := List.mem_map.mp hsegment
    use i
    apply List.filterMap_eq_nil_iff.mp hafter _ hmem

/-- The components of a path that ends in a file name are those of the segments before that
name, and the name. -/
theorem placedComponents_of_segments {path name : String} {before after : List (List Char × Nat)}
    {stop : Nat} (hsegments : segments path.toList = before ++ (name.toList, stop) :: after)
    (hafter : ∀ s ∈ after, s.1 = []) (hne : name ≠ "") (hdot : name ≠ ".") (hdots : name ≠ "..") :
  placedComponents path.toList = (if isAbsolute path then [(.root, 1)] else [])
    ++ (before.zipIdx.filterMap (component? (isAbsolute path)) ++ [(.normal name, stop)])
  := by
  have hlast : ∀ i, component? (isAbsolute path) ((name.toList, stop), i)
      = some (.normal name, stop) := by
    intro i
    have hempty : name.toList.isEmpty = false := by simpa
    have hdot : name.toList ≠ ['.'] := fun heq => hdot (String.toList_inj.mp heq)
    have hdots : name.toList ≠ ['.', '.'] := fun heq => hdots (String.toList_inj.mp heq)
    simp only [component?, hempty, hdot, hdots, if_false, Bool.false_eq_true,
      String.ofList_toList]
  have hnone : ∀ k, (after.zipIdx k).filterMap (component? (isAbsolute path)) = [] := by
    intro k
    apply List.filterMap_eq_nil_iff.mpr
    rintro ⟨⟨part, stop⟩, i⟩ hs
    obtain rfl : part = [] := hafter _ (List.fst_mem_of_mem_zipIdx hs)
    rfl
  rw [placedComponents_eq, hsegments, List.zipIdx_append, List.filterMap_append,
    List.zipIdx_cons, List.filterMap_cons, ← isAbsolute, hlast, hnone]

/-- A path that ends in a file name has a parent, and nothing but steps to `.` comes between
the names of the parent and the file name. -/
theorem exists_parent? {path name : String} (h : (Disk.names path).getLast? = some name)
    (hdot : name ≠ ".") (hdots : name ≠ "..") :
  ∃ parent dots, parent? path = some parent ∧ isAbsolute parent = isAbsolute path
    ∧ Disk.names path = Disk.names parent ++ dots ++ [name] ∧ ∀ dot ∈ dots, dot = "."
  := by
  obtain ⟨before, stop, after, hsegments, hafter⟩ := exists_last_segment h
  have hne := ne_empty_of_mem_names (List.mem_of_getLast? h)
  have hplaced := placedComponents_of_segments hsegments hafter hne hdot hdots
  have hnames : Disk.names path = namesOf before ++ [name] := by
    have hempty : namesOf after = [] := by
      simp only [namesOf, List.map_eq_nil_iff, List.filter_eq_nil_iff]
      intro part hpart
      obtain ⟨s, hs, rfl⟩ := List.mem_map.mp hpart
      simp [hafter s hs]
    rw [names_eq_namesOf, hsegments, List.append_cons, namesOf_append, namesOf_append, hempty]
    simp [namesOf, hne]
  rw [hnames]
  obtain hnil | ⟨init, ⟨c, stop'⟩, hconcat⟩ :=
    List.eq_nil_or_concat (before.zipIdx.filterMap (component? (isAbsolute path)))
  · -- only a slash at the start can come before the file name
    have hnone : ∀ segment ∈ before, ∃ i, component? (isAbsolute path) (segment, i) = none := by
      intro segment hsegment
      rw [← List.zipIdx_map_fst 0 before] at hsegment
      obtain ⟨⟨_, i⟩, hmem, rfl⟩ := List.mem_map.mp hsegment
      use i
      apply List.filterMap_eq_nil_iff.mp hnil _ hmem
    have hbefore : ∀ dot ∈ namesOf before, dot = "." :=
      fun _ => eq_dot_of_component?_eq_none hnone
    rw [hnil] at hplaced
    cases habsolute : isAbsolute path with
    | false =>
      rw [habsolute] at hplaced
      use "", namesOf before
      rw [parent?, hplaced]
      use rfl, rfl, rfl
    | true =>
      rw [habsolute] at hplaced
      obtain ⟨rest, hpath⟩ := List.head?_eq_some_iff.mp (by simpa [isAbsolute] using habsolute)
      use String.ofList (path.toList.take 1), namesOf before
      rw [parent?, hplaced]
      use rfl
      have hnames : Disk.names (String.ofList (path.toList.take 1)) = [] := by
        simp [names_eq, hpath, parts]
      rw [hnames, isAbsolute, String.toList_ofList, hpath]
      use rfl, rfl
  · rw [List.concat_eq_append] at hconcat
    rw [hconcat] at hplaced
    obtain ⟨b₁, part, b₂, rfl, hdots⟩ := exists_of_filterMap_eq_concat hconcat
    have hmem : (c, stop') ∈ placedComponents path.toList := by simp [hplaced]
    use String.ofList (path.toList.take stop'), namesOf b₂
    constructor
    · simp [parent?, hplaced]
    use (names_of_component hmem).1
    constructor
    · rw [List.append_assoc, List.cons_append] at hsegments
      rw [names_take hsegments, ← namesOf_append, ← List.append_cons]
    · intro dot hdot
      apply eq_dot_of_component?_eq_none hdots hdot

end MutationTesting.Path
