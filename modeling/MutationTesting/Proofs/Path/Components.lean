import MutationTesting.Proofs.Disk.Place
import MutationTesting.Proofs.Path.Parent

/-!
# The components of a path

A path that is cut where one of its components ends has the components up to that one
(`placedComponents_take`). The parent of a path that ends in a file name is therefore the path
that has all its components but the last (`exists_parent?_of_fileName?`). Joining a path to a name
adds that name to the components (`components_join`) and, if the path ends where its last component
does, leaves the path as the parent (`parent?_join`). The components of a path tell where it leads
(`Disk.place_eq_foldl_components`).
-/

namespace MutationTesting

namespace Path

variable {cs part : List Char} {stop : Nat} {path base name : String} {c : Component}

/-- A path that is cut where one of its segments ends has the segments up to that one, and ends
there. -/
theorem segments_take {before after : List (List Char × Nat)}
    (h : segments cs = before ++ (part, stop) :: after) :
  segments (cs.take stop) = before ++ [(part, stop)] ∧ (cs.take stop).length = stop
  := by
  have hparts : parts cs = (before.map (·.1) ++ [part]) ++ after.map (·.1) := by
    rw [← map_fst_segments, h, List.map_append, List.map_cons, ← List.append_cons]
  have htake := parts_take h
  have hsegments : segments (cs.take stop) = before ++ [(part, stop)] := by
    rw [segments_eq, hparts, placed_append, List.append_cons before] at h
    rw [segments_eq, htake]
    apply (List.append_inj h (by simp)).1
  use hsegments
  have hlength := extent_parts (cs.take stop)
  rw [segments_eq, htake, placed_append] at hsegments
  obtain ⟨-, hlast⟩ := List.append_inj hsegments (by simp)
  simp only [placed, List.cons.injEq, Prod.mk.injEq, true_and, and_true] at hlast
  rw [htake, extent_append, extent, extent] at hlength
  omega

/-! ### Cutting a path -/

/-- Where the last one of some components ends. -/
def reach (components : List (Component × Nat)) : Nat :=
  (components.getLast?.map (·.2)).getD 0

@[simp] theorem reach_concat (init : List (Component × Nat)) (last : Component × Nat) :
  reach (init ++ [last]) = last.2
  := by
  simp [reach]

/-- What the segments of a path stand for up to some component, those of the path that is cut
there stand for. -/
theorem filterMap_component?_take {rooted : Bool} {init rest : List (Component × Nat)}
    (h : (segments cs).zipIdx.filterMap (component? rooted) = init ++ (c, stop) :: rest) :
  (segments (cs.take stop)).zipIdx.filterMap (component? rooted) = init ++ [(c, stop)]
    ∧ (cs.take stop).length = stop ∧ stop ≠ 0
  := by
  obtain ⟨s₁, s₂, hsegments, rfl, hlast⟩ := List.filterMap_eq_append_iff.mp h
  obtain ⟨skipped, ⟨⟨part, stop'⟩, i⟩, s₃, rfl, hskipped, hcomponent, -⟩ :=
    List.filterMap_eq_cons_iff.mp hlast
  obtain ⟨rfl, hne⟩ : stop' = stop ∧ part ≠ [] := component?_eq_some hcomponent
  rw [← List.append_assoc] at hsegments
  obtain ⟨before, after, hparts, hbefore, hafter⟩ := List.zipIdx_eq_append_iff.mp hsegments
  obtain ⟨last, after, rfl, hlast, -⟩ := List.zipIdx_eq_cons_iff.mp hafter.symm
  obtain ⟨rfl, rfl⟩ := Prod.mk.inj hlast
  obtain ⟨htake, hlength⟩ := segments_take hparts
  constructor
  · rw [htake, List.zipIdx_append, ← hbefore, List.filterMap_append, List.filterMap_append,
      List.filterMap_eq_nil_iff.mpr hskipped, List.append_nil]
    rw [Nat.zero_add] at hcomponent ⊢
    rw [List.zipIdx_singleton, List.filterMap_cons_some hcomponent, List.filterMap_nil]
  use hlength
  rintro rfl
  -- an empty path has one segment, which is empty
  rw [List.take_zero] at htake
  have hnil := congrArg List.getLast? htake
  rw [List.getLast?_concat] at hnil
  apply hne (congrArg Prod.fst (Option.some.inj hnil)).symm

/-- A path that is cut where one of its components ends has the components up to that one, and
ends there. -/
theorem placedComponents_take {init rest : List (Component × Nat)}
    (h : placedComponents cs = init ++ rest) :
  placedComponents (cs.take (reach init)) = init ∧ (cs.take (reach init)).length = reach init
  := by
  obtain rfl | ⟨init, ⟨c, stop⟩, rfl⟩ := List.eq_nil_or_concat init
  · use rfl
    rfl
  rw [List.concat_eq_append, List.append_assoc, List.singleton_append] at h
  rw [List.concat_eq_append, reach_concat]
  dsimp only
  rw [placedComponents_eq] at h
  -- the components of the segments, behind the root if there is one
  have hbody : ∀ init', init = (if cs.head? == some '/' then [(.root, 1)] else []) ++ init' →
      (segments cs).zipIdx.filterMap (component? (cs.head? == some '/'))
        = init' ++ (c, stop) :: rest →
      placedComponents (cs.take stop) = init ++ [(c, stop)] ∧ (cs.take stop).length = stop := by
    rintro init' rfl hinit'
    obtain ⟨htake, hlength, hstop⟩ := filterMap_component?_take hinit'
    rw [placedComponents_eq, List.head?_take, if_neg hstop, htake, List.append_assoc]
    use rfl
  cases hrooted : cs.head? == some '/' with
  | false =>
    rw [hrooted] at h hbody
    apply hbody init rfl h
  | true =>
    rw [hrooted] at h hbody
    cases init with
    | nil =>
      obtain ⟨hroot, -⟩ := List.cons.inj h
      obtain ⟨rfl, rfl⟩ := Prod.mk.inj hroot
      obtain ⟨rest, rfl⟩ := List.head?_eq_some_iff.mp (by simpa using hrooted)
      exact ⟨rfl, rfl⟩
    | cons first init' =>
      obtain ⟨rfl, hinit'⟩ := List.cons.inj h
      apply hbody init' rfl hinit'

/-! ### The file name and the parent -/

theorem fileName?_eq_some_iff :
  fileName? path = some name
    ↔ ∃ init stop, placedComponents path.toList = init ++ [(.normal name, stop)]
  := by
  rw [fileName?, components, List.getLast?_map]
  constructor
  · intro h
    split at h
    · next name' hlast =>
      cases h
      obtain ⟨⟨c, stop⟩, hlast, rfl⟩ := Option.map_eq_some_iff.mp hlast
      obtain ⟨init, hinit⟩ := List.getLast?_eq_some_iff.mp hlast
      use init, stop
    · cases h
  · rintro ⟨init, stop, h⟩
    rw [h, List.getLast?_concat]
    rfl

/-- No name in a path has a slash. -/
theorem slash_not_mem_of_mem_placedComponents (h : (.normal name, stop) ∈ placedComponents cs) :
  '/' ∉ name.toList
  := by
  rw [placedComponents_eq, List.mem_append] at h
  obtain hroot | hsegment := h
  · split at hroot
    · simp at hroot
    · cases hroot
  · obtain ⟨⟨⟨part, stop'⟩, i⟩, hmem, hcomponent⟩ := List.mem_filterMap.mp hsegment
    have hpart : part ∈ parts cs := by
      rw [← map_fst_segments]
      apply List.mem_map_of_mem (List.fst_mem_of_mem_zipIdx hmem)
    have hname : String.ofList part = name := by
      rw [component?] at hcomponent
      grind
    rw [← hname, String.toList_ofList]
    apply slash_not_mem_of_mem_parts hpart

theorem parent?_of_placedComponents {init : List (Component × Nat)}
    (h : placedComponents path.toList = init ++ [(c, stop)]) (hc : c ≠ .root) :
  parent? path = some (String.ofList (path.toList.take (reach init)))
  := by
  rw [parent?, h, List.reverse_concat]
  obtain rfl | ⟨init, ⟨c', stop'⟩, rfl⟩ := List.eq_nil_or_concat init
  · cases c <;> first | contradiction | rfl
  · rw [List.concat_eq_append, List.reverse_concat, reach_concat]
    cases c <;> first | contradiction | rfl

/-- A path ends where its last component ends. -/
def IsTight (path : String) : Prop := reach (placedComponents path.toList) = path.toList.length

/-- The parent of a path that ends in a file name has its components but for that name. -/
theorem exists_parent?_of_fileName? (h : fileName? path = some name) :
  ∃ parent, parent? path = some parent ∧ components path = components parent ++ [.normal name]
    ∧ IsTight parent
  := by
  obtain ⟨init, stop, hinit⟩ := fileName?_eq_some_iff.mp h
  obtain ⟨htake, hlength⟩ := placedComponents_take hinit
  use String.ofList (path.toList.take (reach init)), parent?_of_placedComponents hinit nofun
  rw [components, components, IsTight, String.toList_ofList, htake, hinit, hlength]
  constructor
  · rw [List.map_append]
    rfl
  · rfl

/-! ### Joining a path to a name -/

/-- A name that is a step of its own. -/
structure IsPlain (name : String) : Prop where
  ne_empty : name ≠ ""
  ne_dot : name ≠ "."
  ne_dots : name ≠ ".."
  slash : '/' ∉ name.toList

/-- A path that is joined to a name has that name behind segments that stand for the components of
the path. -/
theorem exists_segments_join (h : IsPlain name) (base : String) :
  ∃ before stop, segments (join base name).toList = before ++ [(name.toList, stop)]
    ∧ ∀ rooted, before.zipIdx.filterMap (component? rooted)
      = (segments base.toList).zipIdx.filterMap (component? rooted)
  := by
  have hparts := parts_of_not_mem h.slash
  rw [join, isAbsolute_of_not_mem h.slash]
  split
  · next hbase =>
    obtain rfl : base = "" := by simpa using hbase
    use [], name.toList.length
    rw [segments_eq, hparts, placed, Nat.zero_add]
    use rfl
    intro rooted
    rfl
  · split
    · next hend =>
      -- a base that ends in a slash has an empty last part, which stands for nothing
      obtain ⟨front, hfront⟩ := List.getLast?_eq_some_iff.mp (by simpa using hend)
      use placed 0 (parts front), 0 + extent (parts front) + name.toList.length
      have hjoin : (base ++ name).toList = front ++ '/' :: name.toList := by
        rw [String.toList_append, hfront, List.append_assoc, List.singleton_append]
      rw [segments_eq, hjoin, parts_append_slash, hparts, placed_append, placed, placed]
      use rfl
      intro rooted
      rw [segments_eq, hfront, parts_append_slash, parts, placed_append, placed, placed,
        List.zipIdx_append, List.filterMap_append]
      simp [component?]
    · use segments base.toList, 0 + extent (parts base.toList) + name.toList.length
      have hjoin : (base ++ "/" ++ name).toList = base.toList ++ '/' :: name.toList := by simp
      rw [segments_eq, hjoin, parts_append_slash, hparts, placed_append, placed, placed,
        ← segments_eq]
      use rfl
      intro rooted
      rfl

theorem placedComponents_join (h : IsPlain name) (base : String) :
  ∃ stop, placedComponents (join base name).toList
    = placedComponents base.toList ++ [(.normal name, stop)]
  := by
  obtain ⟨before, stop, hsegments, hbefore⟩ := exists_segments_join h base
  use stop
  rw [placedComponents_of_segments hsegments (by simp) h.ne_empty h.ne_dot h.ne_dots,
    isAbsolute_join h.slash, hbefore, placedComponents_eq, isAbsolute, List.append_assoc]

/-- Joining a path to a name adds the name to the components. -/
theorem components_join (h : IsPlain name) (base : String) :
  components (join base name) = components base ++ [.normal name]
  := by
  obtain ⟨stop, hstop⟩ := placedComponents_join h base
  rw [components, hstop, List.map_append]
  rfl

theorem fileName?_join (h : IsPlain name) (base : String) :
  fileName? (join base name) = some name
  := by
  obtain ⟨stop, hstop⟩ := placedComponents_join h base
  apply fileName?_eq_some_iff.mpr ⟨_, stop, hstop⟩

theorem prefix_join (h : IsPlain name) (base : String) :
  base.toList <+: (join base name).toList
  := by
  rw [join, isAbsolute_of_not_mem h.slash]
  split
  · next hbase =>
    obtain rfl : base = "" := by simpa using hbase
    apply List.nil_prefix
  · split
    · rw [String.toList_append]
      apply List.prefix_append
    · rw [String.toList_append, String.toList_append, List.append_assoc]
      apply List.prefix_append

/-- A path that ends where its last component ends is the parent of what it is joined to. -/
theorem parent?_join (h : IsPlain name) (hbase : IsTight base) :
  parent? (join base name) = some base
  := by
  obtain ⟨stop, hstop⟩ := placedComponents_join h base
  rw [parent?_of_placedComponents hstop nofun, hbase,
    ← List.prefix_iff_eq_take.mp (prefix_join h base), String.ofList_toList]

end Path

/-! ### Where a path leads -/

namespace Disk

/-- The location that a component leads to. -/
def move (location : Location) : Path.Component → Location
  | .root => []
  | .current => location
  | .parent => location.dropLast
  | .normal name => location ++ [name]

/-- The name of a segment leads where the component leads that the segment stands for. -/
theorem foldl_step_component? (rooted : Bool) (part : List Char) (stop k : Nat)
    (location : Location) :
  (Path.namesOf [(part, stop)]).foldl step location
    = ((Path.component? rooted ((part, stop), k)).map (·.1)).elim location (move location)
  := by
  by_cases hempty : part = []
  · subst hempty
    rfl
  have hnames : Path.namesOf [(part, stop)] = [String.ofList part] := by
    simp [Path.namesOf, hempty]
  have hcons : part.isEmpty = false := by simpa using hempty
  rw [hnames, List.foldl_cons, List.foldl_nil, step, Path.component?, hcons]
  by_cases hdot : part = ['.']
  · subst hdot
    cases k <;> cases rooted <;> rfl
  by_cases hdots : part = ['.', '.']
  · subst hdots
    rfl
  have hname : String.ofList part ≠ "." ∧ String.ofList part ≠ ".." := by
    simpa [← String.toList_inj] using ⟨hdot, hdots⟩
  rw [if_neg hname.1, if_neg hname.2, if_neg hdot, if_neg hdots]
  rfl

/-- The names of some segments lead where the components lead that the segments stand for. -/
theorem foldl_step_namesOf (rooted : Bool) (segments : List (List Char × Nat)) (k : Nat)
    (location : Location) :
  (Path.namesOf segments).foldl step location
    = (((segments.zipIdx k).filterMap (Path.component? rooted)).map (·.1)).foldl move location
  := by
  induction segments generalizing k location with
  | nil => rfl
  | cons segment segments ih =>
    obtain ⟨part, stop⟩ := segment
    rw [← List.singleton_append, Path.namesOf_append, List.foldl_append, List.singleton_append,
      List.zipIdx_cons, List.filterMap_cons, foldl_step_component? rooted part stop k]
    split
    · next hnone =>
      rw [hnone]
      apply ih
    · next c hsome =>
      rw [hsome]
      apply ih

theorem place_eq_foldl_components (home : Location) (path : String) :
  place home path = (Path.components path).foldl move home
  := by
  rw [place, Path.names_eq_namesOf, Path.components, Path.placedComponents_eq, List.map_append,
    List.foldl_append, foldl_step_namesOf (path.toList.head? == some '/') _ 0, start,
    Path.isAbsolute]
  split <;> rfl

end Disk

end MutationTesting
