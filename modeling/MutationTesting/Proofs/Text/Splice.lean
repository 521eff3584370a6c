import Mathlib.Tactic.Common
import MutationTesting.Tree.Edit

/-!
# Splices

An offset is a boundary of a text when a character starts there or the text ends there.
Two boundaries in order part the text into three, the middle one is what `slice` takes,
and `Spliced` says that a text differs from another one only in that part. One edit with
boundaries as ends can be made, and rendering it is a splice.
-/

namespace MutationTesting

namespace Text

/-! ### Boundaries -/

/-- Whether a character of a text starts at byte `n` or the text ends there. -/
def IsBoundary (n : Nat) (cs : List Char) : Prop :=
  ∃ before after, cs = before ++ after ∧ byteLength before = n

theorem isBoundary_iff_isSome_cut? {n : Nat} {cs : List Char} :
  IsBoundary n cs ↔ (cut? n cs).isSome = true
  := by
  constructor
  · rintro ⟨before, after, rfl, rfl⟩
    rw [cut?_append, Option.isSome_some]
  · intro h
    obtain ⟨⟨before, after⟩, hcut⟩ := Option.isSome_iff_exists.mp h
    exact ⟨before, after, eq_append_of_cut? hcut⟩

instance (n : Nat) (cs : List Char) : Decidable (IsBoundary n cs) :=
  decidable_of_iff _ isBoundary_iff_isSome_cut?.symm

theorem IsBoundary.le {n : Nat} {cs : List Char} (h : IsBoundary n cs) :
  n ≤ byteLength cs
  := by
  obtain ⟨before, after, rfl, rfl⟩ := h
  rw [byteLength_append]
  apply Nat.le_add_right

theorem byteLength_eq_zero_iff {cs : List Char} :
  byteLength cs = 0 ↔ cs = []
  := by
  cases cs with
  | nil => simp
  | cons c cs =>
    have := c.utf8Size_pos
    simp only [byteLength_cons, reduceCtorEq, iff_false]
    omega

/-- Of two beginnings of a text, the one with fewer bytes is a beginning of the other. -/
theorem exists_eq_append_of_byteLength_le {a b c d : List Char} (h : a ++ b = c ++ d)
    (hle : byteLength a ≤ byteLength c) :
  ∃ e, c = a ++ e ∧ b = e ++ d
  := by
  obtain ⟨e, rfl, rfl⟩ | ⟨e, rfl, rfl⟩ := List.append_eq_append_iff.mp h
  · exact ⟨e, rfl, rfl⟩
  · have he : byteLength e = 0 := by
      rw [byteLength_append] at hle
      omega
    rw [byteLength_eq_zero_iff] at he
    subst he
    exact ⟨[], by simp, by simp⟩

/-- A text is parted in one way only after a number of bytes. -/
theorem append_inj_of_byteLength_eq {a b c d : List Char} (h : a ++ b = c ++ d)
    (heq : byteLength a = byteLength c) :
  a = c ∧ b = d
  := by
  obtain ⟨e, rfl, rfl⟩ := exists_eq_append_of_byteLength_le h (Nat.le_of_eq heq)
  rw [byteLength_append, Nat.left_eq_add, byteLength_eq_zero_iff] at heq
  subst heq
  simp

/-- Two boundaries in order part a text into three. -/
theorem IsBoundary.exists_parts {start stop : Nat} {cs : List Char}
    (hstart : IsBoundary start cs) (hstop : IsBoundary stop cs) (hle : start ≤ stop) :
  ∃ before middle after,
    cs = before ++ middle ++ after ∧ byteLength before = start
      ∧ byteLength before + byteLength middle = stop
  := by
  obtain ⟨before, rest, rfl, rfl⟩ := hstart
  obtain ⟨upto, after, hparts, rfl⟩ := hstop
  obtain ⟨middle, rfl, rfl⟩ := exists_eq_append_of_byteLength_le hparts hle
  use before, middle, after
  simp

/-- A slice between two boundaries is the text between them. -/
theorem slice_eq {source : String} {before middle after : List Char}
    (h : source.toList = before ++ middle ++ after) :
  slice source (byteLength before) (byteLength before + byteLength middle)
    = String.ofList middle
  := by
  rw [slice, slice?, h, List.append_assoc, cut?_append]
  simp only [Option.bind_eq_bind, Option.bind_some, Nat.add_sub_cancel_left]
  rw [cut?_append]
  rfl

theorem utf8ByteSize_ofList (cs : List Char) :
  (String.ofList cs).utf8ByteSize = byteLength cs
  := by
  induction cs with
  | nil => rfl
  | cons c cs ih =>
    have hcons : String.ofList (c :: cs) = String.singleton c ++ String.ofList cs := by
      rw [String.singleton_eq_ofList, ← String.ofList_append, List.singleton_append]
    rw [hcons, String.utf8ByteSize_append, String.utf8ByteSize_singleton, ih, byteLength_cons]

theorem utf8ByteSize_eq_byteLength (source : String) :
  source.utf8ByteSize = byteLength source.toList
  := by
  rw [← utf8ByteSize_ofList, String.ofList_toList]

/-- The slice up to a boundary is the text before it. -/
theorem slice_upto {source : String} {before after : List Char}
    (h : source.toList = before ++ after) :
  slice source 0 (byteLength before) = String.ofList before
  := by
  rw [← List.nil_append before] at h
  simpa using slice_eq h

/-- The slice from a boundary on is the text after it. -/
theorem slice_from {source : String} {before after : List Char}
    (h : source.toList = before ++ after) :
  slice source (byteLength before) source.utf8ByteSize = String.ofList after
  := by
  have hsize : source.utf8ByteSize = byteLength before + byteLength after := by
    rw [utf8ByteSize_eq_byteLength, h, byteLength_append]
  rw [← List.append_nil (before ++ after)] at h
  rw [hsize, slice_eq h]

/-! ### Splices -/

/-- A text that differs from another one only in that `new` stands in the place of the
bytes from `start` up to `stop`. -/
def Spliced (source : String) (start stop : Nat) (new : String) (changed : String) : Prop :=
  ∃ before old after,
    source.toList = before ++ old ++ after ∧ byteLength before = start
      ∧ byteLength before + byteLength old = stop
      ∧ changed.toList = before ++ new.toList ++ after

/-- A splice changes a text if it puts another text in the place of the old one. -/
theorem Spliced.ne {source new changed : String} {start stop : Nat}
    (h : Spliced source start stop new changed) (hne : new ≠ slice source start stop) :
  changed ≠ source
  := by
  obtain ⟨before, old, after, hsource, rfl, rfl, hchanged⟩ := h
  rintro rfl
  apply hne
  rw [slice_eq hsource]
  rw [hsource, List.append_left_inj, List.append_right_inj] at hchanged
  rw [hchanged, String.ofList_toList]

/-- Taking a part away that is not empty changes a text. -/
theorem Spliced.ne_of_lt {source changed : String} {start stop : Nat}
    (h : Spliced source start stop "" changed) (hlt : start < stop) :
  changed ≠ source
  := by
  apply h.ne
  obtain ⟨before, old, after, hsource, rfl, rfl, -⟩ := h
  rw [slice_eq hsource]
  intro hempty
  rw [eq_comm, String.ofList_eq_empty_iff] at hempty
  rw [hempty, byteLength_nil] at hlt
  omega

/-- There is one way to put a text in the place of a part of another one. -/
theorem Spliced.unique {source new changed changed' : String} {start stop : Nat}
    (h : Spliced source start stop new changed) (h' : Spliced source start stop new changed') :
  changed = changed'
  := by
  obtain ⟨before, old, after, hsource, rfl, rfl, hchanged⟩ := h
  obtain ⟨before', old', after', hsource', hstart, hstop, hchanged'⟩ := h'
  rw [hsource, List.append_assoc, List.append_assoc] at hsource'
  obtain ⟨rfl, hrest⟩ := append_inj_of_byteLength_eq hsource' hstart.symm
  obtain ⟨rfl, rfl⟩ := append_inj_of_byteLength_eq hrest (Nat.add_left_cancel hstop).symm
  rw [← String.toList_inj, hchanged, hchanged']

end Text

/-! ### Edits -/

namespace Edit

/-- A boundary of a text is inside of no character. -/
theorem straddled?_append (start : Nat) (before after : List Char) :
  straddled? (start + Text.byteLength before) start (before ++ after) = none
  := by
  induction before generalizing start with
  | nil =>
    cases after with
    | nil => rfl
    | cons c after =>
      rw [List.nil_append, Text.byteLength_nil, Nat.add_zero, straddled?, if_pos (Nat.le_refl _)]
  | cons c before ih =>
    have hpositive := c.utf8Size_pos
    rw [List.cons_append, straddled?, Text.byteLength_cons, if_neg (by omega),
      if_neg (by omega), ← Nat.add_assoc]
    apply ih

theorem endFlaw?_eq_none {source : String} {offset : Nat}
    (h : Text.IsBoundary offset source.toList) (which : End) :
  endFlaw? source which offset = none
  := by
  obtain ⟨before, after, hsource, rfl⟩ := h
  have hnone := straddled?_append 0 before after
  rw [Nat.zero_add] at hnone
  rw [endFlaw?, hsource, hnone]
  rfl

theorem copyFlaw?_eq_none {source : String} {start stop : Nat}
    (hstart : Text.IsBoundary start source.toList)
    (hstop : Text.IsBoundary stop source.toList) :
  copyFlaw? source start stop = none
  := by
  unfold copyFlaw?
  dsimp only
  rw [Text.utf8ByteSize_eq_byteLength, if_neg (Nat.not_lt.mpr hstart.le),
    if_neg (Nat.not_lt.mpr hstop.le), endFlaw?_eq_none hstart, endFlaw?_eq_none hstop]
  rfl

/-- One edit whose ends are boundaries can be made. -/
theorem flaw?_eq_none {source : String} {e : Edit}
    (hstart : Text.IsBoundary e.start source.toList)
    (hstop : Text.IsBoundary e.stop source.toList) :
  flaw? source [e] = none
  := by
  have hzero : Text.IsBoundary 0 source.toList := ⟨[], source.toList, rfl, rfl⟩
  have hsize : Text.IsBoundary (max e.stop source.utf8ByteSize) source.toList := by
    use source.toList, []
    rw [Text.utf8ByteSize_eq_byteLength, Nat.max_eq_right hstop.le]
    simp
  rw [flaw?, inOrder, List.mergeSort_singleton, flawFrom?, flawFrom?,
    if_neg (Nat.not_lt_zero _), copyFlaw?_eq_none hzero hstart,
    copyFlaw?_eq_none hstop hsize]
  rfl

end Edit

/-- One edit whose ends are boundaries in order is a splice. -/
theorem Edit.spliced_render {source : String} {e : Edit}
    (hstart : Text.IsBoundary e.start source.toList)
    (hstop : Text.IsBoundary e.stop source.toList) (hle : e.start ≤ e.stop) :
  Text.Spliced source e.start e.stop e.text (Edit.render source [e])
  := by
  obtain ⟨before, old, after, hsource, hbefore, hold⟩ := hstart.exists_parts hstop hle
  use before, old, after, hsource, hbefore, hold
  have hfront : Text.slice source 0 e.start = String.ofList before := by
    rw [← hbefore]
    apply Text.slice_upto
    rw [hsource, List.append_assoc]
  have hback : Text.slice source e.stop source.utf8ByteSize = String.ofList after := by
    rw [← hold, ← Text.byteLength_append]
    apply Text.slice_from hsource
  rw [Edit.render, Edit.inOrder, List.mergeSort_singleton, Edit.renderFrom, Edit.renderFrom,
    hfront, hback]
  simp

/-- An edit can be made in a source, and this puts its text in the place of the bytes that it
names. -/
structure Edit.Makes (e : Edit) (source : String) (changed : String) : Prop where
  sound : flaw? source [e] = none
  spliced : Text.Spliced source e.start e.stop e.text changed

theorem Edit.makes_render {source : String} {e : Edit}
    (hstart : Text.IsBoundary e.start source.toList)
    (hstop : Text.IsBoundary e.stop source.toList) (hle : e.start ≤ e.stop) :
  e.Makes source (Edit.render source [e])
  := ⟨flaw?_eq_none hstart hstop, spliced_render hstart hstop hle⟩

theorem Edit.Makes.unique {source changed changed' : String} {e : Edit}
    (h : e.Makes source changed) (h' : e.Makes source changed') :
  changed = changed'
  := h.spliced.unique h'.spliced

end MutationTesting
