import MutationTesting.Proofs.Text.Splice

/-!
# Sets of edits

Edits are `Separate` when they cut a source only where characters end, no two of them start at one
place, and each ends before the other starts. `Patched` goes along a source from left to right, as
`renderFrom` does, and parts it into what is kept and what is replaced; `InTurn` makes edits one
after the other, each in the text that the one before has left. For separate edits, in whatever
order they are listed, rendering is both (`render_separate`): the edits at the right are made first,
so that those at the left still find their bytes.
-/

namespace MutationTesting

namespace Edit

/-- Edits of which one ends where the other starts, or before. An insertion inside of what another
edit replaces is not apart from it. -/
def Apart (a b : Edit) : Prop := a.stop ≤ b.start ∨ b.stop ≤ a.start

instance (a b : Edit) : Decidable (a.Apart b) := inferInstanceAs (Decidable (_ ∨ _))

theorem Apart.symm {a b : Edit} (h : a.Apart b) :
  b.Apart a
  := Or.symm h

/-- An edit whose ends are in order, and where characters of the source end. -/
structure Fits (e : Edit) (source : String) : Prop where
  ordered : e.start ≤ e.stop
  start : Text.IsBoundary e.start source.toList
  stop : Text.IsBoundary e.stop source.toList

instance (e : Edit) (source : String) : Decidable (e.Fits source) :=
  decidable_of_iff
    (e.start ≤ e.stop ∧ Text.IsBoundary e.start source.toList
      ∧ Text.IsBoundary e.stop source.toList)
    ⟨fun ⟨ordered, start, stop⟩ => ⟨ordered, start, stop⟩,
      fun ⟨ordered, start, stop⟩ => ⟨ordered, start, stop⟩⟩

/-- Edits that each fit a source, with different starts and apart from each other. -/
structure Separate (source : String) (edits : List Edit) : Prop where
  fits : ∀ e ∈ edits, e.Fits source
  distinct : edits.Pairwise fun a b => a.start ≠ b.start
  apart : edits.Pairwise Apart

instance (source : String) (edits : List Edit) : Decidable (Separate source edits) :=
  decidable_of_iff
    ((∀ e ∈ edits, e.Fits source) ∧ (edits.Pairwise fun a b => a.start ≠ b.start)
      ∧ edits.Pairwise Apart)
    ⟨fun ⟨fits, distinct, apart⟩ => ⟨fits, distinct, apart⟩,
      fun ⟨fits, distinct, apart⟩ => ⟨fits, distinct, apart⟩⟩

variable {source : String} {edits edits' row : List Edit} {cursor : Nat}

/-! ### From left to right -/

/-- The rest of a text from byte `cursor` on, and what becomes of it when edits are made that are
listed from left to right: the text up to each edit is kept, that of the edit stands in the place of
the old one, and the text after the last edit is kept. -/
inductive Patched : Nat → List Char → List Edit → List Char → Prop where
  | nil {cursor : Nat} {rest : List Char} : Patched cursor rest [] rest
  | cons {cursor : Nat} {kept old rest changed : List Char} {e : Edit} {edits : List Edit}
      (start : cursor + Text.byteLength kept = e.start)
      (stop : e.start + Text.byteLength old = e.stop)
      (next : Patched e.stop rest edits changed) :
      Patched cursor (kept ++ old ++ rest) (e :: edits) (kept ++ e.text.toList ++ changed)

/-- Edits that are listed from left to right, with no two over one another. -/
def Lined (edits : List Edit) : Prop := edits.Pairwise fun a b => a.stop ≤ b.start

theorem exists_patched {before rest : List Char} (hsource : source.toList = before ++ rest)
    (hfits : ∀ e ∈ row, e.Fits source) (hlined : Lined row)
    (hahead : ∀ e ∈ row, Text.byteLength before ≤ e.start) :
  ∃ changed, Patched (Text.byteLength before) rest row changed
  := by
  induction row generalizing before rest with
  | nil => exact ⟨rest, .nil⟩
  | cons e row ih =>
    obtain ⟨hfit, hfits⟩ := List.forall_mem_cons.mp hfits
    obtain ⟨hlater, hlined⟩ := List.pairwise_cons.mp hlined
    obtain ⟨upto, old, after, hparts, hupto, hold⟩ :=
      hfit.start.exists_parts hfit.stop hfit.ordered
    obtain ⟨kept, rfl, rfl⟩ :
      ∃ kept, upto = before ++ kept ∧ rest = kept ++ (old ++ after) := by
      apply Text.exists_eq_append_of_byteLength_le
      · rw [← hsource, hparts, List.append_assoc]
      · rw [hupto]
        apply hahead e List.mem_cons_self
    have hreach : Text.byteLength (before ++ kept ++ old) = e.stop := by
      rw [Text.byteLength_append, hold]
    obtain ⟨changed, hchanged⟩ := ih hparts hfits hlined (by rwa [hreach])
    rw [hreach] at hchanged
    use kept ++ e.text.toList ++ changed
    rw [← List.append_assoc]
    apply Patched.cons _ _ hchanged
    · rw [← hupto, Text.byteLength_append]
    · rw [← hupto, hold]

/-- The one pass of `renderFrom` makes edits from left to right, and finds no flaw. -/
theorem Patched.renderFrom_eq {before rest changed : List Char}
    (h : Patched cursor rest row changed) (hsource : source.toList = before ++ rest)
    (hcursor : Text.byteLength before = cursor) :
  renderFrom source cursor row = String.ofList changed ∧ flawFrom? source cursor row = none
  := by
  induction h generalizing before with
  | nil =>
    subst hcursor
    have hboundary : Text.IsBoundary (Text.byteLength before) source.toList :=
      ⟨before, _, hsource, rfl⟩
    have hend : Text.IsBoundary source.utf8ByteSize source.toList := by
      use source.toList, []
      rw [Text.utf8ByteSize_eq_byteLength]
      simp
    have hmax : max (Text.byteLength before) source.utf8ByteSize = source.utf8ByteSize := by
      rw [Text.utf8ByteSize_eq_byteLength]
      apply Nat.max_eq_right hboundary.le
    rw [renderFrom, flawFrom?, hmax]
    exact ⟨Text.slice_from hsource, copyFlaw?_eq_none hboundary hend⟩
  | @cons cursor kept old rest changed e row start stop next ih =>
    subst hcursor
    have hparts : source.toList = before ++ kept ++ (old ++ rest) := by
      rw [hsource]
      simp
    have hfront : Text.IsBoundary (Text.byteLength before) source.toList :=
      ⟨before, _, hsource, rfl⟩
    have hstart : Text.IsBoundary e.start source.toList := by
      use before ++ kept, old ++ rest, hparts
      rw [Text.byteLength_append, start]
    have hkept : Text.slice source (Text.byteLength before) e.start = String.ofList kept := by
      rw [← start]
      apply Text.slice_eq hparts
    have hahead : ¬ e.start < Text.byteLength before := by omega
    obtain ⟨hrender, hflaw⟩ := @ih (before ++ kept ++ old) (by rw [hparts]; simp)
      (by rw [Text.byteLength_append, Text.byteLength_append, start, stop])
    constructor
    · rw [renderFrom, hkept, hrender, ← String.toList_inj]
      simp
    · rw [flawFrom?, if_neg hahead, copyFlaw?_eq_none hfront hstart, hflaw]
      rfl

/-! ### One after the other -/

/-- Edits that are made one after the other: each can be made in the text that the one before has
left, and puts its text there in the place of the bytes that it names. -/
inductive InTurn : String → List Edit → String → Prop where
  | nil {source : String} : InTurn source [] source
  | cons {source changed : String} {e : Edit} {edits : List Edit}
      (makes : e.Makes source (render source [e]))
      (next : InTurn (render source [e]) edits changed) : InTurn source (e :: edits) changed

theorem InTurn.concat {source middle : String} {e : Edit} (h : InTurn source edits middle)
    (hmakes : e.Makes middle (render middle [e])) :
  InTurn source (edits ++ [e]) (render middle [e])
  := by
  induction h with
  | nil => exact .cons hmakes .nil
  | cons makes next ih => exact .cons makes (ih hmakes)

theorem Fits.makes {e : Edit} (h : e.Fits source) :
  e.Makes source (render source [e])
  := makes_render h.start h.stop h.ordered

/-- An edit of the bytes between two parts of a text. -/
theorem fits_of_parts {before old after : List Char} {e : Edit}
    (hstart : Text.byteLength before = e.start)
    (hstop : e.start + Text.byteLength old = e.stop) :
  e.Fits (String.ofList (before ++ old ++ after))
  := by
  constructor
  · omega
  · use before, old ++ after
    simp [hstart]
  · use before ++ old, after
    simp [hstart, hstop]

theorem render_of_parts {before old after : List Char} {e : Edit}
    (hstart : Text.byteLength before = e.start)
    (hstop : e.start + Text.byteLength old = e.stop) :
  render (String.ofList (before ++ old ++ after)) [e]
    = String.ofList (before ++ e.text.toList ++ after)
  := by
  apply (fits_of_parts hstart hstop).makes.spliced.unique
  use before, old, after
  simp [hstart, hstop]

/-- Edits listed from left to right can be made one after the other from the last one on, behind
any text of as many bytes as stand before them. -/
theorem Patched.inTurn {before rest changed : List Char} (h : Patched cursor rest row changed)
    (hcursor : Text.byteLength before = cursor) :
  InTurn (String.ofList (before ++ rest)) row.reverse (String.ofList (before ++ changed))
  := by
  induction h generalizing before with
  | nil => exact .nil
  | @cons cursor kept old rest changed e row start stop next ih =>
    subst hcursor
    have hstart : Text.byteLength (before ++ kept) = e.start := by
      rw [Text.byteLength_append, start]
    -- The edits at the right leave what stands before them as it is, and so the bytes of `e`.
    have hright := @ih (before ++ kept ++ old) (by rw [Text.byteLength_append, hstart, stop])
    have hturn := hright.concat (fits_of_parts hstart stop).makes
    rw [render_of_parts hstart stop] at hturn
    rw [List.reverse_cons]
    simpa using hturn

/-! ### In any order -/

/-- Edits that are listed by their starts, which are different. -/
def Ascending (edits : List Edit) : Prop := edits.Pairwise fun a b => a.start < b.start

theorem inOrder_perm (edits : List Edit) :
  (inOrder edits).Perm edits
  := List.mergeSort_perm _ _

theorem ascending_inOrder (hdistinct : edits.Pairwise fun a b => a.start ≠ b.start) :
  Ascending (inOrder edits)
  := by
  have hsorted : (inOrder edits).Pairwise fun a b => decide (a.start ≤ b.start) = true := by
    apply List.pairwise_mergeSort
    · intro a b c
      simp only [decide_eq_true_eq]
      apply Nat.le_trans
    · intro a b
      simp only [Bool.or_eq_true, decide_eq_true_eq]
      apply Nat.le_total
  have hne := hdistinct.perm (inOrder_perm edits).symm Ne.symm
  apply hsorted.imp₂ _ hne
  intro a b hle hne
  rw [decide_eq_true_eq] at hle
  omega

/-- Edits with different starts can be listed by them in one way only. -/
theorem Ascending.eq_of_perm {row row' : List Edit} (h : Ascending row) (h' : Ascending row')
    (hperm : row.Perm row') :
  row = row'
  := by
  apply hperm.eq_of_pairwise _ h h'
  intro a b _ _ hlt hgt
  omega

theorem Separate.perm (h : Separate source edits) (hperm : edits'.Perm edits) :
  Separate source edits'
  where
    fits e he := h.fits e (hperm.mem_iff.mp he)
    distinct := h.distinct.perm hperm.symm Ne.symm
    apart := h.apart.perm hperm.symm Apart.symm

theorem lined_inOrder (h : Separate source edits) :
  Lined (inOrder edits)
  := by
  have hsorted := h.perm (inOrder_perm edits)
  have hascending := ascending_inOrder h.distinct
  apply List.Pairwise.imp_of_mem _ (hascending.and hsorted.apart)
  intro a b _ hb ⟨hlt, hapart⟩
  have hordered := (hsorted.fits b hb).ordered
  rcases hapart with hbefore | hafter
  · exact hbefore
  · omega

theorem patched_render (h : Separate source edits) :
  Patched 0 source.toList (inOrder edits) (render source edits).toList ∧ flaw? source edits = none
  := by
  have hsorted := h.perm (inOrder_perm edits)
  obtain ⟨changed, hchanged⟩ := exists_patched (List.nil_append source.toList).symm hsorted.fits
    (lined_inOrder h) (fun _ _ => Nat.zero_le _)
  obtain ⟨hrender, hflaw⟩ := hchanged.renderFrom_eq (List.nil_append _).symm rfl
  rw [Text.byteLength_nil] at hchanged hrender hflaw
  rw [render, hrender, String.toList_ofList]
  exact ⟨hchanged, hflaw⟩

/-! ### Edits that cannot be made -/

theorem lined_of_flawFrom?_eq_none (h : flawFrom? source cursor row = none)
    (hordered : ∀ e ∈ row, e.start ≤ e.stop) :
  Lined row ∧ ∀ e ∈ row, cursor ≤ e.start
  := by
  induction row generalizing cursor with
  | nil => exact ⟨.nil, by simp⟩
  | cons e row ih =>
    obtain ⟨hfirst, hordered⟩ := List.forall_mem_cons.mp hordered
    rw [flawFrom?] at h
    split at h
    case isTrue => cases h
    case isFalse hahead =>
      rw [Option.or_eq_none_iff] at h
      obtain ⟨hlined, hlater⟩ := ih h.2 hordered
      constructor
      · exact List.pairwise_cons.mpr ⟨hlater, hlined⟩
      · rw [List.forall_mem_cons]
        constructor
        · omega
        · intro b hb
          have := hlater b hb
          omega

/-- Of edits that fit a source and have different starts, the ones that can be made together are
those that are apart. -/
theorem flaw?_eq_none_iff_apart (hfits : ∀ e ∈ edits, e.Fits source)
    (hdistinct : edits.Pairwise fun a b => a.start ≠ b.start) :
  flaw? source edits = none ↔ edits.Pairwise Apart
  := by
  constructor
  · intro hflaw
    obtain ⟨hlined, -⟩ := lined_of_flawFrom?_eq_none hflaw fun e he =>
      (hfits e ((inOrder_perm edits).mem_iff.mp he)).ordered
    apply List.Pairwise.perm _ (inOrder_perm edits) Apart.symm
    exact hlined.imp .inl
  · intro hapart
    exact (patched_render ⟨hfits, hdistinct, hapart⟩).2

/-! ### Rendering -/

theorem render_nil (source : String) :
  render source [] = source
  := by
  have hslice := Text.slice_from (List.nil_append source.toList).symm
  rw [Text.byteLength_nil, String.ofList_toList] at hslice
  rw [render, inOrder, List.mergeSort_nil, renderFrom, hslice]

/-- Separate edits can be made together. Rendering keeps all the text between them in order, and
leaves what they leave when they are made one after the other from the right to the left, in
whatever order they are listed; without edits it leaves the source. -/
theorem render_separate (h : Separate source edits) :
  flaw? source edits = none
    ∧ (∃ row, row.Perm edits ∧ Ascending row
        ∧ Patched 0 source.toList row (render source edits).toList
        ∧ InTurn source row.reverse (render source edits))
    ∧ (∀ edits', edits'.Perm edits →
        flaw? source edits' = none ∧ render source edits' = render source edits)
    ∧ render source [] = source
  := by
  obtain ⟨hpatched, hflaw⟩ := patched_render h
  have hturn := hpatched.inTurn Text.byteLength_nil
  rw [List.nil_append, List.nil_append, String.ofList_toList, String.ofList_toList] at hturn
  refine ⟨hflaw, ?_, ?_, render_nil source⟩
  · use inOrder edits, inOrder_perm edits, ascending_inOrder h.distinct, hpatched
  · intro edits' hperm
    have h' := h.perm hperm
    constructor
    · exact (patched_render h').2
    · have hrow : inOrder edits' = inOrder edits := by
        apply (ascending_inOrder h'.distinct).eq_of_perm (ascending_inOrder h.distinct)
        exact (inOrder_perm edits').trans (hperm.trans (inOrder_perm edits).symm)
      rw [render, render, hrow]

/-- A longer text, an insertion where that one ends, and a deletion of a character of two bytes,
which are not listed in order. -/
theorem render_separate_product :
  let source := "é * b + c"
  let edits : List Edit := [⟨5, 5, "("⟩, ⟨9, 10, "d)"⟩, ⟨3, 5, "/ 2 − "⟩, ⟨0, 2, ""⟩]
  Separate source edits
    ∧ flaw? source edits = none
    ∧ (∃ row, row.Perm edits ∧ Ascending row
        ∧ Patched 0 source.toList row (render source edits).toList
        ∧ InTurn source row.reverse (render source edits))
    ∧ (∀ edits', edits'.Perm edits →
        flaw? source edits' = none ∧ render source edits' = render source edits)
    ∧ render source [] = source
  := by
  intro source edits
  have hseparate : Separate source edits := by decide
  exact ⟨hseparate, render_separate hseparate⟩

example : render "é * b + c" [⟨5, 5, "("⟩, ⟨9, 10, "d)"⟩, ⟨3, 5, "/ 2 − "⟩, ⟨0, 2, ""⟩]
    = " / 2 − (b + d)" := by cbv

end Edit

end MutationTesting
