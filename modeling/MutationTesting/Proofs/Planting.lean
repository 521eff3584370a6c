import Mathlib.Tactic.Common
import MutationTesting.Planting
import MutationTesting.Proofs.Operator
import MutationTesting.Proofs.Text.Occurrence
import MutationTesting.Proofs.Text.Trim
import MutationTesting.Proofs.Tree.WellFormed

/-!
# What planting does to a text

Changing a line changes nothing else (`onLine_of_hasLine`, `exists_of_onLine`), and a line
that holds the fragment is commented out (`disable_of_hasLine`). In a well-formed tree the
search for conditionals finds all that start on a line (`walk_conditionalsOn`), so that it finds
a conditional by its position, and the edit made there is a splice.
-/

namespace MutationTesting.Planting

/-! ### Lines -/

/-- Changing line `n` leaves what stands before and after it as it is. -/
theorem onLine_of_hasLine {source : String} {n : Nat} {before line after : List Char}
    (h : Text.HasLine source.toList n before line after)
    (change : List Char → Except PlantingError (List Char)) :
  onLine source n change
    = (change line).map fun text => String.ofList (before ++ text ++ after)
  := by
  obtain ⟨above, below, hlines, rfl, hjoin⟩ := h.splitLines_eq
  rw [onLine, hlines, if_neg (Nat.succ_ne_zero above.length), Nat.add_sub_cancel]
  simp only [List.getElem?_append_right (Nat.le_refl _), Nat.sub_self, List.getElem?_cons_zero]
  congr
  funext text
  rw [List.set_append_right _ _ (Nat.le_refl _), Nat.sub_self, List.set_cons_zero, hjoin]

/-- A line that the source does not have is not changed. -/
theorem onLine_of_outOfRange {source : String} {n : Nat}
    (h : n = 0 ∨ source.toList.count '\n' + 1 < n)
    (change : List Char → Except PlantingError (List Char)) :
  onLine source n change = .error (.lineOutOfRange n (source.toList.count '\n' + 1))
  := by
  rw [← Text.length_splitLines] at h ⊢
  obtain rfl | hn := h
  · rfl
  · have hnone : (Text.splitLines source.toList)[n - 1]? = none := by
      rw [List.getElem?_eq_none_iff]
      omega
    unfold onLine
    dsimp only
    rw [hnone, if_neg (by omega)]

/-- A change of a line that succeeds is one of a line that the source has. -/
theorem exists_of_onLine {source changed : String} {n : Nat}
    {change : List Char → Except PlantingError (List Char)}
    (h : onLine source n change = .ok changed) :
  ∃ before line after text, Text.HasLine source.toList n before line after
    ∧ change line = .ok text ∧ changed = String.ofList (before ++ text ++ after)
  := by
  have hchange := h
  unfold onLine at h
  dsimp only at h
  split at h
  · cases h
  · next hn =>
    split at h
    · cases h
    · next line hline =>
      obtain ⟨before, after, hhas⟩ := Text.exists_hasLine_of_getElem? hline
      rw [Nat.sub_add_cancel (Nat.pos_of_ne_zero hn)] at hhas
      rw [onLine_of_hasLine hhas] at hchange
      cases htext : change line with
      | error e =>
        rw [htext] at hchange
        cases hchange
      | ok text =>
        rw [htext] at hchange
        use before, line, after, text, hhas, htext
        exact (Except.ok.inj hchange).symm

/-- A line in which the trimmed fragment occurs is commented out. -/
theorem disable_of_hasLine {g : Grammar} {m : Mutation} {source : String}
    {before line after : List Char} (h : Text.HasLine source.toList m.line before line after)
    (hfragment : Text.trim m.fragment.toList ≠ [])
    (hoccurs : Text.occursIn (Text.trim m.fragment.toList) line = true) :
  disable g m source
    = .ok (String.ofList (before
        ++ (Text.indent line ++ g.disableMarker.toList ++ Text.trimStart line) ++ after))
  := by
  rw [disable, onLine_of_hasLine h, if_neg]
  · rfl
  · rw [hoccurs]
    simpa using hfragment

/-- Commenting a line out changes the text. -/
theorem ne_of_disabled {g : Grammar} {source changed : String} {n : Nat}
    {before line after : List Char} (h : Text.HasLine source.toList n before line after)
    (hchanged : changed.toList = before
      ++ (Text.indent line ++ g.disableMarker.toList ++ Text.trimStart line) ++ after) :
  changed ≠ source
  := by
  rintro rfl
  rw [h.parts, List.append_left_inj, List.append_right_inj] at hchanged
  have hline := congrArg List.length (Text.indent_append_trimStart line)
  have hlength := congrArg List.length hchanged
  rw [Grammar.disableMarker, String.toList_append] at hlength
  simp only [List.length_append] at hline hlength
  have : " MUTANT: ".toList.length = 9 := rfl
  omega

/-! ### Conditionals -/

theorem foldl_filter_append {α : Type} (p : α → Bool) (found all : List α) :
  all.foldl (fun found a => if p a then found ++ [a] else found) found = found ++ all.filter p
  := by
  induction all generalizing found with
  | nil => simp
  | cons a all ih =>
    rw [List.foldl_cons, ih, List.filter_cons]
    split <;> simp

/-- The search for the conditionals on a line finds them all, although it leaves out what is
below a node that starts on a later line. -/
theorem walk_conditionalsOn {tree : SyntaxTree}
    (hspanned : ∀ node ∈ tree.nodes, node.Spanned tree.source) (line : Nat) :
  tree.walk (conditionalsOn tree.language.grammar tree.source line) []
    = tree.nodes.filter fun node =>
        (node.position tree.source).line = line
          && tree.language.grammar.ifKinds.contains node.kind
  := by
  rw [SyntaxTree.walk_eq, SyntaxNode.walk_eq_foldl_preorder
    (f := fun found node =>
      if (node.position tree.source).line = line
          && tree.language.grammar.ifKinds.contains node.kind then found ++ [node]
      else found)]
  · rw [foldl_filter_append, List.nil_append, SyntaxTree.nodes]
  · intro found node ctx
    unfold conditionalsOn
    dsimp only
    split_ifs <;> simp_all
  · intro found node ctx hnode hskip below hbelow found
    unfold conditionalsOn at hskip
    dsimp only at hskip
    split_ifs at hskip with hlater
    have hline := SyntaxNode.line_le_of_mem_preorder
      (fun other hother => hspanned other (SyntaxNode.mem_preorder_trans hother hnode)) hbelow
    rw [if_neg]
    simp
    omega

/-- A conditional of a well-formed tree is found by its position. -/
theorem findConditional?_position {tree : SyntaxTree} (hwf : tree.WellFormed)
    {node : SyntaxNode} (hnode : node ∈ tree.nodes)
    (hif : tree.language.grammar.ifKinds.contains node.kind = true) :
  findConditional? tree (node.position tree.source) = some node
  := by
  rw [findConditional?, walk_conditionalsOn hwf.spanned]
  have hmem : node ∈ tree.nodes.filter fun other =>
      (other.position tree.source).line = (node.position tree.source).line
        && tree.language.grammar.ifKinds.contains other.kind := by
    apply List.mem_filter.mpr
    use hnode
    rw [hif, decide_eq_true rfl]
    rfl
  have hsome := List.find?_isSome
    (p := fun other : SyntaxNode => other.position tree.source == node.position tree.source)
    |>.mpr ⟨node, hmem, by simp⟩
  obtain ⟨found, hfound⟩ := Option.isSome_iff_exists.mp hsome
  have hposition := List.find?_some hfound
  obtain ⟨hnodes, hkind⟩ := List.mem_filter.mp (List.mem_of_find?_eq_some hfound)
  rw [Bool.and_eq_true] at hkind
  rw [hfound, Option.some_or, hwf.eq_of_position_eq hnodes hnode hkind.2
    (tree.language.eq_of_ifKinds hkind.2 hif) (beq_iff_eq.mp hposition)]

/-- A mutation that has the position of a conditional makes its edit there. -/
theorem transform_of_position {parser : Parser} {tree : SyntaxTree} (hwf : tree.WellFormed)
    (hparse : SyntaxTree.parse parser tree.language tree.source = .ok tree)
    {node : SyntaxNode} (hnode : node ∈ tree.nodes)
    (hif : tree.language.grammar.ifKinds.contains node.kind = true) {m : Mutation}
    (hposition : ⟨m.line, m.column⟩ = node.position tree.source) {edit : Edit}
    (hedit : (if m.kind = .elseRemoval then elseRemovalEdit node m.line
      else negationEdit tree.language.grammar tree.source node m) = .ok edit) :
  transform parser tree.language m tree.source = .ok (Edit.render tree.source [edit])
  := by
  rw [transform, hparse, hposition]
  dsimp only
  rw [findConditional?_position hwf hnode hif]
  dsimp only
  split at hedit
  · next hremoval =>
    rw [if_pos hremoval, hedit]
    rfl
  · next hnegation =>
    rw [if_neg hnegation, hedit]
    rfl

theorem negationEdit_of_fragment {g : Grammar} {source : String} {node condition : SyntaxNode}
    {m : Mutation} (hcondition : node.child? .condition = some condition)
    (hnegatable : g.unnegatableConditions.contains condition.kind = false)
    (hfragment : m.fragment = condition.text source) :
  negationEdit g source node m = .ok (.replace condition (g.negate m.fragment))
  := by
  rw [negationEdit, hcondition]
  dsimp only
  rw [hnegatable, if_neg Bool.false_ne_true, if_pos hfragment.symm, hfragment]

end MutationTesting.Planting
