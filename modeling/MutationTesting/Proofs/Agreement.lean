import Mathlib.Tactic.Common
import MutationTesting.Proofs.Discovery
import MutationTesting.Proofs.Planting.Substitution
import MutationTesting.Tree.Indented.Statement

/-!
# What is discovered can be planted

`Planted` says what a mutation of a node makes of a source: the span of the node is
replaced, its line is commented out, or the condition or the alternatives of a conditional
change. Every mutation that is discovered in a well-formed tree can be planted in the
source, changes it, and changes it in this way.
-/

namespace MutationTesting

/-- What a mutation of a node makes of the source of its tree. -/
inductive Planted (tree : SyntaxTree) (node : SyntaxNode) (m : Mutation) (changed : String) :
    Prop where
  | substituted (hkind : m.kind.strategy = .substitute)
      (h : Text.Spliced tree.source node.info.start node.info.stop m.replacement changed) :
      Planted tree node m changed
  | disabled {before line after : List Char} (hkind : m.kind = .statementRemoval)
      (hline : Text.HasLine tree.source.toList m.line before line after)
      (h : changed.toList = before ++ (Text.indent line
        ++ tree.language.grammar.disableMarker.toList ++ Text.trimStart line) ++ after) :
      Planted tree node m changed
  | negated {condition : SyntaxNode} (hkind : m.kind = .conditionNegation)
      (hcondition : node.child? .condition = some condition)
      (h : Text.Spliced tree.source condition.info.start condition.info.stop m.mutated
        changed) :
      Planted tree node m changed
  | shortened {consequence last : SyntaxNode} (hkind : m.kind = .elseRemoval)
      (hconsequence : node.child? .consequence = some consequence)
      (hlast : (node.fillers .alternative).getLast? = some last)
      (h : Text.Spliced tree.source consequence.info.stop last.info.stop "" changed) :
      Planted tree node m changed

section Cases

variable {tree : SyntaxTree} {node : SyntaxNode} {parser : Parser} {m : Mutation}

/-- A fragment that a change exchanges is replaced where its node stands. -/
theorem planted_of_exchanges (hwf : tree.WellFormed) (hnode : node ∈ tree.nodes)
    (hkind : m.kind.strategy = .substitute) (hline : m.line = (node.position tree.source).line)
    (hcolumn : m.column = (node.position tree.source).column)
    (hfragment : m.fragment = node.text tree.source) (hunbroken : '\n' ∉ m.fragment.toList)
    (hne : m.replacement ≠ m.fragment) :
  ∃ changed, m.apply parser tree.source = .ok changed ∧ changed ≠ tree.source
    ∧ Planted tree node m changed
  := by
  obtain ⟨before, after, hsource, hstart, hstop⟩ := (hwf.spanned node hnode).exists_parts
  have hsplice : Text.Spliced tree.source node.info.start node.info.stop m.replacement
      (String.ofList (before ++ m.replacement.toList ++ after)) := by
    use before, (node.text tree.source).toList, after, hsource, hstart, hstop
    apply String.toList_ofList
  use String.ofList (before ++ m.replacement.toList ++ after)
  refine ⟨?_, ?_, Planted.substituted hkind hsplice⟩
  · rw [Mutation.apply, hkind]
    dsimp only
    rw [hline, hcolumn]
    rw [← hfragment] at hsource
    apply Planting.substitute_of_append hsource hunbroken
    rw [hstart, SyntaxNode.position]
  · apply hsplice.ne
    rw [hfragment] at hne
    exact hne

/-- The line of a return statement holds what is left of the first line of the statement
when that is trimmed. -/
theorem exists_line_of_return (hwf : tree.WellFormed) (hnode : node ∈ tree.nodes)
    (hreturn : tree.language.grammar.returnKinds.contains node.kind = true) :
  ∃ before line after,
    Text.HasLine tree.source.toList (node.position tree.source).line before line after
      ∧ Text.trim (Offer.firstLine (node.text tree.source)).toList ≠ []
      ∧ Text.occursIn (Text.trim (Offer.firstLine (node.text tree.source)).toList) line = true
  := by
  obtain ⟨before, after, hsource, hstart, -⟩ := (hwf.spanned node hnode).exists_parts
  obtain ⟨c, hc, hvisible⟩ := (Option.any_eq_true _ _).mp
    ((hwf.shaped node hnode).returned hreturn)
  obtain ⟨cs, hcs⟩ := List.head?_eq_some_iff.mp hc
  have hblank : Text.isBlank c = false := by simpa using hvisible
  obtain ⟨line, rest, htext, hline, hfirst⟩ := Text.exists_firstLine hcs hblank
  obtain ⟨⟨more, hmore⟩, hne⟩ := Text.trim_trimEnd_cons hblank line
  obtain ⟨above, left, right, below, -, -, hhas, -⟩ :=
    Text.exists_hasLine before (c :: line) (rest ++ after) hline
  have hparts : before ++ c :: line ++ (rest ++ after) = tree.source.toList := by
    rw [hsource, htext]
    simp
  rw [hparts, hstart] at hhas
  have hoccurs := Text.occursIn_append left (Text.trim (Text.trimEnd (c :: line)))
    (more ++ right)
  rw [List.append_assoc, ← List.append_assoc _ more, hmore, ← List.append_assoc] at hoccurs
  rw [Offer.firstLine, String.toList_ofList, hfirst]
  exact ⟨above, left ++ c :: line ++ right, below, hhas, hne, hoccurs⟩

theorem Mutation.language_eq {language : Language}
    (h : Language.ofPath? m.file = some language) :
  m.language = .ok language
  := by
  rw [Mutation.language, h]

/-- A return statement is commented out. -/
theorem planted_of_return (hwf : tree.WellFormed) (hnode : node ∈ tree.nodes)
    (hreturn : tree.language.grammar.returnKinds.contains node.kind = true)
    (hfile : Language.ofPath? m.file = some tree.language)
    (hkind : m.kind = .statementRemoval) (hline : m.line = (node.position tree.source).line)
    (hfragment : m.fragment = Offer.firstLine (node.text tree.source)) :
  ∃ changed, m.apply parser tree.source = .ok changed ∧ changed ≠ tree.source
    ∧ Planted tree node m changed
  := by
  obtain ⟨before, line, after, hhas, hne, hoccurs⟩ := exists_line_of_return hwf hnode hreturn
  rw [← hline] at hhas
  rw [← hfragment] at hne hoccurs
  use String.ofList (before ++ (Text.indent line
    ++ tree.language.grammar.disableMarker.toList ++ Text.trimStart line) ++ after)
  refine ⟨?_, ?_, Planted.disabled hkind hhas (String.toList_ofList)⟩
  · rw [Mutation.apply, hkind, Mutation.language_eq hfile]
    apply Planting.disable_of_hasLine hhas hne hoccurs
  · apply Planting.ne_of_disabled hhas String.toList_ofList

/-- The condition of a conditional is negated. -/
theorem planted_of_negation (hwf : tree.WellFormed) (hnode : node ∈ tree.nodes)
    (hif : tree.language.grammar.ifKinds.contains node.kind = true)
    (hparse : SyntaxTree.parse parser tree.language tree.source = .ok tree)
    (hfile : Language.ofPath? m.file = some tree.language)
    (hkind : m.kind = .conditionNegation)
    (hposition : ⟨m.line, m.column⟩ = node.position tree.source)
    {condition : SyntaxNode} (hcondition : node.child? .condition = some condition)
    (hnegatable : tree.language.grammar.unnegatableConditions.contains condition.kind = false)
    (hfragment : m.fragment = condition.text tree.source)
    (hmutated : m.mutated = tree.language.grammar.negate m.fragment) :
  ∃ changed, m.apply parser tree.source = .ok changed ∧ changed ≠ tree.source
    ∧ Planted tree node m changed
  := by
  have hspanned : condition.Spanned tree.source := by
    apply hwf.spanned
    apply SyntaxTree.mem_nodes_of_mem_children hnode (SyntaxNode.mem_children_of_child? hcondition)
  have hsplice := Edit.spliced_render (e := .replace condition m.mutated) hspanned.start
    hspanned.stop hspanned.start_le_stop
  refine ⟨_, ?_, ?_, Planted.negated hkind hcondition hsplice⟩
  · rw [Mutation.apply, hkind, Mutation.language_eq hfile]
    apply Planting.transform_of_position hwf hparse hnode hif hposition
    rw [hkind, if_neg (by decide),
      Planting.negationEdit_of_fragment hcondition hnegatable hfragment, hmutated]
  · apply hsplice.ne
    rw [Edit.replace, hmutated, hfragment]
    apply Grammar.negate_ne

/-- The alternatives of a conditional are removed. -/
theorem planted_of_removal (hwf : tree.WellFormed) (hnode : node ∈ tree.nodes)
    (hif : tree.language.grammar.ifKinds.contains node.kind = true)
    (hparse : SyntaxTree.parse parser tree.language tree.source = .ok tree)
    (hfile : Language.ofPath? m.file = some tree.language) (hkind : m.kind = .elseRemoval)
    (hposition : ⟨m.line, m.column⟩ = node.position tree.source)
    (halternative : (node.child? .alternative).isSome = true) :
  ∃ changed, m.apply parser tree.source = .ok changed ∧ changed ≠ tree.source
    ∧ Planted tree node m changed
  := by
  obtain ⟨last, hlast⟩ := SyntaxNode.exists_last_filler halternative
  obtain ⟨consequence, hconsequence, hlt⟩ :=
    (hwf.shaped node hnode).alternative hif last hlast
  have hstart : Text.IsBoundary consequence.info.stop tree.source.toList := by
    apply (hwf.spanned consequence _).stop
    apply SyntaxTree.mem_nodes_of_mem_children hnode
      (SyntaxNode.mem_children_of_child? hconsequence)
  have hstop : Text.IsBoundary last.info.stop tree.source.toList := by
    apply (hwf.spanned last _).stop
    apply SyntaxTree.mem_nodes_of_mem_children hnode
    apply SyntaxNode.mem_children_of_mem_fillers (List.mem_of_getLast? hlast)
  have hsplice := Edit.spliced_render (e := .delete consequence.info.stop last.info.stop)
    hstart hstop hlt.le
  refine ⟨_, ?_, ?_, Planted.shortened hkind hconsequence hlast hsplice⟩
  · rw [Mutation.apply, hkind, Mutation.language_eq hfile]
    apply Planting.transform_of_position hwf hparse hnode hif hposition
    rw [hkind, if_pos rfl, Planting.elseRemovalEdit, hconsequence, hlast]
  · apply hsplice.ne_of_lt hlt

/-- A mutation that takes up an offer that rests on a well-formed tree can be planted. -/
theorem planted_of_grounded (hwf : tree.WellFormed)
    (hparse : SyntaxTree.parse parser tree.language tree.source = .ok tree) {file : String}
    (hfile : Language.ofPath? file = some tree.language) {offer : Offer}
    (h : offer.Grounded tree) {i : Nat} (hm : m = offer.toMutation tree.source file i) :
  ∃ changed, m.apply parser tree.source = .ok changed ∧ changed ≠ tree.source
    ∧ Planted tree offer.node m changed
  := by
  subst hm
  cases h with
  | exchange hnode hchange =>
    exact planted_of_exchanges hwf hnode hchange.substitutes rfl rfl rfl hchange.unbroken
      hchange.ne
  | statement hnode hreturn => exact planted_of_return hwf hnode hreturn hfile rfl rfl rfl
  | negation hnode hif hcondition hnegatable =>
    exact planted_of_negation hwf hnode hif hparse hfile rfl rfl hcondition hnegatable rfl rfl
  | removal hnode hif halternative =>
    exact planted_of_removal hwf hnode hif hparse hfile rfl rfl halternative

end Cases

/-- Every mutation that is discovered in a well-formed tree can be planted in the source of the
tree and changes it at the node that it was offered for. -/
theorem apply_of_mem_discover {parser : Parser} {language : Language} {source : String}
    {tree : SyntaxTree} (hparse : SyntaxTree.parse parser language source = .ok tree)
    (hwf : tree.WellFormed) {file : String} (hfile : Language.ofPath? file = some language)
    {scope : Scope} {catalog : List Mutation}
    (hcatalog : discover parser file language source scope = .ok catalog) {m : Mutation}
    (hm : m ∈ catalog) :
  ∃ offer ∈ tree.offers scope, (∃ i, m = offer.toMutation source file i)
    ∧ ∃ changed, m.apply parser source = .ok changed ∧ changed ≠ source
        ∧ Planted tree offer.node m changed
  := by
  obtain ⟨tree', hparse', hoffers⟩ := exists_offer_of_discover hcatalog
  obtain rfl := Except.ok.inj (hparse'.symm.trans hparse)
  obtain ⟨offer, hoffer, i, hi⟩ := hoffers m hm
  obtain rfl := SyntaxTree.eq_of_parse hparse
  use offer, hoffer, ⟨i, hi⟩
  exact planted_of_grounded hwf hparse hfile (Offer.grounded_of_mem_offers hoffer) hi

/-- The tree of the Python source `if a:⏎ return 1⏎else:⏎ b⏎`. -/
def SyntaxNode.branching : SyntaxNode :=
  Indented.module [Indented.node "if_statement" [
    Indented.leaf "if" false 0 2,
    Indented.filling .condition (Indented.leaf "identifier" true 3 4),
    Indented.leaf ":" false 4 5,
    Indented.filling .consequence (Indented.node "block" [
      Indented.node "return_statement" [
        Indented.leaf "return" false 7 13, Indented.leaf "integer" true 14 15]]),
    Indented.filling .alternative (Indented.node "else_clause" [
      Indented.leaf "else" false 16 20, Indented.leaf ":" false 20 21,
      Indented.node "block" [Indented.node "expression_statement" [
        Indented.leaf "identifier" true 23 24]]])]] 25

/-- The four mutations of a conditional that returns a number can be planted: the negation of
the condition, the removal of the alternative, the removal of the return statement and
another number. -/
theorem apply_of_mem_discover_branching :
  let source := "if a:\n return 1\nelse:\n b\n"
  let parser : Parser := fun _ _ => .branching
  let tree : SyntaxTree := ⟨.python, source, .branching⟩
  let catalog := (discover parser "a.py" .python source ⟨none, none⟩).toOption.getD []
  tree.WellFormed ∧ catalog.length = 4 ∧ ∀ m ∈ catalog,
    ∃ offer ∈ tree.offers ⟨none, none⟩, (∃ i, m = offer.toMutation source "a.py" i)
      ∧ ∃ changed, m.apply parser source = .ok changed ∧ changed ≠ source
          ∧ Planted tree offer.node m changed
  := by
  intro source parser tree catalog
  have hwf : tree.WellFormed := by decide +kernel
  have hfile : Language.ofPath? "a.py" = some .python := by decide +kernel
  have hlength : catalog.length = 4 := by decide +kernel
  have hcatalog : discover parser "a.py" .python source ⟨none, none⟩ = .ok catalog := by
    decide +kernel
  have hparse : SyntaxTree.parse parser .python source = .ok tree := by
    obtain ⟨parsed, hparsed, -⟩ := exists_offer_of_discover hcatalog
    rw [hparsed, SyntaxTree.eq_of_parse hparsed]
  refine ⟨hwf, hlength, ?_⟩
  intro m hm
  apply apply_of_mem_discover hparse hwf hfile hcatalog hm

end MutationTesting
