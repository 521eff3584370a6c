import Mathlib.Tactic.Common
import MutationTesting.Proofs.Agreement

/-!
# What changing a conditional does to a text

`SyntaxTree.conditionalAt?` says which conditional of a tree a position stands for, whether the
position is exact or stale: the one that starts there, else the first one that starts on the same
line. The search that leaves out what starts on a later line finds it (`findConditional?_eq`).
`Rewritten` says what becomes of the source when the condition of that conditional is negated or
its alternatives are removed, and in which cases nothing does and why. This is what applying a
structural mutation answers, whatever line, column and texts it has
(`Mutation.apply_eq_iff_rewritten`).
-/

namespace MutationTesting

namespace SyntaxTree

/-- The conditional that a position stands for: of all nodes of a tree in preorder the first
conditional that starts there, else the first one that starts on the same line. -/
def conditionalAt? (tree : SyntaxTree) (at_ : Text.Position) : Option SyntaxNode :=
  let conditionals := tree.nodes.filter fun node =>
    tree.language.grammar.ifKinds.contains node.kind
  (conditionals.find? fun node => node.position tree.source = at_).or
    (conditionals.find? fun node => (node.position tree.source).line = at_.line)

/-- All nodes of a tree span parts of its source, and no conditional has its last alternative end
before its consequence. -/
structure Laid (tree : SyntaxTree) : Prop where
  spanned : ∀ node ∈ tree.nodes, node.Spanned tree.source
  ordered : ∀ node ∈ tree.nodes, tree.language.grammar.ifKinds.contains node.kind = true →
    ∀ consequence ∈ node.child? .consequence, ∀ last ∈ (node.fillers .alternative).getLast?,
      consequence.info.stop ≤ last.info.stop

theorem WellFormed.laid {tree : SyntaxTree} (h : tree.WellFormed) :
  tree.Laid
  := by
  use h.spanned
  intro node hnode hif consequence hconsequence last hlast
  obtain ⟨consequence', hconsequence', hlt⟩ := (h.shaped node hnode).alternative hif last hlast
  cases Option.mem_unique hconsequence hconsequence'
  exact hlt.le

variable {tree : SyntaxTree} {at_ : Text.Position} {node : SyntaxNode}

theorem mem_nodes_of_conditionalAt? (h : tree.conditionalAt? at_ = some node) :
  node ∈ tree.nodes ∧ tree.language.grammar.ifKinds.contains node.kind = true
  := by
  obtain hexact | ⟨-, hline⟩ := Option.or_eq_some_iff.mp h
  · exact List.mem_filter.mp (List.mem_of_find?_eq_some hexact)
  · exact List.mem_filter.mp (List.mem_of_find?_eq_some hline)

end SyntaxTree

namespace Planting

/-- The search for a conditional finds the one that its position stands for. -/
theorem findConditional?_eq {tree : SyntaxTree}
    (hspanned : ∀ node ∈ tree.nodes, node.Spanned tree.source) (at_ : Text.Position) :
  findConditional? tree at_ = tree.conditionalAt? at_
  := by
  rw [findConditional?, walk_conditionalsOn hspanned, SyntaxTree.conditionalAt?]
  simp only [List.find?_filter, List.head?_filter]
  congr
  · funext node
    grind
  · funext node
    grind

/-- What becomes of a source when a structural mutation is applied: which edit is made in it, or
why none is. -/
inductive Rewritten (tree : SyntaxTree) (m : Mutation) : Except PlantingError String → Prop where
  /-- The position stands for no conditional. -/
  | missing (hmissing : tree.conditionalAt? ⟨m.line, m.column⟩ = none) :
      Rewritten tree m (.error (.noConditional m.line))
  /-- The bytes from the end of the consequence to the end of the last alternative go. -/
  | shortened {conditional consequence last : SyntaxNode} {changed : String}
      (hconditional : tree.conditionalAt? ⟨m.line, m.column⟩ = some conditional)
      (hkind : m.kind = .elseRemoval)
      (hconsequence : conditional.child? .consequence = some consequence)
      (hlast : (conditional.fillers .alternative).getLast? = some last)
      (hmakes : (Edit.delete consequence.info.stop last.info.stop).Makes tree.source changed) :
      Rewritten tree m (.ok changed)
  /-- The conditional has no consequence or no alternative. -/
  | whole {conditional : SyntaxNode}
      (hconditional : tree.conditionalAt? ⟨m.line, m.column⟩ = some conditional)
      (hkind : m.kind = .elseRemoval)
      (hwhole : conditional.child? .consequence = none
        ∨ conditional.fillers .alternative = []) :
      Rewritten tree m (.error (.noElseBranch m.line))
  /-- The conditional has no condition. -/
  | bare {conditional : SyntaxNode}
      (hconditional : tree.conditionalAt? ⟨m.line, m.column⟩ = some conditional)
      (hkind : m.kind = .conditionNegation)
      (hbare : conditional.child? .condition = none) :
      Rewritten tree m (.error (.noConditional m.line))
  /-- The condition is of a kind that cannot be negated. -/
  | unnegatable {conditional condition : SyntaxNode}
      (hconditional : tree.conditionalAt? ⟨m.line, m.column⟩ = some conditional)
      (hkind : m.kind = .conditionNegation)
      (hcondition : conditional.child? .condition = some condition)
      (hunnegatable : condition.kind ∈ tree.language.grammar.unnegatableConditions) :
      Rewritten tree m (.error (.notNegatable m.line))
  /-- The condition is not the one that was recorded. -/
  | altered {conditional condition : SyntaxNode}
      (hconditional : tree.conditionalAt? ⟨m.line, m.column⟩ = some conditional)
      (hkind : m.kind = .conditionNegation)
      (hcondition : conditional.child? .condition = some condition)
      (hnegatable : condition.kind ∉ tree.language.grammar.unnegatableConditions)
      (haltered : condition.text tree.source ≠ m.fragment) :
      Rewritten tree m (.error (.anchorNotFound m.fragment m.line))
  /-- The negation of the condition takes its place. -/
  | negated {conditional condition : SyntaxNode} {changed : String}
      (hconditional : tree.conditionalAt? ⟨m.line, m.column⟩ = some conditional)
      (hkind : m.kind = .conditionNegation)
      (hcondition : conditional.child? .condition = some condition)
      (hnegatable : condition.kind ∉ tree.language.grammar.unnegatableConditions)
      (hfragment : condition.text tree.source = m.fragment)
      (hmakes : (Edit.replace condition (tree.language.grammar.negate
        (condition.text tree.source))).Makes tree.source changed) :
      Rewritten tree m (.ok changed)

variable {tree : SyntaxTree} {parser : Parser} {m : Mutation} {conditional : SyntaxNode}

theorem kind_of_structural (h : m.kind.strategy = .structural) :
  m.kind = .conditionNegation ∨ m.kind = .elseRemoval
  := by
  cases hkind : m.kind <;> simp_all [MutationKind.strategy]

/-! ### The two edits -/

/-- The alternatives of a conditional can be removed. -/
theorem makes_removal (hlaid : tree.Laid)
    (hconditional : tree.conditionalAt? ⟨m.line, m.column⟩ = some conditional)
    {consequence last : SyntaxNode}
    (hconsequence : conditional.child? .consequence = some consequence)
    (hlast : (conditional.fillers .alternative).getLast? = some last) :
  (Edit.delete consequence.info.stop last.info.stop).Makes tree.source
    (Edit.render tree.source [.delete consequence.info.stop last.info.stop])
  := by
  obtain ⟨hnode, hif⟩ := SyntaxTree.mem_nodes_of_conditionalAt? hconditional
  apply Edit.makes_render
  · apply (hlaid.spanned consequence _).stop
    apply SyntaxTree.mem_nodes_of_mem_children hnode
      (SyntaxNode.mem_children_of_child? hconsequence)
  · apply (hlaid.spanned last _).stop
    apply SyntaxTree.mem_nodes_of_mem_children hnode
    apply SyntaxNode.mem_children_of_mem_fillers (List.mem_of_getLast? hlast)
  · exact hlaid.ordered conditional hnode hif consequence hconsequence last hlast

/-- The condition of a conditional can be replaced. -/
theorem makes_negation (hlaid : tree.Laid)
    (hconditional : tree.conditionalAt? ⟨m.line, m.column⟩ = some conditional)
    {condition : SyntaxNode} (hcondition : conditional.child? .condition = some condition)
    (text : String) :
  (Edit.replace condition text).Makes tree.source
    (Edit.render tree.source [.replace condition text])
  := by
  obtain ⟨hnode, -⟩ := SyntaxTree.mem_nodes_of_conditionalAt? hconditional
  have hspanned : condition.Spanned tree.source := by
    apply hlaid.spanned
    apply SyntaxTree.mem_nodes_of_mem_children hnode
      (SyntaxNode.mem_children_of_child? hcondition)
  exact Edit.makes_render hspanned.start hspanned.stop hspanned.start_le_stop

/-! ### What is answered -/

/-- One of the cases is always given. -/
theorem exists_rewritten (hlaid : tree.Laid) (hkind : m.kind.strategy = .structural) :
  ∃ answer, Rewritten tree m answer
  := by
  cases hconditional : tree.conditionalAt? ⟨m.line, m.column⟩ with
  | none => exact ⟨_, .missing hconditional⟩
  | some conditional =>
    obtain hnegation | hremoval := kind_of_structural hkind
    · cases hcondition : conditional.child? .condition with
      | none => exact ⟨_, .bare hconditional hnegation hcondition⟩
      | some condition =>
        by_cases hunnegatable : condition.kind ∈ tree.language.grammar.unnegatableConditions
        · exact ⟨_, .unnegatable hconditional hnegation hcondition hunnegatable⟩
        · by_cases hfragment : condition.text tree.source = m.fragment
          · exact ⟨_, .negated hconditional hnegation hcondition hunnegatable hfragment
              (makes_negation hlaid hconditional hcondition _)⟩
          · exact ⟨_, .altered hconditional hnegation hcondition hunnegatable hfragment⟩
    · cases hconsequence : conditional.child? .consequence with
      | none => exact ⟨_, .whole hconditional hremoval (.inl hconsequence)⟩
      | some consequence =>
        cases hlast : (conditional.fillers .alternative).getLast? with
        | none =>
          exact ⟨_, .whole hconditional hremoval (.inr (List.getLast?_eq_none_iff.mp hlast))⟩
        | some last =>
          exact ⟨_, .shortened hconditional hremoval hconsequence hlast
            (makes_removal hlaid hconditional hconsequence hlast)⟩

/-- A structural mutation of a source that parses answers as its conditional is. -/
theorem transform_eq (hspanned : ∀ node ∈ tree.nodes, node.Spanned tree.source)
    (hparse : SyntaxTree.parse parser tree.language tree.source = .ok tree) :
  transform parser tree.language m tree.source =
    match tree.conditionalAt? ⟨m.line, m.column⟩ with
    | none => .error (.noConditional m.line)
    | some conditional =>
      (if m.kind = .elseRemoval then elseRemovalEdit conditional m.line
        else negationEdit tree.language.grammar tree.source conditional m).map fun edit =>
          Edit.render tree.source [edit]
  := by
  rw [transform, hparse]
  dsimp only
  rw [findConditional?_eq hspanned]
  cases tree.conditionalAt? ⟨m.line, m.column⟩ with
  | none => rfl
  | some conditional =>
    dsimp only
    split
    · cases elseRemovalEdit conditional m.line <;> rfl
    · cases negationEdit tree.language.grammar tree.source conditional m <;> rfl

/-- Each case determines the answer. -/
theorem Rewritten.transform_eq {answer : Except PlantingError String}
    (h : Rewritten tree m answer) (hlaid : tree.Laid)
    (hparse : SyntaxTree.parse parser tree.language tree.source = .ok tree) :
  transform parser tree.language m tree.source = answer
  := by
  rw [Planting.transform_eq hlaid.spanned hparse]
  cases h with
  | missing hmissing => rw [hmissing]
  | shortened hconditional hkind hconsequence hlast hmakes =>
    have hchanged := hmakes.unique (makes_removal hlaid hconditional hconsequence hlast)
    rw [hconditional, hkind, hchanged]
    simp [elseRemovalEdit, hconsequence, hlast, Except.map]
  | whole hconditional hkind hwhole =>
    rw [hconditional, hkind]
    obtain hnone | hnil := hwhole
    · simp [elseRemovalEdit, hnone, Except.map]
    · simp [elseRemovalEdit, hnil, Except.map]
  | bare hconditional hkind hbare =>
    rw [hconditional, hkind]
    simp [negationEdit, hbare, Except.map]
  | unnegatable hconditional hkind hcondition hunnegatable =>
    rw [hconditional, hkind]
    simp [negationEdit, hcondition, hunnegatable, Except.map]
  | altered hconditional hkind hcondition hnegatable haltered =>
    rw [hconditional, hkind]
    simp [negationEdit, hcondition, hnegatable, haltered, Except.map]
  | negated hconditional hkind hcondition hnegatable hfragment hmakes =>
    have hchanged := hmakes.unique (makes_negation hlaid hconditional hcondition _)
    rw [hconditional, hkind, hchanged]
    simp [negationEdit, hcondition, hnegatable, hfragment, Except.map]

end Planting

/-- The tree of the Python source `if a:⏎ b⏎elif c:⏎ d⏎else:⏎ e⏎`. -/
def SyntaxNode.cascading : SyntaxNode :=
  Indented.module [Indented.node "if_statement" [
    Indented.leaf "if" false 0 2,
    Indented.filling .condition (Indented.leaf "identifier" true 3 4),
    Indented.leaf ":" false 4 5,
    Indented.filling .consequence (Indented.node "block" [
      Indented.node "expression_statement" [Indented.leaf "identifier" true 7 8]]),
    Indented.filling .alternative (Indented.node "elif_clause" [
      Indented.leaf "elif" false 9 13,
      Indented.filling .condition (Indented.leaf "identifier" true 14 15),
      Indented.leaf ":" false 15 16,
      Indented.filling .consequence (Indented.node "block" [
        Indented.node "expression_statement" [Indented.leaf "identifier" true 18 19]])]),
    Indented.filling .alternative (Indented.node "else_clause" [
      Indented.leaf "else" false 20 24, Indented.leaf ":" false 24 25,
      Indented.node "block" [Indented.node "expression_statement" [
        Indented.leaf "identifier" true 27 28]]])]] 29

namespace Mutation

/-- Applying a structural mutation to a source that parses to a tree whose nodes span parts of the
source changes or misses the conditional that the position of the mutation stands for. -/
theorem apply_eq_iff_rewritten {parser : Parser} {language : Language} {source : String}
    {tree : SyntaxTree} (hparse : SyntaxTree.parse parser language source = .ok tree)
    (hlaid : tree.Laid) {m : Mutation} (hfile : Language.ofPath? m.file = some language)
    (hkind : m.kind.strategy = .structural) {answer : Except PlantingError String} :
  m.apply parser source = answer ↔ Planting.Rewritten tree m answer
  := by
  obtain rfl := SyntaxTree.eq_of_parse hparse
  have happly : m.apply parser source = Planting.transform parser language m source := by
    rw [apply, hkind, Mutation.language_eq hfile]
    rfl
  rw [happly]
  constructor
  · rintro rfl
    obtain ⟨answer, hanswer⟩ := Planting.exists_rewritten hlaid hkind
    rw [hanswer.transform_eq hlaid hparse]
    exact hanswer
  · intro h
    exact h.transform_eq hlaid hparse

/-- By a stale column, both alternatives of a conditional are removed; a condition that was changed
is not negated, and neither is one on a line where another part of the conditional starts. -/
theorem apply_eq_iff_rewritten_cascading :
  let source := "if a:\n b\nelif c:\n d\nelse:\n e\n"
  let parser : Parser := fun _ _ => .cascading
  let tree : SyntaxTree := ⟨.python, source, .cascading⟩
  let removal : Mutation := ⟨"", "a.py", 1, 4, .elseRemoval, "else", removalMark, "", .low⟩
  let negation : Nat → Mutation := fun line =>
    ⟨"", "a.py", line, 1, .conditionNegation, "c", "not (c)", "", .low⟩
  SyntaxTree.parse parser .python source = .ok tree ∧ tree.Laid
    ∧ Language.ofPath? "a.py" = some .python
    ∧ removal.kind.strategy = .structural ∧ (∀ line, (negation line).kind.strategy = .structural)
    ∧ Planting.Rewritten tree removal (.ok "if a:\n b\n")
    ∧ Planting.Rewritten tree (negation 1) (.error (.anchorNotFound "c" 1))
    ∧ Planting.Rewritten tree (negation 3) (.error (.noConditional 3))
  := by
  intro source parser tree removal negation
  have hparse : SyntaxTree.parse parser .python source = .ok tree := rfl
  have hwf : tree.WellFormed := by decide +kernel
  have hfile : Language.ofPath? "a.py" = some .python := by decide +kernel
  refine ⟨hparse, hwf.laid, hfile, rfl, fun _ => rfl, ?_, ?_, ?_⟩
  · apply (apply_eq_iff_rewritten hparse hwf.laid hfile rfl).mp
    decide +kernel
  · apply (apply_eq_iff_rewritten hparse hwf.laid hfile rfl).mp
    decide +kernel
  · apply (apply_eq_iff_rewritten hparse hwf.laid hfile rfl).mp
    decide +kernel

end Mutation

end MutationTesting
