import Mathlib.Tactic.Common
import MutationTesting.Discovery
import MutationTesting.Proofs.Operator
import MutationTesting.Proofs.Tree.WellFormed

/-!
# What an offer rests on

An offer that is made at a node is about an operator of the node, the literal or the statement that
the node is, or a value that it returns (`Offer.Anchored`). Every offer that a walk collects rests
on a node of the tree (`Offer.Grounded`): it exchanges the text of the node, or it removes a return
statement, negates the condition of a conditional or removes its alternatives. Every mutation that
is discovered takes up such an offer.
-/

namespace MutationTesting

namespace Offer

/-- What an offer is about that is made at a node. -/
inductive Anchored (language : Language) (source : String) (node : SyntaxNode) : Offer → Prop where
  | token {token : SyntaxNode} {change : Change} (htoken : token ∈ node.tokens)
      (hoperator : change.kind.isOperator = true)
      (hchange : change.Exchanges (token.text source)) :
      Anchored language source node ⟨token, token.text source, change⟩
  | integer {change : Change} (hkind : language.grammar.integerKinds.contains node.kind = true)
      (hinteger : Operator.isInteger (node.text source) = true)
      (hchange : change ∈ Operator.integerChanges (node.text source)) :
      Anchored language source node ⟨node, node.text source, change⟩
  | string {change : Change} (hkind : language.grammar.stringKinds.contains node.kind = true)
      (hunbroken : '\n' ∉ (node.text source).toList)
      (hchange : change ∈ Operator.stringChanges (node.text source)) :
      Anchored language source node ⟨node, node.text source, change⟩
  | value {value : SyntaxNode} {index : Nat} {change : Change}
      (hkind : language.grammar.returnKinds.contains node.kind = true)
      (hvalue : value ∈ returnedValues node)
      (hchange : change ∈ Operator.returnValueChanges language.grammar index (value.text source)) :
      Anchored language source node ⟨value, value.text source, change⟩
  | statement (hkind : language.grammar.returnKinds.contains node.kind = true) :
      Anchored language source node
        ⟨node, firstLine (node.text source), Operator.statementRemoval⟩
  | negation {condition : SyntaxNode}
      (hkind : language.grammar.ifKinds.contains node.kind = true)
      (hcondition : node.child? .condition = some condition)
      (hnegatable : language.grammar.unnegatableConditions.contains condition.kind = false) :
      Anchored language source node
        ⟨node, condition.text source,
          Operator.conditionNegation language.grammar (condition.text source)⟩
  | removal (hkind : language.grammar.ifKinds.contains node.kind = true)
      (halternative : (node.child? .alternative).isSome = true) :
      Anchored language source node ⟨node, "else", Operator.elseRemoval⟩

/-! ### Offers at a node -/

section

variable {language : Language} {source : String} {node : SyntaxNode} {offer : Offer}

theorem anchored_of_mem_atToken {token : SyntaxNode} (htoken : token ∈ node.tokens)
    {changes : String → List Change}
    (hchanges : ∀ {op : String} {change : Change}, change ∈ changes op →
      change.kind.isOperator = true ∧ change.Exchanges op)
    (h : offer ∈ atToken source token changes) :
  Anchored language source node offer
  := by
  obtain ⟨change, hchange, rfl⟩ := List.mem_map.mp h
  obtain ⟨hoperator, hexchanges⟩ := hchanges hchange
  exact Anchored.token htoken hoperator hexchanges

theorem anchored_of_mem_tokenwise {changes : String → List Change}
    (hchanges : ∀ {op : String} {change : Change}, change ∈ changes op →
      change.kind.isOperator = true ∧ change.Exchanges op)
    (h : offer ∈ tokenwise source node changes) :
  Anchored language source node offer
  := by
  obtain ⟨token, htoken, hoffer⟩ := List.mem_flatMap.mp h
  apply anchored_of_mem_atToken htoken hchanges hoffer

theorem exchanges_of_mem_binaryChanges {op : String} {change : Change}
    (h : change ∈ binaryChanges language.grammar node op) :
  change.kind.isOperator = true ∧ change.Exchanges op
  := by
  unfold binaryChanges at h
  split_ifs at h
  · contradiction
  · use Operator.isOperator_of_mem_arithmeticChanges h
    apply Operator.exchanges_of_mem_arithmeticChanges h
  · use Operator.isOperator_of_mem_relationalChanges h
    apply Operator.exchanges_of_mem_relationalChanges h
  · use Operator.isOperator_of_mem_logicalChanges h
    apply Operator.exchanges_of_mem_logicalChanges h

theorem exchanges_of_mem_unaryChanges {op : String} {change : Change}
    (h : change ∈ unaryChanges language.grammar op) :
  change.kind.isOperator = true ∧ change.Exchanges op
  := by
  unfold unaryChanges at h
  split_ifs at h with hnot hminus
  · rw [List.mem_singleton] at h
    subst h hnot
    use rfl
    apply Operator.negationRemoval_exchanges
  · rw [List.mem_singleton] at h
    subst h hminus
    constructor
    · cases language <;> rfl
    · apply Operator.unaryMinusChange_exchanges
  · contradiction

theorem anchored_of_mem_unary (h : offer ∈ unary language.grammar source node) :
  Anchored language source node offer
  := by
  unfold unary at h
  split at h
  · next token hfirst =>
    split at h
    · contradiction
    · next hunnamed =>
      have htoken : token ∈ node.tokens := by
        apply List.mem_filter.mpr
        use List.mem_of_mem_head? hfirst
        simpa using hunnamed
      apply anchored_of_mem_atToken htoken exchanges_of_mem_unaryChanges h
  · contradiction

theorem anchored_of_mem_integer
    (hkind : language.grammar.integerKinds.contains node.kind = true)
    (h : offer ∈ integer source node) :
  Anchored language source node offer
  := by
  obtain ⟨change, hchange, rfl⟩ := List.mem_map.mp h
  dsimp only at hchange
  split at hchange
  · next hinteger => exact Anchored.integer hkind hinteger hchange
  · contradiction

theorem anchored_of_mem_string {ctx : WalkContext}
    (hkind : language.grammar.stringKinds.contains node.kind = true)
    (h : offer ∈ string language.grammar source node ctx) :
  Anchored language source node offer
  := by
  obtain ⟨change, hchange, rfl⟩ := List.mem_map.mp h
  dsimp only at hchange
  split at hchange
  · contradiction
  · next hline =>
    rw [Bool.or_eq_true, not_or, List.contains_iff_mem] at hline
    exact Anchored.string hkind hline.1 hchange

theorem anchored_of_mem_returned
    (hkind : language.grammar.returnKinds.contains node.kind = true)
    (h : offer ∈ returned language.grammar source node) :
  Anchored language source node offer
  := by
  obtain hvalue | hstatement := List.mem_append.mp h
  · obtain ⟨⟨value, index⟩, hmem, hoffer⟩ := List.mem_flatMap.mp hvalue
    obtain ⟨change, hchange, rfl⟩ := List.mem_map.mp hoffer
    exact Anchored.value hkind (List.fst_mem_of_mem_zipIdx hmem) hchange
  · rw [List.mem_singleton] at hstatement
    subst hstatement
    exact Anchored.statement hkind

theorem anchored_of_mem_conditional
    (hkind : language.grammar.ifKinds.contains node.kind = true)
    (h : offer ∈ conditional language.grammar source node) :
  Anchored language source node offer
  := by
  obtain hnegation | hremoval := List.mem_append.mp h
  · unfold negation at hnegation
    split at hnegation
    · next condition hcondition =>
      split at hnegation
      · contradiction
      · next hnegatable =>
        rw [List.mem_singleton] at hnegation
        subst hnegation
        exact Anchored.negation hkind hcondition (Bool.eq_false_iff.mpr hnegatable)
    · contradiction
  · split at hremoval
    · next halternative =>
      rw [List.mem_singleton] at hremoval
      subst hremoval
      exact Anchored.removal hkind halternative
    · contradiction

/-- Whatever is offered at a node is about it or a part of it. -/
theorem anchored_of_mem_ofNode {ctx : WalkContext}
    (h : offer ∈ ofNode language.grammar source node ctx) :
  Anchored language source node offer
  := by
  unfold ofNode at h
  split_ifs at h with hbinary hunary hinteger hstring hreturn hif hassignment hincDec
  · apply anchored_of_mem_tokenwise exchanges_of_mem_binaryChanges h
  · apply anchored_of_mem_unary h
  · apply anchored_of_mem_integer hinteger h
  · apply anchored_of_mem_string hstring h
  · apply anchored_of_mem_returned hreturn h
  · apply anchored_of_mem_conditional hif h
  · apply anchored_of_mem_tokenwise _ h
    intro op change hchange
    use Operator.isOperator_of_mem_assignmentChanges hchange
    apply Operator.exchanges_of_mem_assignmentChanges hchange
  · apply anchored_of_mem_tokenwise _ h
    intro op change hchange
    use Operator.isOperator_of_mem_incDecChanges hchange
    apply Operator.exchanges_of_mem_incDecChanges hchange
  · contradiction

theorem mem_preorder_of_mem_returnedValues {value : SyntaxNode} (h : value ∈ returnedValues node) :
  value ∈ node.preorder
  := by
  obtain ⟨child, hchild, hvalue⟩ := List.mem_flatMap.mp h
  have hmem := SyntaxNode.mem_preorder_of_mem_children (List.mem_of_mem_filter hchild)
  split at hvalue
  · apply SyntaxNode.mem_preorder_trans _ hmem
    apply SyntaxNode.mem_preorder_of_mem_children (List.mem_of_mem_filter hvalue)
  · rw [List.mem_singleton] at hvalue
    subst hvalue
    exact hmem

/-- An offer is about the node where it is made or a part of it. -/
theorem Anchored.mem_preorder (h : Anchored language source node offer) :
  offer.node ∈ node.preorder
  := by
  cases h with
  | token htoken => apply SyntaxNode.mem_preorder_of_mem_children (List.mem_of_mem_filter htoken)
  | value _ hvalue => apply mem_preorder_of_mem_returnedValues hvalue
  | integer | string | statement | negation | removal => apply SyntaxNode.self_mem_preorder

end

/-! ### Offers of a tree -/

/-- What an offer rests on in a tree. -/
inductive Grounded (tree : SyntaxTree) : Offer → Prop where
  | exchange {node : SyntaxNode} {change : Change} (hnode : node ∈ tree.nodes)
      (hchange : change.Exchanges (node.text tree.source)) :
      Grounded tree ⟨node, node.text tree.source, change⟩
  | statement {node : SyntaxNode} (hnode : node ∈ tree.nodes)
      (hreturn : tree.language.grammar.returnKinds.contains node.kind = true) :
      Grounded tree
        ⟨node, firstLine (node.text tree.source), Operator.statementRemoval⟩
  | negation {node condition : SyntaxNode} (hnode : node ∈ tree.nodes)
      (hif : tree.language.grammar.ifKinds.contains node.kind = true)
      (hcondition : node.child? .condition = some condition)
      (hnegatable :
        tree.language.grammar.unnegatableConditions.contains condition.kind = false) :
      Grounded tree
        ⟨node, condition.text tree.source,
          Operator.conditionNegation tree.language.grammar (condition.text tree.source)⟩
  | removal {node : SyntaxNode} (hnode : node ∈ tree.nodes)
      (hif : tree.language.grammar.ifKinds.contains node.kind = true)
      (halternative : (node.child? .alternative).isSome = true) :
      Grounded tree ⟨node, "else", Operator.elseRemoval⟩

variable {tree : SyntaxTree} {node : SyntaxNode} {offer : Offer}

/-- What is offered at a node of a tree rests on the tree. -/
theorem Anchored.grounded (h : Anchored tree.language tree.source node offer)
    (hnode : node ∈ tree.nodes) :
  Grounded tree offer
  := by
  have hmem := SyntaxNode.mem_preorder_trans h.mem_preorder hnode
  cases h with
  | token _ _ hchange => exact Grounded.exchange hmem hchange
  | integer _ hinteger hchange =>
    exact Grounded.exchange hmem (Operator.exchanges_of_mem_integerChanges hinteger hchange)
  | string _ hunbroken hchange =>
    exact Grounded.exchange hmem (Operator.exchanges_of_mem_stringChanges hunbroken hchange)
  | value _ _ hchange =>
    exact Grounded.exchange hmem (Operator.exchanges_of_mem_returnValueChanges hchange)
  | statement hkind => exact Grounded.statement hmem hkind
  | negation hkind hcondition hnegatable =>
    exact Grounded.negation hmem hkind hcondition hnegatable
  | removal hkind halternative => exact Grounded.removal hmem hkind halternative

/-- Whatever the scope, the offers of a tree rest on it. -/
theorem grounded_of_mem_offers {scope : Scope} (h : offer ∈ tree.offers scope) :
  Grounded tree offer
  := by
  have hwalk : ∀ offer ∈ tree.offers scope, Grounded tree offer := by
    rw [SyntaxTree.offers, SyntaxTree.walk_eq]
    apply SyntaxNode.walk_invariant (P := fun offers => ∀ offer ∈ offers, Grounded tree offer)
    · intro offers node ctx hnode hoffers
      unfold collect
      split
      · exact hoffers
      · split
        · exact hoffers
        · intro offer hoffer
          obtain hold | hnew := List.mem_append.mp hoffer
          · apply hoffers offer hold
          · apply (anchored_of_mem_ofNode hnew).grounded hnode
    · simp
  apply hwalk offer h

end Offer

/-- A source whose mutations are listed parses, and every mutation takes up an offer of its
tree. -/
theorem exists_offer_of_discover {parser : Parser} {file : String} {language : Language}
    {source : String} {scope : Scope} {catalog : List Mutation}
    (h : discover parser file language source scope = .ok catalog) :
  ∃ tree, SyntaxTree.parse parser language source = .ok tree
    ∧ ∀ m ∈ catalog, ∃ offer ∈ tree.offers scope, ∃ i, m = offer.toMutation source file i
  := by
  unfold discover at h
  split at h
  · contradiction
  · next tree htree =>
    use tree, htree
    have hcatalog : catalog
        = (tree.offers scope).zipIdx.map fun taken => taken.1.toMutation source file taken.2 := by
      split at h
      · exact (Except.ok.inj h).symm
      · dsimp only at h
        split at h
        · exact (Except.ok.inj h).symm
        · contradiction
    intro m hm
    rw [hcatalog] at hm
    obtain ⟨taken, hmem, rfl⟩ := List.mem_map.mp hm
    exact ⟨taken.1, List.fst_mem_of_mem_zipIdx hmem, taken.2, rfl⟩

end MutationTesting
