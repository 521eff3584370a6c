import MutationTesting.Proofs.Discovery.Scope
import MutationTesting.Proofs.Store
import MutationTesting.Proofs.Text.Trim
import MutationTesting.Proofs.Tree.Order
import MutationTesting.Tree.Indented.Statement

/-!
# What tells the mutations of a catalog apart

The mutations of a catalog are numbered in their order, so each is the one that is found under its
id. In an orderly tree no two of them put the same text in the same place for the same reason
(`Offer.key`): two offers are about different operators or returned values, which do not start at
the same byte, or about different nodes that change as a whole, or make different changes at one
node.
-/

namespace MutationTesting

/-- The kinds of node of a language that change as a whole. -/
def Grammar.wholes (g : Grammar) : List (List String) :=
  [g.integerKinds, g.stringKinds, g.returnKinds, g.ifKinds]

/-- The nodes of a tree span parts of its source, its tokens are leaves that are not empty, no two
nodes that change as a whole and have kinds of one group start at the same byte, and the text of a
return statement starts with that word. -/
structure SyntaxTree.Orderly (tree : SyntaxTree) : Prop where
  spanned : ∀ node ∈ tree.nodes, node.Spanned tree.source
  tokens : ∀ node ∈ tree.nodes, node.info.named = false →
    node.children = [] ∧ node.info.start < node.info.stop
  apart : tree.nodes.Pairwise fun a b => ∀ kinds ∈ tree.language.grammar.wholes,
    kinds.contains a.kind = true → kinds.contains b.kind = true → a.info.start ≠ b.info.start
  returned : ∀ node ∈ tree.nodes, tree.language.grammar.returnKinds.contains node.kind = true →
    "return".toList <+: (node.text tree.source).toList

instance (tree : SyntaxTree) : Decidable tree.Orderly :=
  decidable_of_iff
    ((∀ node ∈ tree.nodes, node.Spanned tree.source)
      ∧ (∀ node ∈ tree.nodes, node.info.named = false →
        node.children = [] ∧ node.info.start < node.info.stop)
      ∧ (tree.nodes.Pairwise fun a b => ∀ kinds ∈ tree.language.grammar.wholes,
        kinds.contains a.kind = true → kinds.contains b.kind = true →
          a.info.start ≠ b.info.start)
      ∧ ∀ node ∈ tree.nodes, tree.language.grammar.returnKinds.contains node.kind = true →
        "return".toList <+: (node.text tree.source).toList)
    ⟨fun ⟨h₁, h₂, h₃, h₄⟩ => ⟨h₁, h₂, h₃, h₄⟩, fun ⟨h₁, h₂, h₃, h₄⟩ => ⟨h₁, h₂, h₃, h₄⟩⟩

/-- A list of returned values is no return statement itself. -/
theorem Language.expression_list_not_mem_returnKinds (language : Language) :
  language.grammar.returnKinds.contains "expression_list" = false
  := by
  cases language <;> decide

/-- The kinds of node that a change is offered for when the node changes as a whole. -/
def Change.wholeKinds (g : Grammar) (change : Change) : List String :=
  match change.kind with
  | .constant =>
    if change.replacement = "\"\"" || change.replacement = "b\"\"" then g.stringKinds
    else g.integerKinds
  | .statementRemoval => g.returnKinds
  | _ => g.ifKinds

theorem Change.wholeKinds_mem (g : Grammar) (change : Change) :
  change.wholeKinds g ∈ g.wholes
  := by
  unfold wholeKinds
  split
  · split <;> simp [Grammar.wholes]
  · simp [Grammar.wholes]
  · simp [Grammar.wholes]

/-- Another integer never is an empty string. -/
theorem Operator.wholeKinds_of_mem_integerChanges {g : Grammar} {value : String} {change : Change}
    (h : change ∈ integerChanges value) :
  change.wholeKinds g = g.integerKinds
  := by
  unfold integerChanges at h
  split_ifs at h
  · rw [List.mem_singleton] at h
    subst h
    rfl
  · rw [List.mem_singleton] at h
    subst h
    rfl
  · rw [List.mem_singleton] at h
    subst h
    have hhead : ∀ text : String, text.toList.head? ≠ some '(' → s!"({value} + 1)" ≠ text := by
      rintro text htext rfl
      apply htext
      change ("(" ++ value ++ " + 1)").toList.head? = _
      simp
    have hempty : s!"({value} + 1)" ≠ "\"\"" := hhead _ (by decide)
    have hbytes : s!"({value} + 1)" ≠ "b\"\"" := hhead _ (by decide)
    simp [Change.wholeKinds, hempty, hbytes]

theorem Operator.wholeKinds_of_mem_stringChanges {g : Grammar} {value : String} {change : Change}
    (h : change ∈ stringChanges value) :
  change.wholeKinds g = g.stringKinds
  := by
  unfold stringChanges at h
  split at h
  · cases h
  · rw [List.mem_singleton] at h
    subst h
    generalize (value.toList.head?.any fun c => c == 'b' || c == 'B') = bytes
    cases bytes <;> rfl

namespace Offer

/-- Where an offer makes its change, of what kind this is, and what it puts there. -/
def key (offer : Offer) : Nat × MutationKind × String :=
  (offer.node.info.start, offer.change.kind, offer.change.replacement)

variable {language : Language} {source : String} {node : SyntaxNode} {offer : Offer}

/-! ### Offers at one node -/

theorem pairwise_atToken {token : SyntaxNode} {changes : String → List Change}
    (hchanges : ∀ op, ((changes op).map (·.replacement)).Nodup) :
  (atToken source token changes).Pairwise fun a b => a.key ≠ b.key
  := by
  rw [atToken, List.pairwise_map]
  apply (List.pairwise_map.mp (hchanges (token.text source))).imp
  intro change other hne heq
  apply hne
  exact congrArg (·.2.2) heq

/-- Offers about parts of a node that follow one another differ if those are not empty. -/
theorem pairwise_flatMap_atToken {α : Type} {parts : List α} (part : α → SyntaxNode)
    (changes : α → String → List Change)
    (hordered : parts.Pairwise fun a b => (part a).info.stop ≤ (part b).info.start)
    (hfilled : ∀ a ∈ parts, atToken source (part a) (changes a) ≠ [] →
      (part a).info.start < (part a).info.stop)
    (hchanges : ∀ a ∈ parts, ∀ op, ((changes a op).map (·.replacement)).Nodup) :
  (parts.flatMap fun a => atToken source (part a) (changes a)).Pairwise
    fun a b => a.key ≠ b.key
  := by
  rw [List.pairwise_flatMap]
  constructor
  · intro a ha
    apply pairwise_atToken (hchanges a ha)
  · apply hordered.imp_of_mem
    intro a b ha _ hle first hfirst second hsecond heq
    have hstop := hfilled a ha (List.ne_nil_of_mem hfirst)
    obtain ⟨change, -, rfl⟩ := List.mem_map.mp hfirst
    obtain ⟨other, -, rfl⟩ := List.mem_map.mp hsecond
    have hstart : (part a).info.start = (part b).info.start := congrArg (·.1) heq
    omega

theorem pairwise_tokenwise (hspanned : node.Spanned source)
    (htokens : ∀ token ∈ node.tokens, token.info.start < token.info.stop)
    {changes : String → List Change} (hchanges : ∀ op, ((changes op).map (·.replacement)).Nodup) :
  (tokenwise source node changes).Pairwise fun a b => a.key ≠ b.key
  := by
  apply pairwise_flatMap_atToken id fun _ => changes
  · apply hspanned.ordered.filter
  · exact fun token htoken _ => htokens token htoken
  · exact fun _ _ => hchanges

theorem nodup_binaryChanges (op : String) :
  ((binaryChanges language.grammar node op).map (·.replacement)).Nodup
  := by
  unfold binaryChanges
  split_ifs
  · apply List.nodup_nil
  · apply Operator.nodup_arithmeticChanges
  · apply Operator.nodup_relationalChanges
  · rw [Operator.logicalChanges]
    cases Operator.logicalPartner? language.grammar op <;> simp

/-- The parts of a node that are returned follow one another. -/
theorem pairwise_returnedValues (hspanned : node.AllSpanned source) :
  (returnedValues node).Pairwise fun a b => a.info.stop ≤ b.info.start
  := by
  have hchild : ∀ child ∈ node.namedChildren, child.AllSpanned source := by
    intro child hmem
    apply hspanned.below
    apply SyntaxNode.mem_preorder_of_mem_children (List.mem_of_mem_filter hmem)
  have hmem : ∀ child : SyntaxNode, ∀ value ∈ (if child.kind = "expression_list" then child.namedChildren
      else [child]), value ∈ child.preorder := by
    intro child value hvalue
    split at hvalue
    · apply SyntaxNode.mem_preorder_of_mem_children (List.mem_of_mem_filter hvalue)
    · rw [List.mem_singleton] at hvalue
      rw [hvalue]
      apply SyntaxNode.self_mem_preorder
  rw [returnedValues, List.pairwise_flatMap]
  constructor
  · intro child hnamed
    split
    · apply (hchild child hnamed child child.self_mem_preorder).ordered.filter
    · apply List.pairwise_singleton
  · apply ((hspanned node node.self_mem_preorder).ordered.filter _).imp_of_mem
    intro first second hfirst hsecond hle a ha b hb
    have hstop := (hchild first hfirst).stop_le (hmem first a ha)
    have hstart := SyntaxNode.start_le_of_mem_preorder (hchild second hsecond) (hmem second b hb)
    exact Nat.le_trans hstop (Nat.le_trans hle hstart)

theorem pairwise_returned (hspanned : node.AllSpanned source) :
  (returned language.grammar source node).Pairwise fun a b => a.key ≠ b.key
  := by
  have hvalues : ((returnedValues node).zipIdx.flatMap fun a =>
      atToken source a.1 (Operator.returnValueChanges language.grammar a.2)).Pairwise
        fun a b => a.key ≠ b.key := by
    apply pairwise_flatMap_atToken (fun a : SyntaxNode × Nat => a.1)
      fun a => Operator.returnValueChanges language.grammar a.2
    · have hordered := pairwise_returnedValues hspanned
      rw [← List.zipIdx_map_fst 0 (returnedValues node), List.pairwise_map] at hordered
      apply hordered
    · intro a ha hne
      obtain ⟨offer, hoffer⟩ := List.exists_mem_of_ne_nil _ hne
      obtain ⟨change, hchange, -⟩ := List.mem_map.mp hoffer
      obtain ⟨other, hother, -⟩ := List.mem_map.mp hchange
      have hfilled := Operator.not_return_isPrefix_of_returnPartner? (Option.mem_toList.mp hother)
      apply (hspanned _ (mem_preorder_of_mem_returnedValues
        (List.fst_mem_of_mem_zipIdx ha))).start_lt_stop hfilled.1
    · intro a _ op
      rw [Operator.returnValueChanges]
      cases Operator.returnPartner? language.grammar op <;> simp
  rw [returned, List.pairwise_append]
  refine ⟨hvalues, List.pairwise_singleton _ _, ?_⟩
  intro value hvalue removal hremoval heq
  obtain ⟨a, -, hoffer⟩ := List.mem_flatMap.mp hvalue
  obtain ⟨change, hchange, rfl⟩ := List.mem_map.mp hoffer
  obtain ⟨other, -, rfl⟩ := List.mem_map.mp hchange
  rw [List.mem_singleton] at hremoval
  subst hremoval
  cases congrArg (·.2.1) heq

theorem pairwise_conditional :
  (conditional language.grammar source node).Pairwise fun a b => a.key ≠ b.key
  := by
  have hnegation : (negation language.grammar source node).Pairwise fun a b => a.key ≠ b.key := by
    unfold negation
    split
    · split
      · apply List.Pairwise.nil
      · apply List.pairwise_singleton
    · apply List.Pairwise.nil
  have hnegated : ∀ offer ∈ negation language.grammar source node,
      offer.change.kind = .conditionNegation := by
    intro offer hoffer
    unfold negation at hoffer
    split at hoffer
    · split at hoffer
      · cases hoffer
      · rw [List.mem_singleton] at hoffer
        rw [hoffer]
        rfl
    · cases hoffer
  rw [conditional, List.pairwise_append]
  split
  · refine ⟨hnegation, List.pairwise_singleton _ _, ?_⟩
    intro offer hoffer removal hremoval heq
    rw [List.mem_singleton] at hremoval
    subst hremoval
    have hkind : offer.change.kind = .elseRemoval := congrArg (·.2.1) heq
    rw [hnegated offer hoffer] at hkind
    contradiction
  · exact ⟨hnegation, List.Pairwise.nil, fun _ _ _ h => (List.not_mem_nil h).elim⟩

theorem nodup_unaryChanges (op : String) :
  ((unaryChanges language.grammar op).map (·.replacement)).Nodup
  := by
  unfold unaryChanges
  split_ifs <;> simp

/-- No two of the changes that are offered at one node are the same. -/
theorem pairwise_ofNode {ctx : WalkContext} (hspanned : node.AllSpanned source)
    (htokens : ∀ token ∈ node.tokens, token.info.start < token.info.stop) :
  (ofNode language.grammar source node ctx).Pairwise fun a b => a.key ≠ b.key
  := by
  have hself := hspanned node node.self_mem_preorder
  unfold ofNode
  split_ifs
  · apply pairwise_tokenwise hself htokens nodup_binaryChanges
  · unfold unary
    split
    · split
      · apply List.Pairwise.nil
      · apply pairwise_atToken nodup_unaryChanges
    · apply List.Pairwise.nil
  · apply pairwise_atToken
    intro op
    split
    · unfold Operator.integerChanges
      split_ifs <;> simp
    · simp
  · apply pairwise_atToken
    intro op
    split
    · simp
    · unfold Operator.stringChanges
      split <;> simp
  · apply pairwise_returned hspanned
  · apply pairwise_conditional
  · apply pairwise_tokenwise hself htokens
    intro op
    rw [Operator.assignmentChanges]
    cases Operator.assignmentPartner? op <;> simp
  · apply pairwise_tokenwise hself htokens
    intro op
    rw [Operator.incDecChanges]
    cases Operator.incDecPartner? op <;> simp
  · apply List.Pairwise.nil

/-! ### Offers at two nodes -/

/-- A change of an operator is made at a token of the node where it is offered. -/
theorem Anchored.mem_tokens (h : offer.Anchored language source node)
    (hoperator : offer.change.kind.isOperator = true) :
  offer.node ∈ node.tokens
  := by
  cases h with
  | token htoken => exact htoken
  | integer _ _ hchange =>
    rw [Operator.kind_of_mem_integerChanges hchange] at hoperator
    cases hoperator
  | string _ _ hchange =>
    rw [Operator.kind_of_mem_stringChanges hchange] at hoperator
    cases hoperator
  | value _ _ hchange =>
    obtain ⟨other, -, rfl⟩ := List.mem_map.mp hchange
    contradiction
  | statement | negation | removal => contradiction

/-- A change of a returned value is made at one of the values, which is a literal that can be
exchanged. -/
theorem Anchored.mem_returnedValues (h : offer.Anchored language source node)
    (hkind : offer.change.kind = .returnValue) :
  language.grammar.returnKinds.contains node.kind = true ∧ offer.node ∈ returnedValues node
    ∧ ∃ other, Operator.returnPartner? language.grammar (offer.node.text source) = some other
  := by
  cases h with
  | token _ hoperator =>
    rw [hkind] at hoperator
    contradiction
  | integer _ _ hchange =>
    rw [Operator.kind_of_mem_integerChanges hchange] at hkind
    cases hkind
  | string _ _ hchange =>
    rw [Operator.kind_of_mem_stringChanges hchange] at hkind
    cases hkind
  | value hreturn hvalue hchange =>
    obtain ⟨other, hother, -⟩ := List.mem_map.mp hchange
    exact ⟨hreturn, hvalue, other, Option.mem_toList.mp hother⟩
  | statement | negation | removal => contradiction

/-- Any other change is made at the node where it is offered, and the change tells the kinds of
node that it is offered for. -/
theorem Anchored.node_eq_and_wholeKinds (h : offer.Anchored language source node)
    (hoperator : offer.change.kind.isOperator = false) (hvalue : offer.change.kind ≠ .returnValue) :
  offer.node = node ∧ (offer.change.wholeKinds language.grammar).contains node.kind = true
  := by
  cases h with
  | token _ h =>
    rw [hoperator] at h
    contradiction
  | integer hkind _ hchange =>
    use rfl
    rw [Operator.wholeKinds_of_mem_integerChanges hchange]
    exact hkind
  | string hkind _ hchange =>
    use rfl
    rw [Operator.wholeKinds_of_mem_stringChanges hchange]
    exact hkind
  | value _ _ hchange =>
    obtain ⟨other, -, rfl⟩ := List.mem_map.mp hchange
    contradiction
  | statement hkind | negation hkind | removal hkind => exact ⟨rfl, hkind⟩

end Offer

namespace SyntaxTree.Orderly

variable {tree : SyntaxTree} {a b : SyntaxNode} {o o' : Offer}

theorem allSpanned (h : tree.Orderly) (ha : a ∈ tree.nodes) :
  a.AllSpanned tree.source
  := SyntaxNode.AllSpanned.below h.spanned ha

theorem token_of_mem_tokens (h : tree.Orderly) (ha : a ∈ tree.nodes) {token : SyntaxNode}
    (htoken : token ∈ a.tokens) :
  token.children = [] ∧ token.info.start < token.info.stop
  := by
  obtain ⟨hchild, hunnamed⟩ := List.mem_filter.mp htoken
  apply h.tokens token (mem_nodes_of_mem_children ha hchild)
  simpa using hunnamed

/-- The tokens of two nodes do not start at the same byte. -/
theorem token_start_ne (h : tree.Orderly) (ha : a ∈ tree.nodes) (hb : b ∈ tree.nodes)
    (hprecedes : a.Precedes b) {x y : SyntaxNode} (hx : x ∈ a.tokens) (hy : y ∈ b.tokens) :
  x.info.start ≠ y.info.start
  := by
  obtain ⟨hleaf, hfilled⟩ := h.token_of_mem_tokens ha hx
  have hy' := List.mem_of_mem_filter hy
  obtain hne | hbelow := hprecedes.start_ne_or (h.allSpanned ha) (h.allSpanned hb)
    (List.mem_of_mem_filter hx) x.self_mem_preorder (SyntaxNode.mem_preorder_of_mem_children hy')
    hfilled (h.token_of_mem_tokens hb hy).2
  · exact hne
  · -- A token has nothing below it that could have a token.
    cases x
    obtain rfl | ⟨child, hchild, -⟩ := SyntaxNode.mem_preorder_mk.mp hbelow
    · rw [hleaf] at hy'
      contradiction
    · rw [SyntaxNode.children_mk] at hleaf
      rw [hleaf] at hchild
      contradiction

/-- A return statement is not in a value that starts at the same byte as one of its own values. -/
theorem value_start_ne (h : tree.Orderly) {x y : SyntaxNode} (hx : x ∈ tree.nodes)
    (hb : b ∈ x.preorder) (hreturn : tree.language.grammar.returnKinds.contains b.kind = true)
    (hy : y ∈ b.preorder)
    (hliteral : ¬"return".toList <+: (x.text tree.source).toList) :
  x.info.start ≠ y.info.start
  := by
  intro heq
  have hspanned := h.allSpanned hx
  have hstart := SyntaxNode.start_le_of_mem_preorder hspanned hb
  have hstart' := SyntaxNode.start_le_of_mem_preorder (hspanned.below hb) hy
  apply hliteral
  apply (h.returned b (SyntaxNode.mem_preorder_trans hb hx) hreturn).trans
  apply (hspanned b hb).text_isPrefix (hspanned x x.self_mem_preorder) (by omega)
  apply hspanned.stop_le hb

/-- Literals that two return statements return do not start at the same byte. -/
theorem returned_start_ne (h : tree.Orderly) (ha : a ∈ tree.nodes) (hb : b ∈ tree.nodes)
    (hprecedes : a.Precedes b)
    (hreturn : tree.language.grammar.returnKinds.contains b.kind = true) {x y : SyntaxNode}
    (hx : x ∈ Offer.returnedValues a) (hy : y ∈ Offer.returnedValues b)
    (hxs : x.text tree.source ≠ "") (hys : y.text tree.source ≠ "")
    (hliteral : ¬"return".toList <+: (x.text tree.source).toList) :
  x.info.start ≠ y.info.start
  := by
  have hx' := SyntaxNode.mem_preorder_trans (Offer.mem_preorder_of_mem_returnedValues hx) ha
  have hy' := Offer.mem_preorder_of_mem_returnedValues hy
  have hxs' := (h.spanned x hx').start_lt_stop hxs
  have hys' := (h.spanned y (SyntaxNode.mem_preorder_trans hy' hb)).start_lt_stop hys
  obtain ⟨child, hchild, hvalue⟩ := List.mem_flatMap.mp hx
  have hchild := List.mem_of_mem_filter hchild
  split at hvalue
  · next hlist =>
    have hvalue := List.mem_of_mem_filter hvalue
    obtain hne | hbelow := hprecedes.start_ne_or (h.allSpanned ha) (h.allSpanned hb) hchild
      (SyntaxNode.mem_preorder_of_mem_children hvalue) hy' hxs' hys'
    · exact hne
    · have hprecedes' : child.Precedes b := by
        cases child
        obtain rfl | hdeep := SyntaxNode.mem_preorder_mk.mp hbelow
        · rw [hlist, tree.language.expression_list_not_mem_returnKinds] at hreturn
          contradiction
        · exact Or.inl hdeep
      obtain hne | hbelow := hprecedes'.start_ne_or
        (h.allSpanned (mem_nodes_of_mem_children ha hchild)) (h.allSpanned hb) hvalue
        x.self_mem_preorder hy' hxs' hys'
      · exact hne
      · apply h.value_start_ne hx' hbelow hreturn hy' hliteral
  · rw [List.mem_singleton] at hvalue
    subst hvalue
    obtain hne | hbelow := hprecedes.start_ne_or (h.allSpanned ha) (h.allSpanned hb) hchild
      x.self_mem_preorder hy' hxs' hys'
    · exact hne
    · apply h.value_start_ne hx' hbelow hreturn hy' hliteral

/-- What is offered at two nodes differs. -/
theorem key_ne (h : tree.Orderly) (ha : a ∈ tree.nodes) (hb : b ∈ tree.nodes)
    (hprecedes : a.Precedes b)
    (hapart : ∀ kinds ∈ tree.language.grammar.wholes, kinds.contains a.kind = true →
      kinds.contains b.kind = true → a.info.start ≠ b.info.start)
    (ho : o.Anchored tree.language tree.source a) (ho' : o'.Anchored tree.language tree.source b) :
  o.key ≠ o'.key
  := by
  intro heq
  have hstart : o.node.info.start = o'.node.info.start := congrArg (·.1) heq
  have hkind : o.change.kind = o'.change.kind := congrArg (·.2.1) heq
  have hreplacement : o.change.replacement = o'.change.replacement := congrArg (·.2.2) heq
  cases hoperator : o.change.kind.isOperator with
  | true =>
    apply h.token_start_ne ha hb hprecedes (ho.mem_tokens hoperator) _ hstart
    apply ho'.mem_tokens
    rw [← hkind]
    exact hoperator
  | false =>
    by_cases hvalue : o.change.kind = .returnValue
    · obtain ⟨-, hx, other, hother⟩ := ho.mem_returnedValues hvalue
      obtain ⟨hreturn, hy, other', hother'⟩ := ho'.mem_returnedValues (hkind ▸ hvalue)
      obtain ⟨hxs, hliteral⟩ := Operator.not_return_isPrefix_of_returnPartner? hother
      obtain ⟨hys, -⟩ := Operator.not_return_isPrefix_of_returnPartner? hother'
      apply h.returned_start_ne ha hb hprecedes hreturn hx hy hxs hys hliteral hstart
    · obtain ⟨hnode, hwhole⟩ := ho.node_eq_and_wholeKinds hoperator hvalue
      obtain ⟨hnode', hwhole'⟩ := ho'.node_eq_and_wholeKinds (hkind ▸ hoperator) (hkind ▸ hvalue)
      have hkinds : o'.change.wholeKinds tree.language.grammar
          = o.change.wholeKinds tree.language.grammar := by
        rw [Change.wholeKinds, Change.wholeKinds, hkind, hreplacement]
      rw [hkinds] at hwhole'
      rw [hnode, hnode'] at hstart
      apply hapart _ (Change.wholeKinds_mem _ _) hwhole hwhole' hstart

/-- No two offers of an orderly tree make the same change at the same place. -/
theorem pairwise_emissions (h : tree.Orderly) :
  tree.emissions.Pairwise fun a b => a.2.key ≠ b.2.key
  := by
  have hsites : tree.sites.Pairwise fun a b => a.node.Precedes b.node
      ∧ ∀ kinds ∈ tree.language.grammar.wholes, kinds.contains a.node.kind = true →
        kinds.contains b.node.kind = true → a.node.info.start ≠ b.node.info.start := by
    rw [← List.pairwise_map (f := Site.node)
      (R := fun a b => a.Precedes b ∧ ∀ kinds ∈ tree.language.grammar.wholes,
        kinds.contains a.kind = true → kinds.contains b.kind = true →
          a.info.start ≠ b.info.start), map_node_sites, List.pairwise_and_iff]
    exact ⟨SyntaxNode.AllSpanned.pairwise_preorder h.spanned, h.apart⟩
  have hnode : ∀ site ∈ tree.sites, site.node ∈ tree.nodes := by
    intro site hsite
    rw [← map_node_sites]
    apply List.mem_map_of_mem hsite
  rw [emissions, List.pairwise_flatMap]
  constructor
  · intro site hsite
    rw [List.pairwise_map]
    apply Offer.pairwise_ofNode (h.allSpanned (hnode site hsite))
    intro token htoken
    exact (h.token_of_mem_tokens (hnode site hsite) htoken).2
  · apply hsites.imp_of_mem
    rintro first second hfirst hsecond ⟨hprecedes, hapart⟩ emission hemission emission' hemission'
    obtain ⟨offer, hoffer, rfl⟩ := List.mem_map.mp hemission
    obtain ⟨offer', hoffer', rfl⟩ := List.mem_map.mp hemission'
    apply h.key_ne (hnode first hfirst) (hnode second hsecond) hprecedes hapart
      (Offer.anchored_of_mem_ofNode hoffer) (Offer.anchored_of_mem_ofNode hoffer')

end SyntaxTree.Orderly

/-! ### Catalogs -/

/-- Different numbers name mutations differently. -/
theorem Mutation.id_injective :
  Function.Injective fun i : Nat => s!"M{i}"
  := by
  intro i j h
  have hdigits : Nat.toDigits 10 i = Nat.toDigits 10 j := by
    simpa [toString, Nat.repr_eq_ofList_toDigits, String.ofList_inj] using h
  have hvalue := congrArg (Nat.ofDigitChars 10 · 0) hdigits
  simpa [Nat.ofDigitChars_toDigits] using hvalue

/-- The fragment of a mutation is on its line, and its column counts the bytes before it there. -/
def Mutation.IsOnLine (m : Mutation) (source : String) : Prop :=
  ∃ above left right below,
    Text.HasLine source.toList m.line above (left ++ m.fragment.toList ++ right) below
      ∧ m.column = Text.byteLength left + 1

variable {tree : SyntaxTree}

/-- The first line of a return statement starts as the statement does. -/
theorem removalMark_ne_firstLine {text : String} (h : "return".toList <+: text.toList) :
  removalMark ≠ Offer.firstLine text
  := by
  obtain ⟨rest, hrest⟩ := h
  obtain ⟨line, -, -, -, hfirst⟩ := Text.exists_firstLine hrest.symm (by decide)
  intro heq
  have hhead := congrArg (·.toList.head?) heq
  rw [Offer.firstLine, hfirst, Text.trimEnd_cons (by decide), String.toList_ofList] at hhead
  cases hhead

/-- The mutation that takes up an offer puts another text in the place of its fragment, which is on
one line of the source if it is replaced. -/
theorem SyntaxTree.Orderly.mutated_ne (h : tree.Orderly) {offer : Offer}
    (hgrounded : offer.Grounded tree) {file : String} {i : Nat} {m : Mutation}
    (hm : m = offer.toMutation tree.source file i) :
  m.mutated ≠ m.fragment
    ∧ (m.kind.strategy = .substitute → '\n' ∉ m.fragment.toList ∧ m.IsOnLine tree.source)
  := by
  subst hm
  cases hgrounded with
  | @exchange node change hnode hchange =>
    refine ⟨hchange.ne_replacement, fun _ => ⟨hchange.unbroken, ?_⟩⟩
    obtain ⟨before, after, hsource, hstart, -⟩ := (h.spanned node hnode).exists_parts
    obtain ⟨above, left, right, below, -, -, hline, hcolumn⟩ :=
      Text.exists_hasLine before (node.text tree.source).toList after hchange.unbroken
    rw [← hsource, hstart] at hline hcolumn
    exact ⟨above, left, right, below, hline, hcolumn⟩
  | statement hnode hreturn =>
    constructor
    · apply removalMark_ne_firstLine (h.returned _ hnode hreturn)
    · rintro ⟨⟩
  | negation =>
    constructor
    · apply Grammar.negate_ne
    · rintro ⟨⟩
  | removal =>
    constructor
    · exact (by decide : removalMark ≠ "else")
    · rintro ⟨⟩

/-- Where mutations are numbered in their order, each is found under its id. -/
theorem findMutation_of_id {catalog : List Mutation}
    (hid : ∀ i, ∀ hi : i < catalog.length, catalog[i].id = s!"M{i}") {i : Nat}
    (hi : i < catalog.length) :
  Store.findMutation catalog s!"M{i}" = .ok catalog[i]
  := by
  have hfind : catalog.find? (·.id == s!"M{i}") = some catalog[i] := by
    rw [List.find?_eq_some_iff_getElem]
    refine ⟨by simp [hid i hi], i, hi, rfl, ?_⟩
    intro j hj
    rw [hid j (hj.trans hi), Bool.not_eq_true', beq_eq_false_iff_ne]
    intro heq
    exact hj.ne (Mutation.id_injective heq)
  rw [Store.findMutation, hfind]

/-- Mutations that take up different offers differ in where they make their changes, of what kind
these are, or what they put there. -/
theorem SyntaxTree.Orderly.nodup_catalog (h : tree.Orderly) {file : String}
    {emissions : List (Site × Offer)} (hsublist : emissions.Sublist tree.emissions) :
  ((tree.catalog file emissions).map fun m => (m.line, m.column, m.kind, m.mutated)).Nodup
  := by
  have hkeys : (tree.catalog file emissions).map (fun m => (m.line, m.column, m.kind, m.mutated))
      = emissions.map fun emission => ((emission.2.node.position tree.source).line,
        (emission.2.node.position tree.source).column, emission.2.change.kind,
        emission.2.change.replacement) := by
    apply List.ext_getElem
    · simp
    · intro i hi _
      rw [List.getElem_map, List.getElem_map, getElem_catalog]
      rfl
  rw [hkeys, List.Nodup, List.pairwise_map]
  apply (h.pairwise_emissions.sublist hsublist).imp_of_mem
  intro a b ha hb hne heq
  apply hne
  simp only [Prod.mk.injEq] at heq
  obtain ⟨hline, hcolumn, hkind, hreplacement⟩ := heq
  have hspanned : ∀ emission ∈ emissions, emission.2.node.Spanned tree.source := by
    intro emission hmem
    obtain ⟨hnode, hanchored⟩ := anchored_of_mem_emissions (hsublist.subset hmem)
    apply h.allSpanned hnode _ hanchored.mem_preorder
  have hstart := (hspanned a ha).start.eq_of_positionAt_eq (hspanned b hb).start
    (Text.Position.mk.injEq _ _ _ _ ▸ ⟨hline, hcolumn⟩)
  rw [Offer.key, Offer.key, hstart, hkind, hreplacement]

/-- The mutations of a catalog are numbered in their order, and each is the one that is found under
its id. In an orderly tree no two of them make the same change at the same place, each puts another
text in the place of its fragment, and a fragment that is replaced is on one line of the source and
stands at the position of the mutation. -/
theorem catalog_of_discover {parser : Parser} {file : String} {language : Language}
    {source : String} {scope : Scope} {catalog : List Mutation}
    (hparse : SyntaxTree.parse parser language source = .ok tree) (h : tree.Orderly)
    (hcatalog : discover parser file language source scope = .ok catalog) :
  (∀ i, ∀ hi : i < catalog.length,
      catalog[i].id = s!"M{i}" ∧ Store.findMutation catalog s!"M{i}" = .ok catalog[i])
    ∧ (catalog.map (·.id)).Nodup
    ∧ (catalog.map fun m => (m.line, m.column, m.kind, m.mutated)).Nodup
    ∧ ∀ m ∈ catalog, m.mutated ≠ m.fragment
      ∧ (m.kind.strategy = .substitute → '\n' ∉ m.fragment.toList ∧ m.IsOnLine source)
  := by
  obtain rfl : tree.source = source := congrArg (·.source) (SyntaxTree.eq_of_parse hparse)
  obtain rfl := catalog_eq_of_discover hparse hcatalog
  have hid : ∀ i, ∀ hi : i < (tree.catalog file
      (tree.emissions.filter (tree.covers scope ·.1))).length,
      ((tree.catalog file (tree.emissions.filter (tree.covers scope ·.1)))[i]).id = s!"M{i}" := by
    intro i hi
    rw [SyntaxTree.getElem_catalog]
    rfl
  refine ⟨?_, ?_, ?_, ?_⟩
  · intro i hi
    use hid i hi
    apply findMutation_of_id hid
  · rw [List.Nodup, List.pairwise_map, List.pairwise_iff_getElem]
    intro i j hi hj hlt heq
    rw [hid i hi, hid j hj] at heq
    exact hlt.ne (Mutation.id_injective heq)
  · apply h.nodup_catalog
    apply List.filter_sublist
  · intro m hm
    obtain ⟨i, hi, rfl⟩ := List.getElem_of_mem hm
    rw [SyntaxTree.getElem_catalog]
    obtain ⟨hnode, hanchored⟩ := SyntaxTree.anchored_of_mem_emissions
      (List.mem_of_mem_filter (List.getElem_mem (SyntaxTree.length_catalog file _ ▸ hi)))
    apply h.mutated_ne (hanchored.grounded hnode) rfl

/-- The tree of the Python source `if a < b < 1:⏎ return None, True⏎`. -/
def SyntaxNode.chaining : SyntaxNode :=
  Indented.module [Indented.node "if_statement" [
    Indented.leaf "if" false 0 2,
    Indented.filling .condition (Indented.node "comparison_operator" [
      Indented.leaf "identifier" true 3 4,
      Indented.leaf "<" false 5 6,
      Indented.leaf "identifier" true 7 8,
      Indented.leaf "<" false 9 10,
      Indented.leaf "integer" true 11 12]),
    Indented.leaf ":" false 12 13,
    Indented.filling .consequence (Indented.node "block" [
      Indented.node "return_statement" [
        Indented.leaf "return" false 15 21,
        Indented.node "expression_list" [
          Indented.leaf "none" true 22 26,
          Indented.leaf "," false 26 27,
          Indented.leaf "true" true 28 32]]])]] 33

/-- A conditional with a chained comparison and two returned values has fifteen mutations, no two of
which are the same. -/
theorem catalog_of_discover_chaining :
  let source := "if a < b < 1:\n return None, True\n"
  let parser : Parser := fun _ _ => .chaining
  let tree : SyntaxTree := ⟨.python, source, .chaining⟩
  let catalog := (discover parser "a.py" .python source ⟨none, none⟩).toOption.getD []
  tree.Orderly ∧ catalog.length = 15
    ∧ (∀ i, ∀ hi : i < catalog.length, Store.findMutation catalog s!"M{i}" = .ok catalog[i])
    ∧ (catalog.map fun m => (m.line, m.column, m.kind, m.mutated)).Nodup
    ∧ ∀ m ∈ catalog, m.mutated ≠ m.fragment
      ∧ (m.kind.strategy = .substitute → '\n' ∉ m.fragment.toList ∧ m.IsOnLine source)
  := by
  intro source parser tree catalog
  have hparse : SyntaxTree.parse parser .python source = .ok tree := rfl
  have horderly : tree.Orderly := by decide +kernel
  have hlength : catalog.length = 15 := by decide +kernel
  have hcatalog : discover parser "a.py" .python source ⟨none, none⟩ = .ok catalog := by
    decide +kernel
  obtain ⟨hnumbered, -, hkeys, hmutated⟩ := catalog_of_discover hparse horderly hcatalog
  refine ⟨horderly, hlength, ?_, hkeys, hmutated⟩
  intro i hi
  exact (hnumbered i hi).2

end MutationTesting
