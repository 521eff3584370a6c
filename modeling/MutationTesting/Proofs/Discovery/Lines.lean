import MutationTesting.Proofs.Discovery.Scope
import MutationTesting.Tree.Indented.Statement

/-!
# Mutations on a range of lines

A search that is limited to lines finds the offers at the nodes that start there. The line of a
mutation is that of the operator or of the returned value that changes, which can stand below the
first line of its expression, so these are the mutations with lines in the range unless an
expression or a return statement reaches over a bound of the range.
-/

namespace MutationTesting

variable {tree : SyntaxTree} {source : String}

/-! ### Numbering -/

namespace Mutation

/-- The mutations of a list, named anew in their order. -/
def renumber (mutations : List Mutation) : List Mutation :=
  mutations.zipIdx.map fun (m, i) => { m with id := s!"M{i}" }

/-- A mutation without its name. -/
def unnamed (m : Mutation) : Mutation := { m with id := "" }

/-- The names that mutations had play no part when they are named anew. -/
theorem renumber_map_unnamed (mutations : List Mutation) :
  renumber (mutations.map unnamed) = renumber mutations
  := by
  rw [renumber, renumber, List.zipIdx_map, List.map_map]
  rfl

theorem map_unnamed_renumber (mutations : List Mutation) :
  (renumber mutations).map unnamed = mutations.map unnamed
  := by
  have hfst : (renumber mutations).map unnamed = (mutations.zipIdx.map (·.1)).map unnamed := by
    rw [renumber, List.map_map, List.map_map]
    rfl
  rw [hfst, List.zipIdx_map_fst]

/-- Mutations that are chosen whatever their names are can be chosen before they are named. -/
theorem renumber_filter_renumber {p : Mutation → Bool} (hp : ∀ m, p m.unnamed = p m)
    (mutations : List Mutation) :
  renumber ((renumber mutations).filter p) = renumber (mutations.filter p)
  := by
  have hfilter : ∀ ms : List Mutation, (ms.filter p).map unnamed = (ms.map unnamed).filter p := by
    intro ms
    rw [List.filter_map]
    congr 1
    apply List.filter_congr
    intro m _
    exact (hp m).symm
  rw [← renumber_map_unnamed, hfilter, map_unnamed_renumber, ← hfilter, renumber_map_unnamed]

end Mutation

/-- The mutations of a catalog are named in their order. -/
theorem SyntaxTree.catalog_eq_renumber (file : String) (emissions : List (Site × Offer)) :
  tree.catalog file emissions
    = Mutation.renumber (emissions.map fun emission => emission.2.toMutation tree.source file 0)
  := by
  rw [catalog, Mutation.renumber, List.zipIdx_map, List.zipIdx_map, List.map_map, List.map_map]
  rfl

/-- The mutations of a catalog with lines in a range. -/
theorem SyntaxTree.renumber_filter_catalog (file : String) (emissions : List (Site × Offer))
    (range : LineRange) :
  Mutation.renumber ((tree.catalog file emissions).filter (range.contains ·.line))
    = tree.catalog file (emissions.filter fun emission =>
      range.contains (emission.2.node.position tree.source).line)
  := by
  rw [catalog_eq_renumber, catalog_eq_renumber, Mutation.renumber_filter_renumber fun _ => rfl,
    List.filter_map]
  rfl

/-! ### Lines -/

/-- Apart from operators and returned values, what changes is the node where the offer is made. -/
theorem Offer.Anchored.node_eq {language : Language} {node : SyntaxNode} {offer : Offer}
    (h : offer.Anchored language source node) :
  offer.change.kind.isOperator = true ∨ offer.change.kind = .returnValue ∨ offer.node = node
  := by
  cases h with
  | token _ hoperator => exact Or.inl hoperator
  | value _ _ hchange =>
    obtain ⟨other, -, rfl⟩ := List.mem_map.mp hchange
    exact Or.inr (Or.inl rfl)
  | integer | string | statement | negation | removal => exact Or.inr (Or.inr rfl)

/-- Two conditions hold of the same elements of a list if as many elements meet one as meet both. -/
theorem eq_of_length_filter_eq {α : Type} {p q : α → Bool} {l : List α}
    (hp : (l.filter fun a => q a && p a).length = (l.filter p).length)
    (hq : (l.filter fun a => q a && p a).length = (l.filter q).length) :
  ∀ a ∈ l, p a = q a
  := by
  rw [← List.filter_filter, List.length_filter_eq_length_iff] at hp
  rw [funext fun a => Bool.and_comm (q a) (p a), ← List.filter_filter,
    List.length_filter_eq_length_iff] at hq
  intro a ha
  rw [Bool.eq_iff_iff]
  constructor
  · intro hpa
    apply hp a (List.mem_filter.mpr ⟨ha, hpa⟩)
  · intro hqa
    apply hq a (List.mem_filter.mpr ⟨ha, hqa⟩)

/-- The mutations that are offered at nodes that start on a range of lines are those with lines in
the range if and only if each mutation has its line in the range exactly when its node starts
there. -/
theorem SyntaxTree.catalog_filter_line_iff {file : String} {range : LineRange} :
  tree.catalog file (tree.emissions.filter fun emission =>
      range.contains (emission.1.node.position tree.source).line)
    = Mutation.renumber ((tree.catalog file tree.emissions).filter (range.contains ·.line))
    ↔ ∀ emission ∈ tree.emissions,
      range.contains (emission.1.node.position tree.source).line
        = range.contains (emission.2.node.position tree.source).line
  := by
  rw [renumber_filter_catalog]
  constructor
  · intro heq
    have hlengths := congrArg List.length heq
    rw [length_catalog, length_catalog] at hlengths
    -- Those on the right have their lines in the range, so none of those on the left falls out.
    have hkept := congrArg
      (fun ms => (Mutation.renumber (ms.filter (range.contains ·.line))).length) heq
    simp only [renumber_filter_catalog, length_catalog, List.filter_filter, Bool.and_self] at hkept
    apply eq_of_length_filter_eq
    · rw [hkept, hlengths]
    · rw [hkept]
  · intro hall
    rw [List.filter_congr hall]

/-- In a source that parses, a search for the mutations on a range of lines finds those that are
offered at nodes that start there. These are the mutations with lines in the range if and only if
each mutation has its line in the range exactly when its node starts there. The line of a mutation
that is no change of an operator or of a returned value is that of its node, and where all nodes
span parts of the source, no mutation has its line above its node. -/
theorem discover_lines_iff {parser : Parser} {language : Language} (file : String)
    (hparse : SyntaxTree.parse parser language source = .ok tree) :
  discover parser file language source ⟨none, none⟩ = .ok (tree.catalog file tree.emissions)
    ∧ (∀ range : LineRange,
      discover parser file language source ⟨none, some range⟩
        = .ok (tree.catalog file (tree.emissions.filter fun emission =>
            range.contains (emission.1.node.position source).line))
      ∧ (discover parser file language source ⟨none, some range⟩
          = .ok (Mutation.renumber
            ((tree.catalog file tree.emissions).filter (range.contains ·.line)))
        ↔ ∀ emission ∈ tree.emissions,
          range.contains (emission.1.node.position source).line
            = range.contains (emission.2.node.position source).line))
    ∧ (∀ emission ∈ tree.emissions, emission.2.change.kind.isOperator = true
      ∨ emission.2.change.kind = .returnValue ∨ emission.2.node = emission.1.node)
    ∧ ((∀ node ∈ tree.nodes, node.Spanned source) → ∀ emission ∈ tree.emissions,
      (emission.1.node.position source).line ≤ (emission.2.node.position source).line)
  := by
  obtain rfl : tree.source = source := congrArg (·.source) (SyntaxTree.eq_of_parse hparse)
  constructor
  · rw [discover_eq hparse (by simp), List.filter_eq_self.mpr]
    exact fun _ _ => rfl
  · refine ⟨?_, ?_, ?_⟩
    · intro range
      have hfound : discover parser file language tree.source ⟨none, some range⟩
          = .ok (tree.catalog file (tree.emissions.filter fun emission =>
            range.contains (emission.1.node.position tree.source).line)) := by
        rw [discover_eq hparse (by simp)]
        simp [SyntaxTree.covers, Scope.onLines]
      use hfound
      rw [hfound, Except.ok.injEq, SyntaxTree.catalog_filter_line_iff]
    · intro emission hmem
      apply (SyntaxTree.anchored_of_mem_emissions hmem).2.node_eq
    · intro hspanned emission hmem
      obtain ⟨hnode, hanchored⟩ := SyntaxTree.anchored_of_mem_emissions hmem
      apply SyntaxNode.line_le_of_mem_preorder _ hanchored.mem_preorder
      intro n hn
      apply hspanned
      apply SyntaxNode.mem_preorder_trans hn hnode

/-- The tree of the Python source `x = (1⏎ + 2)⏎`. -/
def SyntaxNode.reaching : SyntaxNode :=
  Indented.module [Indented.node "expression_statement" [Indented.node "assignment" [
    Indented.filling .left (Indented.leaf "identifier" true 0 1),
    Indented.leaf "=" false 2 3,
    Indented.filling .right (Indented.node "parenthesized_expression" [
      Indented.leaf "(" false 4 5,
      Indented.node "binary_operator" [
        Indented.filling .left (Indented.leaf "integer" true 5 6),
        Indented.leaf "+" false 8 9,
        Indented.filling .right (Indented.leaf "integer" true 10 11)],
      Indented.leaf ")" false 11 12])]]] 13

/-- A sum over two lines: a search on the first line finds the changes of its operator though that
stands on the second one, and a search on both lines finds all that changes on them. -/
theorem discover_lines_reaching :
  let source := "x = (1\n + 2)\n"
  let parser : Parser := fun _ _ => .reaching
  let tree : SyntaxTree := ⟨.python, source, .reaching⟩
  SyntaxTree.parse parser .python source = .ok tree
    ∧ (∀ node ∈ tree.nodes, node.Spanned source)
    ∧ (discover parser "a.py" .python source ⟨none, some ⟨1, 1⟩⟩).map (·.map (·.line))
      = .ok [2, 2, 2, 2, 1]
    ∧ discover parser "a.py" .python source ⟨none, some ⟨1, 2⟩⟩
      = .ok (Mutation.renumber
        ((tree.catalog "a.py" tree.emissions).filter (LineRange.contains ⟨1, 2⟩ ·.line)))
    ∧ ∀ emission ∈ tree.emissions,
      (emission.1.node.position source).line ≤ (emission.2.node.position source).line
  := by
  intro source parser tree
  have hparse : SyntaxTree.parse parser .python source = .ok tree := rfl
  have hspanned : ∀ node ∈ tree.nodes, node.Spanned source := by decide +kernel
  have hboth : ∀ emission ∈ tree.emissions,
      LineRange.contains ⟨1, 2⟩ (emission.1.node.position source).line
        = LineRange.contains ⟨1, 2⟩ (emission.2.node.position source).line := by
    decide +kernel
  obtain ⟨-, hranges, -, hlines⟩ := discover_lines_iff "a.py" hparse
  refine ⟨hparse, hspanned, ?_, ?_, hlines hspanned⟩
  · rw [(hranges ⟨1, 1⟩).1]
    decide +kernel
  · rw [(hranges ⟨1, 2⟩).2.mpr hboth]

/-- The changes of an operator on the second line of a sum are not found there. -/
theorem not_discovered_reaching :
  let source := "x = (1\n + 2)\n"
  let parser : Parser := fun _ _ => .reaching
  let tree : SyntaxTree := ⟨.python, source, .reaching⟩
  SyntaxTree.parse parser .python source = .ok tree
    ∧ discover parser "a.py" .python source ⟨none, some ⟨2, 2⟩⟩
      ≠ .ok (Mutation.renumber
        ((tree.catalog "a.py" tree.emissions).filter (LineRange.contains ⟨2, 2⟩ ·.line)))
  := by
  intro source parser tree
  have hparse : SyntaxTree.parse parser .python source = .ok tree := rfl
  use hparse
  decide +kernel

end MutationTesting
