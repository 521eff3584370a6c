import MutationTesting.Proofs.Tree.Preorder
import MutationTesting.Tree.Table

/-!
# Trees in tables

The rows of trees are their nodes in preorder, each with the number of its children. Rows are read
as the trees that have them, and there are no others (`forest?_eq_some_iff`), so that a tree of a
table has just the nodes that were written down.
-/

namespace MutationTesting

open SyntaxNode

/-- What the row of a node says of it. -/
def SyntaxNode.row (node : SyntaxNode) : NodeInfo × Nat := (node.info, node.children.length)

namespace TreeTable

variable {rows rest : List (NodeInfo × Nat)} {nodes nodes' : List SyntaxNode}

/-- The rows of a tree are read as it, before the trees of other rows. -/
def Reads (node : SyntaxNode) : Prop :=
  ∀ {rest nodes'}, forest? rest = some nodes' →
    forest? (node.preorder.map row ++ rest) = some (node :: nodes')

theorem forest?_append (h : ∀ node ∈ nodes, Reads node) (hrest : forest? rest = some nodes') :
  forest? ((nodes.flatMap preorder).map row ++ rest) = some (nodes ++ nodes')
  := by
  induction nodes with
  | nil => exact hrest
  | cons node nodes ih =>
    rw [List.flatMap_cons, List.map_append, List.append_assoc]
    apply h node List.mem_cons_self
    apply ih fun other hother => h other (List.mem_cons_of_mem _ hother)

theorem reads (node : SyntaxNode) :
  Reads node
  := by
  induction node with
  | mk info children ih =>
    intro rest nodes' hrest
    rw [preorder_mk, List.map_cons, List.cons_append, row, forest?, forest?_append ih hrest]
    simp

/-- Rows are read as the trees that have them. -/
theorem forest?_eq_some_iff :
  forest? rows = some nodes ↔ (nodes.flatMap preorder).map row = rows
  := by
  constructor
  · intro h
    induction rows generalizing nodes with
    | nil =>
      cases h
      rfl
    | cons first rows ih =>
      obtain ⟨info, count⟩ := first
      obtain ⟨forest, hforest, h⟩ := Option.bind_eq_some_iff.mp h
      split at h
      · cases h
      · next hcount =>
        cases h
        have hlength : (forest.take count).length = count := by
          rw [List.length_take]
          omega
        have hrows := ih hforest
        rw [← List.take_append_drop count forest, List.flatMap_append] at hrows
        rw [List.flatMap_cons, preorder_mk, List.cons_append, List.map_cons, hrows, row, info_mk,
          children_mk, hlength]
  · rintro rfl
    have hforest : forest? ((nodes.flatMap preorder).map row ++ []) = some (nodes ++ []) :=
      forest?_append (fun node _ => reads node) rfl
    rwa [List.append_nil, List.append_nil] at hforest

/-- A text of a table is written down as the nodes of its tree. -/
theorem exists_rows_of_parsed? {json : Json} {p : ParsedText} (h : parsed? json = some p) :
  ∃ written, json.field? "nodes" = some (.array written)
    ∧ written.mapM row? = some (p.root.preorder.map row)
  := by
  obtain ⟨language, -, h⟩ := Option.bind_eq_some_iff.mp h
  split at h
  · obtain ⟨source, -, h⟩ := Option.bind_eq_some_iff.mp h
    split at h
    · obtain ⟨nodes, hnodes, h⟩ := Option.bind_eq_some_iff.mp h
      split at h
      · next written =>
        obtain ⟨rows, hrows, h⟩ := Option.bind_eq_some_iff.mp h
        obtain ⟨forest, hforest, h⟩ := Option.bind_eq_some_iff.mp h
        split at h
        · next root =>
          obtain ⟨language, -, h⟩ := Option.bind_eq_some_iff.mp h
          cases h
          use written, hnodes
          rw [hrows, ← forest?_eq_some_iff.mp hforest, List.flatMap_singleton]
        · cases h
      · cases h
    · cases h
  · cases h

end TreeTable

end MutationTesting
