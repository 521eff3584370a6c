import Mathlib.Data.List.Pairwise
import Mathlib.Tactic.Common
import MutationTesting.Proofs.Text.Line
import MutationTesting.Proofs.Tree.Preorder
import MutationTesting.Text.Blank

/-!
# Well-formed trees

A tree is well formed when every node spans a part of the source and the spans of its
children follow one another inside its own (`SyntaxNode.Spanned`), it has the parts that its
kind promises (`SyntaxNode.Shaped`), and no two conditionals of one kind start at the same
byte. In such a tree nothing below a node starts on an earlier line, and a conditional is
determined by its position.
-/

namespace MutationTesting

namespace SyntaxNode

/-! ### The parts of a node -/

/-- A node spans a part of a source, and its children parts of that part, in order. -/
structure Spanned (source : String) (node : SyntaxNode) : Prop where
  start : Text.IsBoundary node.info.start source.toList
  stop : Text.IsBoundary node.info.stop source.toList
  start_le_stop : node.info.start ≤ node.info.stop
  inside : ∀ child ∈ node.children,
    node.info.start ≤ child.info.start ∧ child.info.stop ≤ node.info.stop
  ordered : node.children.Pairwise fun a b => a.info.stop ≤ b.info.start

/-- The last alternative of a conditional ends after its consequence, and a return statement
starts with no blank. -/
structure Shaped (g : Grammar) (source : String) (node : SyntaxNode) : Prop where
  alternative : g.ifKinds.contains node.kind = true →
    ∀ last ∈ (node.fillers .alternative).getLast?,
      ∃ consequence ∈ node.child? .consequence, consequence.info.stop < last.info.stop
  returned : g.returnKinds.contains node.kind = true →
    (node.text source).toList.head?.any (!Text.isBlank ·) = true

instance (source : String) (node : SyntaxNode) : Decidable (node.Spanned source) :=
  decidable_of_iff
    (Text.IsBoundary node.info.start source.toList ∧ Text.IsBoundary node.info.stop source.toList
      ∧ node.info.start ≤ node.info.stop
      ∧ (∀ child ∈ node.children,
          node.info.start ≤ child.info.start ∧ child.info.stop ≤ node.info.stop)
      ∧ node.children.Pairwise fun a b => a.info.stop ≤ b.info.start)
    ⟨fun ⟨h₁, h₂, h₃, h₄, h₅⟩ => ⟨h₁, h₂, h₃, h₄, h₅⟩,
      fun ⟨h₁, h₂, h₃, h₄, h₅⟩ => ⟨h₁, h₂, h₃, h₄, h₅⟩⟩

instance (g : Grammar) (source : String) (node : SyntaxNode) :
    Decidable (node.Shaped g source) :=
  decidable_of_iff
    ((g.ifKinds.contains node.kind = true →
        ∀ last ∈ (node.fillers .alternative).getLast?,
          ∃ consequence ∈ node.child? .consequence, consequence.info.stop < last.info.stop)
      ∧ (g.returnKinds.contains node.kind = true →
        (node.text source).toList.head?.any (!Text.isBlank ·) = true))
    ⟨fun ⟨h₁, h₂⟩ => ⟨h₁, h₂⟩, fun ⟨h₁, h₂⟩ => ⟨h₁, h₂⟩⟩

theorem mem_children_of_child? {node child : SyntaxNode} {field : Field}
    (h : node.child? field = some child) :
  child ∈ node.children
  := List.mem_of_find?_eq_some h

theorem mem_children_of_mem_fillers {node child : SyntaxNode} {field : Field}
    (h : child ∈ node.fillers field) :
  child ∈ node.children
  := List.mem_of_mem_filter h

/-- A field that is filled has a last child that fills it. -/
theorem exists_last_filler {node : SyntaxNode} {field : Field}
    (h : (node.child? field).isSome = true) :
  ∃ last, (node.fillers field).getLast? = some last
  := by
  obtain ⟨child, hchild, hfills⟩ := List.find?_isSome.mp h
  apply Option.isSome_iff_exists.mp
  rw [List.getLast?_isSome]
  apply List.ne_nil_of_mem
  apply List.mem_filter.mpr ⟨hchild, hfills⟩

/-- Nothing below a node starts before it. -/
theorem start_le_of_mem_preorder {source : String} {node below : SyntaxNode}
    (hspanned : ∀ n ∈ node.preorder, n.Spanned source) (h : below ∈ node.preorder) :
  node.info.start ≤ below.info.start
  := by
  induction node with
  | mk info children ih =>
    obtain rfl | ⟨child, hchild, hbelow⟩ := mem_preorder_mk.mp h
    · apply Nat.le_refl
    · have hinside := (hspanned _ (self_mem_preorder _)).inside child hchild
      apply Nat.le_trans hinside.1
      apply ih child hchild _ hbelow
      intro n hn
      apply hspanned
      apply mem_preorder_mk.mpr (Or.inr ⟨child, hchild, hn⟩)

/-- Nothing below a node starts on an earlier line. -/
theorem line_le_of_mem_preorder {source : String} {node below : SyntaxNode}
    (hspanned : ∀ n ∈ node.preorder, n.Spanned source) (h : below ∈ node.preorder) :
  (node.position source).line ≤ (below.position source).line
  := by
  apply Text.positionAt_line_le (hspanned node node.self_mem_preorder).start
    (hspanned below h).start
  apply start_le_of_mem_preorder hspanned h

/-- The text of a node that spans a part of a source, with all that stands around it. -/
theorem Spanned.exists_parts {source : String} {node : SyntaxNode} (h : node.Spanned source) :
  ∃ before after,
    source.toList = before ++ (node.text source).toList ++ after
      ∧ Text.byteLength before = node.info.start
      ∧ Text.byteLength before + Text.byteLength (node.text source).toList = node.info.stop
  := by
  obtain ⟨before, middle, after, hsource, hbefore, hmiddle⟩ :=
    h.start.exists_parts h.stop h.start_le_stop
  have htext : (node.text source).toList = middle := by
    rw [text, ← hbefore, ← hmiddle, Text.slice_eq hsource, String.toList_ofList]
  rw [htext]
  exact ⟨before, after, hsource, hbefore, hmiddle⟩

/-- A node with a text ends after it starts. -/
theorem Spanned.start_lt_stop {source : String} {node : SyntaxNode} (h : node.Spanned source)
    (htext : node.text source ≠ "") :
  node.info.start < node.info.stop
  := by
  obtain ⟨before, after, -, hstart, hstop⟩ := h.exists_parts
  have hlength : Text.byteLength (node.text source).toList ≠ 0 := by
    rwa [Ne, Text.byteLength_eq_zero_iff, String.toList_eq_nil_iff]
  omega

end SyntaxNode

namespace SyntaxTree

/-! ### Trees -/

theorem eq_of_parse {parser : Parser} {language : Language} {source : String}
    {tree : SyntaxTree} (h : parse parser language source = .ok tree) :
  tree = ⟨language, source, parser language source⟩
  := by
  unfold parse at h
  dsimp only at h
  split at h
  · contradiction
  · exact (Except.ok.inj h).symm

/-- The nodes of a tree, parents before children. -/
def nodes (tree : SyntaxTree) : List SyntaxNode := tree.root.preorder

theorem mem_nodes_of_mem_children {tree : SyntaxTree} {node child : SyntaxNode}
    (hnode : node ∈ tree.nodes) (hchild : child ∈ node.children) :
  child ∈ tree.nodes
  := SyntaxNode.mem_preorder_trans (SyntaxNode.mem_preorder_of_mem_children hchild) hnode

/-- All nodes of a tree span parts of its source and have the parts that their kinds
promise, and no two conditionals of one kind start at the same byte. -/
structure WellFormed (tree : SyntaxTree) : Prop where
  spanned : ∀ node ∈ tree.nodes, node.Spanned tree.source
  shaped : ∀ node ∈ tree.nodes, node.Shaped tree.language.grammar tree.source
  apart : tree.nodes.Pairwise fun a b =>
    tree.language.grammar.ifKinds.contains a.kind = true → a.kind = b.kind →
      a.info.start ≠ b.info.start

instance (tree : SyntaxTree) : Decidable tree.WellFormed :=
  decidable_of_iff
    ((∀ node ∈ tree.nodes, node.Spanned tree.source)
      ∧ (∀ node ∈ tree.nodes, node.Shaped tree.language.grammar tree.source)
      ∧ tree.nodes.Pairwise fun a b =>
          tree.language.grammar.ifKinds.contains a.kind = true → a.kind = b.kind →
            a.info.start ≠ b.info.start)
    ⟨fun ⟨h₁, h₂, h₃⟩ => ⟨h₁, h₂, h₃⟩, fun ⟨h₁, h₂, h₃⟩ => ⟨h₁, h₂, h₃⟩⟩

namespace WellFormed

variable {tree : SyntaxTree}

/-- Two conditionals of one kind at one position are the same. -/
theorem eq_of_position_eq (h : tree.WellFormed) {a b : SyntaxNode} (ha : a ∈ tree.nodes)
    (hb : b ∈ tree.nodes) (hif : tree.language.grammar.ifKinds.contains a.kind = true)
    (hkind : a.kind = b.kind) (hposition : a.position tree.source = b.position tree.source) :
  a = b
  := by
  have hstart : a.info.start = b.info.start :=
    (h.spanned a ha).start.eq_of_positionAt_eq (h.spanned b hb).start hposition
  have : Std.Symm fun a b : SyntaxNode =>
      tree.language.grammar.ifKinds.contains a.kind = true → a.kind = b.kind →
        a.info.start ≠ b.info.start := by
    constructor
    intro a b hab hif hkind
    rw [hkind] at hif
    exact (hab hif hkind.symm).symm
  by_contra hne
  apply h.apart.forall ha hb hne hif hkind hstart

end WellFormed

end SyntaxTree

end MutationTesting
