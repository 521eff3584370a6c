import MutationTesting.Proofs.Tree.WellFormed

/-!
# The order of the nodes of a tree

Of two nodes of a tree, the later one is below a child of the earlier one or starts where that ends
(`SyntaxNode.Precedes`). So what is in one child of a node and what is in another node never start
at the same byte, unless the other node is in that child itself.
-/

namespace MutationTesting.SyntaxNode

variable {source : String} {a b child root x y : SyntaxNode}

/-- A node is followed by another one below it or beyond its end. -/
def Precedes (a b : SyntaxNode) : Prop :=
  (∃ child ∈ a.children, b ∈ child.preorder) ∨ a.info.stop ≤ b.info.start

/-- All nodes of a tree span parts of a source. -/
def AllSpanned (source : String) (root : SyntaxNode) : Prop :=
  ∀ node ∈ root.preorder, node.Spanned source

theorem AllSpanned.below (h : root.AllSpanned source) (ha : a ∈ root.preorder) :
  a.AllSpanned source
  := fun _ hnode => h _ (mem_preorder_trans hnode ha)

/-- Nothing below a node ends after it. -/
theorem AllSpanned.stop_le (h : a.AllSpanned source) (hb : b ∈ a.preorder) :
  b.info.stop ≤ a.info.stop
  := by
  induction a with
  | mk info children ih =>
    obtain rfl | ⟨child, hchild, hbelow⟩ := mem_preorder_mk.mp hb
    · apply Nat.le_refl
    · have hinside := (h _ (self_mem_preorder _)).inside child hchild
      apply Nat.le_trans _ hinside.2
      apply ih child hchild (h.below _) hbelow
      apply mem_preorder_of_mem_children hchild

/-- Each node of a tree precedes those that come after it. -/
theorem AllSpanned.pairwise_preorder (h : root.AllSpanned source) :
  root.preorder.Pairwise Precedes
  := by
  induction root with
  | mk info children ih =>
    have hchild : ∀ child ∈ children, child.AllSpanned source :=
      fun child hchild => h.below (mem_preorder_of_mem_children hchild)
    rw [preorder_mk, List.pairwise_cons, List.pairwise_flatMap]
    refine ⟨?_, ?_, ?_⟩
    · intro b hb
      exact Or.inl (List.mem_flatMap.mp hb)
    · intro child hmem
      apply ih child hmem (hchild child hmem)
    · apply (h _ (self_mem_preorder _)).ordered.imp_of_mem
      intro left right hleft hright hle x hx y hy
      have hstop := (hchild left hleft).stop_le hx
      have hstart := start_le_of_mem_preorder (hchild right hright) hy
      exact Or.inr (Nat.le_trans hstop (Nat.le_trans hle hstart))

/-- Two children of a node are the same or one ends before the other starts. -/
theorem Spanned.eq_or_parted (h : root.Spanned source) (ha : a ∈ root.children)
    (hb : b ∈ root.children) :
  a = b ∨ a.info.stop ≤ b.info.start ∨ b.info.stop ≤ a.info.start
  := by
  have : Std.Symm fun a b : SyntaxNode =>
      a.info.stop ≤ b.info.start ∨ b.info.stop ≤ a.info.start := by
    constructor
    intro a b h
    exact h.symm
  have hparted : root.children.Pairwise fun a b : SyntaxNode =>
      a.info.stop ≤ b.info.start ∨ b.info.stop ≤ a.info.start := h.ordered.imp Or.inl
  by_cases heq : a = b
  · exact Or.inl heq
  · exact Or.inr (hparted.forall ha hb heq)

/-- What is in a child of a node and what is in a node that this one precedes do not start at the
same byte, unless that node is in the child as well. -/
theorem Precedes.start_ne_or (h : a.Precedes b) (ha : a.AllSpanned source)
    (hb : b.AllSpanned source) (hchild : child ∈ a.children) (hx : x ∈ child.preorder)
    (hy : y ∈ b.preorder) (hxs : x.info.start < x.info.stop) (hys : y.info.start < y.info.stop) :
  x.info.start ≠ y.info.start ∨ b ∈ child.preorder
  := by
  have hxstop : x.info.stop ≤ child.info.stop :=
    (ha.below (mem_preorder_of_mem_children hchild)).stop_le hx
  have hystart : b.info.start ≤ y.info.start := start_le_of_mem_preorder hb hy
  obtain ⟨other, hother, hbelow⟩ | hbeyond := h
  · have hotherspanned := ha.below (mem_preorder_of_mem_children hother)
    obtain rfl | hbefore | hafter := (ha a a.self_mem_preorder).eq_or_parted hchild hother
    · exact Or.inr hbelow
    · have hbstart : other.info.start ≤ b.info.start :=
        start_le_of_mem_preorder hotherspanned hbelow
      apply Or.inl
      omega
    · have hystop : y.info.stop ≤ other.info.stop :=
        hotherspanned.stop_le (mem_preorder_trans hy hbelow)
      have hxstart : child.info.start ≤ x.info.start :=
        start_le_of_mem_preorder (ha.below (mem_preorder_of_mem_children hchild)) hx
      apply Or.inl
      omega
  · have hinside := ((ha a a.self_mem_preorder).inside child hchild).2
    apply Or.inl
    omega

/-- Of two nodes that start at the same byte, the text of the one that ends first is the beginning
of the text of the other. -/
theorem Spanned.text_isPrefix (ha : a.Spanned source) (hb : b.Spanned source)
    (hstart : a.info.start = b.info.start) (hstop : a.info.stop ≤ b.info.stop) :
  (a.text source).toList <+: (b.text source).toList
  := by
  obtain ⟨before, after, hsource, hbefore, hafter⟩ := ha.exists_parts
  obtain ⟨before', after', hsource', hbefore', hafter'⟩ := hb.exists_parts
  have hparts := hsource.symm.trans hsource'
  rw [List.append_assoc, List.append_assoc] at hparts
  obtain ⟨skipped, rfl, hrest⟩ :=
    Text.exists_eq_append_of_byteLength_le hparts (by omega)
  rw [Text.byteLength_append] at hbefore' hafter'
  obtain rfl : skipped = [] := Text.byteLength_eq_zero_iff.mp (by omega)
  rw [List.nil_append] at hrest
  rw [Text.byteLength_nil] at hafter'
  obtain ⟨rest, hrest, -⟩ := Text.exists_eq_append_of_byteLength_le hrest (by omega)
  rw [hrest]
  apply List.prefix_append

end MutationTesting.SyntaxNode
