import Mathlib.Data.List.Basic
import Mathlib.Tactic.Common
import MutationTesting.Tree.Walk

/-!
# The nodes of a tree in preorder

`SyntaxNode.preorder` lists a node and all nodes below it, parents before children. A walk, which
takes one context along, does what it would do if every node were given its own
(`SyntaxNode.tour_eq`, `SyntaxTree.walk_eq`). What every visit of a walk keeps is kept by the walk
(`walk_invariant`), and a walk that skips nothing but nodes that leave its state alone folds its
state along the preorder (`walk_eq_foldl_preorder`).
-/

namespace MutationTesting

namespace WalkContext

variable (ctx : WalkContext)

/-- A node that has put its name onto a context takes it away again. -/
theorem retract_declare (name? : Option String) :
  (ctx.declare name?).retract name? = ctx
  := by
  cases name? with
  | none => rfl
  | some name => rw [declare, retract, List.dropLast_concat]

theorem above_below (node : SyntaxNode) :
  (ctx.below node).above = ctx
  := rfl

end WalkContext

namespace SyntaxNode

/-- A property of nodes that passes from the children of a node to the node holds of all
nodes. -/
@[induction_eliminator]
theorem induction {P : SyntaxNode → Prop}
    (mk : ∀ info children, (∀ child ∈ children, P child) → P (mk info children)) :
  ∀ node, P node
  | .mk info children => by
      apply mk
      intro child hchild
      have := List.sizeOf_lt_of_mem hchild
      apply induction mk child

/-! ### Preorder -/

mutual

/-- A node and all nodes below it, parents before children. -/
def preorder : SyntaxNode → List SyntaxNode
  | mk info children => mk info children :: preorderAll children

/-- The nodes of a list of trees, one tree after the other. -/
def preorderAll : List SyntaxNode → List SyntaxNode
  | [] => []
  | node :: nodes => preorder node ++ preorderAll nodes

end

theorem preorderAll_eq_flatMap (nodes : List SyntaxNode) :
  preorderAll nodes = nodes.flatMap preorder
  := by
  induction nodes with
  | nil => rfl
  | cons node nodes ih => rw [preorderAll, ih, List.flatMap_cons]

theorem preorder_mk (info : NodeInfo) (children : List SyntaxNode) :
  preorder (mk info children) = mk info children :: children.flatMap preorder
  := by
  rw [preorder, preorderAll_eq_flatMap]

theorem mem_preorder_mk {node : SyntaxNode} {info : NodeInfo} {children : List SyntaxNode} :
  node ∈ preorder (mk info children)
    ↔ node = mk info children ∨ ∃ child ∈ children, node ∈ child.preorder
  := by
  rw [preorder_mk, List.mem_cons, List.mem_flatMap]

theorem self_mem_preorder (node : SyntaxNode) :
  node ∈ node.preorder
  := by
  cases node
  apply mem_preorder_mk.mpr (Or.inl rfl)

/-- What is below a node of a tree is in the tree. -/
theorem mem_preorder_trans {a b root : SyntaxNode} (ha : a ∈ b.preorder)
    (hb : b ∈ root.preorder) :
  a ∈ root.preorder
  := by
  induction root with
  | mk info children ih =>
    obtain rfl | ⟨child, hchild, hb⟩ := mem_preorder_mk.mp hb
    · exact ha
    · apply mem_preorder_mk.mpr
      exact Or.inr ⟨child, hchild, ih child hchild hb⟩

theorem mem_preorder_of_mem_children {child node : SyntaxNode} (h : child ∈ node.children) :
  child ∈ node.preorder
  := by
  cases node
  apply mem_preorder_mk.mpr
  exact Or.inr ⟨child, h, self_mem_preorder child⟩

/-! ### Walks -/

mutual

/-- What the visits of a node and of what is below it make of a state, each in the context of its
node. -/
def walk {σ : Type} (g : Grammar) (source : String) (visit : Visitor σ) (ctx : WalkContext)
    (s : σ) : SyntaxNode → σ
  | mk info children =>
    let ctx := ctx.declare (g.functionName? source (mk info children))
    match visit s (mk info children) ctx with
    | (s, .skip) => s
    | (s, .descend) => walkAll g source visit (ctx.below (mk info children)) s children

/-- What the visits of the nodes of a list and of what is below them make of a state. -/
def walkAll {σ : Type} (g : Grammar) (source : String) (visit : Visitor σ) (ctx : WalkContext)
    (s : σ) : List SyntaxNode → σ
  | [] => s
  | node :: nodes => walkAll g source visit ctx (walk g source visit ctx s node) nodes

end

variable {σ : Type} {g : Grammar} {source : String} {visit : Visitor σ}

theorem walkAll_eq_foldl (ctx : WalkContext) (s : σ) (nodes : List SyntaxNode) :
  walkAll g source visit ctx s nodes = nodes.foldl (walk g source visit ctx) s
  := by
  induction nodes generalizing s with
  | nil => rfl
  | cons node nodes ih => rw [walkAll, ih, List.foldl_cons]

theorem tourAll_eq {nodes : List SyntaxNode} {ctx : WalkContext}
    (h : ∀ node ∈ nodes, ∀ s,
      tour g source visit ctx s node = (ctx, walk g source visit ctx s node)) (s : σ) :
  tourAll g source visit ctx s nodes = (ctx, walkAll g source visit ctx s nodes)
  := by
  induction nodes generalizing s with
  | nil => rfl
  | cons node nodes ih =>
    rw [tourAll, h node List.mem_cons_self, walkAll]
    apply ih
    intro other hother
    apply h other (List.mem_cons_of_mem _ hother)

/-- A tour of a node gives its context back, and on the way every node has the context that it would
be given from above. -/
theorem tour_eq (ctx : WalkContext) (s : σ) (node : SyntaxNode) :
  tour g source visit ctx s node = (ctx, walk g source visit ctx s node)
  := by
  induction node generalizing ctx s with
  | mk info children ih =>
    rw [tour, walk]
    dsimp only
    obtain ⟨s', answer⟩ :=
      visit s (mk info children) (ctx.declare (g.functionName? source (mk info children)))
    cases answer with
    | skip =>
      dsimp only
      rw [WalkContext.retract_declare]
    | descend =>
      dsimp only
      rw [tourAll_eq fun node hnode s => ih node hnode _ s]
      dsimp only
      rw [WalkContext.above_below, WalkContext.retract_declare]

/-- A walk keeps what every visit keeps. -/
theorem walk_invariant {P : σ → Prop} {root : SyntaxNode}
    (hvisit : ∀ s node ctx, node ∈ root.preorder → P s → P (visit s node ctx).1)
    (ctx : WalkContext) {s : σ} (hs : P s) :
  P (walk g source visit ctx s root)
  := by
  induction root generalizing ctx s with
  | mk info children ih =>
    have hroot := hvisit s (mk info children)
      (ctx.declare (g.functionName? source (mk info children))) (self_mem_preorder _) hs
    rw [walk]
    split
    · next s' hskip =>
      rw [hskip] at hroot
      exact hroot
    · next s' hdescend =>
      rw [hdescend] at hroot
      rw [walkAll_eq_foldl]
      apply List.foldlRecOn children _ hroot
      intro s hs child hchild
      apply ih child hchild _ _ hs
      intro s node ctx hnode
      apply hvisit
      apply mem_preorder_mk.mpr (Or.inr ⟨child, hchild, hnode⟩)

/-- A walk whose visits do not look at the surroundings of a node, and skip only what would
leave the state alone, visits the nodes in preorder. -/
theorem walk_eq_foldl_preorder {f : σ → SyntaxNode → σ} {root : SyntaxNode}
    (hvisit : ∀ s node ctx, (visit s node ctx).1 = f s node)
    (hskip : ∀ s node ctx, node ∈ root.preorder → (visit s node ctx).2 = .skip →
      ∀ below ∈ node.preorder, ∀ s, f s below = s)
    (ctx : WalkContext) (s : σ) :
  walk g source visit ctx s root = root.preorder.foldl f s
  := by
  induction root generalizing ctx s with
  | mk info children ih =>
    have hroot := hvisit s (mk info children)
      (ctx.declare (g.functionName? source (mk info children)))
    rw [walk, preorder_mk, List.foldl_cons]
    split
    · next s' heq =>
      rw [heq] at hroot
      subst hroot
      apply List.foldlRecOn (motive := fun s' => f s (mk info children) = s') _ _ rfl
      intro s' hs' below hbelow
      rw [hs']
      symm
      apply hskip s (mk info children) _ (self_mem_preorder _) (by rw [heq])
      rw [preorder_mk]
      apply List.mem_cons_of_mem _ hbelow
    · next s' heq =>
      rw [heq] at hroot
      subst hroot
      rw [walkAll_eq_foldl, List.foldl_flatMap]
      apply List.foldl_ext
      intro s' child hchild
      apply ih child hchild
      intro s node ctx hnode
      apply hskip
      apply mem_preorder_mk.mpr (Or.inr ⟨child, hchild, hnode⟩)

end SyntaxNode

theorem SyntaxTree.walk_eq {σ : Type} (tree : SyntaxTree) (visit : Visitor σ) (s : σ) :
  tree.walk visit s = tree.root.walk tree.language.grammar tree.source visit .top s
  := by
  rw [walk, SyntaxNode.tour_eq]

end MutationTesting
