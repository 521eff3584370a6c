import MutationTesting.Proofs.Tree.Preorder

/-!
# The sites of a tree

`SyntaxNode.sites` lists a node and all nodes below it together with what surrounds them, in the
order of a walk. A walk that skips nothing but nodes below which its state would not change folds
its state along the sites (`walk_eq_foldl_sites`). The functions that surround a node are those that
it and the nodes above it declare (`functions_of_mem_sites`).
-/

namespace MutationTesting

/-- A node of a tree with what surrounds it. -/
structure Site where
  node : SyntaxNode
  ctx : WalkContext

/-- The names of the functions that the node of a site declares or lies in, outermost first. -/
def Site.functions (g : Grammar) (source : String) (site : Site) : List String :=
  (site.node :: site.ctx.ancestors).reverse.filterMap (g.functionName? source)

namespace WalkContext

variable (ctx : WalkContext)

@[simp] theorem functions_declare (name? : Option String) :
  (ctx.declare name?).functions = ctx.functions ++ name?.toList
  := by
  cases name? <;> simp [declare]

@[simp] theorem ancestors_declare (name? : Option String) :
  (ctx.declare name?).ancestors = ctx.ancestors
  := by
  cases name? <;> rfl

@[simp] theorem functions_below (node : SyntaxNode) :
  (ctx.below node).functions = ctx.functions
  := rfl

@[simp] theorem ancestors_below (node : SyntaxNode) :
  (ctx.below node).ancestors = node :: ctx.ancestors
  := rfl

end WalkContext

namespace SyntaxNode

section

variable (g : Grammar) (source : String)

mutual

/-- A node and all nodes below it with what surrounds them, in the order of a walk. -/
def sites (ctx : WalkContext) : SyntaxNode → List Site
  | mk info children =>
    let ctx := ctx.declare (g.functionName? source (mk info children))
    ⟨mk info children, ctx⟩ :: sitesAll (ctx.below (mk info children)) children

/-- The sites of a list of trees, one tree after the other. -/
def sitesAll (ctx : WalkContext) : List SyntaxNode → List Site
  | [] => []
  | node :: nodes => sites ctx node ++ sitesAll ctx nodes

end

end

variable {g : Grammar} {source : String} {ctx : WalkContext} {root : SyntaxNode} {site : Site}

theorem sitesAll_eq_flatMap (ctx : WalkContext) (nodes : List SyntaxNode) :
  sitesAll g source ctx nodes = nodes.flatMap (sites g source ctx)
  := by
  induction nodes with
  | nil => rfl
  | cons node nodes ih => rw [sitesAll, ih, List.flatMap_cons]

theorem sites_mk (ctx : WalkContext) (info : NodeInfo) (children : List SyntaxNode) :
  sites g source ctx (mk info children)
    = ⟨mk info children, ctx.declare (g.functionName? source (mk info children))⟩
      :: children.flatMap (sites g source
        ((ctx.declare (g.functionName? source (mk info children))).below (mk info children)))
  := by
  rw [sites, sitesAll_eq_flatMap]

/-- The nodes of the sites of a tree are its nodes. -/
theorem map_node_sites :
  (root.sites g source ctx).map (·.node) = root.preorder
  := by
  induction root generalizing ctx with
  | mk info children ih =>
    rw [sites_mk, preorder_mk, List.map_cons, List.map_flatMap]
    congr 1
    apply List.flatMap_congr
    intro child hchild
    apply ih child hchild

/-- The functions around a tree are around all of its sites, and those of its root follow. -/
theorem functions_prefix_of_mem_sites (h : site ∈ root.sites g source ctx) :
  ctx.functions ++ (g.functionName? source root).toList <+: site.ctx.functions
  := by
  induction root generalizing ctx with
  | mk info children ih =>
    rw [sites_mk] at h
    obtain rfl | h := List.mem_cons.mp h
    · simp
    · obtain ⟨child, hchild, hsite⟩ := List.mem_flatMap.mp h
      have hprefix := ih child hchild hsite
      rw [WalkContext.functions_below, WalkContext.functions_declare] at hprefix
      apply (List.prefix_append _ _).trans hprefix

/-- The functions around a site are those that its node and the nodes above it declare, if this is
so for the tree. -/
theorem functions_of_mem_sites
    (hctx : ctx.functions = ctx.ancestors.reverse.filterMap (g.functionName? source))
    (h : site ∈ root.sites g source ctx) :
  site.ctx.functions = site.functions g source
  := by
  induction root generalizing ctx with
  | mk info children ih =>
    have hroot : ctx.functions ++ (g.functionName? source (mk info children)).toList
        = (mk info children :: ctx.ancestors).reverse.filterMap (g.functionName? source) := by
      rw [List.reverse_cons, List.filterMap_append, hctx]
      cases hname : g.functionName? source (mk info children) <;> simp [hname]
    rw [sites_mk] at h
    obtain rfl | h := List.mem_cons.mp h
    · rw [WalkContext.functions_declare, Site.functions, WalkContext.ancestors_declare]
      apply hroot
    · obtain ⟨child, hchild, hsite⟩ := List.mem_flatMap.mp h
      apply ih child hchild _ hsite
      rw [WalkContext.functions_below, WalkContext.functions_declare, WalkContext.ancestors_below,
        WalkContext.ancestors_declare]
      apply hroot

/-- A walk that goes on below every node folds its state along the sites. -/
theorem walk_eq_foldl_sites {σ : Type} {visit : Visitor σ} {f : σ → Site → σ}
    (hvisit : ∀ site ∈ root.sites g source ctx, ∀ s,
      visit s site.node site.ctx = (f s site, .descend)) (s : σ) :
  walk g source visit ctx s root = (root.sites g source ctx).foldl f s
  := by
  induction root generalizing ctx s with
  | mk info children ih =>
    rw [sites_mk] at hvisit
    have hroot := hvisit _ List.mem_cons_self s
    rw [walk, sites_mk, List.foldl_cons, hroot, List.foldl_flatMap]
    dsimp only
    rw [walkAll_eq_foldl]
    apply List.foldl_ext
    intro s child hchild
    apply ih child hchild
    intro site hsite
    apply hvisit
    apply List.mem_cons_of_mem
    apply List.mem_flatMap_of_mem hchild hsite

end SyntaxNode

end MutationTesting
