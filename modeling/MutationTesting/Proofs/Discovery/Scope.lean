import MutationTesting.Proofs.Discovery
import MutationTesting.Proofs.Tree.Sites

/-!
# Searches in a scope

`SyntaxTree.emissions` lists what a search without a scope offers, each offer with the site where it
is made. Whatever its scope is, a search finds the offers at the sites that the scope covers
(`SyntaxTree.offers_eq`): those whose outermost function has the name looked for and whose node
starts on one of the lines.
-/

namespace MutationTesting

/-- The nodes of a tree with what surrounds them, in the order of a walk. -/
def SyntaxTree.sites (tree : SyntaxTree) : List Site :=
  tree.root.sites tree.language.grammar tree.source .top

/-- The names of the functions that a site of a tree is in, outermost first. -/
def SyntaxTree.around (tree : SyntaxTree) (site : Site) : List String :=
  site.functions tree.language.grammar tree.source

/-- What is offered at a site of a tree. -/
def SyntaxTree.offersAt (tree : SyntaxTree) (site : Site) : List Offer :=
  Offer.ofNode tree.language.grammar tree.source site.node site.ctx

/-- The offers of a tree without a scope, each with the site where it is made. -/
def SyntaxTree.emissions (tree : SyntaxTree) : List (Site × Offer) :=
  tree.sites.flatMap fun site => (tree.offersAt site).map (site, ·)

/-- The mutations of a file that take up offers, named in their order. -/
def SyntaxTree.catalog (tree : SyntaxTree) (file : String) (emissions : List (Site × Offer)) :
    List Mutation :=
  (emissions.map (·.2)).zipIdx.map fun (offer, i) => offer.toMutation tree.source file i

/-- Whether a node starts on one of the lines of a scope. -/
def Scope.onLines (scope : Scope) (source : String) (node : SyntaxNode) : Bool :=
  scope.lines.all (·.contains (node.position source).line)

/-- Whether a scope covers a site of a tree: the outermost function of the site has the name looked
for, and its node starts on one of the lines. -/
def SyntaxTree.covers (tree : SyntaxTree) (scope : Scope) (site : Site) : Bool :=
  scope.function.all (fun name => (tree.around site).head? = some name)
    && scope.onLines tree.source site.node

variable {tree : SyntaxTree} {g : Grammar} {source name : String} {offers : List Offer}
  {scope : Scope}

theorem SyntaxTree.map_node_sites :
  tree.sites.map (·.node) = tree.nodes
  := SyntaxNode.map_node_sites

/-- An offer is about a node of its tree or a part of that. -/
theorem SyntaxTree.anchored_of_mem_emissions {emission : Site × Offer}
    (h : emission ∈ tree.emissions) :
  emission.1.node ∈ tree.nodes
    ∧ emission.2.Anchored tree.language tree.source emission.1.node
  := by
  obtain ⟨site, hsite, hmem⟩ := List.mem_flatMap.mp h
  obtain ⟨offer, hoffer, rfl⟩ := List.mem_map.mp hmem
  constructor
  · rw [← map_node_sites]
    apply List.mem_map_of_mem hsite
  · apply Offer.anchored_of_mem_ofNode hoffer

/-! ### Walks -/

/-- A visit of a node in the function looked for collects what is offered there if the node starts
on one of the lines. -/
theorem Offer.collect_of_within {node : SyntaxNode} {ctx : WalkContext}
    (hwithin : ∀ name ∈ scope.function, name ∈ ctx.functions) :
  collect g source scope offers node ctx
    = (offers ++ if scope.onLines source node then ofNode g source node ctx else [], .descend)
  := by
  rw [collect, if_neg]
  · cases hlines : scope.lines with
    | none => simp [Scope.onLines, hlines]
    | some range => cases hline : range.contains (node.position source).line <;>
        simp [Scope.onLines, hlines, hline]
  · cases hfunction : scope.function with
    | none => simp
    | some name => simpa [WalkContext.within] using hwithin name hfunction

/-- What is collected on lines alone is what is offered at the nodes that start there. -/
theorem flatMap_onLines (sites : List Site) :
  (sites.map fun site => if scope.onLines source site.node then
      Offer.ofNode g source site.node site.ctx else []).flatten
    = (sites.filter (scope.onLines source ·.node)).flatMap fun site =>
      Offer.ofNode g source site.node site.ctx
  := by
  induction sites with
  | nil => rfl
  | cons site sites ih =>
    rw [List.map_cons, List.flatten_cons, ih, List.filter_cons]
    split
    · rfl
    · rfl

/-- Where everything is in the function looked for, a walk collects the offers at the sites whose
nodes start on the lines. -/
theorem SyntaxNode.walk_collect {root : SyntaxNode} {ctx : WalkContext}
    (hwithin : ∀ site ∈ root.sites g source ctx, ∀ name ∈ scope.function,
      name ∈ site.ctx.functions) :
  root.walk g source (Offer.collect g source scope) ctx offers
    = offers ++ ((root.sites g source ctx).filter (scope.onLines source ·.node)).flatMap
      fun site => Offer.ofNode g source site.node site.ctx
  := by
  rw [← flatMap_onLines, ← List.foldl_append_eq_append]
  apply walk_eq_foldl_sites
  intro site hsite offers
  apply Offer.collect_of_within (hwithin site hsite)

/-- Outside of all functions, a walk for one of them collects what is inside a declaration if that
declares it. -/
theorem SyntaxNode.walk_collect_declared {root : SyntaxNode} {ctx : WalkContext} {other : String}
    (hfunction : scope.function = some name) (hctx : ctx.functions = [])
    (hname : g.functionName? source root = some other) :
  root.walk g source (Offer.collect g source scope) ctx offers
    = offers ++ (((root.sites g source ctx).filter
      fun site => site.ctx.functions.head? = some name).filter
        (scope.onLines source ·.node)).flatMap fun site => Offer.ofNode g source site.node site.ctx
  := by
  have hsites : ∀ site ∈ root.sites g source ctx, site.ctx.functions.head? = some other := by
    intro site hsite
    obtain ⟨rest, hrest⟩ := functions_prefix_of_mem_sites hsite
    rw [hctx, hname] at hrest
    rw [← hrest]
    rfl
  by_cases hother : other = name
  · subst hother
    have hall : (root.sites g source ctx).filter
        (fun site => site.ctx.functions.head? = some other) = root.sites g source ctx := by
      rw [List.filter_eq_self]
      simpa using hsites
    rw [hall]
    apply walk_collect
    intro site hsite name hname
    obtain rfl := Option.some.inj (hfunction.symm.trans hname)
    apply List.mem_of_mem_head? (hsites site hsite)
  · have hnone : (root.sites g source ctx).filter
        (fun site => site.ctx.functions.head? = some name) = [] := by
      rw [List.filter_eq_nil_iff]
      intro site hsite
      simp [hsites site hsite, hother]
    rw [hnone, List.filter_nil, List.flatMap_nil, List.append_nil]
    cases root
    rw [walk, hname, Offer.collect, hfunction, if_pos]
    · simp [hname]
    · simp [WalkContext.within, hctx, Ne.symm hother]

/-- Outside of all functions, a walk for one of them collects the offers at the sites whose
outermost function it is and whose nodes start on the lines. -/
theorem SyntaxNode.walk_collect_function {root : SyntaxNode} {ctx : WalkContext}
    (hfunction : scope.function = some name) (hctx : ctx.functions = []) :
  root.walk g source (Offer.collect g source scope) ctx offers
    = offers ++ (((root.sites g source ctx).filter
      fun site => site.ctx.functions.head? = some name).filter
        (scope.onLines source ·.node)).flatMap fun site => Offer.ofNode g source site.node site.ctx
  := by
  induction root generalizing ctx offers with
  | mk info children ih =>
    cases hname : g.functionName? source (mk info children) with
    | some other => apply walk_collect_declared hfunction hctx hname
    | none =>
      have hbelow : ((ctx.declare none).below (mk info children)).functions = [] := hctx
      have hsearched : Offer.collect g source scope offers (mk info children)
          (ctx.declare none) = (offers, .descend) := by
        rw [Offer.collect, hfunction, if_pos]
        · simp [hname]
        · simp [WalkContext.within, hctx]
      have hself : ¬((ctx.declare none).functions.head? = some name) := by
        simp [hctx]
      rw [walk, hname, hsearched, sites_mk, hname, List.filter_cons_of_neg (by simpa using hself),
        List.filter_flatMap, List.filter_flatMap, List.flatMap_assoc, List.flatMap_def,
        ← List.foldl_append_eq_append]
      dsimp only
      rw [walkAll_eq_foldl]
      apply List.foldl_ext
      intro offers child hchild
      apply ih child hchild hbelow

/-! ### Searches -/

/-- To choose among emissions by their sites is to choose among the sites. -/
theorem SyntaxTree.map_filter_emissions (p : Site → Bool) (sites : List Site) :
  ((sites.flatMap fun site => (tree.offersAt site).map (site, ·)).filter (p ·.1)).map (·.2)
    = (sites.filter p).flatMap tree.offersAt
  := by
  induction sites with
  | nil => rfl
  | cons site sites ih =>
    rw [List.flatMap_cons, List.filter_append, List.map_append, ih, List.filter_map,
      List.map_map]
    cases hp : p site with
    | false =>
      rw [List.filter_cons_of_neg (by simp [hp]), List.filter_eq_nil_iff.mpr (by simp [hp])]
      rfl
    | true =>
      rw [List.filter_cons_of_pos hp, List.filter_eq_self.mpr (by simp [hp]), List.flatMap_cons]
      congr 1
      apply List.map_id

/-- A search finds the offers at the sites that its scope covers. -/
theorem SyntaxTree.offers_eq :
  tree.offers scope = (tree.emissions.filter (tree.covers scope ·.1)).map (·.2)
  := by
  rw [emissions, map_filter_emissions, offers, walk_eq]
  cases hfunction : scope.function with
  | none =>
    rw [SyntaxNode.walk_collect (by simp [hfunction]), List.nil_append]
    congr 1
    apply List.filter_congr
    intro site _
    simp [covers, hfunction]
  | some name =>
    rw [SyntaxNode.walk_collect_function hfunction rfl, List.nil_append, List.filter_filter]
    congr 1
    apply List.filter_congr
    intro site hsite
    rw [SyntaxNode.functions_of_mem_sites rfl hsite, covers, hfunction, Option.all_some,
      Bool.and_comm]
    rfl

/-- A search without a scope finds all offers. -/
theorem SyntaxTree.offers_all :
  tree.offers ⟨none, none⟩ = tree.emissions.map (·.2)
  := by
  rw [offers_eq, List.filter_eq_self.mpr]
  exact fun _ _ => rfl

/-- Where a source parses, a search that finds the function looked for gives the mutations at the
sites that its scope covers. -/
theorem discover_eq {parser : Parser} {file : String} {language : Language}
    (hparse : SyntaxTree.parse parser language source = .ok tree)
    (hfunction : ∀ name ∈ scope.function, name ∈ tree.functionNames) :
  discover parser file language source scope
    = .ok (tree.catalog file (tree.emissions.filter (tree.covers scope ·.1)))
  := by
  obtain rfl : tree.source = source := congrArg (·.source) (SyntaxTree.eq_of_parse hparse)
  rw [discover, hparse]
  dsimp only
  rw [SyntaxTree.offers_eq]
  cases hname : scope.function with
  | none => rfl
  | some name =>
    dsimp only
    rw [if_pos (List.contains_iff_mem.mpr (hfunction name hname))]
    rfl

/-! ### Catalogs -/

/-- The mutations that a search gives are those at the sites that its scope covers. -/
theorem catalog_eq_of_discover {parser : Parser} {file : String} {language : Language}
    {catalog : List Mutation} (hparse : SyntaxTree.parse parser language source = .ok tree)
    (h : discover parser file language source scope = .ok catalog) :
  catalog = tree.catalog file (tree.emissions.filter (tree.covers scope ·.1))
  := by
  apply Except.ok.inj
  rw [← h]
  apply discover_eq hparse
  intro name hname
  rw [discover, hparse, hname] at h
  dsimp only at h
  split at h
  · next havailable => exact List.contains_iff_mem.mp havailable
  · contradiction

@[simp] theorem SyntaxTree.length_catalog (file : String) (emissions : List (Site × Offer)) :
  (tree.catalog file emissions).length = emissions.length
  := by
  simp [catalog]

theorem SyntaxTree.getElem_catalog {file : String} {emissions : List (Site × Offer)} {i : Nat}
    (h : i < (tree.catalog file emissions).length) :
  (tree.catalog file emissions)[i]
    = (emissions.get ⟨i, length_catalog file emissions ▸ h⟩).2.toMutation tree.source file i
  := by
  simp [catalog]

/-- The mutations that a search gives are numbered in their order. -/
theorem map_id_of_discover {parser : Parser} {file : String} {language : Language}
    {source : String} {catalog : List Mutation}
    (h : discover parser file language source scope = .ok catalog) :
  catalog.map (·.id) = (List.range catalog.length).map fun i => s!"M{i}"
  := by
  cases hparse : SyntaxTree.parse parser language source with
  | error e =>
    rw [discover, hparse] at h
    cases h
  | ok tree =>
    obtain rfl := catalog_eq_of_discover hparse h
    apply List.ext_getElem (by simp)
    intro i hi hi'
    rw [List.getElem_map, List.getElem_map, List.getElem_range, SyntaxTree.getElem_catalog]
    rfl

/-- Some chosen emissions make the same mutations as more of them only if these are no more. -/
theorem SyntaxTree.catalog_filter_eq_iff {file : String} {emissions : List (Site × Offer)}
    {p q : Site × Offer → Bool} (hpq : ∀ emission, p emission = true → q emission = true) :
  tree.catalog file (emissions.filter p) = tree.catalog file (emissions.filter q)
    ↔ ∀ emission ∈ emissions, q emission = true → p emission = true
  := by
  have hboth : (emissions.filter q).filter p = emissions.filter p := by
    rw [List.filter_filter]
    apply List.filter_congr
    intro emission _
    cases hp : p emission with
    | false => rfl
    | true => rw [hpq emission hp, Bool.and_self]
  rw [← hboth]
  constructor
  · intro heq
    have hlength := congrArg List.length heq
    rw [length_catalog, length_catalog, List.length_filter_eq_length_iff] at hlength
    intro emission hmem hq
    apply hlength emission (List.mem_filter.mpr ⟨hmem, hq⟩)
  · intro hall
    rw [List.filter_eq_self.mpr]
    intro emission hmem
    obtain ⟨hmem, hq⟩ := List.mem_filter.mp hmem
    apply hall emission hmem hq

end MutationTesting
