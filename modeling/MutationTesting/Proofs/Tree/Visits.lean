import Mathlib.Data.List.Infix
import Mathlib.Data.List.Pairwise
import MutationTesting.Proofs.Tree.Sites

/-!
# The visits of a walk

An address names a node of a tree by the places, among their siblings, of the nodes that lead to it.
In the lexicographic order of addresses a node stands before what is below it, and what is below it
before the siblings that follow, so this is the preorder. A visitor can keep a record of its visits
(`Visitor.recorded`), which are then those that `Visited` describes: a walk visits every node once,
in preorder, except for those below a node that was skipped, with the functions that the nodes on
the way to it declare (`SyntaxTree.walk_visits`).
-/

namespace MutationTesting

/-- The places, among their siblings, of the nodes that lead from a node to one below it. -/
abbrev Address := List Nat

namespace SyntaxNode

/-- The node at an address. -/
def at? (root : SyntaxNode) : Address → Option SyntaxNode
  | [] => some root
  | i :: rest => root.children[i]?.bind fun child => child.at? rest

/-- The nodes from a node to the one at an address, with both. -/
def way (root : SyntaxNode) (address : Address) : List SyntaxNode :=
  address.inits.filterMap root.at?

variable {root child : SyntaxNode} {i : Nat}

theorem at?_cons (h : root.children[i]? = some child) (rest : Address) :
  root.at? (i :: rest) = child.at? rest
  := by
  rw [at?, h, Option.bind_some]

@[simp] theorem way_nil (root : SyntaxNode) :
  root.way [] = [root]
  := rfl

theorem way_cons (h : root.children[i]? = some child) (rest : Address) :
  root.way (i :: rest) = root :: child.way rest
  := by
  have hroot : root.at? [] = some root := rfl
  rw [way, List.inits_cons, List.filterMap_cons_some hroot, List.filterMap_map]
  congr 1
  apply List.filterMap_congr
  intro address _
  apply at?_cons h

end SyntaxNode

/-- The context in which a node is visited that has another one around it. -/
def WalkContext.enter (g : Grammar) (source : String) (ctx : WalkContext) (node : SyntaxNode) :
    WalkContext :=
  ctx.declare (g.functionName? source node)

/-! ### Records of visits -/

/-- A visit: a node, what surrounds it, and the answer whether to go on below. -/
structure Visit where
  node : SyntaxNode
  ctx : WalkContext
  answer : Walk

namespace Visitor

variable {σ : Type} (visit : Visitor σ)

/-- The visitor that also keeps a record of its visits. -/
def recorded : Visitor (σ × List Visit) := fun (s, visits) node ctx =>
  let (s, answer) := visit s node ctx
  ((s, visits ++ [⟨node, ctx, answer⟩]), answer)

/-- Visits lead a visitor from one state to another: each is made in the state that the one before
has left, and answered as the visitor answers in that state. -/
inductive Makes : σ → List Visit → σ → Prop where
  | nil {s : σ} : Makes s [] s
  | cons {s s' s'' : σ} {node : SyntaxNode} {ctx : WalkContext} {answer : Walk}
      {visits : List Visit} :
      visit s node ctx = (s', answer) → Makes s' visits s'' →
      Makes s (⟨node, ctx, answer⟩ :: visits) s''

variable {visit} {s s' s'' : σ}

theorem recorded_eq {node : SyntaxNode} {ctx : WalkContext} {answer : Walk}
    (h : visit s node ctx = (s', answer)) (log : List Visit) :
  visit.recorded (s, log) node ctx = ((s', log ++ [⟨node, ctx, answer⟩]), answer)
  := by
  rw [recorded, h]

theorem Makes.append {visits more : List Visit} (h : visit.Makes s visits s')
    (h' : visit.Makes s' more s'') :
  visit.Makes s (visits ++ more) s''
  := by
  induction h with
  | nil => exact h'
  | cons hvisit _ ih => apply Makes.cons hvisit (ih h')

end Visitor

/-- Visits, each at an address, are those of a walk over a tree that lies in some functions: they
show the nodes at their addresses with the functions that the nodes on the way declare, they are in
preorder, and a node is visited just if no node above it was visited and skipped. -/
structure Visited (g : Grammar) (source : String) (outer : List String) (root : SyntaxNode)
    (visits : List (Address × Visit)) : Prop where
  shown : ∀ {address visit}, (address, visit) ∈ visits → root.at? address = some visit.node
    ∧ visit.ctx.functions = outer ++ (root.way address).filterMap (g.functionName? source)
  ordered : (visits.map (·.1)).Pairwise (· < ·)
  reached : ∀ address, address ∈ visits.map (·.1) ↔ (root.at? address).isSome = true
    ∧ ∀ above visit, (above, visit) ∈ visits → above <+: address → above ≠ address →
      visit.answer = .descend

namespace SyntaxNode

/-! ### Visits below the trees of a list -/

/-- The visits of some of the trees of a list, each at its address among the trees. -/
def gather (below : Nat → List (Address × Visit)) (n : Nat) : List (Address × Visit) :=
  (List.range n).flatMap fun i => (below i).map fun (address, visit) => (i :: address, visit)

section

variable {below : Nat → List (Address × Visit)} {n i : Nat} {rest : Address} {v : Visit}

theorem mem_gather {address : Address} :
  (address, v) ∈ gather below n
    ↔ ∃ i < n, ∃ rest, address = i :: rest ∧ (rest, v) ∈ below i
  := by
  simp only [gather, List.mem_flatMap, List.mem_range, List.mem_map, Prod.mk.injEq, Prod.exists]
  constructor
  · rintro ⟨i, hi, rest, v', hmem, rfl, rfl⟩
    use i, hi, rest
  · rintro ⟨i, hi, rest, rfl, hmem⟩
    use i, hi, rest, v

theorem cons_mem_gather :
  (i :: rest, v) ∈ gather below n ↔ i < n ∧ (rest, v) ∈ below i
  := by
  rw [mem_gather]
  constructor
  · rintro ⟨_, hi, _, ⟨⟩, hmem⟩
    use hi
  · rintro ⟨hi, hmem⟩
    use i, hi, rest

theorem cons_mem_map_fst_gather :
  i :: rest ∈ (gather below n).map (·.1) ↔ i < n ∧ rest ∈ (below i).map (·.1)
  := by
  simp [cons_mem_gather]

theorem map_snd_gather_succ (n : Nat) :
  (gather below (n + 1)).map (·.2) = (gather below n).map (·.2) ++ (below n).map (·.2)
  := by
  rw [gather, List.range_succ, List.flatMap_append, List.map_append, ← gather,
    List.flatMap_singleton, List.map_map]
  rfl

/-- Visits that are in preorder below each tree of a list are in preorder below the list. -/
theorem pairwise_gather (h : ∀ i < n, ((below i).map (·.1)).Pairwise (· < ·)) :
  ((gather below n).map (·.1)).Pairwise (· < ·)
  := by
  rw [List.pairwise_map, gather, List.pairwise_flatMap]
  constructor
  · intro i hi
    rw [List.pairwise_map]
    apply (List.pairwise_map.mp (h i (List.mem_range.mp hi))).imp
    intro a b hlt
    apply List.cons_lt_cons_iff.mpr
    right
    use rfl
  · apply List.pairwise_lt_range.imp
    intro i j hlt a ha b hb
    obtain ⟨_, -, rfl⟩ := List.mem_map.mp ha
    obtain ⟨_, -, rfl⟩ := List.mem_map.mp hb
    apply List.cons_lt_cons_iff.mpr
    left
    exact hlt

/-- Below a node that was not skipped, nothing above a node was skipped just if this is so below the
child that its address starts with. -/
theorem descends_cons_iff (hv : v.answer = .descend) (hi : i < n) :
  (∀ above w, (above, w) ∈ ([], v) :: gather below n → above <+: i :: rest → above ≠ i :: rest →
      w.answer = .descend)
    ↔ ∀ above w, (above, w) ∈ below i → above <+: rest → above ≠ rest → w.answer = .descend
  := by
  constructor
  · intro h above w hw hprefix hne
    apply h (i :: above) w
    · apply List.mem_cons_of_mem _ (cons_mem_gather.mpr ⟨hi, hw⟩)
    · apply List.cons_prefix_cons.mpr ⟨rfl, hprefix⟩
    · simpa using hne
  · intro h above w hw hprefix hne
    obtain heq | hw := List.mem_cons.mp hw
    · cases heq
      exact hv
    · obtain ⟨j, -, last, rfl, hlast⟩ := mem_gather.mp hw
      obtain ⟨rfl, hbelow⟩ := List.cons_prefix_cons.mp hprefix
      apply h last w hlast hbelow
      rintro rfl
      exact hne rfl

end

/-! ### Where the visits are -/

section

variable {g : Grammar} {source : String} {ctx : WalkContext} {root : SyntaxNode}

/-- The functions around a node are those around its tree and its own. -/
theorem functions_enter :
  (ctx.enter g source root).functions
    = ctx.functions ++ (root.way []).filterMap (g.functionName? source)
  := by
  rw [WalkContext.enter, WalkContext.functions_declare, way_nil]
  cases hname : g.functionName? source root <;> simp [hname]

/-- A node that is skipped is visited alone. -/
theorem visited_skip :
  Visited g source ctx.functions root [([], ⟨root, ctx.enter g source root, .skip⟩)]
  := by
  constructor
  · intro address w hmem
    cases List.mem_singleton.mp hmem
    use rfl, functions_enter
  · apply List.pairwise_singleton
  · rintro (_ | ⟨i, rest⟩)
    · simp [at?]
    · simp

/-- A node that is not skipped is visited before what is below it. -/
theorem visited_descend {below : Nat → List (Address × Visit)}
    (hbelow : ∀ i child, root.children[i]? = some child →
      Visited g source ((ctx.enter g source root).below root).functions child (below i)) :
  Visited g source ctx.functions root
    (([], ⟨root, ctx.enter g source root, .descend⟩) :: gather below root.children.length)
  := by
  constructor
  · intro address w hmem
    obtain heq | hmem := List.mem_cons.mp hmem
    · cases heq
      use rfl, functions_enter
    · obtain ⟨i, hi, rest, rfl, hw⟩ := mem_gather.mp hmem
      have hget := List.getElem?_eq_getElem hi
      obtain ⟨hat, hfunctions⟩ := (hbelow i _ hget).shown hw
      constructor
      · rw [at?_cons hget, hat]
      · rw [hfunctions, way_cons hget, WalkContext.functions_below, functions_enter, way_nil,
          List.append_assoc, ← List.filterMap_append, List.singleton_append]
  · rw [List.map_cons, List.pairwise_cons]
    constructor
    · intro address hmem
      obtain ⟨⟨_, w⟩, hw, rfl⟩ := List.mem_map.mp hmem
      obtain ⟨i, -, rest, rfl, -⟩ := mem_gather.mp hw
      apply List.nil_lt_cons
    · apply pairwise_gather
      intro i hi
      apply (hbelow i _ (List.getElem?_eq_getElem hi)).ordered
  · rintro (_ | ⟨i, rest⟩)
    · simp only [List.map_cons, List.mem_cons, true_or, at?, Option.isSome_some, true_and, true_iff]
      rintro above w - hprefix hne
      exact absurd (List.prefix_nil.mp hprefix) hne
    · rw [List.map_cons, List.mem_cons, or_iff_right (List.cons_ne_nil i rest),
        cons_mem_map_fst_gather]
      cases hget : root.children[i]? with
      | none =>
        have hi : ¬i < root.children.length := Nat.not_lt.mpr (List.getElem?_eq_none_iff.mp hget)
        simp [at?, hi]
      | some child =>
        obtain ⟨hi, -⟩ := List.getElem?_eq_some_iff.mp hget
        rw [and_iff_right hi, (hbelow i child hget).reached, at?_cons hget,
          descends_cons_iff rfl hi]

end

/-! ### What the visits do -/

/-- Visits tell what a walk does: a visitor that records its visits goes the same way and has them
in its record at the end, they lead from the state before the walk to the one after it, and they are
where they should be. -/
structure Tells {σ : Type} (g : Grammar) (source : String) (visit : Visitor σ) (ctx : WalkContext)
    (s : σ) (root : SyntaxNode) (visits : List (Address × Visit)) : Prop where
  recorded : ∀ log, walk g source visit.recorded ctx (s, log) root
    = (walk g source visit ctx s root, log ++ visits.map (·.2))
  makes : visit.Makes s (visits.map (·.2)) (walk g source visit ctx s root)
  visited : Visited g source ctx.functions root visits

variable {σ : Type} {g : Grammar} {source : String} {visit : Visitor σ} {ctx : WalkContext}
  {s s' : σ} {root : SyntaxNode} {below : Nat → List (Address × Visit)}

theorem walk_of_skip (h : visit s root (ctx.enter g source root) = (s', .skip)) :
  walk g source visit ctx s root = s'
  := by
  cases root
  rw [WalkContext.enter] at h
  rw [walk, h]

theorem walk_of_descend (h : visit s root (ctx.enter g source root) = (s', .descend)) :
  walk g source visit ctx s root
    = walkAll g source visit ((ctx.enter g source root).below root) s' root.children
  := by
  cases root
  rw [WalkContext.enter] at h ⊢
  rw [walk, h]
  rfl

/-- What is told of the trees of a list, each in the state that those before have left, is told of
the list. -/
theorem walkAll_take {nodes : List SyntaxNode}
    (h : ∀ i node, nodes[i]? = some node →
      Tells g source visit ctx (walkAll g source visit ctx s (nodes.take i)) node (below i))
    {n : Nat} (hn : n ≤ nodes.length) :
  (∀ log, walkAll g source visit.recorded ctx (s, log) (nodes.take n)
      = (walkAll g source visit ctx s (nodes.take n), log ++ (gather below n).map (·.2)))
    ∧ visit.Makes s ((gather below n).map (·.2)) (walkAll g source visit ctx s (nodes.take n))
  := by
  induction n with
  | zero =>
    constructor
    · intro log
      simp [walkAll, gather]
    · apply Visitor.Makes.nil
  | succ n ih =>
    obtain ⟨hrecorded, hmakes⟩ := ih (Nat.le_of_succ_le hn)
    have htells := h n _ (List.getElem?_eq_getElem hn)
    rw [map_snd_gather_succ, List.take_succ_eq_append_getElem hn]
    simp only [walkAll_eq_foldl, List.foldl_append, List.foldl_cons, List.foldl_nil]
      at hrecorded hmakes htells ⊢
    constructor
    · intro log
      rw [hrecorded, htells.recorded, List.append_assoc]
    · apply hmakes.append htells.makes

theorem tells_skip (h : visit s root (ctx.enter g source root) = (s', .skip)) :
  Tells g source visit ctx s root [([], ⟨root, ctx.enter g source root, .skip⟩)]
  := by
  constructor
  · intro log
    rw [walk_of_skip h, walk_of_skip (Visitor.recorded_eq h log)]
    rfl
  · rw [walk_of_skip h]
    apply Visitor.Makes.cons h Visitor.Makes.nil
  · apply visited_skip

theorem tells_descend (h : visit s root (ctx.enter g source root) = (s', .descend))
    (hbelow : ∀ i child, root.children[i]? = some child →
      Tells g source visit ((ctx.enter g source root).below root)
        (walkAll g source visit ((ctx.enter g source root).below root) s' (root.children.take i))
        child (below i)) :
  Tells g source visit ctx s root
    (([], ⟨root, ctx.enter g source root, .descend⟩) :: gather below root.children.length)
  := by
  obtain ⟨hrecorded, hmakes⟩ := walkAll_take hbelow (Nat.le_refl _)
  rw [List.take_length] at hrecorded hmakes
  constructor
  · intro log
    rw [walk_of_descend h, walk_of_descend (Visitor.recorded_eq h log), hrecorded,
      List.append_assoc]
    rfl
  · rw [walk_of_descend h]
    apply Visitor.Makes.cons h hmakes
  · apply visited_descend
    intro i child hget
    apply (hbelow i child hget).visited

/-- Some visits tell what a walk does. -/
theorem exists_tells (visit : Visitor σ) (ctx : WalkContext) (s : σ) (root : SyntaxNode) :
  ∃ visits, Tells g source visit ctx s root visits
  := by
  induction root generalizing ctx s with
  | mk info children ih =>
    cases hvisit : visit s (mk info children) (ctx.enter g source (mk info children)) with
    | mk s' answer =>
      cases answer with
      | skip =>
        use [([], ⟨mk info children, ctx.enter g source (mk info children), .skip⟩)]
        apply tells_skip hvisit
      | descend =>
        -- every child is told of in the state that its elder siblings leave
        have hchildren : ∀ i, ∃ visits, ∀ child, children[i]? = some child →
            Tells g source visit ((ctx.enter g source (mk info children)).below (mk info children))
              (walkAll g source visit
                ((ctx.enter g source (mk info children)).below (mk info children)) s'
                (children.take i)) child visits := by
          intro i
          cases hget : children[i]? with
          | none =>
            use []
            simp
          | some child =>
            obtain ⟨visits, hvisits⟩ := ih child (List.mem_of_getElem? hget) _ _
            use visits
            rintro _ ⟨⟩
            exact hvisits
        choose below hbelow using hchildren
        use ([], ⟨mk info children, ctx.enter g source (mk info children), .descend⟩)
          :: gather below children.length
        apply tells_descend hvisit hbelow

end SyntaxNode

/-- A walk over a tree visits every node once, in preorder, except for those below a node that was
skipped, and no other node. Each visit is told the functions that the nodes on the way declare, and
at the end of the walk its context is empty again. -/
theorem SyntaxTree.walk_visits {σ : Type} (tree : SyntaxTree) (visit : Visitor σ) (s : σ) :
  tree.root.tour tree.language.grammar tree.source visit .top s = (.top, tree.walk visit s)
    ∧ ∃ visits, tree.walk visit.recorded (s, []) = (tree.walk visit s, visits.map (·.2))
      ∧ visit.Makes s (visits.map (·.2)) (tree.walk visit s)
      ∧ Visited tree.language.grammar tree.source [] tree.root visits
  := by
  obtain ⟨visits, hrecorded, hmakes, hvisited⟩ := SyntaxNode.exists_tells visit .top s tree.root
  simp only [walk_eq]
  use SyntaxNode.tour_eq .top s tree.root, visits
  exact ⟨hrecorded [], hmakes, hvisited⟩

end MutationTesting
