import MutationTesting.Proofs.Text.Line
import MutationTesting.Proofs.Tree.Preorder
import MutationTesting.Tree.Indented.Reading

/-!
# The first thing that could not be parsed

A tree is `Flagged` if a node says that it has an error exactly where it or a node below it is
broken. In such a tree the search for errors, which leaves out what is below a node without an
error, finds the first broken node in preorder (`firstError?_eq_find?`). A text therefore parses
exactly if no node of its tree is broken, and the position of the error is otherwise that of the
first one (`SyntaxTree.parse_of_flagged`).
-/

namespace MutationTesting

namespace SyntaxNode

/-- Every node of a tree says that it has an error exactly if it is broken or a node below it
is. -/
def Flagged (root : SyntaxNode) : Prop :=
  ∀ node ∈ root.preorder,
    node.info.hasError = true ↔ ∃ below ∈ node.preorder, below.isBroken = true

instance (root : SyntaxNode) : Decidable root.Flagged :=
  inferInstanceAs (Decidable (∀ _ ∈ _, _))

/-- A node of a tree is broken, and none before it in preorder is. -/
def FirstBroken (root node : SyntaxNode) : Prop :=
  ∃ before after, root.preorder = before ++ node :: after ∧ node.isBroken = true
    ∧ ∀ other ∈ before, other.isBroken = false

variable {root node : SyntaxNode}

theorem firstBroken_iff :
  root.FirstBroken node ↔ root.preorder.find? isBroken = some node
  := by
  rw [List.find?_eq_some_iff_append]
  constructor
  · rintro ⟨before, after, hparts, hbroken, hbefore⟩
    use hbroken, before, after, hparts
    intro other hother
    rw [hbefore other hother, Bool.not_false]
  · rintro ⟨hbroken, before, after, hparts, hbefore⟩
    use before, after, hparts, hbroken
    intro other hother
    simpa using hbefore other hother

theorem isBroken_mk (info : NodeInfo) (children : List SyntaxNode) :
  (mk info children).isBroken = (info.isError || info.isMissing)
  := rfl

theorem Flagged.of_mem (h : root.Flagged) (hnode : node ∈ root.preorder) :
  node.Flagged
  := by
  intro below hbelow
  apply h below (mem_preorder_trans hbelow hnode)

theorem Flagged.of_mem_children {info : NodeInfo} {children : List SyntaxNode}
    (h : (mk info children).Flagged) {child : SyntaxNode} (hchild : child ∈ children) :
  child.Flagged
  := h.of_mem (mem_preorder_of_mem_children hchild)

/-- A search of some trees gives the first answer that one of them gives. -/
theorem firstErrorAmong?_eq_find? {nodes : List SyntaxNode}
    (h : ∀ node ∈ nodes, node.firstError? = node.preorder.find? isBroken) :
  firstErrorAmong? nodes = (nodes.flatMap preorder).find? isBroken
  := by
  induction nodes with
  | nil => rfl
  | cons node nodes ih =>
    rw [firstErrorAmong?, h node List.mem_cons_self, List.flatMap_cons, List.find?_append, ih]
    intro other hother
    apply h other (List.mem_cons_of_mem _ hother)

/-- In a tree whose nodes say where the errors are, the search for errors finds the first broken
node in preorder. -/
theorem firstError?_eq_find? (h : root.Flagged) :
  root.firstError? = root.preorder.find? isBroken
  := by
  induction root with
  | mk info children ih =>
    have hflag := h _ (self_mem_preorder _)
    rw [firstError?]
    split
    · next hsound =>
      -- nothing is broken below a node without an error
      rw [info_mk] at hflag
      symm
      apply List.find?_eq_none.mpr
      intro below hbelow hbroken
      have herror := hflag.mpr ⟨below, hbelow, hbroken⟩
      rw [herror] at hsound
      cases hsound
    · next herror =>
      have hamong := firstErrorAmong?_eq_find?
        fun child hchild => ih child hchild (h.of_mem_children hchild)
      split
      · next hbroken =>
        rw [← isBroken_mk info children] at hbroken
        rw [preorder_mk, List.find?_cons_of_pos hbroken]
      · next hbroken =>
        rw [← isBroken_mk info children] at hbroken
        -- the node is not broken itself, so that something below it is
        obtain ⟨below, hbelow, hbelow'⟩ := hflag.mp (by simpa using herror)
        rw [preorder_mk, List.find?_cons_of_neg hbroken, hamong]
        rw [preorder_mk] at hbelow
        obtain rfl | hbelow := List.mem_cons.mp hbelow
        · contradiction
        obtain ⟨found, hfound⟩ := Option.isSome_iff_exists.mp
          (List.find?_isSome.mpr ⟨below, hbelow, hbelow'⟩)
        rw [hfound, Option.some_or]

/-- The search for errors finds nothing exactly if no node is broken. -/
theorem firstError?_eq_none_iff (h : root.Flagged) :
  root.firstError? = none ↔ ∀ node ∈ root.preorder, node.isBroken = false
  := by
  rw [firstError?_eq_find? h, List.find?_eq_none]
  simp only [Bool.not_eq_true]

theorem firstError?_eq_some_iff (h : root.Flagged) :
  root.firstError? = some node ↔ root.FirstBroken node
  := by
  rw [firstError?_eq_find? h, firstBroken_iff]

end SyntaxNode

/-! ### Positions -/

/-- A position is that of an offset into a text: it counts the lines up to the one that the offset
is on, and the bytes of that line before the offset, both from 1. -/
def Text.Position.IsAt (p : Position) (offset : Nat) (cs : List Char) : Prop :=
  ∃ above left rest, cs = above ++ left ++ rest ∧ byteLength (above ++ left) = offset
    ∧ (above = [] ∨ ∃ more, above = more ++ ['\n']) ∧ '\n' ∉ left
    ∧ p = ⟨above.count '\n' + 1, byteLength left + 1⟩

theorem Text.IsBoundary.isAt_positionAt {offset : Nat} {cs : List Char}
    (h : IsBoundary offset cs) :
  (positionAt offset cs).IsAt offset cs
  := by
  obtain ⟨before, rest, rfl, rfl⟩ := h
  obtain ⟨above, left, rfl, hstarts, hleft⟩ := exists_last_line before
  use above, left, rest, rfl, rfl, hstarts, hleft
  rw [positionAt, positionFrom_append, List.foldl_append, foldl_next_of_starts hstarts,
    foldl_next_of_not_mem hleft, Nat.add_comm 1]

namespace SyntaxTree

variable {parser : Parser} {language : Language} {source : String} {tree : SyntaxTree}
  {e : SyntaxError}

theorem parse_eq_ok_iff :
  parse parser language source = .ok tree
    ↔ (parser language source).firstError? = none
      ∧ tree = ⟨language, source, parser language source⟩
  := by
  rw [parse]
  split
  · next node hnode => simp [hnode]
  · next hnone => simp [hnone, eq_comm]

theorem parse_eq_error_iff :
  parse parser language source = .error e
    ↔ ∃ node, (parser language source).firstError? = some node ∧ e = ⟨node.position source⟩
  := by
  rw [parse]
  split
  · next node hnode => simp [hnode, eq_comm]
  · next hnone => simp [hnone]

/-- In a tree whose nodes say where the errors are, the search for errors finds the first broken
node in preorder, and nothing exactly if no node is broken. A text with such a tree parses exactly
if no node of it is broken, and the position of the error is otherwise that of the first broken
node, which tells its line and the bytes before it on that line. -/
theorem parse_of_flagged (root : SyntaxNode) (h : root.Flagged) :
  (∀ node, root.firstError? = some node ↔ root.FirstBroken node)
    ∧ (root.firstError? = none ↔ ∀ node ∈ root.preorder, node.isBroken = false)
    ∧ ∀ (parser : Parser) language source, parser language source = root →
      (∀ tree, parse parser language source = .ok tree
        ↔ (∀ node ∈ root.preorder, node.isBroken = false) ∧ tree = ⟨language, source, root⟩)
      ∧ (∀ e, parse parser language source = .error e
        ↔ ∃ node, root.FirstBroken node ∧ e = ⟨node.position source⟩)
      ∧ ∀ node : SyntaxNode, Text.IsBoundary node.info.start source.toList →
        (node.position source).IsAt node.info.start source.toList
  := by
  use fun node => SyntaxNode.firstError?_eq_some_iff h, SyntaxNode.firstError?_eq_none_iff h
  rintro parser language source rfl
  constructor
  · intro tree
    rw [parse_eq_ok_iff, SyntaxNode.firstError?_eq_none_iff h]
  constructor
  · intro e
    simp only [parse_eq_error_iff, SyntaxNode.firstError?_eq_some_iff h]
  · intro node hboundary
    apply hboundary.isAt_positionAt

end SyntaxTree

/-! ### A call that is not closed -/

namespace SyntaxNode

/-- A node that says that it has an error. -/
def flag (node : SyntaxNode) : SyntaxNode :=
  mk { node.info with hasError := true } node.children

/-- The parenthesis that the call of `g` lacks. -/
def lacking : SyntaxNode :=
  flag (mk { (Indented.leaf ")" false 7 7).info with isMissing := true } [])

/-- The tree of a call of `f` and, on the next line, a call of `g` that is not closed. -/
def unclosed : SyntaxNode :=
  flag (Indented.node "program" [
    Indented.node "expression_statement" [
      Indented.node "call_expression" [
        Indented.leaf "identifier" true 0 1,
        Indented.node "arguments" [
          Indented.leaf "(" false 1 2,
          Indented.leaf ")" false 2 3]]],
    flag (Indented.node "expression_statement" [
      flag (Indented.node "call_expression" [
        Indented.leaf "identifier" true 4 5,
        flag (Indented.node "arguments" [
          Indented.leaf "(" false 5 6,
          Indented.leaf "number" true 6 7,
          lacking])])])])

end SyntaxNode

/-- The call that is not closed is refused at the end of its line. -/
theorem SyntaxTree.parse_of_flagged_unclosed :
  SyntaxNode.unclosed.Flagged
    ∧ parse (fun _ _ => .unclosed) .javaScript "f()\ng(1" = .error ⟨⟨2, 4⟩⟩
  := by
  have hflagged : SyntaxNode.unclosed.Flagged := by decide
  use hflagged
  obtain ⟨-, -, hparse⟩ := parse_of_flagged SyntaxNode.unclosed hflagged
  obtain ⟨-, herror, -⟩ := hparse (fun _ _ => .unclosed) .javaScript "f()\ng(1" rfl
  apply (herror _).mpr
  use SyntaxNode.lacking
  constructor
  · use SyntaxNode.unclosed.preorder.dropLast, [], rfl, rfl
    decide
  · rfl

end MutationTesting
