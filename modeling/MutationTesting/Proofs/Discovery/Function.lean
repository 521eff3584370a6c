import MutationTesting.Proofs.Discovery.Scope
import MutationTesting.Tree.Indented.Statement

/-!
# Mutations inside a function

A search that is limited to a function finds the offers at the sites whose outermost function has
the name, so it finds all offers inside the functions of the name unless there are some in one that
lies in a function of another name only.
-/

namespace MutationTesting

variable {tree : SyntaxTree} {source name : String}

/-- A search for a function finds the offers at the sites whose outermost function it is. -/
theorem SyntaxTree.offers_function :
  tree.offers ⟨some name, none⟩
    = (tree.emissions.filter fun emission => (tree.around emission.1).head? = some name).map (·.2)
  := by
  rw [offers_eq]
  simp [covers, Scope.onLines]

/-- The names of the functions of a tree are those that its nodes declare. -/
theorem SyntaxTree.functionNames_eq :
  tree.functionNames
    = tree.sites.filterMap fun site => tree.language.grammar.functionName? tree.source site.node
  := by
  rw [functionNames, walk_eq, SyntaxNode.walk_eq_foldl_sites fun _ _ _ => rfl]
  rw [List.foldl_append_eq_append, List.nil_append, ← List.flatMap_def,
    List.filterMap_eq_flatMap_toList]
  rfl

/-- In a source that parses, a search for a function that it declares finds the mutations whose
outermost function has the name. These are all mutations inside of functions of the name if and only
if none is in one that lies in a function of another name alone. A search for a name that is not
declared tells the names that are. -/
theorem discover_function_iff {parser : Parser} {language : Language} (file : String)
    (hparse : SyntaxTree.parse parser language source = .ok tree) :
  discover parser file language source ⟨none, none⟩ = .ok (tree.catalog file tree.emissions)
    ∧ listFunctions parser language source = .ok (tree.sites.filterMap fun site =>
      language.grammar.functionName? source site.node)
    ∧ ∀ available, listFunctions parser language source = .ok available → ∀ name,
      (name ∈ available →
        discover parser file language source ⟨some name, none⟩
          = .ok (tree.catalog file (tree.emissions.filter fun emission =>
              (tree.around emission.1).head? = some name))
        ∧ (discover parser file language source ⟨some name, none⟩
            = .ok (tree.catalog file (tree.emissions.filter fun emission =>
              name ∈ tree.around emission.1))
          ↔ ∀ emission ∈ tree.emissions, name ∈ tree.around emission.1 →
            (tree.around emission.1).head? = some name))
      ∧ (name ∉ available →
        discover parser file language source ⟨some name, none⟩
          = .error (.functionNotFound name available))
  := by
  obtain rfl : tree.language = language := congrArg (·.language) (SyntaxTree.eq_of_parse hparse)
  obtain rfl : tree.source = source := congrArg (·.source) (SyntaxTree.eq_of_parse hparse)
  have hlist : listFunctions parser tree.language tree.source = .ok tree.functionNames := by
    rw [listFunctions, hparse]
    rfl
  constructor
  · rw [discover, hparse]
    dsimp only
    rw [SyntaxTree.offers_all]
    rfl
  · constructor
    · rw [hlist, SyntaxTree.functionNames_eq]
    · intro available havailable name
      obtain rfl := Except.ok.inj (hlist.symm.trans havailable)
      constructor
      · intro hname
        have hfound : discover parser file tree.language tree.source ⟨some name, none⟩
            = .ok (tree.catalog file (tree.emissions.filter fun emission =>
              (tree.around emission.1).head? = some name)) := by
          rw [discover, hparse]
          dsimp only
          rw [if_pos (List.contains_iff_mem.mpr hname), SyntaxTree.offers_function]
          rfl
        use hfound
        rw [hfound, Except.ok.injEq, SyntaxTree.catalog_filter_eq_iff]
        · simp
        · intro emission hhead
          simpa using List.mem_of_mem_head? (of_decide_eq_true hhead)
      · intro hname
        rw [discover, hparse]
        dsimp only
        rw [if_neg]
        rwa [List.contains_iff_mem]

/-- The tree of the Python source `def g():⏎ def f():⏎  return 0⏎`. -/
def SyntaxNode.nesting : SyntaxNode :=
  Indented.module [Indented.node "function_definition" [
    Indented.leaf "def" false 0 3,
    Indented.filling .name (Indented.leaf "identifier" true 4 5),
    Indented.leaf ":" false 7 8,
    Indented.node "block" [Indented.node "function_definition" [
      Indented.leaf "def" false 10 13,
      Indented.filling .name (Indented.leaf "identifier" true 14 15),
      Indented.leaf ":" false 17 18,
      Indented.node "block" [Indented.node "return_statement" [
        Indented.leaf "return" false 21 27, Indented.leaf "integer" true 28 29]]]]]] 30

/-- All mutations inside of a function are found though another function lies in it, and none of
those that are inside of that one alone. -/
theorem discover_function_nesting :
  let source := "def g():\n def f():\n  return 0\n"
  let parser : Parser := fun _ _ => .nesting
  let tree : SyntaxTree := ⟨.python, source, .nesting⟩
  SyntaxTree.parse parser .python source = .ok tree
    ∧ listFunctions parser .python source = .ok ["g", "f"]
    ∧ discover parser "a.py" .python source ⟨some "g", none⟩
      = .ok (tree.catalog "a.py" (tree.emissions.filter fun emission => "g" ∈ tree.around emission.1))
    ∧ discover parser "a.py" .python source ⟨some "f", none⟩ = .ok []
    ∧ discover parser "a.py" .python source ⟨some "h", none⟩
      = .error (.functionNotFound "h" ["g", "f"])
  := by
  intro source parser tree
  have hparse : SyntaxTree.parse parser .python source = .ok tree := rfl
  have hlist : listFunctions parser .python source = .ok ["g", "f"] := by decide +kernel
  have houter : ∀ emission ∈ tree.emissions, "g" ∈ tree.around emission.1 →
      (tree.around emission.1).head? = some "g" := by
    decide +kernel
  have hinner : (tree.emissions.filter fun emission =>
      (tree.around emission.1).head? = some "f").isEmpty := by
    decide +kernel
  obtain ⟨-, -, hfunctions⟩ := discover_function_iff "a.py" hparse
  use hparse, hlist
  constructor
  · apply ((hfunctions _ hlist "g").1 (by decide)).2.mpr houter
  · constructor
    · rw [((hfunctions _ hlist "f").1 (by decide)).1, List.isEmpty_iff.mp hinner]
      rfl
    · apply (hfunctions _ hlist "h").2 (by decide)

/-- The mutations inside of a function that lies in another one are not found. -/
theorem not_discovered_nesting :
  let source := "def g():\n def f():\n  return 0\n"
  let parser : Parser := fun _ _ => .nesting
  let tree : SyntaxTree := ⟨.python, source, .nesting⟩
  SyntaxTree.parse parser .python source = .ok tree
    ∧ listFunctions parser .python source = .ok ["g", "f"]
    ∧ discover parser "a.py" .python source ⟨some "f", none⟩
      ≠ .ok (tree.catalog "a.py" (tree.emissions.filter fun emission => "f" ∈ tree.around emission.1))
  := by
  intro source parser tree
  have hparse : SyntaxTree.parse parser .python source = .ok tree := rfl
  use hparse
  decide +kernel

end MutationTesting
