import Mathlib.Tactic.Common
import MutationTesting.Proofs.Agreement

/-!
# Undoing a mutation

A mutation `IsReversible` in a source if it replaces a fragment where its position says that the
fragment stands, by a text of one line, or if it comments a statement out. Once it has been made
in the source, `Mutation.revert` gives the source back. All mutations that are discovered are
reversible, apart from those of conditionals.
-/

namespace MutationTesting

namespace Mutation

/-- The fragment of a mutation stands in a source where the position of the mutation says. -/
def StandsIn (m : Mutation) (source : String) : Prop :=
  ∃ before after, source.toList = before ++ m.fragment.toList ++ after
    ∧ ⟨m.line, m.column⟩ = Text.positionAt (Text.byteLength before) source.toList

/-- What a mutation makes of a source tells what the source was. -/
inductive IsReversible (m : Mutation) (source : String) : Prop where
  | substitution (hkind : m.kind.strategy = .substitute) (hstands : m.StandsIn source)
      (hunbroken : '\n' ∉ m.replacement.toList) : IsReversible m source
  | removal (hkind : m.kind = .statementRemoval) : IsReversible m source

end Mutation

namespace Planting

/-- A text that was put in the place of a fragment is replaced by the fragment. -/
theorem substitute_substitute {source changed fragment replacement : String}
    {before after : List Char} (hsource : source.toList = before ++ fragment.toList ++ after)
    {position : Text.Position}
    (hposition : position = Text.positionAt (Text.byteLength before) source.toList)
    (hunbroken : '\n' ∉ replacement.toList)
    (h : substitute source position.line position.column fragment replacement = .ok changed) :
  substitute changed position.line position.column replacement fragment = .ok source
  := by
  have hfragment := newline_not_mem_of_substitute h
  rw [substitute_of_append hsource hfragment hposition] at h
  have hchanged : changed.toList = before ++ replacement.toList ++ after := by
    rw [← Except.ok.inj h, String.toList_ofList]
  -- the position is that of the end of `before`, whatever follows
  have hposition' : position = Text.positionAt (Text.byteLength before) changed.toList := by
    rw [hposition, hsource, hchanged, List.append_assoc, List.append_assoc, Text.positionAt,
      Text.positionAt, Text.positionFrom_append, Text.positionFrom_append]
  rw [substitute_of_append hchanged hunbroken hposition', ← hsource, String.ofList_toList]

/-- The disable marker of a language starts with no blank and stands on one line. -/
theorem exists_disableMarker (language : Language) :
  ∃ c cs, language.grammar.disableMarker.toList = c :: cs ∧ Text.isBlank c = false
    ∧ '\n' ∉ c :: cs
  := by
  cases language <;> exact ⟨_, _, rfl, by decide, by decide⟩

/-- The disable marker is taken away from a line that was commented out. -/
theorem enable_of_hasLine {language : Language} {m : Mutation} {changed : String}
    {before line after : List Char}
    (h : Text.HasLine changed.toList m.line before
      (Text.indent line ++ language.grammar.disableMarker.toList ++ Text.trimStart line) after) :
  enable language.grammar m changed = .ok (String.ofList (before ++ line ++ after))
  := by
  obtain ⟨c, cs, hmarker, hblank, -⟩ := exists_disableMarker language
  rw [enable, onLine_of_hasLine h, hmarker, List.append_assoc, List.cons_append,
    Text.trimStart_indent_append hblank, Text.indent_indent_append hblank, ← List.cons_append,
    Text.afterStart?_eq_some_iff.mpr rfl]
  dsimp only [Except.map]
  rw [Text.indent_append_trimStart]

/-- A line that was commented out is as it was when the disable marker is taken away. -/
theorem enable_disable {language : Language} {m : Mutation} {source changed : String}
    (h : disable language.grammar m source = .ok changed) :
  enable language.grammar m changed = .ok source
  := by
  obtain ⟨before, line, after, text, hhas, htext, rfl⟩ := exists_of_onLine h
  dsimp only at htext
  split at htext
  · cases htext
  · obtain rfl := Except.ok.inj htext
    have hunbroken : '\n' ∉ Text.indent line ++ language.grammar.disableMarker.toList
        ++ Text.trimStart line := by
      obtain ⟨c, cs, hmarker, -, hmarked⟩ := exists_disableMarker language
      have hline := hhas.unbroken
      rw [← Text.indent_append_trimStart line, List.mem_append, not_or] at hline
      rw [hmarker, List.mem_append, List.mem_append, not_or, not_or]
      exact ⟨⟨hline.1, hmarked⟩, hline.2⟩
    have hchanged := hhas.replace hunbroken
    rw [← String.toList_ofList (l := before ++ _ ++ after)] at hchanged
    rw [enable_of_hasLine hchanged, ← hhas.parts, String.ofList_toList]

end Planting

namespace Mutation

variable {parser : Parser} {m : Mutation} {source changed : String}

theorem IsReversible.revert (h : m.IsReversible source)
    (happly : m.apply parser source = .ok changed) :
  m.revert changed = some (.ok source)
  := by
  cases h with
  | substitution hkind hstands hunbroken =>
    obtain ⟨before, after, hsource, hposition⟩ := hstands
    rw [apply, hkind] at happly
    rw [Mutation.revert, hkind]
    dsimp only
    rw [Planting.substitute_substitute hsource hposition hunbroken happly]
  | removal hkind =>
    rw [apply, hkind] at happly
    rw [Mutation.revert, hkind]
    cases hlanguage : m.language with
    | error e =>
      rw [hlanguage] at happly
      cases happly
    | ok language =>
      rw [hlanguage] at happly
      exact congrArg some (Planting.enable_disable happly)

/-- A mutation that takes up an offer that rests on a tree whose nodes span parts of the source
is reversible, unless it changes a conditional. -/
theorem isReversible_of_grounded {tree : SyntaxTree}
    (hspanned : ∀ node ∈ tree.nodes, node.Spanned tree.source) {file : String} {offer : Offer}
    (h : offer.Grounded tree) {i : Nat} (hm : m = offer.toMutation tree.source file i)
    (hkind : m.kind.strategy ≠ .structural) :
  m.IsReversible tree.source
  := by
  subst hm
  cases h with
  | exchange hnode hchange =>
    obtain ⟨before, after, hsource, hstart, -⟩ := (hspanned _ hnode).exists_parts
    apply IsReversible.substitution hchange.substitutes
    · use before, after, hsource
      rw [hstart]
      rfl
    · apply hchange.unbroken_text
  | statement => apply IsReversible.removal rfl
  | negation => contradiction
  | removal => contradiction

/-- Making a reversible mutation and undoing it gives the source back. So does making and undoing
a mutation that was discovered in a tree whose nodes span parts of the source, if it does not
change a conditional. -/
theorem revert_apply :
  (∀ {parser : Parser} {m : Mutation} {source changed : String}, m.IsReversible source →
    m.apply parser source = .ok changed → m.revert changed = some (.ok source))
  ∧ ∀ {parser : Parser} {language : Language} {source : String} {tree : SyntaxTree}
      {file : String} {scope : Scope} {catalog : List Mutation} {m : Mutation}
      {changed : String}, SyntaxTree.parse parser language source = .ok tree →
    (∀ node ∈ tree.nodes, node.Spanned source) →
    discover parser file language source scope = .ok catalog → m ∈ catalog →
    m.kind.strategy ≠ .structural → m.apply parser source = .ok changed →
    m.revert changed = some (.ok source)
  := by
  constructor
  · intro parser m source changed hreversible happly
    apply hreversible.revert happly
  · intro parser language source tree file scope catalog m changed hparse hspanned hcatalog hm
      hkind happly
    obtain ⟨tree', hparse', hoffers⟩ := exists_offer_of_discover hcatalog
    obtain rfl := Except.ok.inj (hparse'.symm.trans hparse)
    obtain ⟨offer, hoffer, i, hi⟩ := hoffers m hm
    obtain rfl := SyntaxTree.eq_of_parse hparse
    have hgrounded := Offer.grounded_of_mem_offers hoffer
    apply (isReversible_of_grounded hspanned hgrounded hi hkind).revert happly

/-- A minus is taken away behind a letter of two bytes and put back, a statement with another
blank than a space before it is commented out and brought back, and the two mutations of a
conditional's branch that is returned from are made and undone. -/
theorem revert_apply_branching :
  let source := "\tß := -n\r\n\u00a0return ß\n"
  let minus : Mutation := ⟨"", "a.go", 1, 8, .unaryOperator, "-", removalMark, "", .low⟩
  let statement : Mutation :=
    ⟨"", "a.go", 2, 3, .statementRemoval, "return ß", removalMark, "", .low⟩
  let parser : Parser := fun _ _ => .branching
  let text := "if a:\n return 1\nelse:\n b\n"
  let tree : SyntaxTree := ⟨.python, text, .branching⟩
  let catalog := (discover parser "a.py" .python text ⟨none, none⟩).toOption.getD []
  (minus.IsReversible source ∧ minus.revert "\tß := n\r\n\u00a0return ß\n" = some (.ok source))
    ∧ (statement.IsReversible source
      ∧ statement.revert "\tß := -n\r\n\u00a0// MUTANT: return ß\n" = some (.ok source))
    ∧ (∀ node ∈ tree.nodes, node.Spanned text)
    ∧ catalog.countP (·.kind.strategy ≠ .structural) = 2
    ∧ ∀ m ∈ catalog, m.kind.strategy ≠ .structural →
      ∃ changed, m.apply parser text = .ok changed ∧ m.revert changed = some (.ok text)
  := by
  intro source minus statement parser text tree catalog
  have hminus : minus.IsReversible source := by
    apply IsReversible.substitution rfl _ (by decide)
    use "\tß := ".toList, "n\r\n\u00a0return ß\n".toList
    decide
  have hstatement : statement.IsReversible source := IsReversible.removal rfl
  have hspanned : ∀ node ∈ tree.nodes, node.Spanned text := by decide +kernel
  have hcatalog : discover parser "a.py" .python text ⟨none, none⟩ = .ok catalog := by
    decide +kernel
  have happlies : ∀ m ∈ catalog, (m.apply parser text).toOption.isSome := by decide +kernel
  refine ⟨⟨hminus, ?_⟩, ⟨hstatement, ?_⟩, hspanned, by decide +kernel, ?_⟩
  · have happly : minus.apply parser source = .ok "\tß := n\r\n\u00a0return ß\n" := by
      decide +kernel
    apply revert_apply.1 hminus happly
  · have happly : statement.apply parser source
        = .ok "\tß := -n\r\n\u00a0// MUTANT: return ß\n" := by
      decide +kernel
    apply revert_apply.1 hstatement happly
  · intro m hm hkind
    obtain ⟨tree', hparse, -⟩ := exists_offer_of_discover hcatalog
    obtain rfl := SyntaxTree.eq_of_parse hparse
    cases happly : m.apply parser text with
    | error e =>
      have hsome := happlies m hm
      rw [happly] at hsome
      cases hsome
    | ok changed =>
      use changed, rfl
      apply revert_apply.2 hparse hspanned hcatalog hm hkind happly

end Mutation

end MutationTesting
