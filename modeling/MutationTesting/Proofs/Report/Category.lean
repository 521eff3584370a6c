import MutationTesting.Proofs.Discovery.Scope
import MutationTesting.Proofs.Json.Numerals
import MutationTesting.Proofs.Text.Occurrence
import MutationTesting.Report
import MutationTesting.Tree.Indented.Reading

/-!
# Categories that descriptions tell

A description tells the kind of the first group of hints one of which occurs in it. Every change
that is offered `IsTold` by its description: those of a table are looked up one by one, a literal has
none of the characters of the hints that come before its own, and the place of a returned value has
digits only. So a result of a mutation that was discovered has the same category with and without
its kind.
-/

namespace MutationTesting

open Operator

/-- The kind of a change is told by its description. -/
def Change.IsTold (change : Change) : Prop :=
  inferKind? change.description = some change.kind

instance (change : Change) : Decidable change.IsTold :=
  inferInstanceAs (Decidable (inferKind? change.description = some change.kind))

/-! ### Hints -/

/-- A description as hints are looked for in it. -/
def lowered (description : String) : List Char := description.toList.map asciiLower

/-- The first group with a hint that occurs in a description tells its kind. -/
theorem inferKind?_eq_some {description hint : String} {hints : List String}
    {kind : MutationKind} {before after : List (List String × MutationKind)}
    (hparts : kindHints = before ++ (hints, kind) :: after)
    (hbefore : ∀ group ∈ before, ∀ hint ∈ group.1, ¬hint.toList <:+: lowered description)
    (hhint : hint ∈ hints) (hoccurs : hint.toList <:+: lowered description) :
  inferKind? description = some kind
  := by
  have hnone : before.find? (fun group => group.1.any fun hint =>
      Text.occursIn hint.toList (lowered description)) = none := by
    rw [List.find?_eq_none]
    intro group hgroup
    rw [List.any_eq_true]
    rintro ⟨hint, hhint, hoccurs⟩
    exact hbefore group hgroup hint hhint (Text.occursIn_iff.mp hoccurs)
  have hsome : (hints.any fun hint => Text.occursIn hint.toList (lowered description)) = true :=
    List.any_eq_true.mpr ⟨hint, hhint, Text.occursIn_iff.mpr hoccurs⟩
  change (kindHints.find? fun group => group.1.any fun hint =>
    Text.occursIn hint.toList (lowered description)).map (·.2) = some kind
  rw [hparts, List.find?_append, hnone, Option.none_or, List.find?_cons, hsome]
  rfl

/-! ### Operators -/

variable {language : Language} {op : String} {change : Change}

theorem isTold_of_mem_arithmeticChanges (h : change ∈ arithmeticChanges op) :
  change.IsTold
  := by
  have htable : ∀ op ∈ arithmetic, ∀ change ∈ arithmeticChanges op, change.IsTold := by
    decide +kernel
  apply htable op (mem_of_mem_arithmeticChanges h) change h

theorem isTold_of_mem_relationalChanges (h : change ∈ relationalChanges op) :
  change.IsTold
  := by
  have htable : ∀ op ∈ relational, ∀ change ∈ relationalChanges op, change.IsTold := by
    decide +kernel
  apply htable op (mem_of_mem_relationalChanges h) change h

theorem isTold_of_mem_logicalChanges (h : change ∈ logicalChanges language.grammar op) :
  change.IsTold
  := by
  have htable : ∀ op ∈ [language.grammar.andOp, language.grammar.orOp],
      ∀ change ∈ logicalChanges language.grammar op, change.IsTold := by
    cases language <;> decide
  apply htable op (mem_of_mem_logicalChanges h) change h

theorem isTold_of_mem_assignmentChanges (h : change ∈ assignmentChanges op) :
  change.IsTold
  := by
  have htable : ∀ op ∈ ["+=", "-="], ∀ change ∈ assignmentChanges op, change.IsTold := by
    decide
  apply htable op (mem_of_mem_assignmentChanges h) change h

theorem isTold_of_mem_incDecChanges (h : change ∈ incDecChanges op) :
  change.IsTold
  := by
  have htable : ∀ op ∈ ["++", "--"], ∀ change ∈ incDecChanges op, change.IsTold := by
    decide
  apply htable op (mem_of_mem_incDecChanges h) change h

/-! ### Literals -/

/-- No hint that is looked for before those of constants can be spelled with the characters of
integer literals and of the words around them. -/
theorem isTold_of_mem_integerChanges {value : String} (hvalue : isInteger value = true)
    (h : change ∈ integerChanges value) :
  change.IsTold
  := by
  unfold integerChanges at h
  split_ifs at h with hzero hone
  · rw [List.mem_singleton] at h
    subst h
    decide
  · rw [List.mem_singleton] at h
    subst h
    decide
  · rw [List.mem_singleton] at h
    subst h
    have hlowered : lowered s!"Off-by-one: {value} → {value} + 1"
        = "off-by-one: ".toList ++ lowered value ++ " → ".toList ++ lowered value
          ++ " + 1".toList := by
      change ("Off-by-one: " ++ value ++ " → " ++ value ++ " + 1").toList.map asciiLower = _
      simp only [String.toList_append, List.map_append]
      rfl
    have hliteral : lowered value ⊆ "off-by-one: → + 1".toList ++ literalChars := by
      intro c hc
      apply List.mem_append_right
      apply mem_literalChars ((isInteger_iff value).mp hvalue) hc
    have hsubset : lowered s!"Off-by-one: {value} → {value} + 1"
        ⊆ "off-by-one: → + 1".toList ++ literalChars := by
      rw [hlowered]
      simp only [List.append_subset]
      exact ⟨⟨⟨⟨by decide, hliteral⟩, by decide⟩, hliteral⟩, by decide⟩
    have hforeign : ∀ group ∈ kindHints.take 6, ∀ hint ∈ group.1,
        ¬hint.toList ⊆ "off-by-one: → + 1".toList ++ literalChars := by
      decide
    have hparts : kindHints = kindHints.take 6
        ++ (["off-by-one", "string to empty", "constant", "change 0 to 1", "change 1 to 0"],
          .constant) :: kindHints.drop 7 := rfl
    apply inferKind?_eq_some hparts _ (List.mem_cons_self ..)
    · rw [hlowered]
      exact ⟨[], _, rfl⟩
    · intro group hgroup hint hhint hinfix
      exact hforeign group hgroup hint hhint (List.Subset.trans hinfix.subset hsubset)

theorem isTold_of_mem_stringChanges {value : String} (h : change ∈ stringChanges value) :
  change.IsTold
  := by
  unfold stringChanges at h
  split at h
  · contradiction
  · rw [List.mem_singleton] at h
    subst h
    have htold : inferKind? "Change string to empty" = some .constant := by
      decide
    exact htold

/-! ### Statements -/

theorem mem_digits_of_isDigit {c : Char} (h : Text.isDigit c = true) :
  c ∈ Radix.decimal.digits
  := by
  rw [Text.isDigit] at h
  rw [← isDigitOf_iff_mem (List.mem_cons_self ..), isDigitOf, if_pos h, decide_eq_true_eq]
  simp only [Bool.and_eq_true, decide_eq_true_eq, Char.le_def] at h
  have hhigh : c.toNat ≤ 57 := h.2
  change c.toNat - 48 < 10
  omega

theorem lowered_toString_subset (n : Nat) :
  lowered (toString n) ⊆ Radix.decimal.digits
  := by
  have hlower : Radix.decimal.digits.map asciiLower ⊆ Radix.decimal.digits := by
    decide
  intro c hc
  obtain ⟨digit, hdigit, rfl⟩ := List.mem_map.mp hc
  rw [Json.toList_toString] at hdigit
  apply hlower
  apply List.mem_map_of_mem (mem_digits_of_isDigit (Text.isDigit_of_mem_toDigits hdigit))

/-- The place of a returned value is written with digits only, so that it splits the description
into parts where hints can be looked for. -/
theorem isTold_of_mem_returnValueChanges {index : Nat} {value : String}
    (h : change ∈ returnValueChanges language.grammar index value) :
  change.IsTold
  := by
  obtain ⟨other, hother, rfl⟩ := List.mem_map.mp h
  rw [Option.mem_toList] at hother
  have hlowered : lowered s!"Change return value {index}: {value} → {other}"
      = "change return value".toList ++ ' ' :: (lowered (toString index)
        ++ ':' :: lowered s!" {value} → {other}") := by
    change ("Change return value " ++ toString index ++ ": " ++ value ++ " → " ++ other).toList.map
        asciiLower = _ ++ ' ' :: (_ ++ ':' :: (" " ++ value ++ " → " ++ other).toList.map asciiLower)
    simp only [String.toList_append, List.map_append, List.append_assoc]
    rfl
  have hhints : ∀ group ∈ kindHints.take 3, ∀ hint ∈ group.1, ' ' ∉ hint.toList
      ∧ ':' ∉ hint.toList ∧ Text.occursIn hint.toList "change return value".toList = false
      ∧ ¬hint.toList ⊆ Radix.decimal.digits := by
    decide
  have hvalues : ∀ value ∈ exchangedLiterals language.grammar,
      ∀ other ∈ returnPartner? language.grammar value, ∀ group ∈ kindHints.take 3,
      ∀ hint ∈ group.1, Text.occursIn hint.toList (lowered s!" {value} → {other}") = false := by
    cases language <;> decide
  have hparts : kindHints = kindHints.take 3 ++ (["return value"], .returnValue)
      :: kindHints.drop 4 := rfl
  apply inferKind?_eq_some hparts _ (List.mem_cons_self ..)
  · rw [hlowered]
    exact ⟨"change ".toList, _, rfl⟩
  · intro group hgroup hint hhint hinfix
    rw [hlowered] at hinfix
    obtain ⟨hblank, hcolon, hfront, hletter⟩ := hhints group hgroup hint hhint
    obtain hinfix | hinfix := Text.isInfix_or_isInfix_of_append_cons hblank hinfix
    · rw [← Text.occursIn_iff, hfront] at hinfix
      exact Bool.false_ne_true hinfix
    · obtain hinfix | hinfix := Text.isInfix_or_isInfix_of_append_cons hcolon hinfix
      · exact hletter (List.Subset.trans hinfix.subset (lowered_toString_subset index))
      · rw [← Text.occursIn_iff,
          hvalues value (mem_exchangedLiterals hother) other hother group hgroup hint hhint]
          at hinfix
        exact Bool.false_ne_true hinfix

/-! ### Offers -/

variable {source : String} {node : SyntaxNode} {offer : Offer}

/-- What is offered at tokens is told by its description if all changes of the tokens are. -/
theorem isTold_of_mem_tokenwise {changes : String → List Change}
    (hchanges : ∀ {op : String} {change : Change}, change ∈ changes op → change.IsTold)
    (h : offer ∈ Offer.tokenwise source node changes) :
  offer.change.IsTold
  := by
  obtain ⟨token, -, hoffer⟩ := List.mem_flatMap.mp h
  obtain ⟨change, hchange, rfl⟩ := List.mem_map.mp hoffer
  exact hchanges hchange

theorem isTold_of_mem_binaryChanges
    (h : change ∈ Offer.binaryChanges language.grammar node op) :
  change.IsTold
  := by
  unfold Offer.binaryChanges at h
  split_ifs at h
  · contradiction
  · exact isTold_of_mem_arithmeticChanges h
  · exact isTold_of_mem_relationalChanges h
  · exact isTold_of_mem_logicalChanges h

theorem isTold_of_mem_unaryChanges (h : change ∈ Offer.unaryChanges language.grammar op) :
  change.IsTold
  := by
  unfold Offer.unaryChanges at h
  split_ifs at h
  · rw [List.mem_singleton] at h
    subst h
    decide
  · rw [List.mem_singleton] at h
    subst h
    cases language <;> decide
  · contradiction

theorem isTold_of_mem_unary (h : offer ∈ Offer.unary language.grammar source node) :
  offer.change.IsTold
  := by
  unfold Offer.unary at h
  split at h
  · split at h
    · contradiction
    · obtain ⟨change, hchange, rfl⟩ := List.mem_map.mp h
      exact isTold_of_mem_unaryChanges hchange
  · contradiction

theorem isTold_of_mem_integer (h : offer ∈ Offer.integer source node) :
  offer.change.IsTold
  := by
  obtain ⟨change, hchange, rfl⟩ := List.mem_map.mp h
  dsimp only at hchange
  split at hchange
  · next hinteger => exact isTold_of_mem_integerChanges hinteger hchange
  · contradiction

theorem isTold_of_mem_string {ctx : WalkContext}
    (h : offer ∈ Offer.string language.grammar source node ctx) :
  offer.change.IsTold
  := by
  obtain ⟨change, hchange, rfl⟩ := List.mem_map.mp h
  dsimp only at hchange
  split at hchange
  · contradiction
  · exact isTold_of_mem_stringChanges hchange

theorem isTold_of_mem_returned (h : offer ∈ Offer.returned language.grammar source node) :
  offer.change.IsTold
  := by
  obtain hvalue | hstatement := List.mem_append.mp h
  · obtain ⟨⟨value, index⟩, -, hoffer⟩ := List.mem_flatMap.mp hvalue
    obtain ⟨change, hchange, rfl⟩ := List.mem_map.mp hoffer
    exact isTold_of_mem_returnValueChanges hchange
  · rw [List.mem_singleton] at hstatement
    subst hstatement
    change statementRemoval.IsTold
    decide

theorem isTold_of_mem_conditional (h : offer ∈ Offer.conditional language.grammar source node) :
  offer.change.IsTold
  := by
  obtain hnegation | hremoval := List.mem_append.mp h
  · unfold Offer.negation at hnegation
    split at hnegation
    · split at hnegation
      · contradiction
      · rw [List.mem_singleton] at hnegation
        subst hnegation
        change inferKind? "Negate if condition" = some .conditionNegation
        decide
    · contradiction
  · split at hremoval
    · rw [List.mem_singleton] at hremoval
      subst hremoval
      change elseRemoval.IsTold
      decide
    · contradiction

/-- Whatever is offered at a node is told by its description. -/
theorem isTold_of_mem_ofNode {ctx : WalkContext}
    (h : offer ∈ Offer.ofNode language.grammar source node ctx) :
  offer.change.IsTold
  := by
  unfold Offer.ofNode at h
  split_ifs at h
  · exact isTold_of_mem_tokenwise isTold_of_mem_binaryChanges h
  · exact isTold_of_mem_unary h
  · exact isTold_of_mem_integer h
  · exact isTold_of_mem_string h
  · exact isTold_of_mem_returned h
  · exact isTold_of_mem_conditional h
  · exact isTold_of_mem_tokenwise isTold_of_mem_assignmentChanges h
  · exact isTold_of_mem_tokenwise isTold_of_mem_incDecChanges h
  · contradiction

/-- Whatever is searched for in a tree, what is offered is told by its description. -/
theorem isTold_of_mem_offers {tree : SyntaxTree} {scope : Scope} (h : offer ∈ tree.offers scope) :
  offer.change.IsTold
  := by
  rw [SyntaxTree.offers_eq] at h
  obtain ⟨emission, hemission, rfl⟩ := List.mem_map.mp h
  obtain ⟨site, -, hmem⟩ := List.mem_flatMap.mp (List.mem_of_mem_filter hemission)
  obtain ⟨offer, hoffer, rfl⟩ := List.mem_map.mp hmem
  exact isTold_of_mem_ofNode hoffer

/-! ### Results -/

/-- A result is counted under its kind if its description tells that kind, whether the result has it
or not. -/
theorem TestResult.category_eq {result : TestResult} {kind : MutationKind}
    (htold : inferKind? result.description = some kind)
    (hkind : result.kind = none ∨ result.kind = some kind) :
  result.category = kind.name
  := by
  rw [category]
  obtain hnone | hsome := hkind
  · rw [hnone, htold]
    rfl
  · rw [hsome]
    rfl

/-- The description of a mutation that is discovered tells its kind, so that a result of it is
counted under that kind with and without it. -/
theorem inferKind?_of_discover {parser : Parser} {file : String} {language : Language}
    {source : String} {scope : Scope} {catalog : List Mutation} {m : Mutation}
    (h : discover parser file language source scope = .ok catalog) (hm : m ∈ catalog) :
  inferKind? m.description = some m.kind
    ∧ ∀ result : TestResult, result.description = m.description →
      ({ result with kind := some m.kind } : TestResult).category = m.kind.name
        ∧ ({ result with kind := none } : TestResult).category = m.kind.name
  := by
  obtain ⟨tree, -, hoffers⟩ := exists_offer_of_discover h
  obtain ⟨offer, hoffer, i, rfl⟩ := hoffers m hm
  have htold : inferKind? (offer.toMutation source file i).description
      = some (offer.toMutation source file i).kind := isTold_of_mem_offers hoffer
  use htold
  intro result hdescription
  rw [← hdescription] at htold
  exact ⟨TestResult.category_eq htold (.inr rfl), TestResult.category_eq htold (.inl rfl)⟩

/-- The tree of the JavaScript source `return !a && 0xdecaden`. -/
def SyntaxNode.denying : SyntaxNode :=
  Indented.node "program" [
    Indented.node "return_statement" [
      Indented.leaf "return" false 0 6,
      Indented.node "binary_expression" [
        Indented.node "unary_expression" [
          Indented.leaf "!" false 7 8,
          Indented.leaf "identifier" true 8 9],
        Indented.leaf "&&" false 10 12,
        Indented.leaf "number" true 13 22]]]

/-- The four mutations of a source with hexadecimal digits that are letters. -/
theorem inferKind?_of_discover_denying :
  let parser : Parser := fun _ _ => .denying
  let catalog := (discover parser "a.js" .javaScript "return !a && 0xdecaden"
    ⟨none, none⟩).toOption.getD []
  catalog.map (·.description) = ["Remove return statement", "Change && to ||",
      "Remove negation operator", "Off-by-one: 0xdecaden → 0xdecaden + 1"]
    ∧ catalog.map (·.kind) = [.statementRemoval, .logicalOperator, .unaryOperator, .constant]
    ∧ ∀ m ∈ catalog, inferKind? m.description = some m.kind
  := by
  intro parser catalog
  have hcatalog : discover parser "a.js" .javaScript "return !a && 0xdecaden" ⟨none, none⟩
      = .ok catalog := by
    decide +kernel
  refine ⟨by decide +kernel, by decide +kernel, ?_⟩
  intro m hm
  exact (inferKind?_of_discover hcatalog hm).1

end MutationTesting
