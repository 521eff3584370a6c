import Mathlib.Tactic.Common
import MutationTesting.Proofs.Operator.IntegerLiteral

/-!
# What the table of changes promises

A change exchanges a fragment when it is made by substitution, the fragment stands on one
line, and another text of one line takes its place (`Change.Exchanges`). All changes of the table but
those to statements exchange the operator or literal that they are offered for, and a
negated condition is longer than the condition.
-/

namespace MutationTesting

/-- The text that takes the place of the fragment. -/
def Change.text (change : Change) : String :=
  if change.replacement == removalMark then "" else change.replacement

/-- A change puts another text in the place of a fragment, and both stand on one line. -/
structure Change.Exchanges (change : Change) (fragment : String) : Prop where
  substitutes : change.kind.strategy = .substitute
  unbroken : '\n' ∉ fragment.toList
  unbroken_text : '\n' ∉ change.text.toList
  ne : change.text ≠ fragment
  ne_replacement : change.replacement ≠ fragment

instance (change : Change) (fragment : String) : Decidable (change.Exchanges fragment) :=
  decidable_of_iff
    (change.kind.strategy = .substitute ∧ '\n' ∉ fragment.toList ∧ '\n' ∉ change.text.toList
      ∧ change.text ≠ fragment ∧ change.replacement ≠ fragment)
    ⟨fun ⟨h₁, h₂, h₃, h₄, h₅⟩ => ⟨h₁, h₂, h₃, h₄, h₅⟩,
      fun ⟨h₁, h₂, h₃, h₄, h₅⟩ => ⟨h₁, h₂, h₃, h₄, h₅⟩⟩

/-- The description and the priority of a change play no part in the exchange. -/
theorem Change.Exchanges.of_eq {change other : Change} {fragment : String}
    (h : change.Exchanges fragment) (hkind : other.kind = change.kind)
    (hreplacement : other.replacement = change.replacement) :
  other.Exchanges fragment
  := by
  have heq : other.text = change.text := by rw [text, hreplacement, text]
  constructor
  · rw [hkind]
    apply h.substitutes
  · apply h.unbroken
  · rw [heq]
    apply h.unbroken_text
  · rw [heq]
    apply h.ne
  · rw [hreplacement]
    apply h.ne_replacement

/-- Whether a kind is one of the changes to operators. -/
def MutationKind.isOperator : MutationKind → Bool
  | .arithmeticOperator | .relationalOperator | .logicalOperator | .unaryOperator
  | .assignmentOperator | .incDec => true
  | .constant | .returnValue | .statementRemoval | .conditionNegation | .elseRemoval => false

/-- What a condition becomes when it is negated is longer than the condition. -/
theorem Grammar.negate_ne (g : Grammar) (condition : String) :
  g.negate condition ≠ condition
  := by
  intro h
  have hlength := congrArg (fun text : String => text.toList.length) h
  unfold negate at hlength
  split at hlength <;> simp only [String.toList_append, List.length_append] at hlength
  · have : "!(".toList.length = 2 := rfl
    omega
  · have : "not (".toList.length = 5 := rfl
    omega
  · have : "(!".toList.length = 2 := rfl
    omega

/-- Two nodes that are conditionals of a language have the same kind. -/
theorem Language.eq_of_ifKinds (language : Language) {a b : String}
    (ha : language.grammar.ifKinds.contains a = true)
    (hb : language.grammar.ifKinds.contains b = true) :
  a = b
  := by
  cases language <;> simp_all [grammar, Grammar.go, Grammar.rust, Grammar.python,
    Grammar.javaScriptLike]

namespace Operator

/-! ### Operators -/

theorem mem_of_mem_arithmeticChanges {op : String} {change : Change}
    (h : change ∈ arithmeticChanges op) :
  op ∈ arithmetic
  := by
  unfold arithmeticChanges at h
  split at h
  · next hop => exact List.contains_iff_mem.mp hop
  · contradiction

theorem nodup_arithmeticChanges (op : String) :
  ((arithmeticChanges op).map (·.replacement)).Nodup
  := by
  have harithmetic : arithmetic.Nodup := by decide
  unfold arithmeticChanges
  split
  · rw [List.map_map, List.Nodup, List.pairwise_map]
    apply harithmetic.filter
  · apply List.nodup_nil

theorem isOperator_of_mem_arithmeticChanges {op : String} {change : Change}
    (h : change ∈ arithmeticChanges op) :
  change.kind.isOperator = true
  := by
  unfold arithmeticChanges at h
  split at h
  · obtain ⟨other, -, rfl⟩ := List.mem_map.mp h
    rfl
  · contradiction

theorem exchanges_of_mem_arithmeticChanges {op : String} {change : Change}
    (h : change ∈ arithmeticChanges op) :
  change.Exchanges op
  := by
  have htable : ∀ op ∈ arithmetic, ∀ change ∈ arithmeticChanges op, change.Exchanges op := by
    decide
  apply htable op (mem_of_mem_arithmeticChanges h) change h

/-- The operators that have relational alternatives. -/
def relational : List String := ["<", ">", "<=", ">=", "==", "!=", "===", "!=="]

theorem mem_of_mem_relationalChanges {op : String} {change : Change}
    (h : change ∈ relationalChanges op) :
  op ∈ relational
  := by
  by_contra hop
  simp_all [relationalChanges, relationalAlternatives, relational]

theorem nodup_relationalChanges (op : String) :
  ((relationalChanges op).map (·.replacement)).Nodup
  := by
  have halternatives : (relationalAlternatives op).Nodup := by
    unfold relationalAlternatives
    split <;> decide
  rw [relationalChanges, List.map_map, List.Nodup, List.pairwise_map]
  apply halternatives

theorem isOperator_of_mem_relationalChanges {op : String} {change : Change}
    (h : change ∈ relationalChanges op) :
  change.kind.isOperator = true
  := by
  obtain ⟨other, -, rfl⟩ := List.mem_map.mp h
  rfl

theorem exchanges_of_mem_relationalChanges {op : String} {change : Change}
    (h : change ∈ relationalChanges op) :
  change.Exchanges op
  := by
  have htable : ∀ op ∈ relational, ∀ change ∈ relationalChanges op, change.Exchanges op := by
    decide
  apply htable op (mem_of_mem_relationalChanges h) change h

theorem mem_of_mem_logicalChanges {g : Grammar} {op : String} {change : Change}
    (h : change ∈ logicalChanges g op) :
  op ∈ [g.andOp, g.orOp]
  := by
  by_contra hop
  simp_all [logicalChanges, logicalPartner?]

theorem isOperator_of_mem_logicalChanges {g : Grammar} {op : String} {change : Change}
    (h : change ∈ logicalChanges g op) :
  change.kind.isOperator = true
  := by
  obtain ⟨other, -, rfl⟩ := List.mem_map.mp h
  rfl

theorem exchanges_of_mem_logicalChanges {language : Language} {op : String} {change : Change}
    (h : change ∈ logicalChanges language.grammar op) :
  change.Exchanges op
  := by
  have htable : ∀ op ∈ [language.grammar.andOp, language.grammar.orOp],
      ∀ change ∈ logicalChanges language.grammar op, change.Exchanges op := by
    cases language <;> decide
  apply htable op (mem_of_mem_logicalChanges h) change h

theorem mem_of_mem_assignmentChanges {op : String} {change : Change}
    (h : change ∈ assignmentChanges op) :
  op ∈ ["+=", "-="]
  := by
  by_contra hop
  simp_all [assignmentChanges, assignmentPartner?]

theorem isOperator_of_mem_assignmentChanges {op : String} {change : Change}
    (h : change ∈ assignmentChanges op) :
  change.kind.isOperator = true
  := by
  obtain ⟨other, -, rfl⟩ := List.mem_map.mp h
  rfl

theorem exchanges_of_mem_assignmentChanges {op : String} {change : Change}
    (h : change ∈ assignmentChanges op) :
  change.Exchanges op
  := by
  have htable : ∀ op ∈ ["+=", "-="], ∀ change ∈ assignmentChanges op, change.Exchanges op := by
    decide
  apply htable op (mem_of_mem_assignmentChanges h) change h

theorem mem_of_mem_incDecChanges {op : String} {change : Change}
    (h : change ∈ incDecChanges op) :
  op ∈ ["++", "--"]
  := by
  by_contra hop
  simp_all [incDecChanges, incDecPartner?]

theorem isOperator_of_mem_incDecChanges {op : String} {change : Change}
    (h : change ∈ incDecChanges op) :
  change.kind.isOperator = true
  := by
  obtain ⟨other, -, rfl⟩ := List.mem_map.mp h
  rfl

theorem exchanges_of_mem_incDecChanges {op : String} {change : Change}
    (h : change ∈ incDecChanges op) :
  change.Exchanges op
  := by
  have htable : ∀ op ∈ ["++", "--"], ∀ change ∈ incDecChanges op, change.Exchanges op := by
    decide
  apply htable op (mem_of_mem_incDecChanges h) change h

theorem negationRemoval_exchanges (language : Language) :
  negationRemoval.Exchanges language.grammar.notOp
  := by
  cases language <;> decide

theorem unaryMinusChange_exchanges (language : Language) :
  (unaryMinusChange language.grammar).Exchanges "-"
  := by
  cases language <;> decide

/-! ### Literals -/

/-- An integer literal stands on one line. -/
theorem newline_not_mem_of_isInteger {value : String} (h : isInteger value = true) :
  '\n' ∉ value.toList
  := by
  intro hvalue
  have hmem := mem_literalChars ((isInteger_iff value).mp h) (List.mem_map_of_mem hvalue)
  revert hmem
  decide

theorem kind_of_mem_integerChanges {value : String} {change : Change}
    (h : change ∈ integerChanges value) :
  change.kind = .constant
  := by
  unfold integerChanges at h
  split_ifs at h <;> rw [List.mem_singleton] at h <;> rw [h]

theorem exchanges_of_mem_integerChanges {value : String} {change : Change}
    (hvalue : isInteger value = true) (h : change ∈ integerChanges value) :
  change.Exchanges value
  := by
  unfold integerChanges at h
  split_ifs at h with hzero hone
  · rw [List.mem_singleton] at h
    subst h hzero
    decide
  · rw [List.mem_singleton] at h
    subst h hone
    decide
  · rw [List.mem_singleton] at h
    subst h
    have hunbroken := newline_not_mem_of_isInteger hvalue
    have hlonger := successor_ne value
    constructor
    · rfl
    · exact hunbroken
    · unfold Change.text
      split
      · simp
      · change '\n' ∉ ("(" ++ value ++ " + 1)").toList
        simpa using hunbroken
    · unfold Change.text
      split
      · rintro rfl
        contradiction
      · exact hlonger
    · exact hlonger

theorem kind_of_mem_stringChanges {value : String} {change : Change}
    (h : change ∈ stringChanges value) :
  change.kind = .constant
  := by
  unfold stringChanges at h
  split at h
  · contradiction
  · rw [List.mem_singleton] at h
    rw [h]

/-- A string literal on one line that is not empty is no empty one. -/
theorem exchanges_of_mem_stringChanges {value : String} {change : Change}
    (hvalue : '\n' ∉ value.toList) (h : change ∈ stringChanges value) :
  change.Exchanges value
  := by
  unfold stringChanges at h
  split at h
  · contradiction
  · next hempty =>
    rw [List.mem_singleton] at h
    subst h
    generalize (value.toList.head?.any fun c => c == 'b' || c == 'B') = bytes
    constructor
    · rfl
    · exact hvalue
    · cases bytes <;> decide
    · rintro rfl
      apply hempty
      cases bytes <;> decide
    · rintro rfl
      apply hempty
      cases bytes <;> decide

/-- The literals of a language that are exchanged when they are returned. -/
def exchangedLiterals (g : Grammar) : List String :=
  g.trueLiteral :: g.falseLiteral :: g.nilLiterals

theorem mem_exchangedLiterals {g : Grammar} {value other : String}
    (h : returnPartner? g value = some other) :
  value ∈ exchangedLiterals g
  := by
  unfold returnPartner? at h
  split_ifs at h with htrue hfalse hnil
  · simp [exchangedLiterals, htrue]
  · simp [exchangedLiterals, hfalse]
  · simp [exchangedLiterals, List.contains_iff_mem.mp hnil]

/-- The place of a returned value is in the description of a change only. -/
theorem exchanges_of_mem_returnValueChanges {language : Language} {index : Nat}
    {value : String} {change : Change}
    (h : change ∈ returnValueChanges language.grammar index value) :
  change.Exchanges value
  := by
  obtain ⟨other, hother, rfl⟩ := List.mem_map.mp h
  rw [Option.mem_toList] at hother
  have htable : ∀ value ∈ exchangedLiterals language.grammar,
      ∀ other ∈ returnPartner? language.grammar value,
      Change.Exchanges ⟨.returnValue, other, "", .high⟩ value := by
    cases language <;> decide
  apply (htable value (mem_exchangedLiterals hother) other hother).of_eq
  · rfl
  · rfl

/-- A value that is exchanged when it is returned is a literal that does not start as a return
statement does. -/
theorem not_return_isPrefix_of_returnPartner? {language : Language} {value other : String}
    (h : returnPartner? language.grammar value = some other) :
  value ≠ "" ∧ ¬"return".toList <+: value.toList
  := by
  have hliterals : ∀ literal ∈ exchangedLiterals language.grammar,
      literal ≠ "" ∧ ¬"return".toList <+: literal.toList := by
    cases language <;> decide
  apply hliterals value (mem_exchangedLiterals h)

end Operator

end MutationTesting
