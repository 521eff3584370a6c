import Mathlib.Data.List.TakeWhile
import Mathlib.Tactic.Common
import MutationTesting.Operator
import MutationTesting.Text.Offset

/-!
# Integer literals

In lower case, an integer literal is a radix mark with a numeral of its radix, or a decimal numeral
that has no mark in front (`IsIntegerLiteral`). `isInteger` tells the integer literals from all
other texts, and `isIntegerByOffsets?`, which cuts a text at byte offsets, tells them too: each of
its offsets starts a character, whatever the text is.
-/

namespace MutationTesting.Operator

/-- A radix in which integers are written. -/
structure Radix where
  /-- What stands in front of the digits. -/
  mark : List Char
  base : Nat
  digits : List Char
  deriving DecidableEq

namespace Radix

def decimal : Radix := ⟨[], 10, "0123456789".toList⟩

def hexadecimal : Radix := ⟨"0x".toList, 16, "0123456789abcdef".toList⟩

def octal : Radix := ⟨"0o".toList, 8, "01234567".toList⟩

def binary : Radix := ⟨"0b".toList, 2, "01".toList⟩

/-- The radices that have a mark. -/
def marked : List Radix := [hexadecimal, octal, binary]

/-- A numeral is a digit, digits and underscores in any order, and nothing or a type suffix. -/
def IsNumeral (radix : Radix) (cs : List Char) : Prop :=
  ∃ first body suffix, cs = first :: (body ++ suffix) ∧ first ∈ radix.digits
    ∧ (∀ c ∈ body, c ∈ radix.digits ∨ c = '_')
    ∧ (suffix = [] ∨ String.ofList suffix ∈ integerSuffixes)

end Radix

/-- An integer literal in lower case. -/
def IsIntegerLiteral (cs : List Char) : Prop :=
  (∃ radix ∈ Radix.marked, ∃ rest, cs = radix.mark ++ rest ∧ radix.IsNumeral rest)
    ∨ (∀ radix ∈ Radix.marked, ¬radix.mark <+: cs) ∧ Radix.decimal.IsNumeral cs

/-! ### Digits -/

theorem lt_of_isDigitOf {base : Nat} {c : Char} (h : isDigitOf base c = true) :
  c.toNat < 128
  := by
  unfold isDigitOf at h
  split_ifs at h with hdigit hletter
  · simp only [Bool.and_eq_true, decide_eq_true_eq, Char.le_def] at hdigit
    have hhigh : c.toNat ≤ 57 := hdigit.2
    omega
  · simp only [Bool.and_eq_true, decide_eq_true_eq, Char.le_def] at hletter
    have hhigh : c.toNat ≤ 122 := hletter.2
    omega

/-- The digits of a radix are those of its base. -/
theorem isDigitOf_iff_mem {radix : Radix} (h : radix ∈ Radix.decimal :: Radix.marked) {c : Char} :
  isDigitOf radix.base c = true ↔ c ∈ radix.digits
  := by
  have hascii : ∀ radix ∈ Radix.decimal :: Radix.marked, ∀ n < 128,
      isDigitOf radix.base (Char.ofNat n) = true → Char.ofNat n ∈ radix.digits := by
    decide
  have hdigits : ∀ radix ∈ Radix.decimal :: Radix.marked,
      radix.digits.all (isDigitOf radix.base) = true := by
    decide
  constructor
  · intro hc
    have hmem := hascii radix h c.toNat (lt_of_isDigitOf hc)
    rw [Char.ofNat_toNat] at hmem
    apply hmem hc
  · apply List.all_eq_true.mp (hdigits radix h)

/-- Whether a character may stand behind the first digit of a numeral. -/
def inBody (base : Nat) (c : Char) : Bool := c == '_' || isDigitOf base c

theorem inBody_iff {radix : Radix} (h : radix ∈ Radix.decimal :: Radix.marked) {c : Char} :
  inBody radix.base c = true ↔ c ∈ radix.digits ∨ c = '_'
  := by
  rw [inBody, Bool.or_eq_true, beq_iff_eq, isDigitOf_iff_mem h, or_comm]

/-- Whether a text starts with a digit and nothing or a type suffix follows its digits and
underscores. -/
def isNumeral (base : Nat) (cs : List Char) : Bool :=
  cs.head?.any (isDigitOf base)
    && ((String.ofList (cs.dropWhile (inBody base))).isEmpty
      || integerSuffixes.contains (String.ofList (cs.dropWhile (inBody base))))

/-- No type suffix starts with an underscore or a digit, so that the numeral ends where its suffix
starts. -/
theorem dropWhile_numeral {radix : Radix} (h : radix ∈ Radix.decimal :: Radix.marked)
    {body suffix : List Char} (hbody : ∀ c ∈ body, c ∈ radix.digits ∨ c = '_')
    (hsuffix : suffix = [] ∨ String.ofList suffix ∈ integerSuffixes) :
  (body ++ suffix).dropWhile (inBody radix.base) = suffix
  := by
  rw [List.dropWhile_append_of_pos fun c hc => (inBody_iff h).mpr (hbody c hc)]
  obtain rfl | hlisted := hsuffix
  · rfl
  · have hstart : ∀ radix ∈ Radix.decimal :: Radix.marked, ∀ suffix ∈ integerSuffixes,
        suffix.toList.dropWhile (inBody radix.base) = suffix.toList := by
      decide
    have hwhole := hstart radix h _ hlisted
    rw [String.toList_ofList] at hwhole
    exact hwhole

theorem isNumeral_iff {radix : Radix} (h : radix ∈ Radix.decimal :: Radix.marked) {cs : List Char} :
  isNumeral radix.base cs = true ↔ radix.IsNumeral cs
  := by
  rw [isNumeral, Bool.and_eq_true, Bool.or_eq_true, String.isEmpty_iff,
    String.ofList_eq_empty_iff, List.contains_iff_mem, Option.any_eq_true]
  constructor
  · rintro ⟨⟨first, hhead, hfirst⟩, hsuffix⟩
    obtain ⟨rest, rfl⟩ := List.head?_eq_some_iff.mp hhead
    have hinBody : inBody radix.base first = true := by
      rw [inBody, hfirst, Bool.or_true]
    rw [List.dropWhile_cons_of_pos hinBody] at hsuffix
    refine ⟨first, rest.takeWhile (inBody radix.base), rest.dropWhile (inBody radix.base), ?_,
      (isDigitOf_iff_mem h).mp hfirst, ?_, hsuffix⟩
    · rw [List.takeWhile_append_dropWhile]
    · intro c hc
      apply (inBody_iff h).mp (List.mem_takeWhile_imp hc)
  · rintro ⟨first, body, suffix, rfl, hfirst, hbody, hsuffix⟩
    use ⟨first, rfl, (isDigitOf_iff_mem h).mpr hfirst⟩
    have hrest := dropWhile_numeral h (List.forall_mem_cons.mpr ⟨.inl hfirst, hbody⟩) hsuffix
    rw [List.cons_append] at hrest
    rw [hrest]
    exact hsuffix

/-! ### Literals -/

theorem radixOf_marked {radix : Radix} (h : radix ∈ Radix.marked) (rest : List Char) :
  radixOf (radix.mark ++ rest) = (radix.base, rest)
  := by
  simp only [Radix.marked, List.mem_cons, List.not_mem_nil, or_false] at h
  obtain rfl | rfl | rfl := h <;> rfl

theorem radixOf_unmarked {cs : List Char} (h : ∀ radix ∈ Radix.marked, ¬radix.mark <+: cs) :
  radixOf cs = (Radix.decimal.base, cs)
  := by
  unfold radixOf
  split
  · next rest => exact (h .hexadecimal (by decide) ⟨rest, rfl⟩).elim
  · next rest => exact (h .octal (by decide) ⟨rest, rfl⟩).elim
  · next rest => exact (h .binary (by decide) ⟨rest, rfl⟩).elim
  · rfl

/-- The numeral that follows the radix mark of a literal, if there is one, is told by its radix. -/
theorem isNumeral_radixOf_iff (cs : List Char) :
  isNumeral (radixOf cs).1 (radixOf cs).2 = true ↔ IsIntegerLiteral cs
  := by
  by_cases hmark : ∃ radix ∈ Radix.marked, radix.mark <+: cs
  · obtain ⟨radix, hradix, rest, rfl⟩ := hmark
    rw [radixOf_marked hradix, isNumeral_iff (List.mem_cons_of_mem _ hradix)]
    constructor
    · intro h
      exact .inl ⟨radix, hradix, rest, rfl, h⟩
    · rintro (⟨other, hother, rest', hrest, h⟩ | ⟨hnone, -⟩)
      · have hpair := radixOf_marked hother rest'
        rw [← hrest, radixOf_marked hradix, Prod.mk.injEq] at hpair
        rw [hpair.2]
        rw [← isNumeral_iff (List.mem_cons_of_mem _ hother), ← hpair.1] at h
        apply (isNumeral_iff (List.mem_cons_of_mem _ hradix)).mp h
      · exact (hnone radix hradix ⟨rest, rfl⟩).elim
  · have hnone : ∀ radix ∈ Radix.marked, ¬radix.mark <+: cs := by
      intro radix hradix hprefix
      exact hmark ⟨radix, hradix, hprefix⟩
    rw [radixOf_unmarked hnone, isNumeral_iff (by decide)]
    constructor
    · intro h
      exact .inr ⟨hnone, h⟩
    · rintro (⟨radix, hradix, rest, rfl, -⟩ | ⟨-, h⟩)
      · exact (hnone radix hradix ⟨rest, rfl⟩).elim
      · exact h

/-- The characters that integer literals in lower case are made of. -/
def literalChars : List Char := "0123456789_abcdefinosuxz".toList

theorem mem_literalChars {cs : List Char} (h : IsIntegerLiteral cs) {c : Char} (hc : c ∈ cs) :
  c ∈ literalChars
  := by
  have hmarks : ∀ radix ∈ Radix.marked, radix.mark ⊆ literalChars := by
    decide
  have hdigits : ∀ radix ∈ Radix.decimal :: Radix.marked, radix.digits ⊆ literalChars := by
    decide
  have hsuffixes : ∀ suffix ∈ integerSuffixes, suffix.toList ⊆ literalChars := by
    decide
  have hnumeral : ∀ radix ∈ Radix.decimal :: Radix.marked, ∀ cs, radix.IsNumeral cs →
      cs ⊆ literalChars := by
    rintro radix hradix cs ⟨first, body, suffix, rfl, hfirst, hbody, hsuffix⟩ c hc
    rw [List.mem_cons, List.mem_append] at hc
    obtain rfl | hc | hc := hc
    · apply hdigits radix hradix hfirst
    · obtain hdigit | rfl := hbody c hc
      · apply hdigits radix hradix hdigit
      · decide
    · obtain rfl | hlisted := hsuffix
      · exact (List.not_mem_nil hc).elim
      · apply hsuffixes _ hlisted
        rw [String.toList_ofList]
        exact hc
  obtain ⟨radix, hradix, rest, rfl, hrest⟩ | ⟨-, hdecimal⟩ := h
  · obtain hmark | hrest' := List.mem_append.mp hc
    · apply hmarks radix hradix hmark
    · apply hnumeral radix (List.mem_cons_of_mem _ hradix) rest hrest hrest'
  · apply hnumeral .decimal (by decide) cs hdecimal hc

theorem isInteger_eq (text : String) :
  isInteger text = (!text.toList.contains '.'
    && isNumeral (radixOf (text.toList.map asciiLower)).1 (radixOf (text.toList.map asciiLower)).2)
  := by
  rw [isInteger]
  cases text.toList.contains '.' <;> rfl

/-- No integer literal has a dot in it, so that the dot need not be looked for. -/
theorem isInteger_iff (text : String) :
  isInteger text = true ↔ IsIntegerLiteral (text.toList.map asciiLower)
  := by
  rw [isInteger_eq, Bool.and_eq_true, Bool.not_eq_true', isNumeral_radixOf_iff,
    and_iff_right_iff_imp]
  intro h
  rw [← Bool.not_eq_true, List.contains_iff_mem]
  intro hdot
  have hmem := mem_literalChars h (List.mem_map_of_mem hdot)
  revert hmem
  decide

/-! ### Cutting at byte offsets -/

/-- The base of a text in lower case and what follows its radix mark, which takes two bytes. -/
def radixByOffsets? (cs : List Char) : Option (Nat × List Char) :=
  let mark := (Text.cut? 2 cs).map (·.1)
  match Radix.marked.find? (some ·.mark == mark) with
  | some radix => (Text.cut? 2 cs).map fun (_, rest) => (radix.base, rest)
  | none => some (Radix.decimal.base, cs)

/-- Whether a text is an integer literal, told by cutting it after its radix mark and then after its
digits and underscores. There is no answer if a cut is inside a character. -/
def isIntegerByOffsets? (text : String) : Option Bool :=
  if text.toList.contains '.' then some false
  else do
    let (base, digits) ← radixByOffsets? (text.toList.map asciiLower)
    let stop := Text.byteLength (digits.takeWhile (inBody base))
    let (body, suffix) ← Text.cut? stop digits
    return body.head?.any (isDigitOf base)
      && ((String.ofList suffix).isEmpty || integerSuffixes.contains (String.ofList suffix))

/-- A cut after two bytes is only made where they are a radix mark. -/
theorem radixByOffsets?_eq (cs : List Char) :
  radixByOffsets? cs = some (radixOf cs)
  := by
  unfold radixByOffsets?
  dsimp only
  split
  · next radix hfind =>
    have hradix := List.mem_of_find?_eq_some hfind
    have hmark := List.find?_some hfind
    rw [beq_iff_eq, eq_comm, Option.map_eq_some_iff] at hmark
    obtain ⟨⟨_, rest⟩, hcut, rfl⟩ := hmark
    obtain ⟨rfl, -⟩ := Text.eq_append_of_cut? hcut
    rw [hcut, radixOf_marked hradix]
    rfl
  · next hfind =>
    rw [radixOf_unmarked]
    rintro radix hradix ⟨rest, rfl⟩
    have hlength : ∀ radix ∈ Radix.marked, Text.byteLength radix.mark = 2 := by
      decide
    have hcut := Text.cut?_append radix.mark rest
    rw [hlength radix hradix] at hcut
    have hunequal := List.find?_eq_none.mp hfind radix hradix
    rw [hcut] at hunequal
    exact hunequal (beq_self_eq_true _)

theorem head?_takeWhile_inBody (base : Nat) (cs : List Char) :
  (cs.takeWhile (inBody base)).head?.any (isDigitOf base) = cs.head?.any (isDigitOf base)
  := by
  cases cs with
  | nil => rfl
  | cons c cs =>
    rw [List.takeWhile_cons]
    cases hc : inBody base c with
    | true => rfl
    | false =>
      rw [inBody, Bool.or_eq_false_iff] at hc
      simp [hc.2]

/-- No cut is ever inside a character. -/
theorem isIntegerByOffsets?_eq (text : String) :
  isIntegerByOffsets? text = some (isInteger text)
  := by
  rw [isIntegerByOffsets?, isInteger_eq, radixByOffsets?_eq]
  generalize radixOf (text.toList.map asciiLower) = parts
  obtain ⟨base, digits⟩ := parts
  have hcut := Text.cut?_append (digits.takeWhile (inBody base)) (digits.dropWhile (inBody base))
  rw [List.takeWhile_append_dropWhile] at hcut
  cases text.toList.contains '.' with
  | true => rfl
  | false =>
    simp only [Bool.false_eq_true, if_false, Option.bind_eq_bind, Option.bind_some, hcut,
      head?_takeWhile_inBody, isNumeral, Bool.not_false, Bool.true_and]
    rfl

/-! ### Changes -/

/-- The sum that an integer becomes is a longer text. -/
theorem successor_ne (value : String) :
  s!"({value} + 1)" ≠ value
  := by
  intro heq
  have hlength := congrArg String.length heq
  change ("(" ++ value ++ " + 1)").length = value.length at hlength
  simp only [String.length_append] at hlength
  have : " + 1)".length = 5 := rfl
  omega

theorem integerChanges_eq_singleton (value : String) :
  ∃ change, integerChanges value = [change] ∧ change.replacement ≠ value
  := by
  unfold integerChanges
  split_ifs with hzero hone
  · subst hzero
    exact ⟨_, rfl, by decide⟩
  · subst hone
    exact ⟨_, rfl, by decide⟩
  · exact ⟨_, rfl, successor_ne value⟩

/-- The texts that are taken for integer literals are those that have the form of one when the case
of ASCII letters is ignored. No text is cut inside a character to tell, and the one change of a text
makes it another text. -/
theorem isInteger_exact (text : String) :
  (isInteger text = true ↔ IsIntegerLiteral (text.toList.map asciiLower))
    ∧ isIntegerByOffsets? text = some (isInteger text)
    ∧ ∃ change, integerChanges text = [change] ∧ change.replacement ≠ text
  := ⟨isInteger_iff text, isIntegerByOffsets?_eq text, integerChanges_eq_singleton text⟩

end MutationTesting.Operator
