import Mathlib.Data.List.TakeWhile
import Mathlib.Tactic.Common
import MutationTesting.Operator

/-!
# String literals

A `StringLiteral` has letters and hash signs in front of its quotes, and a content between them.
`stringChanges_text` says what it changes to: nothing if its content consists of quotes, and else
the empty literal of the class that its first letter tells. It `IsEmptied` if only an empty content
is left alone and the class is told by all letters.
-/

namespace MutationTesting

open Operator

/-- A string literal. Nothing is asked of its content. -/
structure StringLiteral where
  letters : List Char
  hashes : Nat
  quote : Char
  /-- Whether three quotes stand on each side of the content. -/
  tripled : Bool
  content : List Char
  isAsciiLetter_of_mem : ∀ c ∈ letters, isAsciiLetter c = true
  /-- Only raw strings have hash signs. -/
  raw : 0 < hashes → 'r' ∈ letters ∨ 'R' ∈ letters
  isQuote_quote : isQuote quote = true
  not_tripled : quote = '\x60' → tripled = false

namespace StringLiteral

variable (l : StringLiteral)

/-- How many quotes stand on each side of the content. -/
def quotes : Nat := if l.tripled then 3 else 1

/-- What stands between the hash signs. -/
def quoted : List Char :=
  List.replicate l.quotes l.quote ++ l.content ++ List.replicate l.quotes l.quote

def text : String :=
  String.ofList (l.letters
    ++ (List.replicate l.hashes '#' ++ l.quoted ++ List.replicate l.hashes '#'))

/-- Whether a letter marks a byte string. -/
def isByteMark (c : Char) : Bool := c == 'b' || c == 'B'

/-- The empty literal of the class that the letters tell. -/
def empty : String := if l.letters.any isByteMark then "b\"\"" else "\"\""

/-- A literal with a content changes to the empty literal of its class and to nothing else, and one
without a content does not change. -/
structure IsEmptied : Prop where
  changes_eq_nil_iff : stringChanges l.text = [] ↔ l.content = []
  changes_eq_singleton : l.content ≠ [] →
    ∃ change, stringChanges l.text = [change] ∧ change.replacement = l.empty

variable {l}

theorem isAsciiLetter_quote :
  isAsciiLetter l.quote = false
  := by
  have hquote := l.isQuote_quote
  simp only [isQuote, Bool.or_eq_true, beq_iff_eq] at hquote
  obtain (h | h) | h := hquote <;> rw [h] <;> rfl

theorem quote_ne_hash :
  (l.quote == '#') = false
  := by
  rw [beq_eq_false_iff_ne]
  intro h
  have hquote := l.isQuote_quote
  rw [h] at hquote
  contradiction

/-- Between the hash signs, a literal starts with a quote. -/
theorem exists_quoted_eq_cons :
  ∃ rest, l.quoted = l.quote :: rest
  := by
  unfold quoted quotes
  split
  · exact ⟨_, rfl⟩
  · exact ⟨_, rfl⟩

/-- What follows the letters starts with no letter. -/
theorem exists_bare_eq_cons (back : List Char) :
  ∃ c rest, List.replicate l.hashes '#' ++ l.quoted ++ back = c :: rest
    ∧ isAsciiLetter c = false
  := by
  cases l.hashes with
  | zero =>
    obtain ⟨rest, hrest⟩ := l.exists_quoted_eq_cons
    use l.quote, rest ++ back
    rw [hrest]
    exact ⟨rfl, isAsciiLetter_quote⟩
  | succ hashes => exact ⟨'#', _, rfl, by decide⟩

/-- Without the hash signs in front of it the quoted part comes first. -/
theorem dropWhile_hashes (back : List Char) :
  (List.replicate l.hashes '#' ++ l.quoted ++ back).dropWhile (· == '#') = l.quoted ++ back
  := by
  obtain ⟨rest, hrest⟩ := l.exists_quoted_eq_cons
  rw [List.append_assoc, List.dropWhile_append_of_pos (by simp), hrest, List.cons_append,
    List.dropWhile_cons_of_neg]
  rw [quote_ne_hash]
  simp

/-- From its end, the quoted part is the one of the content from its end. -/
theorem reverse_quoted :
  l.quoted.reverse = { l with content := l.content.reverse : StringLiteral }.quoted
  := by
  simp only [quoted, quotes, List.reverse_append, List.reverse_replicate, List.append_assoc]

theorem all_quoted :
  l.quoted.all isQuote = l.content.all isQuote
  := by
  have hquotes : (List.replicate l.quotes l.quote).all isQuote = true := by
    rw [List.all_eq_true]
    intro c hc
    rw [List.eq_of_mem_replicate hc]
    apply l.isQuote_quote
  rw [quoted, List.all_append, List.all_append, hquotes, Bool.true_and, Bool.and_true]

/-- A literal is taken for an empty one if its content consists of quotes, whichever they are. -/
theorem isEmptyString_text :
  isEmptyString l.text = l.content.all isQuote
  := by
  obtain ⟨c, rest, hbare, hc⟩ := l.exists_bare_eq_cons (List.replicate l.hashes '#')
  have hletters : l.text.toList.dropWhile isAsciiLetter
      = List.replicate l.hashes '#' ++ l.quoted ++ List.replicate l.hashes '#' := by
    rw [text, String.toList_ofList, List.dropWhile_append_of_pos l.isAsciiLetter_of_mem, hbare,
      List.dropWhile_cons_of_neg]
    rw [hc]
    simp
  -- The hash signs at the end come off like those in front, of the literal from its end.
  have hend := { l with content := l.content.reverse : StringLiteral }.dropWhile_hashes []
  rw [← reverse_quoted, List.append_nil, List.append_nil] at hend
  have hne : l.quoted.isEmpty = false := by
    obtain ⟨rest, hrest⟩ := l.exists_quoted_eq_cons
    rw [hrest]
    rfl
  rw [isEmptyString, hletters, dropWhile_hashes, List.reverse_append, List.reverse_replicate]
  dsimp only at hend ⊢
  rw [hend, List.reverse_reverse, hne, all_quoted]
  rfl

/-- The class of a literal is told by its first letter only. -/
theorem any_head?_text :
  (l.text.toList.head?.any fun c => c == 'b' || c == 'B') = l.letters.head?.any isByteMark
  := by
  rw [text, String.toList_ofList]
  cases l.letters with
  | nil =>
    obtain ⟨c, rest, hbare, hc⟩ := l.exists_bare_eq_cons (List.replicate l.hashes '#')
    rw [List.nil_append, hbare]
    change isByteMark c = false
    rw [← Bool.not_eq_true]
    intro hmark
    simp only [isByteMark, Bool.or_eq_true, beq_iff_eq] at hmark
    obtain rfl | rfl := hmark <;> contradiction
  | cons c letters => rfl

theorem any_of_any_head? {letters : List Char} (h : letters.head?.any isByteMark = true) :
  letters.any isByteMark = true
  := by
  cases letters with
  | nil => contradiction
  | cons c letters =>
    rw [List.any_cons, Bool.or_eq_true]
    exact .inl h

/-- What a literal changes to. -/
theorem stringChanges_text :
  stringChanges l.text = if l.content.all isQuote then [] else
    [⟨.constant, if l.letters.head?.any isByteMark then "b\"\"" else "\"\"",
      "Change string to empty", .medium⟩]
  := by
  rw [stringChanges, isEmptyString_text, any_head?_text]

/-- A literal is emptied as its class asks exactly if it is empty, or there is a character in its
content that is no quote and its first letter marks a byte string if any letter does. -/
theorem isEmptied_iff (l : StringLiteral) :
  l.IsEmptied ↔ l.content = []
    ∨ (∃ c ∈ l.content, isQuote c = false)
      ∧ (l.letters.any isByteMark = true → l.letters.head?.any isByteMark = true)
  := by
  constructor
  · intro h
    by_cases hcontent : l.content = []
    · exact .inl hcontent
    · right
      obtain ⟨change, hchange, hreplacement⟩ := h.changes_eq_singleton hcontent
      rw [stringChanges_text] at hchange
      split at hchange
      · contradiction
      · next hall =>
        obtain rfl := List.singleton_inj.mp hchange
        constructor
        · simpa using hall
        · intro hmark
          rw [empty, if_pos hmark] at hreplacement
          by_contra hnone
          rw [if_neg hnone] at hreplacement
          revert hreplacement
          decide
  · rintro (hcontent | ⟨⟨c, hc, hquote⟩, hmark⟩)
    · constructor
      · simp [stringChanges_text, hcontent]
      · intro hne
        contradiction
    · have hall : ¬l.content.all isQuote = true := by
        rw [List.all_eq_true]
        intro hall
        rw [hall c hc] at hquote
        contradiction
      have hclass : l.letters.head?.any isByteMark = l.letters.any isByteMark :=
        Bool.eq_iff_iff.mpr ⟨any_of_any_head?, hmark⟩
      constructor
      · rw [stringChanges_text, if_neg hall]
        simp [List.ne_nil_of_mem hc]
      · intro _
        rw [stringChanges_text, if_neg hall, hclass]
        exact ⟨_, rfl, rfl⟩

/-- An apostrophe between double quotes, and a byte of a raw string whose first letter is that of
raw strings. -/
theorem not_isEmptied :
  let apostrophe : StringLiteral :=
    ⟨[], 0, '"', false, ['\x27'], List.forall_mem_nil _, by decide, by decide, by decide⟩
  let rawByte : StringLiteral :=
    ⟨['r', 'b'], 0, '"', false, ['x'], List.all_eq_true.mp rfl, by decide, by decide, by decide⟩
  apostrophe.text = "\"\x27\"" ∧ apostrophe.quote ∉ apostrophe.content ∧ ¬apostrophe.IsEmptied
    ∧ rawByte.text = "rb\"x\"" ∧ rawByte.quote ∉ rawByte.content ∧ ¬rawByte.IsEmptied
  := by
  intro apostrophe rawByte
  refine ⟨by decide, by decide, ?_, by decide, by decide, ?_⟩
  · intro h
    have hnone := h.changes_eq_nil_iff.mp (by decide)
    contradiction
  · intro h
    obtain ⟨change, hchange, hreplacement⟩ := h.changes_eq_singleton (by decide)
    have hplain : stringChanges rawByte.text
        = [⟨.constant, "\"\"", "Change string to empty", .medium⟩] := by
      decide
    rw [hplain] at hchange
    obtain rfl := List.singleton_inj.mp hchange
    revert hreplacement
    decide

end StringLiteral

end MutationTesting
