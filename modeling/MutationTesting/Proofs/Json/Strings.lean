import Mathlib.Data.List.Basic
import Mathlib.Tactic.Common
import Mathlib.Tactic.IntervalCases
import MutationTesting.Json.Printer
import MutationTesting.Json.Reader

/-!
# Strings as they are printed

A text is printed between quotes, each of its characters as `Json.escape` has it. Reading such a
character gives it back, whatever follows, so the text is read back up to the closing quote.
-/

namespace MutationTesting.Json

/-- A character as it is written in a string. -/
def escape (c : Char) : List Char :=
  if c = '"' then ['\\', '"']
  else if c = '\\' then ['\\', '\\']
  else if c.toNat < 0x20 then (escapeControl c).toList
  else [c]

theorem toList_printString (text : String) :
  (printString text).toList = '"' :: text.toList.flatMap escape ++ ['"']
  := by
  have hfold : ∀ cs : List Char, ∀ out : String, (cs.foldl (fun out c =>
      if c = '"' then out ++ "\\\""
      else if c = '\\' then out ++ "\\\\"
      else if c.toNat < 0x20 then out ++ escapeControl c
      else out.push c) out).toList = out.toList ++ cs.flatMap escape := by
    intro cs
    induction cs with
    | nil => simp
    | cons c cs ih =>
      intro out
      rw [List.foldl_cons, ih, List.flatMap_cons, ← List.append_assoc]
      congr 1
      unfold escape
      split_ifs <;> simp
  rw [printString, String.foldl_eq_foldl_toList, String.toList_append, hfold]
  simp

/-- The control characters are read back. -/
theorem stringRest?_escapeControl {c : Char} (h : c.toNat < 0x20) (units : List CodeUnit)
    (rest : List Char) :
  stringRest? units ((escapeControl c).toList ++ rest) = stringRest? (.char c :: units) rest
  := by
  obtain ⟨n, hn, rfl⟩ : ∃ n < 0x20, c = Char.ofNat n := ⟨c.toNat, h, (Char.ofNat_toNat c).symm⟩
  interval_cases n <;> rfl

/-- A character is read back, whatever follows. -/
theorem stringRest?_escape (units : List CodeUnit) (c : Char) (rest : List Char) :
  stringRest? units (escape c ++ rest) = stringRest? (.char c :: units) rest
  := by
  unfold escape
  split_ifs with hquote hbackslash hcontrol
  · subst hquote
    rfl
  · subst hbackslash
    rfl
  · apply stringRest?_escapeControl hcontrol
  · rw [List.singleton_append, stringRest?.eq_def]
    split <;> simp_all

/-- The characters of a text are read back up to the closing quote. -/
theorem stringRest?_flatMap_escape (units : List CodeUnit) (cs rest : List Char) :
  stringRest? units (cs.flatMap escape ++ '"' :: rest)
    = some ((cs.map CodeUnit.char).reverse ++ units, rest)
  := by
  induction cs generalizing units with
  | nil => rfl
  | cons c cs ih =>
    rw [List.flatMap_cons, List.append_assoc, stringRest?_escape, ih]
    simp

/-- Characters that were read are a text. -/
theorem textOf?_reverse_map_char (cs : List Char) :
  textOf? (cs.map CodeUnit.char).reverse = some (String.ofList cs)
  := by
  rw [textOf?, List.foldl_reverse]
  induction cs with
  | nil => rfl
  | cons c cs ih =>
    obtain ⟨chars, hchars, heq⟩ := Option.map_eq_some_iff.mp ih
    obtain rfl := String.ofList_inj.mp heq
    rw [List.map_cons, List.foldr_cons, hchars]
    rfl

/-- A text is read back from its printed form after the opening quote. -/
theorem stringRest?_printString (text : String) (rest : List Char) :
  ∃ units, stringRest? [] (text.toList.flatMap escape ++ '"' :: rest) = some (units, rest)
    ∧ textOf? units = some text
  := by
  use (text.toList.map CodeUnit.char).reverse
  rw [stringRest?_flatMap_escape, List.append_nil, textOf?_reverse_map_char, String.ofList_toList]
  exact ⟨rfl, rfl⟩

end MutationTesting.Json
