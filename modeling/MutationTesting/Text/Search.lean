/-!
# Searching a text

`afterStart?` takes a needle off the start of a text, and `firstSplit?` parts a text
around the first occurrence of a needle.
-/

namespace MutationTesting.Text

/-- What follows `needle` in a text that starts with it. -/
def afterStart? : List Char → List Char → Option (List Char)
  | [], cs => some cs
  | _ :: _, [] => none
  | n :: needle, c :: cs => if n = c then afterStart? needle cs else none

theorem afterStart?_eq_some_iff {needle cs rest : List Char} :
  afterStart? needle cs = some rest ↔ cs = needle ++ rest
  := by
  induction needle generalizing cs with
  | nil => simp [afterStart?]
  | cons n needle ih =>
    cases cs with
    | nil => simp [afterStart?]
    | cons c cs =>
      simp only [afterStart?]
      split
      · next h => subst h; simp [ih]
      · next h => simp [Ne.symm h]

/-- The texts before and after the first occurrence of `needle`. -/
def firstSplit? (needle : List Char) : List Char → Option (List Char × List Char)
  | [] => (afterStart? needle []).map fun rest => ([], rest)
  | c :: cs =>
    match afterStart? needle (c :: cs) with
    | some rest => some ([], rest)
    | none => (firstSplit? needle cs).map fun (before, after) => (c :: before, after)

theorem eq_append_of_firstSplit? {needle cs before after : List Char}
    (h : firstSplit? needle cs = some (before, after)) :
  cs = before ++ needle ++ after
  := by
  induction cs generalizing before after with
  | nil =>
    obtain ⟨rest, hr, he⟩ := Option.map_eq_some_iff.1 h
    cases he
    simpa using afterStart?_eq_some_iff.1 hr
  | cons c cs ih =>
    simp only [firstSplit?] at h
    split at h
    · next rest hr => cases h; simpa using afterStart?_eq_some_iff.1 hr
    · obtain ⟨⟨a, b⟩, hab, he⟩ := Option.map_eq_some_iff.1 h
      cases he
      simp [ih hab]

/-- Whether `needle` occurs in a text. -/
def occursIn (needle cs : List Char) : Bool := (firstSplit? needle cs).isSome

/-- Whether a text ends with `tail`. -/
def endsWith (tail cs : List Char) : Bool := (afterStart? tail.reverse cs.reverse).isSome

end MutationTesting.Text
