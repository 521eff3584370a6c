import Mathlib.Data.List.Nodup
import MutationTesting.Proofs.Json.Floats
import MutationTesting.Proofs.Json.Printed
import MutationTesting.Record

/-!
# Records read back

What a record is printed as is read as that record again. Of a result only the time is read as a
number of its own, whatever number its digits stand for; the kind and the difference that are left
out are put back.
-/

namespace MutationTesting.Record

open Json

/-! ### Records are plain values -/

theorem plain_ofNat (n : Nat) :
  (Json.ofNat n).Plain
  := by
  rw [Json.ofNat, ← String.ofList_toList (s := toString n), ← Numeral.text_ofNat]
  apply Plain.number

theorem plain_ofFloat (f : Float) :
  (Json.ofFloat f).Plain
  := by
  rw [Json.ofFloat]
  cases htext : Decimal.shortest? f with
  | none => exact Plain.null
  | some text =>
    obtain ⟨n, hn⟩ := Decimal.exists_numeral_of_shortest? htext
    rw [Option.map_some, Option.getD_some, ← String.ofList_toList (s := text), ← hn]
    apply Plain.number

theorem plain_ofMutation (m : Mutation) :
  (ofMutation m).Plain
  := by
  apply Plain.object
  simp only [List.forall_mem_cons, List.not_mem_nil, false_implies, implies_true, and_true]
  simp [Plain.string, plain_ofNat]

theorem plain_ofResult (r : TestResult) :
  (ofResult r).Plain
  := by
  apply Plain.object
  simp only [List.forall_mem_append, List.forall_mem_cons, List.not_mem_nil, false_implies,
    implies_true, and_true]
  simp [Plain.string, plain_ofNat, plain_ofFloat]

theorem plain_ofCatalog (mutations : List Mutation) :
  (ofCatalog mutations).Plain
  := by
  apply Plain.array
  rw [List.forall_mem_map]
  exact fun m _ => plain_ofMutation m

/-! ### Reading -/

/-- The fields of an object are found by their names if no name is repeated. -/
theorem fields?_object {pairs : List (String × Json)} (h : (pairs.map (·.1)).Nodup)
    (names : List String) :
  fields? names (.object pairs) = some (names.map (Json.field? (.object pairs)))
  := by
  rw [fields?, if_neg]
  rw [List.any_eq_true]
  rintro ⟨name, -, hname⟩
  have hcount : pairs.countP (·.1 == name) = (pairs.map (·.1)).count name := by
    rw [List.count, List.countP_map]
    rfl
  have honce := List.nodup_iff_count_le_one.mp h name
  rw [decide_eq_true_eq, hcount] at hname
  omega

theorem kind?_none :
  kind? none = some none
  := rfl

theorem kind?_name (kind : MutationKind) :
  kind? (some (.string kind.name)) = some (some kind)
  := by
  rw [kind?, name?, Option.bind_some, MutationKind.ofName?_name]
  · rfl
  · nofun

/-- A mutation is read back from its record. -/
theorem mutation?_ofMutation {m : Mutation} (hline : m.line ≤ Text.maxWord)
    (hcolumn : m.column ≤ Text.maxWord) :
  mutation? (ofMutation m) = some m
  := by
  rw [mutation?, ofMutation, fields?_object (by simp)]
  simp [mutationFields, Json.field?, text?, name?, natural?_ofNat, hline, hcolumn,
    MutationKind.ofName?_name, Priority.ofName?_name]

/-- A result is read back from its record, whether it has a kind and a difference or not. -/
theorem result?_ofResult {r : TestResult} (hline : r.line ≤ Text.maxWord) :
  result? (ofResult r)
    = (Json.real? (Json.ofFloat r.durationMs)).map fun duration => { r with durationMs := duration }
  := by
  obtain ⟨id, status, duration, output, description, file, line, kind, diff⟩ := r
  rw [result?, ofResult]
  -- What is left out decides which fields there are.
  cases kind <;> by_cases hdiff : diff = ""
  all_goals
    rw [fields?_object (by simp [hdiff])]
    simp [resultFields, Json.field?, text?, name?, kind?_none, kind?_name, natural?_ofNat, hline,
      Status.ofName?_name, hdiff]
    cases Json.real? (Json.ofFloat duration) <;> rfl

/-- A catalog is read back from its record. -/
theorem list?_ofCatalog {mutations : List Mutation}
    (h : ∀ m ∈ mutations, m.line ≤ Text.maxWord ∧ m.column ≤ Text.maxWord) :
  list? mutation? (ofCatalog mutations) = some mutations
  := by
  rw [ofCatalog, list?, List.mapM_map]
  induction mutations with
  | nil => rfl
  | cons m ms ih =>
    obtain ⟨⟨hline, hcolumn⟩, hms⟩ := List.forall_mem_cons.mp h
    rw [List.mapM_cons, Function.comp_apply, mutation?_ofMutation hline hcolumn, ih hms]
    rfl

end MutationTesting.Record
