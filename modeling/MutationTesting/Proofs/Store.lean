import MutationTesting.Proofs.Procedure.Asks
import MutationTesting.Store

/-!
# What storing a record asks for

A record is stored by making the directory that its file is going to be in and writing the file.
What is found in a catalog is one of its mutations.
-/

namespace MutationTesting.Store

open Procedure

variable {Q : Request → Prop} {path : String}

theorem asks_makeParent (hmake : ∀ parent, Path.parent? path = some parent → parent ≠ "" →
    Q (.file (.makeDirectories parent))) :
  (makeParent path).Asks Q
  := by
  rw [makeParent]
  split
  · trivial
  · trivial
  · next parent hne hparent =>
    exact ⟨hmake parent hparent hne, fun _ => trivial⟩

theorem asks_save {json : Json} (hmake : ∀ parent, Path.parent? path = some parent →
    parent ≠ "" → Q (.file (.makeDirectories parent)))
    (hwrite : ∀ text, Q (.file (.write path text))) :
  (save path json).Asks Q
  := by
  apply (asks_makeParent hmake).bind
  rintro (e | _)
  · trivial
  · refine Asks.request (hwrite _) fun a => ?_
    cases a <;> trivial

theorem mem_of_findMutation {mutations : List Mutation} {id : String} {m : Mutation}
    (h : findMutation mutations id = .ok m) :
  m ∈ mutations
  := by
  rw [findMutation] at h
  split at h
  · next hfind =>
    cases h
    apply List.mem_of_find?_eq_some hfind
  · cases h

/-- A mutation of a catalog has an id under which one is found. -/
theorem exists_findMutation {mutations : List Mutation} {m : Mutation} (hm : m ∈ mutations) :
  ∃ m', findMutation mutations m.id = .ok m'
  := by
  have hsome : (mutations.find? (·.id == m.id)).isSome = true := by
    rw [List.find?_isSome]
    use m, hm
    rw [beq_iff_eq]
  obtain ⟨m', hm'⟩ := Option.isSome_iff_exists.mp hsome
  use m'
  rw [findMutation, hm']

end MutationTesting.Store
