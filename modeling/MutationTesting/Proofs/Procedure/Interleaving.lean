import Mathlib.Logic.Function.Basic
import MutationTesting.Proofs.Procedure.Run

/-!
# Two procedures at once

Two processes each run a procedure on a state that they share, and their requests are
answered one at a time in any order. `Procedure.Interleaves` tells what is left of both after
a `History`. If each procedure keeps a condition that relies on no more than the other one
ensures, then both conditions go along with every interleaving.
-/

namespace MutationTesting

/-- Requests with their answers, each with the process that made it. -/
abbrev History := List (Bool × Event)

/-- The requests of one process. -/
def History.of (history : History) (b : Bool) : List Event :=
  (history.filter (·.1 == b)).map (·.2)

namespace History

variable {history more : History} {b c : Bool} {event : Event}

@[simp] theorem of_append :
  (history ++ more).of b = history.of b ++ more.of b
  := by
  simp [of]

@[simp] theorem of_single_same :
  History.of [(b, event)] b = [event]
  := by
  simp [of]

theorem mem_of_iff :
  event ∈ history.of b ↔ (b, event) ∈ history
  := by
  simp [of]

theorem of_eq_nil (h : ∀ entry ∈ history, entry.1 = !b) :
  history.of b = []
  := by
  simp only [of, List.map_eq_nil_iff, List.filter_eq_nil_iff]
  intro entry hentry
  simp [h entry hentry]

end History

/-- A world where the requests of a process are noted in a history. -/
def World.noted {σ : Type} (w : World σ) (b : Bool) : World (History × σ) := fun request s a s' =>
  ∃ t, w request s.2 a t ∧ s' = (s.1 ++ [(b, ⟨request, a⟩)], t)

namespace Procedure

variable {σ α : Type} {w : World σ} {p q : Bool → Procedure α} {s s' : σ} {history : History}

/-- The requests of two processes in some order lead to what is left of their procedures in
another state. -/
inductive Interleaves (w : World σ) (p : Bool → Procedure α) (s : σ) :
    History → (Bool → Procedure α) → σ → Prop where
  | refl : Interleaves w p s [] p s
  | step {history : History} {q : Bool → Procedure α} {b : Bool} {request : Request}
      {next : request.Answer → Procedure α} {a : request.Answer} {s' s'' : σ} :
      Interleaves w p s history q s' → q b = ask request next → w request s' a s'' →
      Interleaves w p s (history ++ [(b, ⟨request, a⟩)]) (Function.update q b (next a)) s''

/-- Conditions go along with an interleaving where what each process ensures is what the
other one relies on. What every step keeps is kept as well. -/
theorem Interleaves.sound (rely : Bool → History × σ → History × σ → Prop)
    {step : Bool → History × σ → Event → History × σ → Prop} {post : Bool → α → History × σ → Prop}
    {I : History × σ → Prop} (hrefl : ∀ b s, rely b s s)
    (htrans : ∀ b s s' s'', rely b s s' → rely b s' s'' → rely b s s'')
    (hrely : ∀ b s event s', step b s event s' → rely (!b) s s')
    (hI : ∀ b s event s', step b s event s' → I s → I s')
    (hp : ∀ b, Ensures (w.noted b) (rely b) (step b) (post b) (p b) ([], s)) (hs : I ([], s))
    (h : Interleaves w p s history q s') :
  (∀ b, Ensures (w.noted b) (rely b) (step b) (post b) (q b) (history, s')) ∧ I (history, s')
  := by
  induction h with
  | refl => use hp
  | @step history q b request next a s' s'' _ hq hstep ih =>
    obtain ⟨hensures, hinvariant⟩ := ih
    have hmoving := hensures b
    rw [hq] at hmoving
    obtain ⟨hguarantee, hnext⟩ := hmoving _ (hrefl _ _) a _ ⟨s'', hstep, rfl⟩
    constructor
    · intro c
      by_cases hc : c = b
      · subst hc
        rw [Function.update_self]
        apply hnext
      · rw [Function.update_of_ne hc]
        apply (hensures c).of_rely (htrans c)
        rw [Bool.eq_not_of_ne hc]
        apply hrely _ _ _ _ hguarantee
    · apply hI _ _ _ _ hguarantee hinvariant

/-! ### Schedules -/

/-- The value of a procedure that has ended. -/
def value? : Procedure α → Option α
  | done value => some value
  | ask _ _ => none

theorem value?_eq_some_iff {p : Procedure α} {value : α} :
  p.value? = some value ↔ p = done value
  := by
  cases p <;> simp [value?]

/-- The history of two processes whose turns come in an order, with what is then left of them
and the state. -/
def schedule (answer : (request : Request) → σ → request.Answer × σ) :
    List Bool → (Bool → Procedure α) → σ → History × (Bool → Procedure α) × σ
  | [], p, s => ([], p, s)
  | b :: turns, p, s =>
    match p b with
    | done _ => schedule answer turns p s
    | ask request next =>
      let (a, s) := answer request s
      let (history, rest) := schedule answer turns (Function.update p b (next a)) s
      ((b, ⟨request, a⟩) :: history, rest)

theorem Interleaves.trans {p' : Bool → Procedure α} {s'' : σ} {more : History}
    (h : Interleaves w p s history q s') (h' : Interleaves w q s' more p' s'') :
  Interleaves w p s (history ++ more) p' s''
  := by
  induction h' with
  | refl =>
    rw [List.append_nil]
    apply h
  | step _ hq hstep ih =>
    rw [← List.append_assoc]
    apply Interleaves.step ih hq hstep

/-- Whatever the order of the turns, they are one of the interleavings. -/
theorem interleaves_schedule (answer : (request : Request) → σ → request.Answer × σ)
    (hw : ∀ request s a s', World.ofAnswer answer request s a s' → w request s a s')
    (turns : List Bool) (p : Bool → Procedure α) (s : σ) :
  Interleaves w p s (schedule answer turns p s).1 (schedule answer turns p s).2.1
    (schedule answer turns p s).2.2
  := by
  induction turns generalizing p s with
  | nil => apply Interleaves.refl
  | cons b turns ih =>
    rw [schedule]
    split
    · apply ih
    · next request next hp =>
      have hstep := Interleaves.refl.step hp (hw _ s _ _ rfl)
      apply hstep.trans (ih _ _)

end Procedure

end MutationTesting
