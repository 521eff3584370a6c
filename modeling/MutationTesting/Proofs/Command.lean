import MutationTesting.CommandLine.Failure
import MutationTesting.Proofs.Procedure.Asks

/-!
# Conditions on commands

A command is a procedure that may end with a failure, after which the commands that would have
followed it are skipped. What it asks for and what it ensures is told along its steps as for
procedures.
-/

namespace MutationTesting.CommandLine.Command

open Procedure

variable {σ α β ε : Type} {w : World σ} {Q : Request → Prop} {step : σ → Event → σ → Prop}
  {c : Command α} {f : α → Command β} {p : Procedure α} {s : σ}

theorem run_bind :
  (c >>= f).run = c.run >>= fun
    | .ok value => (f value).run
    | .error e => pure (.error e)
  := by
  apply congrArg (Procedure.bind c.run)
  funext result
  cases result <;> rfl

theorem run_lift :
  (liftM p : Command α).run = p >>= fun value => pure (.ok value)
  := rfl

theorem run_lift_bind {f : α → Command β} :
  ((liftM p : Command α) >>= f).run = p >>= fun value => (f value).run
  := by
  rw [run_bind, run_lift, bind_assoc]
  rfl

/-! ### What commands ask for -/

theorem asks_bind (hc : c.run.Asks Q) (hf : ∀ value, (f value).run.Asks Q) :
  (c >>= f).run.Asks Q
  := by
  rw [run_bind]
  apply hc.bind
  rintro (e | value)
  · trivial
  · apply hf

theorem asks_attempt {explain : ε → Failure} {p : Procedure (Except ε α)} (h : p.Asks Q) :
  (attempt explain p).run.Asks Q
  := h.bind fun _ => trivial

theorem asks_lift (h : p.Asks Q) :
  (liftM p : Command α).run.Asks Q
  := h.bind fun _ => trivial

theorem asks_say {message : Message} (h : Q (.print message)) :
  (say message).run.Asks Q
  := asks_lift ⟨h, fun _ => trivial⟩

/-! ### What commands ensure -/

/-- After a command goes on what follows its value, and a failure ends everything. -/
theorem ensures_bind {post : Except Failure β → σ → Prop}
    (h : Ensures w Eq step (fun result s => match result with
      | .ok value => Ensures w Eq step post (f value).run s
      | .error e => post (.error e) s) c.run s) :
  Ensures w Eq step post (c >>= f).run s
  := by
  rw [run_bind]
  apply Ensures.bind (fun _ => rfl)
  apply h.mono
  rintro (e | value) s' hs'
  · rintro _ rfl
    apply hs'
  · apply hs'

theorem ensures_attempt {explain : ε → Failure} {p : Procedure (Except ε α)}
    {post : Except Failure α → σ → Prop}
    (h : Ensures w Eq step (fun result s => post (result.mapError explain) s) p s) :
  Ensures w Eq step post (attempt explain p).run s
  := by
  apply Ensures.bind (fun _ => rfl)
  apply h.mono
  rintro result s' hs' _ rfl
  apply hs'

theorem ensures_lift {post : Except Failure α → σ → Prop}
    (h : Ensures w Eq step (fun value s => post (.ok value) s) p s) :
  Ensures w Eq step post (liftM p : Command α).run s
  := by
  apply Ensures.bind (fun _ => rfl)
  apply h.mono
  rintro value s' hs' _ rfl
  apply hs'

end MutationTesting.CommandLine.Command
