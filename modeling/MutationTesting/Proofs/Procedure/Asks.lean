import MutationTesting.Proofs.Procedure.Run

/-!
# What a procedure asks for and gives

A procedure `Asks` only for some requests if all that it may ever make are among them,
whatever they are answered, and `Gives` only some values if it ends in no others. One that
never asks the test oracle is not changed by `withOracle`, and what no request of some kind
changes, a procedure that asks only for such requests keeps.
-/

namespace MutationTesting

/-- Whether a request is a question to the test oracle. -/
def Request.isConsultation : Request → Bool
  | .consult _ _ => true
  | _ => false

namespace Procedure

variable {σ α β : Type} {w : World σ} {Q Q' : Request → Prop} {p q : Procedure α}
  {f : α → Procedure β} {oracle : String → Duration → Procedure (Except String Outcome)}
  {events : List Event} {s s' : σ}

/-- All requests that a procedure may make have a property. -/
def Asks (Q : Request → Prop) : Procedure α → Prop
  | done _ => True
  | ask request next => Q request ∧ ∀ a, Asks Q (next a)

/-- All values that a procedure may end with have a property. -/
def Gives (R : α → Prop) : Procedure α → Prop
  | done value => R value
  | ask _ next => ∀ a, Gives R (next a)

namespace Asks

theorem pure (value : α) :
  Asks Q (pure value)
  := trivial

theorem mono (hQ : ∀ request, Q request → Q' request) (h : p.Asks Q) :
  p.Asks Q'
  := by
  induction p with
  | done value => trivial
  | ask request next ih =>
    use hQ _ h.1
    intro a
    apply ih a (h.2 a)

theorem bind (h : p.Asks Q) (hf : ∀ value, (f value).Asks Q) :
  (p >>= f).Asks Q
  := by
  induction p with
  | done value => apply hf
  | ask request next ih =>
    use h.1
    intro a
    apply ih a (h.2 a)

/-- What follows a procedure is only followed from the values that it gives. -/
theorem bind_of_gives {R : α → Prop} (h : p.Asks Q) (hR : p.Gives R)
    (hf : ∀ value, R value → (f value).Asks Q) :
  (p >>= f).Asks Q
  := by
  induction p with
  | done value => apply hf value hR
  | ask request next ih =>
    use h.1
    intro a
    apply ih a (h.2 a) (hR a)

theorem request {r : Request} {f : r.Answer → Procedure β} (hr : Q r) (hf : ∀ a, (f a).Asks Q) :
  (Procedure.request r >>= f).Asks Q
  := ⟨hr, hf⟩

/-- The requests of a run are among those that a procedure asks for. -/
theorem of_mem (h : p.Asks Q) (hreach : Reaches w p s events q s') {event : Event}
    (hmem : event ∈ events) :
  Q event.1
  := by
  induction hreach with
  | refl => cases hmem
  | step _ _ ih =>
    cases hmem with
    | head => apply h.1
    | tail _ hmem => apply ih (h.2 _) hmem

/-- What is reached in one world is reached in another one, where all requests that a procedure asks
for are answered alike. -/
theorem reaches {w' : World σ} (h : p.Asks Q)
    (hw : ∀ r s a s', Q r → w r s a s' → w' r s a s') (hreach : Reaches w p s events q s') :
  Reaches w' p s events q s'
  := by
  induction hreach with
  | refl => apply Reaches.refl
  | step hanswer _ ih =>
    apply Reaches.step (hw _ _ _ _ h.1 hanswer)
    apply ih (h.2 _)

/-- What every request of some kind ensures, a procedure ensures that asks for no others. -/
theorem ensures {step : σ → Event → σ → Prop} {I : σ → Prop} (h : p.Asks Q)
    (hstep : ∀ r s a s', Q r → w r s a s' → I s → step s ⟨r, a⟩ s' ∧ I s') (hs : I s) :
  Ensures w Eq step (fun _ s => I s) p s
  := by
  induction p generalizing s with
  | done value =>
    rintro _ rfl
    apply hs
  | ask request next ih =>
    rintro _ rfl a s' hanswer
    obtain ⟨hfirst, hs'⟩ := hstep _ _ _ _ h.1 hanswer hs
    use hfirst
    apply ih a (h.2 a) hs'

/-- What every request of some kind keeps goes along with a procedure that asks for no other
requests. -/
theorem ensures_and {step : σ → Event → σ → Prop} {post : α → σ → Prop} {I : σ → Prop}
    (h : p.Asks Q) (hI : ∀ r s a s', Q r → w r s a s' → I s → I s') (hs : I s)
    (hensures : Ensures w Eq step post p s) :
  Ensures w Eq (fun s event s' => Q event.1 ∧ I s ∧ I s' ∧ step s event s')
    (fun value s => I s ∧ post value s) p s
  := by
  induction p generalizing s with
  | done value =>
    rintro _ rfl
    use hs
    apply hensures s rfl
  | ask request next ih =>
    rintro _ rfl a s' hstep
    obtain ⟨hfirst, hrest⟩ := hensures s rfl a s' hstep
    have hs' := hI _ _ _ _ h.1 hstep hs
    use ⟨h.1, hs, hs', hfirst⟩
    apply ih a (h.2 a) hs' hrest

end Asks

namespace Gives

variable {R : α → Prop} {R' : β → Prop}

theorem bind (h : p.Gives R) (hf : ∀ value, R value → (f value).Gives R') :
  (p >>= f).Gives R'
  := by
  induction p with
  | done value => apply hf value h
  | ask request next ih => exact fun a => ih a (h a)

theorem of_forall (h : ∀ value, R value) :
  p.Gives R
  := by
  induction p with
  | done value => apply h
  | ask request next ih => exact fun a => ih a

/-- The value at the end of a run is among those that a procedure gives. -/
theorem of_runs (h : p.Gives R) {value : α} (hruns : Runs w p s events value s') :
  R value
  := by
  induction p generalizing s events with
  | done value' =>
    obtain ⟨-, rfl, -⟩ := runs_done_iff.mp hruns
    apply h
  | ask request next ih =>
    obtain ⟨a, s₁, rest, -, hrest, -⟩ := runs_ask_iff.mp hruns
    apply ih a (h a) hrest

end Gives

/-! ### Answering the questions to the oracle -/

theorem withOracle_bind :
  (p >>= f).withOracle oracle = p.withOracle oracle >>= fun value => (f value).withOracle oracle
  := by
  induction p with
  | done value => rfl
  | ask request next ih =>
    cases request with
    | consult scope limit =>
      simp only [ask_bind, withOracle, ih, bind_assoc]
    | file | launch | isInterrupted | clock | print =>
      simp only [ask_bind, withOracle, ih]

/-- A procedure that does not ask the oracle is not changed by giving it one. -/
theorem withOracle_of_asks (h : p.Asks fun request => request.isConsultation = false) :
  p.withOracle oracle = p
  := by
  induction p with
  | done value => rfl
  | ask request next ih =>
    cases request with
    | consult scope limit => cases h.1
    | file | launch | isInterrupted | clock | print =>
      rw [withOracle]
      · congr
        funext a
        apply ih a (h.2 a)
      · simp

/-- What a procedure ensures, it ensures with an oracle that does no more than a test oracle may
do, where the steps of a test oracle are as they should be. -/
theorem Ensures.withOracle {step : σ → Event → σ → Prop} {post : α → σ → Prop}
    (horacle : ∀ scope limit s,
      (∀ a s', w (.consult scope limit) s a s' → step s ⟨.consult scope limit, a⟩ s') →
      Ensures w Eq step (fun a s' => w (.consult scope limit) s a s') (oracle scope limit) s)
    (h : Ensures w Eq step post p s) :
  Ensures w Eq step post (p.withOracle oracle) s
  := by
  induction p generalizing s with
  | done value => apply h
  | ask request next ih =>
    cases request with
    | consult scope limit =>
      apply Ensures.bind (fun _ => rfl)
      apply (horacle scope limit s fun a s' hanswer => (h s rfl a s' hanswer).1).mono
      intro a s' hanswer
      apply ih a (h s rfl a s' hanswer).2
    | file | launch | isInterrupted | clock | print =>
      rw [Procedure.withOracle]
      · rintro _ rfl a s' hanswer
        obtain ⟨hstep, hrest⟩ := h s rfl a s' hanswer
        use hstep
        apply ih a hrest
      · simp

/-- With an oracle a procedure asks for what it asks otherwise and for what the oracle asks. -/
theorem Asks.withOracle (h : p.Asks fun request => request.isConsultation = true ∨ Q request)
    (horacle : ∀ scope limit, (oracle scope limit).Asks Q) :
  (p.withOracle oracle).Asks Q
  := by
  induction p with
  | done value => trivial
  | ask request next ih =>
    cases request with
    | consult scope limit =>
      apply (horacle scope limit).bind
      intro a
      apply ih a (h.2 a)
    | file | launch | isInterrupted | clock | print =>
      rw [Procedure.withOracle]
      · use h.1.resolve_left (by simp [Request.isConsultation])
        intro a
        apply ih a (h.2 a)
      · simp

end Procedure

end MutationTesting
