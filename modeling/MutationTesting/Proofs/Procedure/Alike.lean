import MutationTesting.Proofs.Procedure.Asks

/-!
# Procedures that run alike

Two procedures are `Alike` for a relation between states if, from related states, they end with
related values and in related states. They are put together like procedures: requests that are
answered alike may be followed by procedures that are alike. Where a world answers every request,
a procedure has a run.
-/

namespace MutationTesting.Procedure

variable {σ α β γ δ : Type} {w : World σ} {S : σ → σ → Prop} {E : α → β → Prop}
  {E' : γ → δ → Prop} {p : Procedure α} {q : Procedure β} {f : α → Procedure γ}
  {g : β → Procedure δ}

/-- From related states two procedures end with related values and in related states. -/
def Alike (w : World σ) (S : σ → σ → Prop) (E : α → β → Prop) (p : Procedure α)
    (q : Procedure β) : Prop :=
  ∀ ⦃s t events a s'⦄, S s t → Runs w p s events a s' → ∀ ⦃events' b t'⦄,
    Runs w q t events' b t' → E a b ∧ S s' t'

namespace Alike

theorem pure {a : α} {b : β} (h : E a b) :
  Alike w S E (pure a) (pure b)
  := by
  intro s t events a' s' hst hs events' b' t' ht
  obtain ⟨-, rfl, rfl⟩ := runs_pure_iff.mp hs
  obtain ⟨-, rfl, rfl⟩ := runs_pure_iff.mp ht
  use h

theorem mono {E₁ : α → β → Prop} (hE : ∀ a b, E a b → E₁ a b) (h : Alike w S E p q) :
  Alike w S E₁ p q
  := by
  intro s t events a s' hst hs events' b t' ht
  obtain ⟨hab, hst'⟩ := h hst hs ht
  use hE a b hab

/-- What follows procedures that are alike only follows the values that the first of them
gives. -/
theorem bind_of_gives {R : α → Prop} (h : Alike w S E p q) (hR : p.Gives R)
    (hfg : ∀ a b, R a → E a b → Alike w S E' (f a) (g b)) :
  Alike w S E' (p >>= f) (q >>= g)
  := by
  intro s t events c s' hst hs events' e t' ht
  obtain ⟨_, a, s₁, _, hp, hf, -⟩ := runs_bind_iff.mp hs
  obtain ⟨_, b, t₁, _, hq, hg, -⟩ := runs_bind_iff.mp ht
  obtain ⟨hab, hst₁⟩ := h hst hp hq
  apply hfg a b (hR.of_runs hp) hab hst₁ hf hg

theorem bind (h : Alike w S E p q) (hfg : ∀ a b, E a b → Alike w S E' (f a) (g b)) :
  Alike w S E' (p >>= f) (q >>= g)
  := bind_of_gives h (Gives.of_forall fun _ => trivial) fun a b _ => hfg a b

/-- Requests that are answered in related ways may be followed by procedures that are alike for
such answers. -/
theorem ask {r : Request} {f : r.Answer → Procedure γ} {g : r.Answer → Procedure δ}
    (A : r.Answer → r.Answer → Prop)
    (hr : ∀ ⦃s t a s' b t'⦄, S s t → w r s a s' → w r t b t' → A a b ∧ S s' t')
    (hfg : ∀ a b, A a b → Alike w S E' (f a) (g b)) :
  Alike w S E' (Procedure.request r >>= f) (Procedure.request r >>= g)
  := by
  intro s t events c s' hst hs events' e t' ht
  obtain ⟨a, s₁, _, ha, hf, -⟩ := runs_request_iff.mp hs
  obtain ⟨b, t₁, _, hb, hg, -⟩ := runs_request_iff.mp ht
  obtain ⟨hab, hst₁⟩ := hr hst ha hb
  apply hfg a b hab hst₁ hf hg

/-- A request that is answered in the same way may be followed by procedures that are alike. -/
theorem request {r : Request} {f : r.Answer → Procedure γ} {g : r.Answer → Procedure δ}
    (hr : ∀ ⦃s t a s' b t'⦄, S s t → w r s a s' → w r t b t' → a = b ∧ S s' t')
    (hfg : ∀ a, Alike w S E' (f a) (g a)) :
  Alike w S E' (Procedure.request r >>= f) (Procedure.request r >>= g)
  := by
  apply ask Eq hr
  rintro a _ rfl
  apply hfg

/-- Procedures that only make requests which keep the relation run alike, whatever they end
with. -/
theorem of_asks {Q : Request → Prop} (hp : p.Asks Q) (hq : q.Asks Q)
    (hleft : ∀ ⦃r s a s' t⦄, Q r → w r s a s' → S s t → S s' t)
    (hright : ∀ ⦃r t b t' s⦄, Q r → w r t b t' → S s t → S s t') :
  Alike w S (fun _ _ => True) p q
  := by
  intro s t events a s' hst hs events' b t' ht
  use trivial
  have hst' : S s' t :=
    (hp.ensures (fun r _ _ _ hr hanswer hst => ⟨trivial, hleft hr hanswer hst⟩)
      hst : Ensures w Eq (fun _ _ _ => True) (fun _ s => S s t) p s).post_of_runs (fun _ => rfl) hs
  exact (hq.ensures (fun r _ _ _ hr hanswer hst => ⟨trivial, hright hr hanswer hst⟩)
    hst' : Ensures w Eq (fun _ _ _ => True) (fun _ t => S s' t) q t).post_of_runs (fun _ => rfl) ht

end Alike

/-- Where every request is answered, a procedure comes to an end. -/
theorem exists_runs (htotal : ∀ r s, ∃ a s', w r s a s') (p : Procedure α) (s : σ) :
  ∃ events value s', Runs w p s events value s'
  := by
  induction p generalizing s with
  | done value => exact ⟨[], value, s, .refl⟩
  | ask r next ih =>
    obtain ⟨a, s₁, hanswer⟩ := htotal r s
    obtain ⟨events, value, s', hruns⟩ := ih a s₁
    exact ⟨⟨r, a⟩ :: events, value, s', .step hanswer hruns⟩

end MutationTesting.Procedure
