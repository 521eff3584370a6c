import Mathlib.Tactic.Common
import MutationTesting.Procedure

/-!
# Runs of procedures

A `World` says what a request may be answered and what that may make of a state, so that it
can leave more than one thing open. `Procedure.Reaches` tells what is left of a procedure
after some of its requests have been answered, and `Procedure.Runs` how it may end.
`Procedure.Ensures` is a condition on a procedure by which everything that it reaches can be
judged: it is built up along the procedure and holds along every run.

`World.logged` is a world that keeps a log of what was asked and answered, and in which only
those answers are given that leave a fair log. What a procedure reaches with fair logs, it
reaches in the logged world, and what it ensures without a log, it ensures with one.
-/

namespace MutationTesting

/-- What a request may be answered in a state, and the states that may follow. -/
abbrev World (σ : Type) := (request : Request) → σ → request.Answer → σ → Prop

/-- A request with the answer that it got. -/
abbrev Event := (request : Request) × request.Answer

/-- The world that answers as a function does. -/
def World.ofAnswer {σ : Type} (answer : (request : Request) → σ → request.Answer × σ) :
    World σ :=
  fun request s a s' => answer request s = (a, s')

/-- A world with a log of its requests and answers, of which only fair ones go on. -/
def World.logged {σ : Type} (w : World σ) (fair : List Event → Prop) : World (List Event × σ) :=
  fun request s a s' => w request s.2 a s'.2 ∧ s'.1 = s.1 ++ [⟨request, a⟩] ∧ fair s'.1

namespace Procedure

variable {σ α β : Type} {w w' : World σ}

/-- From a procedure in a state, requests with their answers lead to the rest of the
procedure in another state. -/
inductive Reaches (w : World σ) : Procedure α → σ → List Event → Procedure α → σ → Prop where
  | refl {p : Procedure α} {s : σ} : Reaches w p s [] p s
  | step {request : Request} {next : request.Answer → Procedure α} {a : request.Answer}
      {q : Procedure α} {events : List Event} {s s' s'' : σ} :
      w request s a s' → Reaches w (next a) s' events q s'' →
      Reaches w (ask request next) s (⟨request, a⟩ :: events) q s''

/-- A procedure ends with a value, after requests with their answers. -/
def Runs (w : World σ) (p : Procedure α) (s : σ) (events : List Event) (value : α) (s' : σ) :
    Prop :=
  Reaches w p s events (done value) s'

theorem Reaches.mono (hw : ∀ request s a s', w request s a s' → w' request s a s')
    {p q : Procedure α} {events : List Event} {s s' : σ} (h : Reaches w p s events q s') :
  Reaches w' p s events q s'
  := by
  induction h with
  | refl => apply Reaches.refl
  | step hstep _ ih => apply Reaches.step (hw _ _ _ _ hstep) ih

/-! ### Runs -/

/-- The requests of a procedure that a function answers, with their answers. -/
def events (answer : (request : Request) → σ → request.Answer × σ) :
    Procedure α → σ → List Event
  | done _, _ => []
  | ask request next, s =>
    ⟨request, (answer request s).1⟩
      :: events answer (next (answer request s).1) (answer request s).2

section

variable {p : Procedure α} {f : α → Procedure β} {events : List Event} {s s' : σ}

@[simp] theorem runs_done_iff {value value' : α} :
  Runs w (done value) s events value' s' ↔ events = [] ∧ value' = value ∧ s' = s
  := by
  constructor
  · intro h
    cases h
    simp
  · rintro ⟨rfl, rfl, rfl⟩
    apply Reaches.refl

@[simp] theorem runs_pure_iff {value value' : α} :
  Runs w (pure value) s events value' s' ↔ events = [] ∧ value' = value ∧ s' = s
  := runs_done_iff

theorem runs_ask_iff {request : Request} {next : request.Answer → Procedure α} {value : α} :
  Runs w (ask request next) s events value s' ↔ ∃ a s₁ rest, w request s a s₁
    ∧ Runs w (next a) s₁ rest value s' ∧ events = ⟨request, a⟩ :: rest
  := by
  constructor
  · intro h
    cases h with
    | step hstep hrest => exact ⟨_, _, _, hstep, hrest, rfl⟩
  · rintro ⟨a, s₁, rest, hstep, hrest, rfl⟩
    apply Reaches.step hstep hrest

theorem runs_request_iff {r : Request} {f : r.Answer → Procedure β} {value : β} :
  Runs w (request r >>= f) s events value s' ↔ ∃ a s₁ rest, w r s a s₁
    ∧ Runs w (f a) s₁ rest value s' ∧ events = ⟨r, a⟩ :: rest
  := runs_ask_iff

/-- A run goes through the first of two procedures and then through the second one. -/
theorem runs_bind_iff {value : β} :
  Runs w (p >>= f) s events value s' ↔ ∃ before a s₁ after, Runs w p s before a s₁
    ∧ Runs w (f a) s₁ after value s' ∧ events = before ++ after
  := by
  induction p generalizing s events with
  | done a => simp
  | ask request next ih =>
    rw [ask_bind, runs_ask_iff]
    simp only [ih, runs_ask_iff]
    constructor
    · rintro ⟨a, s₁, _, hstep, ⟨before, b, s₂, after, h₁, h₂, rfl⟩, rfl⟩
      exact ⟨_, b, s₂, after, ⟨a, s₁, before, hstep, h₁, rfl⟩, h₂, rfl⟩
    · rintro ⟨_, b, s₂, after, ⟨a, s₁, before, hstep, h₁, rfl⟩, h₂, rfl⟩
      exact ⟨a, s₁, _, hstep, ⟨before, b, s₂, after, h₁, h₂, rfl⟩, rfl⟩

/-- A function answers the requests of the first of two procedures and then those of the second. -/
theorem run_bind (answer : (request : Request) → σ → request.Answer × σ) (p : Procedure α)
    (f : α → Procedure β) (s : σ) :
  (p >>= f).run answer s = (f (p.run answer s).1).run answer (p.run answer s).2
  := by
  induction p generalizing s with
  | done value => rfl
  | ask request next ih => apply ih

/-- Running a procedure with a function is one of its runs. -/
theorem runs_run (answer : (request : Request) → σ → request.Answer × σ) (p : Procedure α)
    (s : σ) :
  Runs (World.ofAnswer answer) p s (p.events answer s) (p.run answer s).1 (p.run answer s).2
  := by
  induction p generalizing s with
  | done value => apply Reaches.refl
  | ask request next ih => apply Reaches.step rfl (ih _ _)

end

/-- The requests of a procedure up to some number of them that a function answers, with what
is then left of the procedure and the state. -/
def advance (answer : (request : Request) → σ → request.Answer × σ) :
    Nat → Procedure α → σ → List Event × Procedure α × σ
  | 0, p, s => ([], p, s)
  | _ + 1, done value, s => ([], done value, s)
  | n + 1, ask request next, s =>
    let (a, s) := answer request s
    let (events, rest) := advance answer n (next a) s
    (⟨request, a⟩ :: events, rest)

/-- However often a procedure is advanced, it reaches what is left. -/
theorem reaches_advance (answer : (request : Request) → σ → request.Answer × σ) (n : Nat)
    (p : Procedure α) (s : σ) :
  Reaches (World.ofAnswer answer) p s (p.advance answer n s).1 (p.advance answer n s).2.1
    (p.advance answer n s).2.2
  := by
  induction n generalizing p s with
  | zero => apply Reaches.refl
  | succ n ih =>
    cases p with
    | done value => apply Reaches.refl
    | ask request next => apply Reaches.step rfl (ih _ _)

/-! ### Conditions along a procedure -/

/-- Between two requests the state may change as `rely` says. Then every request with its
answer makes a step as `step` says, and a value at the end has the property `post`. -/
def Ensures (w : World σ) (rely : σ → σ → Prop) (step : σ → Event → σ → Prop)
    (post : α → σ → Prop) : Procedure α → σ → Prop
  | done value, s => ∀ s', rely s s' → post value s'
  | ask request next, s => ∀ s', rely s s' → ∀ a s'', w request s' a s'' →
      step s' ⟨request, a⟩ s'' ∧ Ensures w rely step post (next a) s''

namespace Ensures

variable {rely : σ → σ → Prop} {step : σ → Event → σ → Prop} {post post' : α → σ → Prop}
  {p q : Procedure α} {events : List Event} {s s' : σ}

theorem mono (hpost : ∀ value s', post value s' → post' value s')
    (h : Ensures w rely step post p s) :
  Ensures w rely step post' p s
  := by
  induction p generalizing s with
  | done value =>
    intro s' hs'
    apply hpost _ _ (h s' hs')
  | ask request next ih =>
    intro s' hs' a s'' hstep
    obtain ⟨h₁, h₂⟩ := h s' hs' a s'' hstep
    use h₁
    apply ih a h₂

theorem mono_step {step' : σ → Event → σ → Prop}
    (hstep : ∀ s event s', step s event s' → step' s event s')
    (h : Ensures w rely step post p s) :
  Ensures w rely step' post p s
  := by
  induction p generalizing s with
  | done value => apply h
  | ask request next ih =>
    intro s' hs' a s'' hanswer
    obtain ⟨h₁, h₂⟩ := h s' hs' a s'' hanswer
    use hstep _ _ _ h₁
    apply ih a h₂

/-- The condition for a procedure that another one follows. -/
theorem bind (hrely : ∀ s, rely s s) {f : α → Procedure β} {post : β → σ → Prop}
    (h : Ensures w rely step (fun value s => Ensures w rely step post (f value) s) p s) :
  Ensures w rely step post (p >>= f) s
  := by
  induction p generalizing s with
  | done value => apply h s (hrely s)
  | ask request next ih =>
    rw [ask_bind]
    intro s' hs' a s'' hstep
    obtain ⟨h₁, h₂⟩ := h s' hs' a s'' hstep
    use h₁
    apply ih a h₂

/-- The condition for a request and what follows it. -/
theorem request {r : Request} {f : r.Answer → Procedure α}
    (h : ∀ s', rely s s' → ∀ a s'', w r s' a s'' →
      step s' ⟨r, a⟩ s'' ∧ Ensures w rely step post (f a) s'') :
  Ensures w rely step post (request r >>= f) s
  := h

/-- The condition survives what may happen between two requests. -/
theorem of_rely (htrans : ∀ s s' s'', rely s s' → rely s' s'' → rely s s'')
    (h : Ensures w rely step post p s) (hs' : rely s s') :
  Ensures w rely step post p s'
  := by
  cases p with
  | done value =>
    intro s'' hs''
    apply h _ (htrans _ _ _ hs' hs'')
  | ask request next =>
    intro s'' hs''
    apply h _ (htrans _ _ _ hs' hs'')

/-- The condition goes along with a procedure to all that it reaches. -/
theorem of_reaches (hrely : ∀ s, rely s s) (h : Ensures w rely step post p s)
    (hreach : Reaches w p s events q s') :
  Ensures w rely step post q s'
  := by
  induction hreach with
  | refl => apply h
  | step hstep _ ih => apply ih (h _ (hrely _) _ _ hstep).2

/-- The last request on the way makes a step as the condition says. -/
theorem last_step (hrely : ∀ s, rely s s) (h : Ensures w rely step post p s)
    (hreach : Reaches w p s events q s') :
  (events = [] ∧ s' = s) ∨ ∃ before event s₁, events = before ++ [event] ∧ step s₁ event s'
  := by
  induction hreach with
  | refl =>
    left
    use rfl
  | step hstep _ ih =>
    right
    obtain ⟨hfirst, hrest⟩ := h _ (hrely _) _ _ hstep
    obtain ⟨rfl, rfl⟩ | ⟨before, event, s₁, rfl, hlast⟩ := ih hrest
    · exact ⟨[], _, _, rfl, hfirst⟩
    · exact ⟨_ :: before, event, s₁, rfl, hlast⟩

/-- What holds wherever a procedure ends can be added to what it ensures. -/
theorem of_runs (h : Ensures w Eq step (fun _ _ => True) p s)
    (hpost : ∀ events value s', Runs w p s events value s' → post value s') :
  Ensures w Eq step post p s
  := by
  induction p generalizing s with
  | done value =>
    rintro _ rfl
    apply hpost [] value s Reaches.refl
  | ask request next ih =>
    rintro _ rfl a s' hstep
    obtain ⟨hfirst, hrest⟩ := h _ rfl a s' hstep
    use hfirst
    apply ih a hrest
    intro events value s'' hruns
    apply hpost _ _ _ (Reaches.step hstep hruns)

/-- What a procedure ensures holds where it ends. -/
theorem post_of_runs (hrely : ∀ s, rely s s) (h : Ensures w rely step post p s) {value : α}
    (hruns : Runs w p s events value s') :
  post value s'
  := of_reaches hrely h hruns s' (hrely s')

end Ensures

/-! ### Logs -/

theorem Reaches.logged {fair : List Event → Prop} {p q : Procedure α} {log events : List Event}
    {s s' : σ} (h : Reaches w p s events q s')
    (hfair : ∀ part, part <+: events → fair (log ++ part)) :
  Reaches (w.logged fair) p (log, s) events q (log ++ events, s')
  := by
  induction h generalizing log with
  | refl =>
    rw [List.append_nil]
    apply Reaches.refl
  | @step request next a q events s s₁ s' hanswer _ ih =>
    have hone : [⟨request, a⟩] <+: ⟨request, a⟩ :: events := by simp
    have hlogged : w.logged fair request (log, s) a (log ++ [⟨request, a⟩], s₁) :=
      ⟨hanswer, rfl, hfair _ hone⟩
    apply Reaches.step hlogged
    rw [List.append_cons log _ events]
    apply ih
    intro part hpart
    rw [← List.append_cons]
    apply hfair
    apply List.cons_prefix_cons.mpr ⟨rfl, hpart⟩

/-- A condition without a log is one on what the log goes with. -/
theorem Ensures.logged {fair : List Event → Prop} {p : Procedure α} {log : List Event} {s : σ}
    {step : σ → Event → σ → Prop} {post : α → σ → Prop} (h : Ensures w Eq step post p s) :
  Ensures (w.logged fair) Eq (fun s event s' => step s.2 event s'.2) (fun value s => post value s.2)
    p (log, s)
  := by
  induction p generalizing log s with
  | done value =>
    rintro _ rfl
    apply h s rfl
  | ask request next ih =>
    rintro _ rfl a ⟨log', s'⟩ ⟨hanswer, -, -⟩
    obtain ⟨hstep, hrest⟩ := h s rfl a s' hanswer
    use hstep
    apply ih a hrest

end Procedure

end MutationTesting
