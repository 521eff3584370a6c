import Mathlib.Logic.Relation
import MutationTesting.Proofs.Text.Regex.Compile

/-!
# Searches for regular expressions

Following a way reaches all steps to which it leads without a character (`explored_follow`), so
that the ways that wait at a place of a text are those on which the program can come there
(`Ways.Abreast`). The match at a place is therefore the longest one (`finds_matchAt`), a text is a
match as a whole exactly if the expression takes all of it (`isMatch_compile_iff`), and a search
finds the first place with a match (`leads_of_search?`). All of this is about expressions that do
not repeat the text of a group.
-/

namespace MutationTesting.Text.Regex

open Relation (ReflTransGen)

/-! ### Following a way -/

/-- A step was reached. -/
def Ways.Has (ws : Ways) (a : Nat) : Prop := ws.reached[a]? = some true

/-- The number of steps that were not reached. -/
def Ways.left (ws : Ways) : Nat := ws.reached.count false

/-- The ways that wait are those at steps for a character that were reached, and there is one to
the end if that was reached. -/
structure Ways.Faithful (p : Program) (ws : Ways) : Prop where
  size : ws.reached.size = p.size
  waiting : ∀ a, a ∈ ws.waiting.map (·.address) ↔ ws.Has a ∧ ∃ set, p[a]? = some (.one set)
  accepted : ws.accepted.isSome = true ↔ ∃ a, ws.Has a ∧ p[a]? = some .accept

/-- What follows on steps that were reached was reached as well, unless the step is pending. -/
def Ways.Closed (p : Program) (spot : Spot) (pending : List Nat) (ws : Ways) : Prop :=
  ∀ a b, ws.Has a → a ∉ pending → Slides p spot a b → b < p.size → ws.Has b

/-- Some steps were reached, with what follows on them, and nothing besides. -/
structure Explored (p : Program) (spot : Spot) (pending entries : List Nat) (ws ws' : Ways) :
    Prop where
  faithful : ws'.Faithful p
  closed : ws'.Closed p spot pending
  left : ws'.left ≤ ws.left
  kept : ∀ a, ws.Has a → ws'.Has a
  entered : ∀ a ∈ entries, a < p.size → ws'.Has a
  reached : ∀ a, ws'.Has a → ws.Has a ∨ ∃ e ∈ entries, ReflTransGen (Slides p spot) e a

/-- Ways with the step of another one. -/
def Ways.visit (p : Program) (w : Way) (ws : Ways) : Ways :=
  let ws := { ws with reached := ws.reached.setIfInBounds w.address true }
  match p[w.address]? with
  | some (.one _) => { ws with waiting := w :: ws.waiting }
  | some .accept => { ws with accepted := ws.accepted.or (some w.marks) }
  | _ => ws

variable {p : Program} {spot : Spot} {text : List Char} {pending entries : List Nat}
  {ws ws' : Ways} {w : Way} {start i j a b n fuel : Nat}

theorem Ways.Has.lt (h : ws.Has a) (hfaithful : ws.Faithful p) :
  a < p.size
  := by
  rw [← hfaithful.size]
  exact (Array.getElem?_eq_some_iff.mp h).1

theorem Slides.lt (h : Slides p spot a b) :
  a < p.size
  := by
  obtain ⟨step, hstep, -⟩ := h
  exact (Array.getElem?_eq_some_iff.mp hstep).1

theorem mem_waiting_visit_iff :
  a ∈ (ws.visit p w).waiting.map (·.address)
    ↔ (a = w.address ∧ ∃ set, p[a]? = some (.one set)) ∨ a ∈ ws.waiting.map (·.address)
  := by
  have hnone : (¬∃ set, p[w.address]? = some (.one set)) → ((a = w.address
      ∧ ∃ set, p[a]? = some (.one set)) ∨ a ∈ ws.waiting.map (·.address)
        ↔ a ∈ ws.waiting.map (·.address)) := by
    intro hnone
    apply or_iff_right
    rintro ⟨rfl, hone⟩
    apply hnone hone
  unfold Ways.visit
  split
  · next set hset =>
    rw [List.map_cons, List.mem_cons]
    apply or_congr_left
    constructor
    · rintro rfl
      use rfl, set
    · exact And.left
  · next haccept =>
    rw [hnone (by simp [haccept])]
  · next hone _ =>
    rw [hnone (by simpa using hone)]

theorem isSome_accepted_visit_iff :
  (ws.visit p w).accepted.isSome = true
    ↔ p[w.address]? = some .accept ∨ ws.accepted.isSome = true
  := by
  unfold Ways.visit
  split
  · next hset => simp [hset]
  · next haccept => simp [haccept]
  · next haccept => exact (or_iff_right haccept).symm

theorem reached_visit (p : Program) (w : Way) (ws : Ways) :
  (ws.visit p w).reached = ws.reached.setIfInBounds w.address true
  := by
  unfold Ways.visit
  split <;> rfl

section Visit

variable (hfresh : ws.reached[w.address]? = some false)

include hfresh

theorem has_visit_iff :
  (ws.visit p w).Has a ↔ a = w.address ∨ ws.Has a
  := by
  have hlt := (Array.getElem?_eq_some_iff.mp hfresh).1
  rw [Ways.Has, reached_visit, Array.getElem?_setIfInBounds]
  split
  · next heq => simp [← heq]
  · next hne => simp [Ways.Has, Ne.symm hne]

theorem left_visit :
  (ws.visit p w).left + 1 = ws.left
  := by
  obtain ⟨hlt, hfalse⟩ := Array.getElem?_eq_some_iff.mp hfresh
  have hpositive : 0 < ws.reached.count false := by
    rw [Array.count_pos_iff, ← hfalse]
    apply Array.getElem_mem
  rw [Ways.left, Ways.left, reached_visit, ← Array.count_toList, Array.toList_setIfInBounds,
    List.count_set hlt]
  simp only [Array.getElem_toList, hfalse, Array.count_toList]
  simp
  omega

theorem faithful_visit (h : ws.Faithful p) :
  (ws.visit p w).Faithful p
  := by
  constructor
  · rw [reached_visit, Array.size_setIfInBounds, h.size]
  · intro a
    rw [mem_waiting_visit_iff, has_visit_iff hfresh, or_and_right, h.waiting a]
  · simp only [isSome_accepted_visit_iff, has_visit_iff hfresh, or_and_right, exists_or,
      exists_eq_left, h.accepted]

end Visit

theorem Explored.refl (hfaithful : ws.Faithful p) (hclosed : ws.Closed p spot pending) :
  Explored p spot pending [] ws ws
  := ⟨hfaithful, hclosed, Nat.le_refl _, fun _ => id, by simp, fun _ => .inl⟩

theorem Explored.cons {e : Nat} {ws₁ : Ways} (h : Explored p spot pending [e] ws ws₁)
    (h' : Explored p spot pending entries ws₁ ws') :
  Explored p spot pending (e :: entries) ws ws'
  := by
  refine ⟨h'.faithful, h'.closed, Nat.le_trans h'.left h.left, fun a => h'.kept a ∘ h.kept a, ?_, ?_⟩
  · intro b hb hlt
    obtain rfl | hb := List.mem_cons.mp hb
    · apply h'.kept b (h.entered b (List.mem_singleton_self b) hlt)
    · apply h'.entered b hb hlt
  · intro a ha
    obtain ha | ⟨b, hb, hreach⟩ := h'.reached a ha
    · apply (h.reached a ha).imp_right
      rintro ⟨b, hb, hreach⟩
      rw [List.mem_singleton] at hb
      use b, hb ▸ List.mem_cons_self
    · right
      use b, List.mem_cons_of_mem _ hb

/-- What explores from one entry each time explores from all entries. -/
theorem explored_foldl {α : Type} {f : Ways → α → Ways} (entry : α → Nat)
    (h : ∀ x ws, ws.Faithful p → ws.Closed p spot pending → ws.left ≤ n →
      Explored p spot pending [entry x] ws (f ws x))
    (xs : List α) (hfaithful : ws.Faithful p) (hclosed : ws.Closed p spot pending)
    (hleft : ws.left ≤ n) :
  Explored p spot pending (xs.map entry) ws (xs.foldl f ws)
  := by
  induction xs generalizing ws with
  | nil => apply Explored.refl hfaithful hclosed
  | cons x xs ih =>
    have hfirst := h x ws hfaithful hclosed hleft
    apply hfirst.cons
    apply ih hfirst.faithful hfirst.closed (Nat.le_trans hfirst.left hleft)

/-- At a step that was not reached, a way goes on to all steps after it. -/
theorem follow_succ {step : Step} (fuel : Nat) (spot : Spot)
    (hfresh : ws.reached[w.address]? = some false)
    (hstep : p[w.address]? = some step) :
  ∃ marks, follow p spot (fuel + 1) w ws = (successors spot w.address step).foldl
    (fun ws b => follow p spot fuel ⟨b, marks⟩ ws) (ws.visit p w)
  := by
  cases step with
  | mark slot =>
    use (slot, spot.index) :: w.marks
    simp [follow, hfresh, hstep, successors, Ways.visit]
  | place condition =>
    use w.marks
    by_cases hplace : spot.satisfies condition = true <;>
      simp [follow, hfresh, hstep, successors, Ways.visit, hplace]
  | one | accept | again | jump | fork =>
    use w.marks
    simp [follow, hfresh, hstep, successors, Ways.visit]

/-- Following a way explores what it leads to, if there is fuel for all steps that were not
reached. -/
theorem explored_follow (fuel : Nat) (hfaithful : ws.Faithful p)
    (hclosed : ws.Closed p spot pending)
    (hfuel : ws.left < fuel) :
  Explored p spot pending [w.address] ws (follow p spot fuel w ws)
  := by
  induction fuel generalizing w ws pending with
  | zero => omega
  | succ fuel ih =>
    by_cases hfresh : ws.reached[w.address]? = some false
    · have hlt : w.address < p.size := by
        rw [← hfaithful.size]
        exact (Array.getElem?_eq_some_iff.mp hfresh).1
      obtain ⟨step, hstep⟩ : ∃ step, p[w.address]? = some step := ⟨_, Array.getElem?_eq_getElem hlt⟩
      obtain ⟨marks, hfollow⟩ := follow_succ fuel spot hfresh hstep
      have hleft := left_visit (p := p) hfresh
      -- The step is pending until all that follows on it is reached.
      have hclosed : (ws.visit p w).Closed p spot (w.address :: pending) := by
        intro a b ha hpending hslides hb
        rw [List.mem_cons, not_or] at hpending
        rw [has_visit_iff hfresh] at ha ⊢
        right
        apply hclosed a b (ha.resolve_left hpending.1) hpending.2 hslides hb
      have hall := explored_foldl id (n := ws.left - 1)
        (fun b ws hfaithful hclosed hle => ih (w := ⟨b, marks⟩) hfaithful hclosed (by omega))
        (successors spot w.address step) (faithful_visit hfresh hfaithful) hclosed (by omega)
      rw [← hfollow, List.map_id] at hall
      constructor
      · apply hall.faithful
      · intro a b ha hpending hslides hb
        by_cases hself : a = w.address
        · subst hself
          obtain ⟨step', hstep', hsuccessor⟩ := hslides
          obtain rfl := Option.some.inj (hstep.symm.trans hstep')
          apply hall.entered b hsuccessor hb
        · apply hall.closed a b ha (by simp [hself, hpending]) hslides hb
      · have := hall.left
        omega
      · intro a ha
        apply hall.kept a ((has_visit_iff hfresh).mpr (.inr ha))
      · intro a ha _
        rw [List.mem_singleton.mp ha]
        apply hall.kept _ ((has_visit_iff hfresh).mpr (.inl rfl))
      · intro a ha
        obtain ha | ⟨b, hb, hreach⟩ := hall.reached a ha
        · obtain rfl | ha := (has_visit_iff hfresh).mp ha
          · right
            use w.address, List.mem_singleton_self _
          · left
            apply ha
        · right
          use w.address, List.mem_singleton_self _
          apply hreach.head ⟨step, hstep, hb⟩
    · have hreached : ws.reached[w.address]? = none ∨ ws.Has w.address := by
        rw [Ways.Has]
        cases hget : ws.reached[w.address]? with
        | none => simp
        | some reached => cases reached <;> simp_all
      have hfollow : follow p spot (fuel + 1) w ws = ws := by
        obtain hget | hget : ws.reached[w.address]? = none ∨ ws.reached[w.address]? = some true :=
          hreached <;> simp [follow, hget]
      have hrefl := Explored.refl hfaithful hclosed
      rw [hfollow]
      refine ⟨hfaithful, hclosed, hrefl.left, hrefl.kept, ?_, fun _ => .inl⟩
      intro a ha hlt
      rw [List.mem_singleton.mp ha] at hlt ⊢
      apply hreached.resolve_left
      simpa [hfaithful.size] using hlt

/-- From none on, what was explored is what slides lead to. -/
theorem Explored.has_iff (h : Explored p spot [] entries ws ws') (hnone : ∀ a, ¬ws.Has a) :
  ws'.Has a ↔ a < p.size ∧ ∃ e ∈ entries, ReflTransGen (Slides p spot) e a
  := by
  constructor
  · intro ha
    use ha.lt h.faithful
    apply (h.reached a ha).resolve_left (hnone a)
  · rintro ⟨hlt, e, he, hreach⟩
    induction hreach with
    | refl => apply h.entered e he hlt
    | tail _ hslides ih => apply h.closed _ _ (ih hslides.lt) List.not_mem_nil hslides hlt

/-- The ways before anything was reached. -/
def noWays (p : Program) : Ways := { reached := Array.replicate p.size false }

theorem not_has_noWays (p : Program) (a : Nat) :
  ¬(noWays p).Has a
  := by
  simp [Ways.Has, noWays, Array.getElem?_replicate]

theorem faithful_noWays (p : Program) :
  (noWays p).Faithful p
  := by
  constructor
  · simp [noWays]
  · have hwaiting : (noWays p).waiting = [] := rfl
    simp [not_has_noWays, hwaiting]
  · have haccepted : (noWays p).accepted = none := rfl
    simp [not_has_noWays, haccepted]

theorem closed_noWays (p : Program) (spot : Spot) :
  (noWays p).Closed p spot []
  := fun a _ ha => absurd ha (not_has_noWays p a)

theorem left_noWays (p : Program) :
  (noWays p).left = p.size
  := by
  simp [Ways.left, noWays]

/-! ### Where a program can be -/

/-- A program can be at an address and a place of a text, from its start at another place. -/
def Comes (p : Program) (text : List Char) (start a i : Nat) : Prop :=
  ∃ n, Goes p text n 0 start a i

theorem Goes.of_slides (h : ReflTransGen (Slides p (spotAt text i)) a b) :
  ∃ n, Goes p text n a i b i
  := by
  induction h using ReflTransGen.head_induction_on with
  | refl => exact ⟨0, .refl⟩
  | head hslides _ ih =>
    obtain ⟨n, hn⟩ := ih
    exact ⟨n + 1, .step (.inl ⟨rfl, hslides⟩) hn⟩

/-- Whoever goes somewhere has slid there since the last character was taken. -/
theorem Goes.last (h : Goes p text n a i b j) :
  (j = i ∧ ReflTransGen (Slides p (spotAt text i)) a b)
    ∨ ∃ k c, j = k + 1 ∧ i ≤ k ∧ (∃ m, Goes p text m a i c k) ∧ Advances p text c k
      ∧ ReflTransGen (Slides p (spotAt text (k + 1))) (c + 1) b
  := by
  induction h with
  | refl =>
    left
    exact ⟨rfl, .refl⟩
  | step hmove _ ih =>
    obtain ⟨rfl, hslides⟩ | ⟨rfl, rfl, hadvances⟩ := id hmove
    · obtain ⟨rfl, hreach⟩ | ⟨k, c, rfl, hle, ⟨m, hgoes⟩, hlast⟩ := ih
      · left
        exact ⟨rfl, hreach.head hslides⟩
      · right
        exact ⟨k, c, rfl, hle, ⟨m + 1, .step hmove hgoes⟩, hlast⟩
    · right
      obtain ⟨rfl, hreach⟩ | ⟨k, c, rfl, hle, ⟨m, hgoes⟩, hlast⟩ := ih
      · exact ⟨_, _, rfl, Nat.le_refl _, ⟨0, .refl⟩, hadvances, hreach⟩
      · exact ⟨k, c, rfl, by omega, ⟨m + 1, .step hmove hgoes⟩, hlast⟩

theorem comes_start_iff :
  Comes p text i a i ↔ ReflTransGen (Slides p (spotAt text i)) 0 a
  := by
  constructor
  · rintro ⟨n, hgoes⟩
    obtain ⟨-, hreach⟩ | ⟨k, c, rfl, hle, -⟩ := hgoes.last
    · apply hreach
    · omega
  · apply Goes.of_slides

theorem comes_succ_iff (hle : start ≤ i) :
  Comes p text start a (i + 1) ↔ ∃ b, Comes p text start b i ∧ Advances p text b i
    ∧ ReflTransGen (Slides p (spotAt text (i + 1))) (b + 1) a
  := by
  constructor
  · rintro ⟨n, hgoes⟩
    obtain ⟨rfl, -⟩ | ⟨k, c, hk, -, hcomes, hlast⟩ := hgoes.last
    · omega
    · cases hk
      use c, hcomes
  · rintro ⟨b, ⟨n, hgoes⟩, hadvances, hreach⟩
    obtain ⟨m, hslides⟩ := Goes.of_slides hreach
    exact ⟨_, hgoes.trans (.step (.inr ⟨rfl, rfl, hadvances⟩) hslides)⟩

theorem accepts_iff :
  Accepts p text start i ↔ ∃ a, Comes p text start a i ∧ p[a]? = some .accept
  := by
  constructor
  · rintro ⟨n, a, hgoes, haccept⟩
    use a, ⟨n, hgoes⟩
  · rintro ⟨a, ⟨n, hgoes⟩, haccept⟩
    use n, a

theorem Accepts.start_le (h : Accepts p text start i) :
  start ≤ i
  := by
  obtain ⟨n, a, hgoes, -⟩ := h
  obtain ⟨rfl, -⟩ | ⟨k, c, rfl, hle, -⟩ := hgoes.last <;> omega

/-- Nothing is taken beyond the end of a text. -/
theorem Accepts.le_length (h : Accepts p text start i) (hlt : start < i) :
  i ≤ text.length
  := by
  obtain ⟨n, a, hgoes, -⟩ := h
  obtain ⟨rfl, -⟩ | ⟨k, c, rfl, -, -, ⟨set, x, -, hget, -⟩, -⟩ := hgoes.last
  · omega
  · apply (List.getElem?_eq_some_iff.mp hget).1

/-! ### The longest match at a place -/

/-- The ways of a place are those on which a program can come there. -/
structure Ways.Abreast (p : Program) (text : List Char) (start i : Nat) (ws : Ways) : Prop where
  waiting : ∀ a, a ∈ ws.waiting.map (·.address)
    ↔ Comes p text start a i ∧ ∃ set, p[a]? = some (.one set)
  accepted : ws.accepted.isSome = true ↔ Accepts p text start i

theorem Ways.Faithful.abreast (h : ws.Faithful p)
    (hhas : ∀ a, ws.Has a ↔ a < p.size ∧ Comes p text start a i) :
  ws.Abreast p text start i
  := by
  have hcomes : ∀ {a step}, p[a]? = some step → (ws.Has a ↔ Comes p text start a i) := by
    intro a step hget
    rw [hhas, and_iff_right (Array.getElem?_eq_some_iff.mp hget).1]
  constructor
  · intro a
    rw [h.waiting]
    apply and_congr_left
    rintro ⟨set, hset⟩
    apply hcomes hset
  · rw [h.accepted, accepts_iff]
    apply exists_congr
    intro a
    apply and_congr_left hcomes

theorem awaits_iff {c : Char} (hget : text[i]? = some c) :
  w.awaits p c = true ↔ Advances p text w.address i
  := by
  unfold Way.awaits Advances
  split
  · next set hset => simp [hset, hget]
  · next hone =>
    constructor
    · rintro ⟨⟩
    · rintro ⟨set, _, hset, -⟩
      cases hone set hset

/-- The ways of a place lead to those of the next one. -/
theorem Ways.Abreast.next (h : ws.Abreast p text start i) (hle : start ≤ i) {c : Char}
    (hget : text[i]? = some c) :
  ((ws.waiting.reverse.filter (Way.awaits p c)).foldl
    (fun ws w => follow p (spotAt text (i + 1)) (p.size + 1) { w with address := w.address + 1 } ws)
    (noWays p)).Abreast p text start (i + 1)
  := by
  have hexplored := explored_foldl (fun w : Way => w.address + 1) (n := p.size)
    (fun w ws hfaithful hclosed hleft => explored_follow (w := { w with address := w.address + 1 })
      (p.size + 1) hfaithful hclosed (by omega))
    (ws.waiting.reverse.filter (Way.awaits p c)) (faithful_noWays p)
    (closed_noWays p (spotAt text (i + 1))) (Nat.le_of_eq (left_noWays p))
  apply hexplored.faithful.abreast
  intro a
  rw [hexplored.has_iff (not_has_noWays p), comes_succ_iff hle]
  apply and_congr_right
  intro _
  constructor
  · rintro ⟨e, he, hreach⟩
    obtain ⟨w, hw, rfl⟩ := List.mem_map.mp he
    rw [List.mem_filter, List.mem_reverse, awaits_iff hget] at hw
    use w.address, ((h.waiting _).mp (List.mem_map_of_mem hw.1)).1, hw.2
  · rintro ⟨b, hcomes, hadvances, hreach⟩
    have hone : ∃ set, p[b]? = some (.one set) := by
      obtain ⟨set, _, hset, -⟩ := hadvances
      use set
    obtain ⟨w, hw, rfl⟩ := List.mem_map.mp ((h.waiting b).mpr ⟨hcomes, hone⟩)
    use w.address + 1, List.mem_map.mpr ⟨w, ?_, rfl⟩
    rw [List.mem_filter, List.mem_reverse, awaits_iff hget]
    exact ⟨hw, hadvances⟩

theorem advance_nil (best : Option Found) (cs : List Char) :
  advance p [] i best cs = best
  := by
  induction cs generalizing i best with
  | nil => rfl
  | cons c cs ih => simp [advance]

/-- What is found from a place on: the longest match that ends there or later, or the best one so
far if there is none. -/
inductive Finds (p : Program) (text : List Char) (start i : Nat) (best : Option Found) :
    Option Found → Prop where
  | best : (∀ j, i ≤ j → ¬Accepts p text start j) → Finds p text start i best best
  | longest {f : Found} : i ≤ f.stop → Accepts p text start f.stop →
      (∀ j, Accepts p text start j → j ≤ f.stop) → Finds p text start i best (some f)

/-- Where no match ends later, the one that ends here is found if there is one. -/
theorem Ways.Abreast.finds (h : ws.Abreast p text start i) (best : Option Found)
    (hlater : ∀ j, i < j → ¬Accepts p text start j) :
  Finds p text start i best ((ws.accepted.map fun marks => ⟨i, marks⟩).or best)
  := by
  have haccepted := h.accepted
  cases hmarks : ws.accepted with
  | none =>
    apply Finds.best
    intro j hj haccepts
    obtain rfl | hlt := Nat.eq_or_lt_of_le hj
    · simp [hmarks, haccepts] at haccepted
    · apply hlater j hlt haccepts
  | some marks =>
    apply Finds.longest (f := ⟨i, marks⟩) (Nat.le_refl i)
    · simpa [hmarks] using haccepted
    · intro j haccepts
      apply Nat.le_of_not_lt
      intro hlt
      apply hlater j hlt haccepts

/-- Ways that go on find the longest match. -/
theorem finds_advance {cs : List Char} (h : ws.Abreast p text start i) (best : Option Found)
    (hle : start ≤ i) (hcs : text.drop i = cs) :
  Finds p text start i best
    (advance p ws.waiting i ((ws.accepted.map fun marks => ⟨i, marks⟩).or best) cs)
  := by
  induction cs generalizing ws i best with
  | nil =>
    apply h.finds
    intro j hlt haccepts
    have hlength := haccepts.le_length (by omega)
    rw [List.drop_eq_nil_iff] at hcs
    omega
  | cons c cs ih =>
    have hget : text[i]? = some c := by
      rw [← List.head?_drop, hcs]
      rfl
    have hrest : text.drop (i + 1) = cs := by
      rw [← List.drop_drop, hcs]
      rfl
    have hspot : (⟨i + 1, some c, cs.head?⟩ : Spot) = spotAt text (i + 1) := by
      simp [spotAt, hget, ← hrest]
    have hnext := h.next hle hget
    generalize hws : List.foldl _ (noWays p) _ = ws₁ at hnext
    have hadvance : ∀ best, advance p ws.waiting i best (c :: cs) = advance p ws₁.waiting (i + 1)
        ((ws₁.accepted.map fun marks => ⟨i + 1, marks⟩).or best) cs := by
      intro best
      rw [advance, hspot]
      simp only [noWays] at hws
      simp only [hws]
      split
      · next hempty => rw [List.isEmpty_iff.mp hempty, advance_nil]
      · rfl
    rw [hadvance]
    have hfinds := ih hnext ((ws.accepted.map fun marks => ⟨i, marks⟩).or best) (by omega) hrest
    generalize advance p ws₁.waiting _ _ _ = found at hfinds ⊢
    cases hfinds with
    | best hlater => exact h.finds best hlater
    | longest hstop haccepts hlongest =>
      exact .longest (by omega) haccepts hlongest

/-- The match at a place is the longest one, if there is one. -/
theorem finds_matchAt (hgroup : repeatsGroup p = false) (text : List Char) (i : Nat) :
  Finds p text i i none (matchAt p text i (spotAt text i).before (text.drop i))
  := by
  have hspot : (⟨i, (spotAt text i).before, (text.drop i).head?⟩ : Spot) = spotAt text i := by
    simp [spotAt]
  have hexplored := explored_follow (w := ⟨0, []⟩) (p.size + 1) (faithful_noWays p)
    (closed_noWays p (spotAt text i)) (by rw [left_noWays]; omega)
  have hstart : (follow p (spotAt text i) (p.size + 1) ⟨0, []⟩ (noWays p)).Abreast p text i i := by
    apply hexplored.faithful.abreast
    intro a
    rw [hexplored.has_iff (not_has_noWays p), comes_start_iff]
    simp
  have hfinds := finds_advance hstart none (Nat.le_refl i) rfl
  rw [Option.or_none] at hfinds
  rw [matchAt, hspot, hgroup]
  exact hfinds

/-! ### Searches -/

variable {r : Regex}

/-- A text as a whole is a match of an expression exactly if the expression takes all of it. -/
theorem isMatch_compile_iff (hrepeats : r.repeats = false) :
  isMatch r.compile text = true ↔ Takes text r 0 text.length
  := by
  have hfinds := finds_matchAt (repeatsGroup_compile hrepeats) text 0
  rw [isMatch, ← accepts_compile_iff]
  change Finds _ _ _ _ _ (matchAt r.compile text 0 none text) at hfinds
  generalize matchAt r.compile text 0 none text = found at hfinds
  cases hfinds with
  | best hnone => simp [hnone]
  | @longest f _ haccepts hlongest =>
    have hle : f.stop ≤ text.length := by
      obtain hzero | hpositive := Nat.eq_zero_or_pos f.stop
      · omega
      · apply haccepts.le_length hpositive
    rw [Option.any_some, beq_iff_eq]
    constructor
    · rintro hstop
      rwa [← hstop]
    · intro hall
      have := hlongest _ hall
      omega

/-- A match is the first one in a text from a place on, and the longest one there. -/
structure Match.Leads (r : Regex) (text : List Char) (start : Nat) (m : Match) : Prop where
  start_le : start ≤ m.start
  le_length : m.start ≤ text.length
  takes : Takes text r m.start m.stop
  longest : ∀ j, Takes text r m.start j → j ≤ m.stop
  first : ∀ i j, start ≤ i → Takes text r i j → m.start ≤ i

/-- There is no match in a text from a place on, or the leading one is found. -/
inductive Searched (r : Regex) (text : List Char) (start : Nat) : Option Match → Prop where
  | none : (∀ i j, start ≤ i → i ≤ text.length → ¬Takes text r i j) → Searched r text start none
  | some {m : Match} : m.Leads r text start → Searched r text start (some m)

/-- What is found after a place where there is no match is found from the place on. -/
theorem Searched.of_succ {result : Option Match} (h : Searched r text (i + 1) result)
    (hnone : ∀ j, ¬Takes text r i j) :
  Searched r text i result
  := by
  cases h with
  | none hlater =>
    apply Searched.none
    intro k j hk hle htakes
    obtain rfl | hlt := Nat.eq_or_lt_of_le hk
    · apply hnone j htakes
    · apply hlater k j hlt hle htakes
  | @some m hleads =>
    apply Searched.some
    refine ⟨Nat.le_of_succ_le hleads.start_le, hleads.le_length, hleads.takes, hleads.longest, ?_⟩
    intro k j hk htakes
    obtain rfl | hlt := Nat.eq_or_lt_of_le hk
    · cases hnone j htakes
    · apply hleads.first k j hlt htakes

theorem not_takes_of_finds (h : Finds r.compile text i i none none) (j : Nat) :
  ¬Takes text r i j
  := by
  intro htakes
  have haccepts := (accepts_compile_iff r).mpr htakes
  cases h with
  | best hnot => apply hnot j haccepts.start_le haccepts

/-- A match at the place itself is the leading one. -/
theorem searched_of_finds {f : Found} (h : Finds r.compile text i i none (some f))
    (hle : i ≤ text.length) :
  Searched r text i (some ⟨i, f.stop, f.marks⟩)
  := by
  cases h with
  | longest _ haccepts hlongest =>
    apply Searched.some
    refine ⟨Nat.le_refl i, hle, (accepts_compile_iff r).mp haccepts, ?_, fun _ _ hk _ => hk⟩
    intro j htakes
    apply hlongest j ((accepts_compile_iff r).mpr htakes)

theorem searched_searchFrom (hrepeats : r.repeats = false) {cs : List Char}
    (hcs : text.drop i = cs) (hle : i ≤ text.length) :
  Searched r text i (searchFrom r.compile text i (spotAt text i).before cs)
  := by
  have hfinds := finds_matchAt (repeatsGroup_compile hrepeats) text i
  induction cs generalizing i with
  | nil =>
    rw [hcs] at hfinds
    rw [searchFrom]
    cases hmatch : matchAt r.compile text i (spotAt text i).before [] with
    | none =>
      rw [hmatch] at hfinds
      apply Searched.none
      intro k j hk hlength
      rw [List.drop_eq_nil_iff] at hcs
      obtain rfl : k = i := by omega
      apply not_takes_of_finds hfinds
    | some f =>
      rw [hmatch] at hfinds
      apply searched_of_finds hfinds hle
  | cons c cs ih =>
    have hrest : text.drop (i + 1) = cs := by
      rw [← List.drop_drop, hcs]
      rfl
    have hget : text[i]? = some c := by
      rw [← List.head?_drop, hcs]
      rfl
    rw [hcs] at hfinds
    rw [searchFrom]
    cases hmatch : matchAt r.compile text i (spotAt text i).before (c :: cs) with
    | none =>
      rw [hmatch] at hfinds
      have hbefore : some c = (spotAt text (i + 1)).before := by
        simp [spotAt, hget]
      rw [hbefore]
      apply Searched.of_succ _ (not_takes_of_finds hfinds)
      apply ih hrest (List.getElem?_eq_some_iff.mp hget).1
        (finds_matchAt (repeatsGroup_compile hrepeats) text (i + 1))
    | some f =>
      rw [hmatch] at hfinds
      apply searched_of_finds hfinds hle

/-- A search finds the first match from a place on, and the longest one there. -/
theorem leads_of_search? {m : Match} (hrepeats : r.repeats = false)
    (hstart : start ≤ text.length) (h : search? r.compile text start = some m) :
  m.Leads r text start
  := by
  have hsearched := searched_searchFrom hrepeats rfl hstart
  change Searched r text start (search? r.compile text start) at hsearched
  rw [h] at hsearched
  cases hsearched with
  | some hleads => apply hleads

/-- A search finds nothing exactly if there is no match from a place on. -/
theorem search?_eq_none_iff (hrepeats : r.repeats = false)
    (hstart : start ≤ text.length) :
  search? r.compile text start = none
    ↔ ∀ i j, start ≤ i → i ≤ text.length → ¬Takes text r i j
  := by
  have hsearched := searched_searchFrom hrepeats rfl hstart
  change Searched r text start (search? r.compile text start) at hsearched
  generalize search? r.compile text start = result at hsearched
  cases hsearched with
  | none hnone => simpa using hnone
  | @some m hleads =>
    constructor
    · rintro ⟨⟩
    · intro hnone
      cases hnone _ _ hleads.start_le hleads.le_length hleads.takes

end MutationTesting.Text.Regex
