import Mathlib.Tactic.Common
import MutationTesting.Text.Regex.Match

/-!
# Compiled regular expressions

`Regex.Takes` says from which places of a text to which others an expression takes it, and
`Regex.Goes` how a program gets from an address and a place to others. A block of steps
`Realizes` a relation between places if it leads from its start to its end as the relation says,
and if whoever comes out of it has come to its end. The steps of an expression realize what the
expression takes (`realizes_steps`), so that its program gets to its end exactly if the expression
takes the text up to there (`accepts_compile_iff`).
-/

namespace MutationTesting.Text.Regex

/-! ### What an expression takes -/

/-- The surroundings of the place after so many characters of a text. -/
def spotAt (text : List Char) (i : Nat) : Spot where
  index := i
  before := if i = 0 then none else text[i - 1]?
  after := text[i]?

/-- So many steps of a relation lead from one place to another. -/
def Repeats (R : Nat → Nat → Prop) : Nat → Nat → Nat → Prop
  | 0, i, j => j = i
  | n + 1, i, j => ∃ k, R i k ∧ Repeats R n k j

/-- An expression takes a text from one place to another. The text of a group once more is not
accounted for. -/
def Takes (text : List Char) : Regex → Nat → Nat → Prop
  | .empty, i, j => j = i
  | .one set, i, j => j = i + 1 ∧ ∃ c, text[i]? = some c ∧ set.contains c = true
  | .place condition, i, j => j = i ∧ (spotAt text i).satisfies condition = true
  | .both a b, i, j => ∃ k, Takes text a i k ∧ Takes text b k j
  | .either a b, i, j => Takes text a i j ∨ Takes text b i j
  | .times body least most, i, j =>
    ∃ n, least ≤ n ∧ (∀ m ∈ most, n ≤ max least m) ∧ Repeats (Takes text body) n i j
  | .group _ body, i, j => Takes text body i j
  | .again _, _, _ => False

theorem repeats_add_iff {R : Nat → Nat → Prop} {m n i j : Nat} :
  Repeats R (m + n) i j ↔ ∃ k, Repeats R m i k ∧ Repeats R n k j
  := by
  induction m generalizing i with
  | zero => simp [Repeats]
  | succ m ih =>
    rw [Nat.succ_add, Repeats]
    simp only [ih, Repeats]
    constructor
    · rintro ⟨k, hfirst, l, hm, hn⟩
      use l, ⟨k, hfirst, hm⟩
    · rintro ⟨l, ⟨k, hfirst, hm⟩, hn⟩
      use k, hfirst, l

/-- What comes so many times at least comes so many times, and then as often as it may. -/
theorem takes_times_iff {text : List Char} {body : Regex} {least i j : Nat} {most : Option Nat} :
  Takes text (.times body least most) i j ↔ ∃ k, Repeats (Takes text body) least i k
    ∧ ∃ n, (∀ m ∈ most, n ≤ m - least) ∧ Repeats (Takes text body) n k j
  := by
  rw [Takes]
  constructor
  · rintro ⟨n, hleast, hmost, hrepeats⟩
    obtain ⟨n, rfl⟩ := Nat.exists_eq_add_of_le hleast
    obtain ⟨k, hfirst, hrest⟩ := repeats_add_iff.mp hrepeats
    use k, hfirst, n, fun m hm => by have := hmost m hm; omega
  · rintro ⟨k, hfirst, n, hmost, hrest⟩
    use least + n, Nat.le_add_right least n, fun m hm => by have := hmost m hm; omega
    rw [repeats_add_iff]
    use k

/-! ### Where a program goes -/

/-- The addresses to which a step leads that takes no character. -/
def successors (spot : Spot) (a : Nat) : Step → List Nat
  | .place condition => if spot.satisfies condition then [a + 1] else []
  | .jump target => [target]
  | .fork first second => [first, second]
  | .mark _ => [a + 1]
  | .one _ | .again _ | .accept => []

/-- A program goes from one address to another without taking a character. -/
def Slides (p : Program) (spot : Spot) (a b : Nat) : Prop :=
  ∃ step, p[a]? = some step ∧ b ∈ successors spot a step

/-- A program goes on at the next address when it takes a character. -/
def Advances (p : Program) (text : List Char) (a i : Nat) : Prop :=
  ∃ set c, p[a]? = some (.one set) ∧ text[i]? = some c ∧ set.contains c = true

/-- A program goes in one step from an address and a place to others. -/
def Moves (p : Program) (text : List Char) (a i b j : Nat) : Prop :=
  (j = i ∧ Slides p (spotAt text i) a b) ∨ (j = i + 1 ∧ b = a + 1 ∧ Advances p text a i)

/-- A program goes in so many steps from an address and a place to others. -/
inductive Goes (p : Program) (text : List Char) : Nat → Nat → Nat → Nat → Nat → Prop where
  | refl {a i : Nat} : Goes p text 0 a i a i
  | step {n a i b j c k : Nat} :
      Moves p text a i b j → Goes p text n b j c k → Goes p text (n + 1) a i c k

variable {p : Program} {text : List Char} {R Q : Nat → Nat → Prop}
  {n m start middle stop a b i j k : Nat} {code rest : List Step}

theorem Goes.trans {c : Nat} (h : Goes p text n a i b j) (h' : Goes p text m b j c k) :
  Goes p text (n + m) a i c k
  := by
  induction h with
  | refl => rwa [Nat.zero_add]
  | step hmove _ ih =>
    rw [Nat.succ_add]
    apply Goes.step hmove (ih h')

theorem Goes.single (h : Moves p text a i b j) :
  Goes p text 1 a i b j
  := .step h .refl

theorem moves_iff {step : Step} (h : p[a]? = some step) :
  Moves p text a i b j ↔ (j = i ∧ b ∈ successors (spotAt text i) a step)
    ∨ (j = i + 1 ∧ b = a + 1
      ∧ ∃ set c, step = .one set ∧ text[i]? = some c ∧ set.contains c = true)
  := by
  simp [Moves, Slides, Advances, h]

/-! ### Blocks of steps -/

/-- Some steps of a program, from an address on, lead through a text as a relation says: from their
start to their end where it holds, and out of them only after it. -/
structure Realizes (p : Program) (text : List Char) (start stop : Nat) (R : Nat → Nat → Prop) :
    Prop where
  goes : ∀ {i j}, R i j → ∃ n, Goes p text n start i stop j
  taken : ∀ {n i a j}, Goes p text n start i a j → (a < start ∨ stop ≤ a) →
    ∃ n' ≤ n, ∃ k, R i k ∧ Goes p text n' stop k a j

/-- Some steps stand in a program from an address on. -/
def Stands (p : Program) (start : Nat) (code : List Step) : Prop :=
  ∀ i step, code[i]? = some step → p[start + i]? = some step

theorem stands_cons_iff {step : Step} :
  Stands p start (step :: code) ↔ p[start]? = some step ∧ Stands p (start + 1) code
  := by
  constructor
  · intro h
    use h 0 step rfl
    intro i other hi
    rw [Nat.add_assoc, Nat.add_comm 1]
    apply h (i + 1) other hi
  · rintro ⟨hfirst, hcode⟩ (_ | i) other hi
    · cases hi
      apply hfirst
    · rw [← Nat.add_assoc, Nat.add_right_comm]
      apply hcode i other hi

theorem stands_append_iff :
  Stands p start (code ++ rest) ↔ Stands p start code ∧ Stands p (start + code.length) rest
  := by
  induction code generalizing start with
  | nil => simp [Stands]
  | cons step code ih =>
    rw [List.cons_append, stands_cons_iff, stands_cons_iff, ih, and_assoc, List.length_cons,
      Nat.add_assoc, Nat.add_comm 1]

namespace Realizes

theorem congr (h : Realizes p text start stop R) (hiff : ∀ i j, R i j ↔ Q i j) :
  Realizes p text start stop Q
  := by
  obtain rfl : R = Q := funext fun i => funext fun j => propext (hiff i j)
  apply h

/-- No steps lead nowhere. -/
theorem refl (p : Program) (text : List Char) (start : Nat) :
  Realizes p text start start fun i j => j = i
  := by
  constructor
  · rintro i _ rfl
    exact ⟨0, .refl⟩
  · intro n i a j h _
    exact ⟨n, Nat.le_refl n, i, rfl, h⟩

/-- One block comes after the other. -/
theorem both (h : Realizes p text start middle R) (h' : Realizes p text middle stop Q)
    (hstart : start ≤ middle) (hstop : middle ≤ stop) :
  Realizes p text start stop fun i j => ∃ k, R i k ∧ Q k j
  := by
  constructor
  · rintro i j ⟨k, hfirst, hsecond⟩
    obtain ⟨n, hn⟩ := h.goes hfirst
    obtain ⟨m, hm⟩ := h'.goes hsecond
    exact ⟨n + m, hn.trans hm⟩
  · intro n i a j hgoes hout
    obtain ⟨m, hm, k, hfirst, hgoes⟩ := h.taken hgoes (by omega)
    obtain ⟨m', hm', l, hsecond, hgoes⟩ := h'.taken hgoes (by omega)
    exact ⟨m', by omega, l, ⟨k, hfirst, hsecond⟩, hgoes⟩

/-- A single step that leads only to the next address. -/
theorem of_moves (h : ∀ i b j, Moves p text start i b j ↔ b = start + 1 ∧ R i j) :
  Realizes p text start (start + 1) R
  := by
  constructor
  · intro i j hR
    exact ⟨1, .single ((h i _ j).mpr ⟨rfl, hR⟩)⟩
  · intro n i a j hgoes hout
    cases hgoes with
    | refl => omega
    | @step n _ _ b k _ _ hmove hrest =>
      obtain ⟨rfl, hR⟩ := (h i b k).mp hmove
      exact ⟨n, Nat.le_succ n, k, hR, hrest⟩

/-- A mark leads on. -/
theorem mark {slot : Nat} (hmark : p[start]? = some (.mark slot)) :
  Realizes p text start (start + 1) fun i j => j = i
  := by
  apply of_moves
  intro i b j
  rw [moves_iff hmark]
  simp [successors]
  tauto

/-- A fork leads through the first block, which ends with a jump over the second one, or through
the second one. -/
theorem either {first second : List Step}
    (hstands : Stands p start (.fork (start + 1) (start + first.length + 2) :: first
      ++ .jump (start + first.length + 2 + second.length) :: second))
    (h : Realizes p text (start + 1) (start + 1 + first.length) R)
    (h' : Realizes p text (start + first.length + 2) (start + first.length + 2 + second.length) Q) :
  Realizes p text start (start + first.length + 2 + second.length) fun i j => R i j ∨ Q i j
  := by
  rw [List.cons_append, stands_cons_iff, stands_append_iff, stands_cons_iff] at hstands
  obtain ⟨hfork, -, hjump, -⟩ := hstands
  have hmoves : ∀ {i b j}, Moves p text start i b j
      ↔ j = i ∧ (b = start + 1 ∨ b = start + first.length + 2) := by
    simp [moves_iff hfork, successors]
  have hover : ∀ {i b j}, Moves p text (start + 1 + first.length) i b j
      ↔ j = i ∧ b = start + first.length + 2 + second.length := by
    simp [moves_iff hjump, successors]
  constructor
  · rintro i j (hR | hQ)
    · obtain ⟨n, hn⟩ := h.goes hR
      exact ⟨_, .step (hmoves.mpr ⟨rfl, .inl rfl⟩) (hn.trans (.single (hover.mpr ⟨rfl, rfl⟩)))⟩
    · obtain ⟨n, hn⟩ := h'.goes hQ
      exact ⟨_, .step (hmoves.mpr ⟨rfl, .inr rfl⟩) hn⟩
  · intro n i a j hgoes hout
    cases hgoes with
    | refl => omega
    | @step n _ _ b k _ _ hmove hrest =>
      obtain ⟨rfl, rfl | rfl⟩ := hmoves.mp hmove
      · obtain ⟨m, hm, l, hR, hgoes⟩ := h.taken hrest (by omega)
        cases hgoes with
        | refl => omega
        | @step m _ _ b k' _ _ hmove hafter =>
          obtain ⟨rfl, rfl⟩ := hover.mp hmove
          exact ⟨m, by omega, k', .inl hR, hafter⟩
      · obtain ⟨m, hm, l, hQ, hgoes⟩ := h'.taken hrest (by omega)
        exact ⟨m, by omega, l, .inr hQ, hgoes⟩

/-- A fork leads into a block, which ends with a jump back to it, or past the block. -/
theorem loop
    (hstands : Stands p start (.fork (start + 1) (start + code.length + 2) :: code
      ++ [.jump start]))
    (h : Realizes p text (start + 1) (start + 1 + code.length) R) :
  Realizes p text start (start + code.length + 2) fun i j => ∃ n, Repeats R n i j
  := by
  rw [List.cons_append, stands_cons_iff, stands_append_iff, stands_cons_iff] at hstands
  obtain ⟨hfork, -, hjump, -⟩ := hstands
  have hmoves : ∀ {i b j}, Moves p text start i b j
      ↔ j = i ∧ (b = start + 1 ∨ b = start + code.length + 2) := by
    simp [moves_iff hfork, successors]
  have hback : ∀ {i b j}, Moves p text (start + 1 + code.length) i b j ↔ j = i ∧ b = start := by
    simp [moves_iff hjump, successors]
  constructor
  · rintro i j ⟨n, hn⟩
    induction n generalizing i with
    | zero =>
      cases hn
      exact ⟨1, .single (hmoves.mpr ⟨rfl, .inr rfl⟩)⟩
    | succ n ih =>
      obtain ⟨k, hR, hrest⟩ := hn
      obtain ⟨m, hm⟩ := h.goes hR
      obtain ⟨l, hl⟩ := ih hrest
      exact ⟨_, .step (hmoves.mpr ⟨rfl, .inl rfl⟩) (hm.trans (.step (hback.mpr ⟨rfl, rfl⟩) hl))⟩
  · intro n i a j hgoes hout
    -- A round takes some steps, so that fewer are left after it.
    induction n using Nat.strongRecOn generalizing i with
    | ind n ih =>
    cases hgoes with
    | refl => omega
    | @step n _ _ b k _ _ hmove hrest =>
      obtain ⟨rfl, rfl | rfl⟩ := hmoves.mp hmove
      · obtain ⟨m, hm, l, hR, hgoes⟩ := h.taken hrest (by omega)
        cases hgoes with
        | refl => omega
        | @step m _ _ b k' _ _ hmove hround =>
          obtain ⟨rfl, rfl⟩ := hback.mp hmove
          obtain ⟨m', hm', l, ⟨rounds, hrounds⟩, hafter⟩ := ih m (by omega) hround
          exact ⟨m', by omega, l, ⟨rounds + 1, k', hR, hrounds⟩, hafter⟩
      · exact ⟨n, Nat.le_succ n, k, ⟨0, rfl⟩, hrest⟩

/-- A fork leads into a block or past it. -/
theorem option (hfork : p[start]? = some (.fork (start + 1) stop))
    (h : Realizes p text (start + 1) stop R) (hstart : start + 1 ≤ stop) :
  Realizes p text start stop fun i j => R i j ∨ j = i
  := by
  have hmoves : ∀ {i b j}, Moves p text start i b j ↔ j = i ∧ (b = start + 1 ∨ b = stop) := by
    simp [moves_iff hfork, successors]
  constructor
  · rintro i j (hR | rfl)
    · obtain ⟨n, hn⟩ := h.goes hR
      exact ⟨_, .step (hmoves.mpr ⟨rfl, .inl rfl⟩) hn⟩
    · exact ⟨1, .single (hmoves.mpr ⟨rfl, .inr rfl⟩)⟩
  · intro n i a j hgoes hout
    cases hgoes with
    | refl => omega
    | @step n _ _ b k _ _ hmove hrest =>
      obtain ⟨rfl, rfl | rfl⟩ := hmoves.mp hmove
      · obtain ⟨m, hm, l, hR, hgoes⟩ := h.taken hrest (by omega)
        exact ⟨m, by omega, l, .inl hR, hgoes⟩
      · exact ⟨n, Nat.le_succ n, k, .inr rfl, hrest⟩

/-- Blocks that come several times lead on so many times. -/
theorem copies {code : Nat → List Step}
    (h : ∀ start, Stands p start (code start) →
      Realizes p text start (start + (code start).length) R)
    (hstands : Stands p start (Regex.copies code n start)) :
  Realizes p text start (start + (Regex.copies code n start).length) (Repeats R n)
  := by
  induction n generalizing start with
  | zero => apply refl
  | succ n ih =>
    rw [Regex.copies, stands_append_iff] at hstands
    have hboth := (h start hstands.1).both (ih hstands.2) (by omega) (by omega)
    rw [Regex.copies, List.length_append, ← Nat.add_assoc]
    exact hboth

/-- Blocks each of which can be left out with those after it lead on up to so many times. -/
theorem options {code : Nat → List Step}
    (h : ∀ start, Stands p start (code start) →
      Realizes p text start (start + (code start).length) R)
    (hstands : Stands p start (Regex.options code n start)) :
  Realizes p text start (start + (Regex.options code n start).length)
    fun i j => ∃ m ≤ n, Repeats R m i j
  := by
  induction n generalizing start with
  | zero =>
    apply (refl p text start).congr
    simp [Repeats]
  | succ n ih =>
    rw [Regex.options, List.cons_append, stands_cons_iff, stands_append_iff] at hstands
    obtain ⟨hfork, hcode, hrest⟩ := hstands
    have hblock := (h _ hcode).both (ih hrest) (by omega) (by omega)
    have hoption := hblock.option hfork (by omega)
    have hlength : (Regex.options code (n + 1) start).length
        = 1 + (code (start + 1)).length
          + (Regex.options code n (start + 1 + (code (start + 1)).length)).length := by
      simp [Regex.options]
      omega
    rw [hlength, ← Nat.add_assoc, ← Nat.add_assoc]
    apply hoption.congr
    intro i j
    constructor
    · rintro (⟨k, hR, m, hm, hrepeats⟩ | rfl)
      · exact ⟨m + 1, by omega, k, hR, hrepeats⟩
      · exact ⟨0, by omega, rfl⟩
    · rintro ⟨_ | m, hm, hrepeats⟩
      · right
        exact hrepeats
      · obtain ⟨k, hR, hrepeats⟩ := hrepeats
        left
        exact ⟨k, hR, m, by omega, hrepeats⟩

end Realizes

/-! ### The steps of an expression -/

/-- The steps of an expression lead through a text as the expression takes it. -/
theorem realizes_steps (r : Regex) (h : Stands p start (r.steps start)) :
  Realizes p text start (start + (r.steps start).length) (Takes text r)
  := by
  induction r generalizing start with
  | empty => apply Realizes.refl
  | one set =>
    apply Realizes.of_moves
    intro i b j
    rw [moves_iff (stands_cons_iff.mp h).1]
    simp [successors, Takes]
    tauto
  | place condition =>
    apply Realizes.of_moves
    intro i b j
    rw [moves_iff (stands_cons_iff.mp h).1]
    simp [successors, Takes]
    tauto
  | again number =>
    apply Realizes.of_moves
    intro i b j
    rw [moves_iff (stands_cons_iff.mp h).1]
    simp [successors, Takes]
  | both a b iha ihb =>
    rw [steps, stands_append_iff] at h
    rw [steps, List.length_append, ← Nat.add_assoc]
    apply (iha h.1).both (ihb h.2) (by omega) (by omega)
  | either a b iha ihb =>
    have hstands := h
    simp only [steps, List.cons_append, stands_cons_iff, stands_append_iff] at hstands
    obtain ⟨-, ha, -, hb⟩ := hstands
    have hsecond : start + 1 + (a.steps (start + 1)).length + 1
        = start + (a.steps (start + 1)).length + 2 := by omega
    rw [hsecond] at hb
    have hlength : start + ((either a b).steps start).length
        = start + (a.steps (start + 1)).length + 2
          + (b.steps (start + (a.steps (start + 1)).length + 2)).length := by
      simp only [steps, List.length_append, List.length_cons]
      omega
    rw [hlength]
    apply Realizes.either h (iha ha) (ihb hb)
  | group number body ih =>
    simp only [steps, List.cons_append, stands_cons_iff, stands_append_iff] at h
    obtain ⟨hopen, hbody, hclose, -⟩ := h
    have hlength : start + ((group number body).steps start).length
        = start + 1 + (body.steps (start + 1)).length + 1 := by
      simp only [steps, List.length_append, List.length_cons, List.length_nil]
      omega
    rw [hlength]
    have hboth := ((Realizes.mark hopen).both (ih hbody) (by omega) (by omega)).both
      (Realizes.mark hclose) (by omega) (by omega)
    apply hboth.congr
    simp [Takes]
  | times body least most ih =>
    have hbody : ∀ start, Stands p start (body.steps start) →
        Realizes p text start (start + (body.steps start).length) (Takes text body) :=
      fun _ => ih
    cases most with
    | some most =>
      rw [steps, stands_append_iff] at h
      rw [steps, List.length_append, ← Nat.add_assoc]
      have hboth := (Realizes.copies hbody h.1).both (Realizes.options hbody h.2)
        (by omega) (by omega)
      apply hboth.congr
      simp [takes_times_iff]
    | none =>
      rw [steps, List.append_assoc, stands_append_iff] at h
      obtain ⟨hcopies, hloop⟩ := h
      have hcode := hloop
      rw [List.cons_append, stands_cons_iff, stands_append_iff] at hcode
      have hboth := (Realizes.copies hbody hcopies).both (Realizes.loop hloop (ih hcode.2.1))
        (by omega) (by omega)
      have hlength : start + ((times body least none).steps start).length
          = start + (copies body.steps least start).length
            + (body.steps (start + (copies body.steps least start).length + 1)).length + 2 := by
        simp only [steps, List.length_append, List.length_cons, List.length_nil]
        omega
      rw [hlength]
      apply hboth.congr
      simp [takes_times_iff]

/-! ### Programs -/

theorem mem_copies {step : Step} {code : Nat → List Step} (h : step ∈ copies code n start) :
  ∃ a, step ∈ code a
  := by
  induction n generalizing start with
  | zero => cases h
  | succ n ih =>
    obtain h | h := List.mem_append.mp h
    · use start
    · apply ih h

theorem mem_options {step : Step} {code : Nat → List Step} (h : step ∈ options code n start) :
  (∃ first second, step = .fork first second) ∨ ∃ a, step ∈ code a
  := by
  induction n generalizing start with
  | zero => cases h
  | succ n ih =>
    obtain h | h := List.mem_append.mp h
    · obtain rfl | h := List.mem_cons.mp h
      · left
        exact ⟨_, _, rfl⟩
      · right
        use start + 1
    · apply ih h

/-- Whether an expression repeats the text of a group. -/
def repeats : Regex → Bool
  | .again _ => true
  | .both a b | .either a b => a.repeats || b.repeats
  | .times body _ _ | .group _ body => body.repeats
  | .empty | .one _ | .place _ => false

/-- No step of an expression is the end of a program, and only an expression that repeats the text
of a group has a step that does. -/
theorem ne_of_mem_steps {r : Regex} {step : Step} (h : step ∈ r.steps start) :
  step ≠ .accept ∧ ∀ number, step = .again number → r.repeats = true
  := by
  induction r generalizing start with
  | empty => cases h
  | one | place | again =>
    obtain rfl := List.mem_singleton.mp h
    simp [repeats]
  | both a b iha ihb =>
    rw [steps, List.mem_append] at h
    rw [repeats, Bool.or_eq_true]
    obtain h | h := h
    · apply (iha h).imp_right fun hagain number hstep => .inl (hagain number hstep)
    · apply (ihb h).imp_right fun hagain number hstep => .inr (hagain number hstep)
  | either a b iha ihb =>
    simp only [steps, List.mem_append, List.mem_cons] at h
    rw [repeats, Bool.or_eq_true]
    obtain (rfl | h) | rfl | h := h
    · simp
    · apply (iha h).imp_right fun hagain number hstep => .inl (hagain number hstep)
    · simp
    · apply (ihb h).imp_right fun hagain number hstep => .inr (hagain number hstep)
  | group number body ih =>
    simp only [steps, List.mem_append, List.mem_cons, List.not_mem_nil, or_false] at h
    obtain (rfl | h) | rfl := h
    · simp
    · apply ih h
    · simp
  | times body least most ih =>
    cases most with
    | some most =>
      rw [steps, List.mem_append] at h
      obtain h | h := h
      · obtain ⟨a, h⟩ := mem_copies h
        apply ih h
      · obtain ⟨first, second, rfl⟩ | ⟨a, h⟩ := mem_options h
        · simp
        · apply ih h
    | none =>
      simp only [steps, List.mem_append, List.mem_cons, List.not_mem_nil, or_false] at h
      obtain (h | rfl | h) | rfl := h
      · obtain ⟨a, h⟩ := mem_copies h
        apply ih h
      · simp
      · apply ih h
      · simp

theorem repeatsGroup_compile {r : Regex} (h : r.repeats = false) :
  repeatsGroup r.compile = false
  := by
  rw [repeatsGroup, compile, List.any_toArray, List.any_eq_false]
  intro step hstep
  obtain hstep | hstep := List.mem_append.mp hstep
  · cases step with
    | again number => cases h.symm.trans ((ne_of_mem_steps hstep).2 number rfl)
    | one | place | jump | fork | mark | accept => simp
  · obtain rfl := List.mem_singleton.mp hstep
    simp

/-- A program gets to its end at a place of a text, from its start at another place. -/
def Accepts (p : Program) (text : List Char) (i j : Nat) : Prop :=
  ∃ n a, Goes p text n 0 i a j ∧ p[a]? = some .accept

/-- The program of an expression gets to its end where the expression takes the text to. -/
theorem accepts_compile_iff (r : Regex) :
  Accepts r.compile text i j ↔ Takes text r i j
  := by
  have hstands : Stands r.compile 0 (r.steps 0 ++ [.accept]) := by
    intro i step hi
    simpa [compile] using hi
  have hend : ∀ {a}, r.compile[a]? = some .accept ↔ a = (r.steps 0).length := by
    intro a
    rw [compile, List.getElem?_toArray, List.getElem?_append]
    split
    · next hlt =>
      constructor
      · intro h
        cases (ne_of_mem_steps (List.mem_of_getElem? h)).1 rfl
      · rintro rfl
        cases Nat.lt_irrefl _ hlt
    · next hle =>
      rw [List.getElem?_singleton]
      simp
      omega
  have hrealizes : Realizes r.compile text 0 (r.steps 0).length (Takes text r) := by
    simpa using realizes_steps r (stands_append_iff.mp hstands).1
  constructor
  · rintro ⟨n, a, hgoes, haccept⟩
    obtain rfl := hend.mp haccept
    obtain ⟨m, -, k, htakes, hrest⟩ := hrealizes.taken hgoes (.inr (Nat.le_refl _))
    cases hrest with
    | refl => apply htakes
    | step hmove => simp [moves_iff (hend.mpr rfl), successors] at hmove
  · intro htakes
    obtain ⟨n, hgoes⟩ := hrealizes.goes htakes
    exact ⟨n, _, hgoes, hend.mpr rfl⟩

end MutationTesting.Text.Regex
