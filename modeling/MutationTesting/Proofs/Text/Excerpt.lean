import MutationTesting.Proofs.Text.Splice
import MutationTesting.Text.Excerpt

/-!
# What an excerpt keeps of a text

Stepping back from any byte of a text ends, at the last boundary that is not behind that byte
(`stepBack?_eq_some_iff`). No byte of a text is more than three bytes behind a boundary, since no
character has more than four. An excerpt of a text that is too long is therefore its longest
beginning that fits, at most three bytes short of the limit, and a mark (`excerpt_exact`).
-/

namespace MutationTesting.Text

variable {text : String} {n stop : Nat}

/-- Stepping back ends at the last boundary that is not behind the place where it starts. -/
theorem stepBack?_eq_some_iff :
  stepBack? text n = some stop
    ↔ stop ≤ n ∧ (⟨stop⟩ : String.Pos.Raw).IsValid text
      ∧ ∀ m ≤ n, (⟨m⟩ : String.Pos.Raw).IsValid text → m ≤ stop
  := by
  induction n with
  | zero =>
    rw [stepBack?_zero, Option.some_inj]
    constructor
    · rintro rfl
      use Nat.le_refl 0, String.Pos.Raw.isValid_zero
      intro m hm _
      apply hm
    · rintro ⟨hle, -, -⟩
      exact (Nat.le_zero.mp hle).symm
  | succ n ih =>
    rw [stepBack?_succ]
    split
    · next h =>
      have hvalid := String.Pos.Raw.isValid_eq_true_iff.mp h
      rw [Option.some_inj]
      constructor
      · rintro rfl
        use Nat.le_refl _, hvalid
        intro m hm _
        apply hm
      · rintro ⟨hle, -, hlast⟩
        exact Nat.le_antisymm (hlast _ (Nat.le_refl _) hvalid) hle
    · next h =>
      -- byte `n + 1` is no boundary, so nothing is lost by leaving it out
      have hinvalid : ∀ m ≤ n + 1, (⟨m⟩ : String.Pos.Raw).IsValid text → m ≤ n := by
        intro m hm hvalid
        apply Nat.le_of_lt_succ (Nat.lt_of_le_of_ne hm _)
        rintro rfl
        apply h (String.Pos.Raw.isValid_eq_true_iff.mpr hvalid)
      rw [ih]
      constructor
      · rintro ⟨hle, hvalid, hlast⟩
        use Nat.le_succ_of_le hle, hvalid
        intro m hm hm'
        apply hlast m (hinvalid m hm hm') hm'
      · rintro ⟨hle, hvalid, hlast⟩
        use hinvalid stop hle hvalid, hvalid
        intro m hm
        apply hlast m (Nat.le_succ_of_le hm)

/-- A beginning of a text fits into a number of bytes and is at most three bytes shorter, if the
text is not shorter than that. -/
theorem exists_append_of_le_byteLength {cs : List Char} (h : n ≤ byteLength cs) :
  ∃ before after, cs = before ++ after ∧ byteLength before ≤ n ∧ n ≤ byteLength before + 3
  := by
  induction cs generalizing n with
  | nil =>
    use [], [], rfl, Nat.zero_le n
    rw [byteLength_nil] at h
    omega
  | cons c cs ih =>
    by_cases hfits : c.utf8Size ≤ n
    · rw [byteLength_cons] at h
      obtain ⟨before, after, rfl, hle, hge⟩ := @ih (n - c.utf8Size) (by omega)
      use c :: before, after, rfl
      rw [byteLength_cons]
      omega
    · have hsize := c.utf8Size_le_four
      use [], c :: cs, rfl, Nat.zero_le n
      rw [byteLength_nil]
      omega

/-- Boundaries of a text are at most four bytes apart. -/
theorem exists_isValid_of_le (h : n ≤ text.utf8ByteSize) :
  ∃ m ≤ n, n ≤ m + 3 ∧ (⟨m⟩ : String.Pos.Raw).IsValid text
  := by
  rw [utf8ByteSize_eq_byteLength] at h
  obtain ⟨before, after, htext, hle, hge⟩ := exists_append_of_le_byteLength h
  use byteLength before, hle, hge
  apply String.Pos.Raw.isValid_iff_exists_append.mpr
  use String.ofList before, String.ofList after
  rw [← String.ofList_append, ← htext, String.ofList_toList]
  use rfl
  rw [← utf8ByteSize_ofList]
  rfl

theorem excerpt_of_le (h : text.utf8ByteSize ≤ n) :
  excerpt text n = text
  := by
  rw [utf8ByteSize_eq_byteLength] at h
  rw [excerpt, if_pos h]

/-- The excerpt of a long text is what stands before the place where stepping back ends, and the
mark. -/
theorem excerpt_of_stepBack? {kept rest : String} (h : n < (kept ++ rest).utf8ByteSize)
    (hstop : stepBack? (kept ++ rest) n = some kept.utf8ByteSize) :
  excerpt (kept ++ rest) n = kept ++ cutMark
  := by
  rw [utf8ByteSize_eq_byteLength] at h
  rw [excerpt, if_neg (Nat.not_le.mpr h), Option.get_of_eq_some _ hstop,
    utf8ByteSize_eq_byteLength kept, slice_upto String.toList_append, String.ofList_toList]

/-- From every byte of a text, stepping back ends at a boundary. A text that is not longer than
the limit is its own excerpt. Of a longer one the excerpt is its longest beginning within the
limit, which ends where stepping back from the limit ends and at most three bytes before the
limit, and the mark. -/
theorem excerpt_exact (text : String) (limit : Nat) :
  (∀ n, ∃ stop ≤ n, stepBack? text n = some stop ∧ (⟨stop⟩ : String.Pos.Raw).IsValid text)
    ∧ (text.utf8ByteSize ≤ limit → excerpt text limit = text)
    ∧ (limit < text.utf8ByteSize → ∃ kept rest, text = kept ++ rest
      ∧ stepBack? text limit = some kept.utf8ByteSize
      ∧ kept.utf8ByteSize ≤ limit ∧ limit ≤ kept.utf8ByteSize + 3
      ∧ (∀ other more, text = other ++ more → other.utf8ByteSize ≤ limit →
        other.utf8ByteSize ≤ kept.utf8ByteSize)
      ∧ excerpt text limit = kept ++ "...(truncated)")
  := by
  have hends : ∀ n, ∃ stop, stepBack? text n = some stop :=
    fun n => Option.isSome_iff_exists.mp (isSome_stepBack? text n)
  constructor
  · intro n
    obtain ⟨stop, hstop⟩ := hends n
    obtain ⟨hle, hvalid, -⟩ := stepBack?_eq_some_iff.mp hstop
    use stop, hle, hstop
  constructor
  · apply excerpt_of_le
  · intro hlong
    obtain ⟨stop, hstop⟩ := hends limit
    obtain ⟨hle, hvalid, hlast⟩ := stepBack?_eq_some_iff.mp hstop
    obtain ⟨kept, rest, rfl, hkept⟩ := String.Pos.Raw.isValid_iff_exists_append.mp hvalid
    obtain rfl : stop = kept.utf8ByteSize := congrArg String.Pos.Raw.byteIdx hkept
    use kept, rest, rfl, hstop, hle
    constructor
    · obtain ⟨m, hm, hnear, hboundary⟩ := exists_isValid_of_le (Nat.le_of_lt hlong)
      have hstop := hlast m hm hboundary
      omega
    constructor
    · intro other more htext hother
      apply hlast _ hother
      apply String.Pos.Raw.isValid_iff_exists_append.mpr
      use other, more, htext
      rfl
    · apply excerpt_of_stepBack? hlong hstop

/-- A character that is cut in two by the limit is left out. -/
example : excerpt "aé" 2 = "a...(truncated)" := by decide

end MutationTesting.Text
