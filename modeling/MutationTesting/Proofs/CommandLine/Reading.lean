import Mathlib.Data.List.Nodup
import Mathlib.Tactic.Common
import MutationTesting.CommandLine

/-!
# What is read from arguments

Options with their values, written by `flags` one after the other, are read just when each
value passes the check of its option, and then they are what was read. Whatever the arguments
are, what was read from them has passed its checks, `Reading.Checked`, and holds all that is
required.
-/

namespace MutationTesting.CommandLine

/-! ### Steps that may fail -/

theorem exists_of_bind_eq_ok {ε α β : Type} {x : Except ε α} {f : α → Except ε β} {b : β}
    (h : (x >>= f) = .ok b) :
  ∃ a, x = .ok a ∧ f a = .ok b
  := by
  cases x with
  | error e => contradiction
  | ok a =>
    use a, rfl
    exact h

/-! ### Taking arguments in -/

/-- The argument may be found with a value: it takes none, or the value passes its check. -/
def Argument.Admits (a : Argument) (pair : String × String) : Prop :=
  a.name = pair.1 ∧ (a.takesValue = true → a.check pair.2 = none)

namespace Reading

variable {r r' : Reading} {a : Argument} {values : List String}

/-- An argument that takes values is taken in with them, if it may occur and all of them pass
its check. -/
theorem take_of_takesValue (h : a.takesValue = true) (r : Reading) (values : List String) :
  r.take a values
    = if values.isEmpty then .error .invalidValue
      else if a.action = .set && r.has a.name then .error .argumentConflict
      else match values.findSome? a.check with
        | some e => .error e
        | none => .ok { r with found := r.found ++ values.map fun value => (a.name, value) }
  := by
  cases a with
  | mk name short action check required =>
    cases action with
    | set | append => rfl
    | _ => contradiction

/-- To take an argument in adds what the argument admits, and changes nothing else. -/
theorem of_take (h : r.take a values = .ok r') :
  ∃ added, r' = { r with found := r.found ++ added } ∧ ∀ pair ∈ added, a.Admits pair
  := by
  cases htakes : a.takesValue with
  | true =>
    rw [take_of_takesValue htakes] at h
    split at h
    · contradiction
    · split at h
      · contradiction
      · split at h
        · contradiction
        · next hnone =>
          cases h
          use values.map fun value => (a.name, value), rfl
          intro pair hpair
          obtain ⟨value, hvalue, rfl⟩ := List.mem_map.mp hpair
          use rfl
          intro
          exact List.findSome?_eq_none_iff.mp hnone value hvalue
  | false =>
    cases haction : a.action with
    | flag =>
      simp only [take, haction] at h
      split at h
      · contradiction
      · cases h
        use [(a.name, "true")], rfl
        simp [Argument.Admits, htakes]
    | help | version =>
      simp [take, haction] at h
    | set | append =>
      simp [Argument.takesValue, haction] at htakes

/-- To settle a reading adds what the last argument admits, and changes nothing else. -/
theorem of_settle (h : r.settle = .ok r') :
  ∃ added, r' = { r with found := r.found ++ added, pending := none }
    ∧ ∀ pair ∈ added, ∃ a values, r.pending = some (a, values) ∧ a.Admits pair
  := by
  rw [settle] at h
  split at h
  · next hnone =>
    cases h
    use []
    simp [← hnone]
  · next a values hsome =>
    obtain ⟨added, rfl, hadmits⟩ := of_take h
    use added, rfl
    intro pair hpair
    exact ⟨a, values, hsome, hadmits pair hpair⟩

/-- What has been read is what the arguments of a command admit. -/
structure Checked (s : Form) (r : Reading) : Prop where
  found : ∀ pair ∈ r.found, ∃ a ∈ s.options ++ s.positionals, a.Admits pair
  pending : ∀ a values, r.pending = some (a, values) → a ∈ s.options ++ s.positionals

namespace Checked

variable {s : Form}

theorem take (hr : r.Checked s) (ha : a ∈ s.options ++ s.positionals)
    (h : r.take a values = .ok r') :
  r'.Checked s
  := by
  obtain ⟨added, rfl, hadmits⟩ := of_take h
  constructor
  · intro pair hpair
    obtain hpair | hpair := List.mem_append.mp hpair
    · exact hr.found pair hpair
    · exact ⟨a, ha, hadmits pair hpair⟩
  · exact hr.pending

theorem settle (hr : r.Checked s) (h : r.settle = .ok r') :
  r'.Checked s
  := by
  obtain ⟨added, rfl, hadmits⟩ := of_settle h
  constructor
  · intro pair hpair
    obtain hpair | hpair := List.mem_append.mp hpair
    · exact hr.found pair hpair
    · obtain ⟨a, values, hpending, hadmits⟩ := hadmits pair hpair
      exact ⟨a, hr.pending a values hpending, hadmits⟩
  · intros
    contradiction

theorem complete (hr : r.Checked s) (ha : a ∈ s.options ++ s.positionals)
    (h : r.complete a values = .ok r') :
  r'.Checked s
  := by
  obtain ⟨r₁, hsettle, htake⟩ := exists_of_bind_eq_ok h
  have hr₁ := hr.settle hsettle
  apply take _ ha htake
  exact ⟨hr₁.found, hr₁.pending⟩

theorem await (hr : r.Checked s) (ha : a ∈ s.options ++ s.positionals)
    (h : r.await a = .ok r') :
  r'.Checked s
  := by
  obtain ⟨r₁, hsettle, hawait⟩ := exists_of_bind_eq_ok h
  cases hawait
  constructor
  · exact (hr.settle hsettle).found
  · rintro a' values ⟨⟩
    exact ha

theorem readLong (hr : r.Checked s) {text : List Char} (h : s.readLong r text = .ok r') :
  r'.Checked s
  := by
  rw [Form.readLong] at h
  split at h
  next name value _ =>
    split at h
    · contradiction
    · next a value hlong _ =>
      have ha := List.mem_append_left s.positionals (List.mem_of_find?_eq_some hlong)
      split at h
      · exact hr.complete ha h
      · contradiction
    · next a hlong _ =>
      have ha := List.mem_append_left s.positionals (List.mem_of_find?_eq_some hlong)
      split at h
      · exact hr.await ha h
      · exact hr.complete ha h

theorem readShort (hr : r.Checked s) {text : List Char} (h : s.readShort r text = .ok r') :
  r'.Checked s
  := by
  induction text generalizing r with
  | nil =>
    cases h
    exact hr
  | cons c cs ih =>
    rw [Form.readShort] at h
    split at h
    · contradiction
    · next a hshort =>
      have ha := List.mem_append_left s.positionals (List.mem_of_find?_eq_some hshort)
      split at h
      · split at h
        · exact hr.await ha h
        · exact hr.complete ha h
        · exact hr.complete ha h
      · obtain ⟨r₁, hcomplete, hrest⟩ := exists_of_bind_eq_ok h
        exact ih (hr.complete ha hcomplete) hrest

theorem readPositional (hr : r.Checked s) {arg : String}
    (h : s.readPositional r arg = .ok r') :
  r'.Checked s
  := by
  rw [Form.readPositional] at h
  split at h
  · contradiction
  · next a hposition =>
    obtain ⟨r₁, hsettle, hpending⟩ := exists_of_bind_eq_ok h
    cases hpending
    constructor
    · exact (hr.settle hsettle).found
    · rintro a' values ⟨⟩
      exact List.mem_append_right s.options (List.mem_of_getElem? hposition)

theorem readFrom (hr : r.Checked s) {args : List String} {rest : Option (String × List String)}
    (h : s.readFrom r args = .ok (r', rest)) :
  r'.Checked s
  := by
  induction args generalizing r with
  | nil =>
    cases h
    exact hr
  | cons arg args ih =>
    have hthen {x : Except UsageError Reading} (hx : ∀ r₁, x = .ok r₁ → r₁.Checked s)
        (hrest : (x >>= fun r₁ => s.readFrom r₁ args) = .ok (r', rest)) : r'.Checked s := by
      obtain ⟨r₁, hr₁, hrest⟩ := exists_of_bind_eq_ok hrest
      exact ih (hx r₁ hr₁) hrest
    rw [Form.readFrom] at h
    split at h
    · exact hthen (fun r₁ => hr.readPositional) h
    · split at h
      · cases h
        exact hr
      · split at h
        · apply ih _ h
          exact ⟨hr.found, hr.pending⟩
        · exact hthen (fun r₁ => hr.readLong) h
        · exact hthen (fun r₁ => hr.readShort) h
        · split at h
          · next a values _ hpending =>
            apply ih _ h
            constructor
            · exact hr.found
            · rintro a' values' ⟨⟩
              exact hr.pending a values hpending
          · exact hthen (fun r₁ => hr.readPositional) h

/-- A value that is read for a name is one that an argument of that name admits. -/
theorem value? (hr : r.Checked s) {name value : String} (h : r.value? name = some value) :
  ∃ a ∈ s.options ++ s.positionals, a.Admits (name, value)
  := by
  rw [Reading.value?, Reading.values, List.head?_map] at h
  obtain ⟨pair, hhead, rfl⟩ := Option.map_eq_some_iff.mp h
  obtain ⟨hmem, hname⟩ := List.mem_filter.mp (List.mem_of_head? hhead)
  rw [beq_iff_eq] at hname
  rw [← hname]
  exact hr.found pair hmem

end Checked

end Reading

namespace Form

/-- Arguments are read when all of them can be taken in and all that is required was found. -/
theorem read_eq_ok_iff {s : Form} {args : List String} {r : Reading} :
  s.read args = .ok r
    ↔ (∃ r₁ rest, s.readFrom {} args = .ok (r₁, rest) ∧ r₁.settle = .ok r)
      ∧ ∀ a ∈ s.options ++ s.positionals, a.required = true → r.has a.name = true
  := by
  have hfinish {r₁ r₂ : Reading} (h : r₁.settle = .ok r₂) :
      s.finish r₁ = .ok r
        ↔ r₂ = r ∧ ∀ a ∈ s.options ++ s.positionals, a.required = true → r.has a.name = true := by
    rw [finish, h]
    change (if _ then _ else _) = _ ↔ _
    split
    · next hmissing =>
      obtain ⟨a, ha, hmissing⟩ := List.any_eq_true.mp hmissing
      rw [Bool.and_eq_true, Bool.not_eq_true'] at hmissing
      constructor
      · intro
        contradiction
      · rintro ⟨rfl, hrequired⟩
        rw [hrequired a ha hmissing.1] at hmissing
        exact absurd hmissing.2 (by decide)
    · next hmissing =>
      constructor
      · rintro ⟨⟩
        use rfl
        intro a ha hrequired
        simp only [List.any_eq_true, not_exists, not_and, Bool.and_eq_true, Bool.not_eq_true',
          Bool.not_eq_false] at hmissing
        exact hmissing a ha hrequired
      · rintro ⟨rfl, -⟩
        rfl
  constructor
  · intro h
    obtain ⟨⟨r₁, rest⟩, hread, hrest⟩ := exists_of_bind_eq_ok h
    obtain ⟨r₂, hsettle, -⟩ := exists_of_bind_eq_ok hrest
    obtain ⟨rfl, hrequired⟩ := (hfinish hsettle).mp hrest
    exact ⟨⟨r₁, rest, hread, hsettle⟩, hrequired⟩
  · rintro ⟨⟨r₁, rest, hread, hsettle⟩, hrequired⟩
    rw [read, hread]
    exact (hfinish hsettle).mpr ⟨rfl, hrequired⟩

/-- What is read from arguments has passed its checks. -/
theorem checked_of_read {s : Form} {args : List String} {r : Reading} (h : s.read args = .ok r) :
  r.Checked s
  := by
  obtain ⟨⟨r₁, rest, hread, hsettle⟩, -⟩ := read_eq_ok_iff.mp h
  have hempty : ({} : Reading).Checked s := ⟨by simp, by simp⟩
  exact (hempty.readFrom hread).settle hsettle

end Form

/-! ### Options with their values -/

/-- Arguments that give options their values. -/
def flags (pairs : List (String × String)) : List String :=
  pairs.flatMap fun (name, value) => ["--" ++ name, value]

/-- A text that is read as a value where one may follow: a dash that it starts with is all of
it. -/
def IsValue (text : String) : Prop :=
  text.toList.head? = some '-' → text = "-"

instance (text : String) : Decidable (IsValue text) :=
  inferInstanceAs (Decidable (_ → _))

theorem IsValue.toList_ne {text : String} (h : IsValue text) (c : Char) (cs : List Char) :
  text.toList ≠ '-' :: c :: cs
  := by
  intro htext
  rw [h (by rw [htext]; rfl)] at htext
  simp at htext

/-- The command takes an option of a name with a value, once. -/
structure Form.Takes (s : Form) (name : String) (a : Argument) : Prop where
  long : s.long? name = some a
  action : a.action = .set
  ne_empty : name.toList ≠ []
  plain : Text.firstSplit? ['='] name.toList = none

namespace Form

variable {s : Form} {r r' : Reading} {name value : String} {a : Argument}

theorem Takes.name_eq (h : s.Takes name a) :
  a.name = name
  := by
  have hfound := List.find?_some h.long
  simpa using hfound

theorem Takes.takesValue (h : s.Takes name a) :
  a.takesValue = true
  := by
  rw [Argument.takesValue, h.action]
  rfl

/-! ### Reading options with their values -/


theorem Takes.readLong_eq (h : s.Takes name a) (r : Reading) :
  s.readLong r name.toList = r.await a
  := by
  rw [readLong, h.plain]
  simp only [String.ofList_toList, h.long, h.takesValue, ↓reduceIte]

/-- An option in its long form is noted as the last argument and awaits its value, once what stands
before it has been taken in. -/
theorem readFrom_long (h : s.Takes name a) (hs : s.subcommands = []) (hr : r.trailing = false)
    (args : List String) :
  s.readFrom r (("--" ++ name) :: args)
    = r.settle >>= fun r' =>
      s.readFrom { r' with pending := some (a, []), awaiting := true } args
  := by
  obtain ⟨c, cs, hname⟩ := List.exists_cons_of_ne_nil h.ne_empty
  have hflag : ("--" ++ name).toList = '-' :: '-' :: c :: cs := by
    simp [hname]
  rw [readFrom, hr, hs, hflag]
  simp only [List.contains_nil, Bool.and_false, Bool.false_eq_true, ↓reduceIte]
  rw [← hname, h.readLong_eq, Reading.await]
  cases r.settle <;> rfl

/-- An option in its long form with a value after it is noted as the last argument, once what
stands before it has been taken in. -/
theorem readFrom_flag (h : s.Takes name a) (hs : s.subcommands = []) (hr : r.trailing = false)
    (hvalue : IsValue value) (rest : List String) :
  s.readFrom r (("--" ++ name) :: value :: rest)
    = r.settle >>= fun r' =>
      s.readFrom { r' with pending := some (a, [value]), awaiting := false } rest
  := by
  rw [readFrom_long h hs hr]
  cases hsettle : r.settle with
  | error e => rfl
  | ok r' =>
    have htrailing : r'.trailing = false := by
      obtain ⟨added, rfl, -⟩ := Reading.of_settle hsettle
      exact hr
    change s.readFrom _ (value :: rest) = s.readFrom _ rest
    rw [readFrom]
    simp only [htrailing, Bool.false_eq_true, ↓reduceIte, Bool.not_true, Bool.false_and]
    split
    · next hdash => exact absurd hdash (hvalue.toList_ne _ _)
    · next hdash => exact absurd hdash (hvalue.toList_ne _ _)
    · next hdash => exact absurd hdash (hvalue.toList_ne _ _)
    · rfl

/-- An option that still awaits its value cannot be taken in. -/
theorem settle_of_awaiting (ha : a.takesValue = true) (hr : r.pending = some (a, [])) :
  r.settle = .error .invalidValue
  := by
  rw [Reading.settle, hr]
  exact Reading.take_of_takesValue ha _ []

theorem complete_of_awaiting (ha : a.takesValue = true) (hr : r.pending = some (a, []))
    (a' : Argument) (values : List String) :
  r.complete a' values = .error .invalidValue
  := by
  rw [Reading.complete, settle_of_awaiting ha hr]
  rfl

theorem await_of_awaiting (ha : a.takesValue = true) (hr : r.pending = some (a, []))
    (a' : Argument) :
  r.await a' = .error .invalidValue
  := by
  rw [Reading.await, settle_of_awaiting ha hr]
  rfl

/-- After an option that awaits its value nothing is read that starts with a dash but is more. -/
theorem isValue_of_readFrom (hs : s.subcommands = []) (hpositionals : s.positionals = [])
    (ha : a.takesValue = true) (hr : r.pending = some (a, [])) (htrailing : r.trailing = false)
    {args : List String} {rest : Option (String × List String)} {r'' : Reading}
    (h : s.readFrom r (value :: args) = .ok (r', rest)) (hsettle : r'.settle = .ok r'') :
  IsValue value
  := by
  intro hdash
  rw [readFrom, htrailing, hs] at h
  simp only [List.contains_nil, Bool.and_false, Bool.false_eq_true, ↓reduceIte] at h
  split at h
  · -- All that follows would be positional arguments.
    cases args with
    | nil =>
      cases h
      cases hsettle.symm.trans (settle_of_awaiting ha hr)
    | cons arg args =>
      rw [readFrom, readPositional, hpositionals] at h
      simp at h
      contradiction
  · obtain ⟨r₁, hlong, -⟩ := exists_of_bind_eq_ok h
    rw [readLong] at hlong
    simp only [complete_of_awaiting ha hr, await_of_awaiting ha hr] at hlong
    split at hlong <;> (try split at hlong) <;> contradiction
  · obtain ⟨r₁, hshort, -⟩ := exists_of_bind_eq_ok h
    rw [readShort] at hshort
    simp only [complete_of_awaiting ha hr, await_of_awaiting ha hr] at hshort
    split at hshort
    · contradiction
    · split at hshort
      · split at hshort <;> contradiction
      · contradiction
  · next hnot =>
    cases hvalue : value.toList with
    | nil =>
      rw [hvalue] at hdash
      contradiction
    | cons c cs =>
      rw [hvalue] at hdash
      cases hdash
      cases cs with
      | nil => apply String.toList_inj.mp hvalue
      | cons c cs => cases hnot c cs hvalue
/-- Where options are read with what stands after them, these are values. -/
theorem isValue_of_readFrom_flags (hs : s.subcommands = []) (hpositionals : s.positionals = [])
    {pairs : List (String × String)} (htakes : ∀ pair ∈ pairs, ∃ a, s.Takes pair.1 a)
    (hr : r.trailing = false) {rest : Option (String × List String)} {r'' : Reading}
    (h : s.readFrom r (flags pairs) = .ok (r', rest)) (hsettle : r'.settle = .ok r'') :
  ∀ pair ∈ pairs, IsValue pair.2
  := by
  induction pairs generalizing r with
  | nil => simp
  | cons pair pairs ih =>
    obtain ⟨name, value⟩ := pair
    rw [List.forall_mem_cons] at htakes ⊢
    obtain ⟨⟨a, ha⟩, htakes⟩ := htakes
    have hvalue : IsValue value := by
      have hfirst := readFrom_long ha hs hr (value :: flags pairs)
      obtain ⟨r₁, hr₁, hread⟩ := exists_of_bind_eq_ok (hfirst.symm.trans h)
      obtain ⟨added, rfl, -⟩ := Reading.of_settle hr₁
      refine isValue_of_readFrom hs hpositionals ha.takesValue ?_ ?_ hread hsettle
      · rfl
      · exact hr
    use hvalue
    have hfirst := readFrom_flag ha hs hr hvalue (flags pairs)
    obtain ⟨r₁, hr₁, hread⟩ := exists_of_bind_eq_ok (hfirst.symm.trans h)
    obtain ⟨added, rfl, -⟩ := Reading.of_settle hr₁
    refine ih htakes ?_ hread
    exact hr

/-- An option that has not been found is taken in just when its value passes the check. -/
theorem Takes.take_eq_ok_iff (h : s.Takes name a) {found : List (String × String)}
    (hnew : name ∉ found.map (·.1)) :
  ({ found := found } : Reading).take a [value] = .ok r'
    ↔ a.check value = none ∧ r' = { found := found ++ [(name, value)] }
  := by
  have hhas : ({ found := found } : Reading).has a.name = false := by
    rw [h.name_eq, Reading.has, List.any_eq_false]
    intro pair hpair hname
    apply hnew
    rw [beq_iff_eq] at hname
    rw [← hname]
    exact List.mem_map_of_mem hpair
  rw [Reading.take_of_takesValue h.takesValue, hhas, h.name_eq]
  cases hcheck : a.check value with
  | none => simp [hcheck, eq_comm]
  | some e => simp [hcheck]

/-- Options with their values are read from a reading whose last argument is an option just
when all the values pass their checks, and are found in their order. -/
theorem readFrom_flags_iff (hs : s.subcommands = []) {pairs found : List (String × String)}
    (htakes : ∀ pair ∈ pairs, ∃ a, s.Takes pair.1 a) (hvalues : ∀ pair ∈ pairs, IsValue pair.2)
    (h : s.Takes name a) (hnew : (found.map (·.1) ++ name :: pairs.map (·.1)).Nodup) :
  (∃ r rest, s.readFrom { found := found, pending := some (a, [value]) } (flags pairs)
      = .ok (r, rest) ∧ r.settle = .ok r')
    ↔ r' = { found := found ++ (name, value) :: pairs } ∧ a.check value = none
      ∧ ∀ pair ∈ pairs, ∀ a, s.long? pair.1 = some a → a.check pair.2 = none
  := by
  have hname : name ∉ found.map (·.1) := by
    rw [List.nodup_append] at hnew
    intro hmem
    exact hnew.2.2 name hmem name List.mem_cons_self rfl
  induction pairs generalizing found name value a with
  | nil =>
    constructor
    · rintro ⟨r, rest, ⟨⟩, hsettle⟩
      obtain ⟨hcheck, rfl⟩ := (h.take_eq_ok_iff hname).mp hsettle
      simp [hcheck]
    · rintro ⟨rfl, hcheck, -⟩
      refine ⟨_, none, rfl, ?_⟩
      exact (h.take_eq_ok_iff hname).mpr ⟨hcheck, rfl⟩
  | cons pair pairs ih =>
    obtain ⟨name', value'⟩ := pair
    obtain ⟨a', ha'⟩ := htakes _ List.mem_cons_self
    have hstep : s.readFrom { found := found, pending := some (a, [value]) }
        (flags ((name', value') :: pairs))
        = ({ found := found } : Reading).take a [value] >>= fun r =>
          s.readFrom { r with pending := some (a', [value']), awaiting := false } (flags pairs) :=
      readFrom_flag ha' hs rfl (hvalues _ List.mem_cons_self) (flags pairs)
    have hnew' : ((found ++ [(name, value)]).map (·.1) ++ name' :: pairs.map (·.1)).Nodup := by
      simpa using hnew
    have hname' : name' ∉ (found ++ [(name, value)]).map (·.1) := by
      rw [List.nodup_append] at hnew'
      intro hmem
      exact hnew'.2.2 name' hmem name' List.mem_cons_self rfl
    have hrest := @ih name' value' a' (found ++ [(name, value)])
      (fun pair hpair => htakes pair (List.mem_cons_of_mem _ hpair))
      (fun pair hpair => hvalues pair (List.mem_cons_of_mem _ hpair)) ha' hnew' hname'
    rw [hstep]
    constructor
    · rintro ⟨r, rest, hread, hsettle⟩
      obtain ⟨r₁, htake, hread⟩ := exists_of_bind_eq_ok hread
      obtain ⟨hcheck, rfl⟩ := (h.take_eq_ok_iff hname).mp htake
      obtain ⟨rfl, hcheck', hchecks⟩ := hrest.mp ⟨r, rest, hread, hsettle⟩
      rw [List.append_assoc]
      use rfl, hcheck
      rw [List.forall_mem_cons]
      use fun a ha => by rwa [← Option.some.inj (ha'.long.symm.trans ha)]
    · rintro ⟨rfl, hcheck, hchecks⟩
      rw [List.forall_mem_cons] at hchecks
      rw [(h.take_eq_ok_iff hname).mpr ⟨hcheck, rfl⟩]
      apply hrest.mpr
      rw [List.append_assoc]
      exact ⟨rfl, hchecks.1 a' ha'.long, hchecks.2⟩

/-- Options with their values are read just when all the values pass their checks, and are
then all that was found. -/
theorem read_flags_iff (hs : s.subcommands = []) {pairs : List (String × String)}
    (htakes : ∀ pair ∈ pairs, ∃ a, s.Takes pair.1 a) (hvalues : ∀ pair ∈ pairs, IsValue pair.2)
    (hnew : (pairs.map (·.1)).Nodup)
    (hrequired : ∀ a ∈ s.options ++ s.positionals, a.required = true → a.name ∈ pairs.map (·.1)) :
  s.read (flags pairs) = .ok r
    ↔ r = { found := pairs }
      ∧ ∀ pair ∈ pairs, ∀ a, s.long? pair.1 = some a → a.check pair.2 = none
  := by
  have hread :
      (∃ r₁ rest, s.readFrom {} (flags pairs) = .ok (r₁, rest) ∧ r₁.settle = .ok r)
        ↔ r = { found := pairs }
          ∧ ∀ pair ∈ pairs, ∀ a, s.long? pair.1 = some a → a.check pair.2 = none := by
    cases pairs with
    | nil =>
      constructor
      · rintro ⟨r₁, rest, ⟨⟩, ⟨⟩⟩
        simp
      · rintro ⟨rfl, -⟩
        exact ⟨{}, none, rfl, rfl⟩
    | cons pair pairs =>
      obtain ⟨name, value⟩ := pair
      rw [List.forall_mem_cons] at htakes hvalues
      obtain ⟨a, ha⟩ := htakes.1
      have hnew' : (([] : List (String × String)).map (·.1) ++ name :: pairs.map (·.1)).Nodup :=
        hnew
      have hfirst : s.readFrom {} (flags ((name, value) :: pairs))
          = s.readFrom { pending := some (a, [value]) } (flags pairs) :=
        readFrom_flag ha hs rfl hvalues.1 (flags pairs)
      rw [hfirst, readFrom_flags_iff hs htakes.2 hvalues.2 ha hnew', List.forall_mem_cons]
      simp [ha.long]
  rw [read_eq_ok_iff, hread]
  constructor
  · rintro ⟨h, -⟩
    exact h
  · rintro h
    use h
    intro a ha hrequire
    obtain ⟨pair, hpair, hname⟩ := List.mem_map.mp (hrequired a ha hrequire)
    rw [h.1, Reading.has, List.any_eq_true]
    use pair, hpair
    rw [beq_iff_eq]
    exact hname

end Form

/-! ### Options that may have a value -/

/-- The options that have a value, with it. -/
def given (entries : List (String × Option String)) : List (String × String) :=
  entries.filterMap fun (name, value) => value.map fun text => (name, text)

section

variable {entries : List (String × Option String)} {name text : String}

theorem mem_given_iff :
  (name, text) ∈ given entries ↔ (name, some text) ∈ entries
  := by
  rw [given, List.mem_filterMap]
  constructor
  · rintro ⟨⟨name', value⟩, hmem, hvalue⟩
    obtain ⟨text', rfl, hpair⟩ := Option.map_eq_some_iff.mp hvalue
    cases hpair
    exact hmem
  · intro hmem
    use (name, some text), hmem
    rfl

theorem names_given_sublist (entries : List (String × Option String)) :
  ((given entries).map (·.1)).Sublist (entries.map (·.1))
  := by
  induction entries with
  | nil => exact List.Sublist.refl []
  | cons entry entries ih =>
    obtain ⟨name, value⟩ := entry
    cases value with
    | none => exact ih.cons name
    | some text => exact ih.cons_cons name

theorem has_eq_isSome_value? (r : Reading) (name : String) :
  r.has name = (r.value? name).isSome
  := by
  rw [Reading.value?, Reading.values, List.head?_map, List.head?_filter, Option.isSome_map,
    Reading.has, Bool.eq_iff_iff, List.find?_isSome, List.any_eq_true]

theorem value?_given_of_not_mem (h : name ∉ entries.map (·.1)) :
  ({ found := given entries } : Reading).value? name = none
  := by
  rw [Reading.value?, Reading.values, List.head?_eq_none_iff, List.map_eq_nil_iff,
    List.filter_eq_nil_iff]
  rintro ⟨name', text⟩ hmem hname
  rw [beq_iff_eq] at hname
  apply h
  rw [← hname]
  exact (names_given_sublist entries).subset (List.mem_map_of_mem hmem)

/-- The value of an option that stands once is read from the options that have one. -/
theorem value?_given (h : (entries.map (·.1)).Nodup) {value : Option String}
    (hmem : (name, value) ∈ entries) :
  ({ found := given entries } : Reading).value? name = value
  := by
  induction entries with
  | nil => contradiction
  | cons entry entries ih =>
    obtain ⟨name', value'⟩ := entry
    rw [List.map_cons, List.nodup_cons] at h
    have hskip (hname : name' ≠ name ∨ value' = none) :
        ({ found := given ((name', value') :: entries) } : Reading).value? name
          = ({ found := given entries } : Reading).value? name := by
      cases value' with
      | none => rfl
      | some text =>
        obtain hname | hname := hname
        · simp [Reading.value?, Reading.values, given, hname]
        · contradiction
    obtain hhead | htail := List.mem_cons.mp hmem
    · cases hhead
      cases value with
      | none =>
        rw [hskip (.inr rfl)]
        exact value?_given_of_not_mem h.1
      | some text => simp [Reading.value?, Reading.values, given]
    · have hname : name' ≠ name := by
        rintro rfl
        exact h.1 (List.mem_map.mpr ⟨_, htail, rfl⟩)
      rw [hskip (.inl hname), ih h.2 htail]

end

end MutationTesting.CommandLine
