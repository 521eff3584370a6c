import MutationTesting.Proofs.Json.Numerals
import MutationTesting.Proofs.Json.Strings

/-!
# Values as they are printed

A value is `Json.Plain` if its numbers are numerals and all of its strings and names are texts. Such
a value is read back from the text that is printed for it, with blanks around it.
-/

namespace MutationTesting.Json

/-- Numbers are numerals, and strings and names are texts. -/
inductive Plain : Json → Prop where
  | null : Plain .null
  | bool (value : Bool) : Plain (.bool value)
  | number (n : Numeral) : Plain (.number (String.ofList n.text))
  | string (text : String) : Plain (.string text)
  | array {items : List Json} (h : ∀ item ∈ items, Plain item) : Plain (.array items)
  | object {fields : List (String × Json)} (h : ∀ field ∈ fields, Plain field.2) :
    Plain (.object fields)

/-! ### Blanks -/

theorem skipSpace_cons {c : Char} (h : isSpace c = false) (cs : List Char) :
  skipSpace (c :: cs) = c :: cs
  := by
  rw [skipSpace, List.dropWhile_cons_of_neg (by simp [h])]

theorem skipSpace_append {blanks : List Char} (h : ∀ c ∈ blanks, isSpace c = true)
    (cs : List Char) :
  skipSpace (blanks ++ cs) = skipSpace cs
  := List.dropWhile_append_of_pos h

theorem toList_newline (level : Nat) :
  (newline level).toList = '\n' :: List.replicate (2 * level) ' '
  := by
  simp [newline]

theorem skipSpace_newline (level : Nat) (cs : List Char) :
  skipSpace ((newline level).toList ++ cs) = skipSpace cs
  := by
  apply skipSpace_append
  rw [toList_newline]
  intro c hc
  obtain rfl | hc := List.mem_cons.mp hc
  · rfl
  · rw [List.eq_of_mem_replicate hc]
    rfl

theorem ends_newline (level : Nat) (cs : List Char) :
  Ends ((newline level).toList ++ cs)
  := by
  rw [toList_newline]
  rintro c ⟨⟩
  rfl

theorem skipSpace_skipSpace (cs : List Char) :
  skipSpace (skipSpace cs) = skipSpace cs
  := by
  rw [skipSpace, skipSpace, List.dropWhile_idempotent]

/-- Blanks before a value are skipped. -/
theorem value?_of_skipSpace_eq {fuel : Nat} {cs cs' : List Char}
    (h : skipSpace cs = skipSpace cs') :
  value? fuel cs = value? fuel cs'
  := by
  cases fuel with
  | zero => rfl
  | succ fuel => rw [value?, h, ← value?]

theorem items?_of_skipSpace_eq {fuel : Nat} {before : List Json} {cs cs' : List Char}
    (h : skipSpace cs = skipSpace cs') :
  items? fuel before cs = items? fuel before cs'
  := by
  cases fuel with
  | zero => rfl
  | succ fuel => rw [items?, items?, value?_of_skipSpace_eq h]

theorem fields?_of_skipSpace_eq {fuel : Nat} {before : Option (List (String × Json))}
    {cs cs' : List Char} (h : skipSpace cs = skipSpace cs') :
  fields? fuel before cs = fields? fuel before cs'
  := by
  cases fuel with
  | zero => rfl
  | succ fuel => rw [fields?, fields?, h]

/-! ### Texts -/

theorem toList_prettyAt_array {items : List Json} (hne : items ≠ []) (level : Nat) :
  (prettyAt level (.array items)).toList
    = '[' :: ((prettyItems (level + 1) items).toList ++ ((newline level).toList ++ [']']))
  := by
  cases items with
  | nil => contradiction
  | cons item items => simp [prettyAt]

theorem toList_prettyAt_object {fields : List (String × Json)} (hne : fields ≠ [])
    (level : Nat) :
  (prettyAt level (.object fields)).toList
    = '\x7b' :: ((prettyFields (level + 1) fields).toList
      ++ ((newline level).toList ++ ['\x7d']))
  := by
  cases fields with
  | nil => contradiction
  | cons field fields => simp [prettyAt]

theorem toList_prettyItems_singleton (level : Nat) (item : Json) :
  (prettyItems level [item]).toList = (newline level).toList ++ (prettyAt level item).toList
  := by
  simp [prettyItems]

theorem toList_prettyItems_cons {items : List Json} (hne : items ≠ []) (level : Nat)
    (item : Json) :
  (prettyItems level (item :: items)).toList
    = (newline level).toList
      ++ ((prettyAt level item).toList ++ (',' :: (prettyItems level items).toList))
  := by
  cases items with
  | nil => contradiction
  | cons next items => simp [prettyItems]

/-- A field as it is printed on a line of its own. -/
theorem toList_prettyFields_singleton (level : Nat) (name : String) (value : Json) :
  (prettyFields level [(name, value)]).toList
    = (newline level).toList ++ '"' :: (name.toList.flatMap escape
      ++ '"' :: ':' :: ' ' :: (prettyAt level value).toList)
  := by
  simp [prettyFields, toList_printString]

theorem toList_prettyFields_cons {fields : List (String × Json)} (hne : fields ≠ [])
    (level : Nat) (name : String) (value : Json) :
  (prettyFields level ((name, value) :: fields)).toList
    = (newline level).toList ++ '"' :: (name.toList.flatMap escape
      ++ '"' :: ':' :: ' ' :: ((prettyAt level value).toList
        ++ ',' :: (prettyFields level fields).toList))
  := by
  cases fields with
  | nil => contradiction
  | cons next fields => simp [prettyFields, toList_printString]

theorem length_newline_pos (level : Nat) :
  0 < (newline level).toList.length
  := by
  simp [toList_newline]

/-! ### Values -/

/-- A value is read back from its printed form, whatever follows, when there is fuel for its
length. -/
def ReadsBack (json : Json) : Prop :=
  ∀ level fuel rest, Ends rest → (prettyAt level json).toList.length ≤ fuel →
    value? fuel ((prettyAt level json).toList ++ rest) = some (json, rest)

theorem ends_comma (cs : List Char) :
  Ends (',' :: cs)
  := by
  rintro c ⟨⟩
  rfl

/-- The first character of a number is no blank. -/
theorem isSpace_of_numeral {c : Char} (h : c = '-' ∨ isDigit c = true) :
  isSpace c = false
  := by
  obtain rfl | hdigit := h
  · rfl
  · cases hspace : isSpace c with
    | false => rfl
    | true =>
      simp only [isSpace, Bool.or_eq_true, beq_iff_eq] at hspace
      obtain ((rfl | rfl) | rfl) | rfl := hspace <;> contradiction

/-- What is printed for a value starts with a character that is no blank and closes no array. -/
theorem Plain.exists_prettyAt_eq_cons {json : Json} (h : json.Plain) (level : Nat) :
  ∃ c cs, (prettyAt level json).toList = c :: cs ∧ isSpace c = false ∧ c ≠ ']'
  := by
  cases h with
  | null => exact ⟨'n', ['u', 'l', 'l'], by simp [prettyAt], by decide⟩
  | bool value =>
    cases value with
    | true => exact ⟨'t', ['r', 'u', 'e'], by simp [prettyAt], by decide⟩
    | false => exact ⟨'f', ['a', 'l', 's', 'e'], by simp [prettyAt], by decide⟩
  | number n =>
    obtain ⟨c, cs, htext, hc⟩ := n.exists_text_eq_cons
    use c, cs
    rw [prettyAt, String.toList_ofList]
    refine ⟨htext, isSpace_of_numeral hc, ?_⟩
    rintro rfl
    simp [isDigit] at hc
  | string text =>
    rw [prettyAt, toList_printString]
    exact ⟨'"', _, rfl, by decide⟩
  | @array items =>
    by_cases hne : items = []
    · subst hne
      exact ⟨'[', [']'], by simp [prettyAt], by decide⟩
    · rw [toList_prettyAt_array hne]
      exact ⟨'[', _, rfl, by decide⟩
  | @object fields =>
    by_cases hne : fields = []
    · subst hne
      exact ⟨'\x7b', ['\x7d'], by simp [prettyAt], by decide⟩
    · rw [toList_prettyAt_object hne]
      exact ⟨'\x7b', _, rfl, by decide⟩

/-- What starts like a number is read as one. -/
theorem value?_of_numeral {c : Char} (hc : c = '-' ∨ isDigit c = true) (fuel : Nat)
    (cs : List Char) :
  value? (fuel + 1) (c :: cs)
    = (number? (c :: cs)).bind fun (text, rest) => some (.number (String.ofList text), rest)
  := by
  rw [value?, skipSpace_cons (isSpace_of_numeral hc)]
  split
  case h_7 => rfl
  all_goals
    next heq =>
      obtain ⟨rfl, rfl⟩ := List.cons.inj heq
      simp [isDigit] at hc

theorem readsBack_number (n : Numeral) :
  ReadsBack (.number (String.ofList n.text))
  := by
  intro level fuel rest hrest hfuel
  obtain ⟨c, cs, htext, hc⟩ := n.exists_text_eq_cons
  rw [prettyAt, String.toList_ofList] at hfuel ⊢
  cases fuel with
  | zero => simp [htext] at hfuel
  | succ fuel =>
    have hread := n.number?_append hrest
    rw [htext, List.cons_append] at hread ⊢
    rw [value?_of_numeral hc, hread]
    rfl

theorem readsBack_string (text : String) :
  ReadsBack (.string text)
  := by
  intro level fuel rest hrest hfuel
  rw [prettyAt, toList_printString] at hfuel ⊢
  cases fuel with
  | zero => simp at hfuel
  | succ fuel =>
    obtain ⟨units, hunits, htext⟩ := stringRest?_printString text rest
    rw [List.cons_append, List.cons_append, List.append_assoc, List.singleton_append, value?,
      skipSpace_cons (by decide)]
    simp [hunits, htext]

/-- One item of an array is read back, and what follows it decides what is read then. -/
theorem ReadsBack.items?_append {item : Json} (h : ReadsBack item) {level fuel : Nat}
    {before : List Json} {rest : List Char} (hrest : Ends rest)
    (hfuel : (prettyAt level item).toList.length ≤ fuel) :
  items? (fuel + 1) before ((newline level).toList ++ ((prettyAt level item).toList ++ rest))
    = match skipSpace rest with
      | ']' :: cs => some (.array (item :: before).reverse, cs)
      | ',' :: cs => items? fuel (item :: before) cs
      | _ => none
  := by
  rw [items?, value?_of_skipSpace_eq (skipSpace_newline level _), h level fuel rest hrest hfuel]
  rfl

/-- One field of an object is read back, and what follows it decides what is read then. -/
theorem ReadsBack.fields?_append {value : Json} (h : ReadsBack value) (name : String)
    {level fuel : Nat} {before : List (String × Json)} {rest : List Char} (hrest : Ends rest)
    (hfuel : (prettyAt level value).toList.length ≤ fuel) :
  fields? (fuel + 1) (some before) ((newline level).toList ++ '"' :: (name.toList.flatMap escape
      ++ '"' :: ':' :: ' ' :: ((prettyAt level value).toList ++ rest)))
    = match skipSpace rest with
      | '\x7d' :: cs => some (.object ((name, value) :: before).reverse, cs)
      | ',' :: cs => fields? fuel (some ((name, value) :: before)) cs
      | _ => none
  := by
  have hvalue : value? fuel (' ' :: ((prettyAt level value).toList ++ rest)) = some (value, rest)
    := by
    rw [← h level fuel rest hrest hfuel]
    apply value?_of_skipSpace_eq
    rw [← List.singleton_append]
    exact skipSpace_append (by simp [isSpace]) _
  obtain ⟨units, hunits, hname⟩ := stringRest?_printString name
    (':' :: ' ' :: ((prettyAt level value).toList ++ rest))
  rw [fields?, skipSpace_newline, skipSpace_cons (by decide)]
  simp only [hunits, Option.bind_eq_bind, Option.bind_some]
  rw [skipSpace_cons (by decide)]
  simp only [hvalue, hname, Option.bind_some]
  rfl

/-- The items of an array are read back. -/
theorem items?_prettyItems {items : List Json} (hitems : ∀ item ∈ items, ReadsBack item)
    (hne : items ≠ []) (level outer : Nat) {fuel : Nat} (before : List Json) (rest : List Char)
    (hfuel : (prettyItems level items).toList.length ≤ fuel) :
  items? fuel before ((prettyItems level items).toList ++ ((newline outer).toList ++ ']' :: rest))
    = some (.array (before.reverse ++ items), rest)
  := by
  induction items generalizing fuel before with
  | nil => contradiction
  | cons item items ih =>
    have hitem : ReadsBack item := hitems item List.mem_cons_self
    have hnewline := length_newline_pos level
    by_cases hlast : items = []
    · subst hlast
      rw [toList_prettyItems_singleton] at hfuel ⊢
      rw [List.length_append] at hfuel
      obtain ⟨fuel, rfl⟩ := Nat.exists_eq_add_one.mpr (show 0 < fuel by omega)
      rw [List.append_assoc, hitem.items?_append (ends_newline outer _) (by omega),
        skipSpace_newline, skipSpace_cons (by decide)]
      simp
    · rw [toList_prettyItems_cons hlast] at hfuel ⊢
      simp only [List.length_append, List.length_cons] at hfuel
      obtain ⟨fuel, rfl⟩ := Nat.exists_eq_add_one.mpr (show 0 < fuel by omega)
      rw [List.append_assoc, List.append_assoc, List.cons_append,
        hitem.items?_append (ends_comma _) (by omega), skipSpace_cons (by decide)]
      have hrest := ih (fun item hmem => hitems item (List.mem_cons_of_mem _ hmem)) hlast
        (item :: before) (show _ ≤ fuel by omega)
      simp [hrest]

/-- The fields of an object are read back. -/
theorem fields?_prettyFields {fields : List (String × Json)}
    (hfields : ∀ field ∈ fields, ReadsBack field.2) (hne : fields ≠ []) (level outer : Nat)
    {fuel : Nat} (before : List (String × Json)) (rest : List Char)
    (hfuel : (prettyFields level fields).toList.length ≤ fuel) :
  fields? fuel (some before)
      ((prettyFields level fields).toList ++ ((newline outer).toList ++ '\x7d' :: rest))
    = some (.object (before.reverse ++ fields), rest)
  := by
  induction fields generalizing fuel before with
  | nil => contradiction
  | cons field fields ih =>
    obtain ⟨name, value⟩ := field
    have hvalue : ReadsBack value := hfields (name, value) List.mem_cons_self
    by_cases hlast : fields = []
    · subst hlast
      rw [toList_prettyFields_singleton] at hfuel ⊢
      simp only [List.length_append, List.length_cons] at hfuel
      obtain ⟨fuel, rfl⟩ := Nat.exists_eq_add_one.mpr (show 0 < fuel by omega)
      simp only [List.append_assoc, List.cons_append]
      rw [hvalue.fields?_append name (ends_newline outer _) (by omega), skipSpace_newline,
        skipSpace_cons (by decide)]
      simp
    · rw [toList_prettyFields_cons hlast] at hfuel ⊢
      simp only [List.length_append, List.length_cons] at hfuel
      obtain ⟨fuel, rfl⟩ := Nat.exists_eq_add_one.mpr (show 0 < fuel by omega)
      simp only [List.append_assoc, List.cons_append]
      rw [hvalue.fields?_append name (ends_comma _) (by omega), skipSpace_cons (by decide)]
      have hrest := ih (fun field hmem => hfields field (List.mem_cons_of_mem _ hmem)) hlast
        ((name, value) :: before) (show _ ≤ fuel by omega)
      simp [hrest]

/-- The items of an array do not start with its closing bracket. -/
theorem skipSpace_prettyItems {items : List Json} (hne : items ≠ [])
    (h : ∀ item ∈ items, Plain item) (level : Nat) (rest : List Char) :
  ∃ c cs, skipSpace ((prettyItems level items).toList ++ rest) = c :: cs ∧ c ≠ ']'
  := by
  obtain ⟨item, items, rfl⟩ := List.exists_cons_of_ne_nil hne
  obtain ⟨c, cs, hitem, hspace, hc⟩ := (h item List.mem_cons_self).exists_prettyAt_eq_cons level
  by_cases hlast : items = []
  · subst hlast
    rw [toList_prettyItems_singleton, List.append_assoc, skipSpace_newline, hitem,
      List.cons_append, skipSpace_cons hspace]
    exact ⟨c, _, rfl, hc⟩
  · rw [toList_prettyItems_cons hlast, List.append_assoc, skipSpace_newline, hitem,
      List.cons_append, List.cons_append, skipSpace_cons hspace]
    exact ⟨c, _, rfl, hc⟩

/-- The fields of an object start with a name. -/
theorem skipSpace_prettyFields {fields : List (String × Json)} (hne : fields ≠ []) (level : Nat)
    (rest : List Char) :
  ∃ cs, skipSpace ((prettyFields level fields).toList ++ rest) = '"' :: cs
  := by
  obtain ⟨⟨name, value⟩, fields, rfl⟩ := List.exists_cons_of_ne_nil hne
  by_cases hlast : fields = []
  · subst hlast
    rw [toList_prettyFields_singleton, List.append_assoc, skipSpace_newline]
    exact ⟨_, skipSpace_cons (by decide) _⟩
  · rw [toList_prettyFields_cons hlast, List.append_assoc, skipSpace_newline]
    exact ⟨_, skipSpace_cons (by decide) _⟩

theorem readsBack_array {items : List Json} (hplain : ∀ item ∈ items, Plain item)
    (h : ∀ item ∈ items, ReadsBack item) :
  ReadsBack (.array items)
  := by
  intro level fuel rest hrest hfuel
  by_cases hne : items = []
  · subst hne
    cases fuel with
    | zero => simp [prettyAt] at hfuel
    | succ fuel => simp [prettyAt, value?, skipSpace_cons (c := '[') (by decide),
        skipSpace_cons (c := ']') (by decide)]
  · rw [toList_prettyAt_array hne] at hfuel ⊢
    simp only [List.length_append, List.length_cons] at hfuel
    obtain ⟨fuel, rfl⟩ := Nat.exists_eq_add_one.mpr (show 0 < fuel by omega)
    simp only [List.append_assoc, List.cons_append, List.nil_append]
    obtain ⟨c, cs, hstart, hc⟩ := skipSpace_prettyItems hne hplain (level + 1)
      ((newline level).toList ++ ']' :: rest)
    have hitems := items?_prettyItems h hne (level + 1) level [] rest (show _ ≤ fuel by omega)
    rw [items?_of_skipSpace_eq (skipSpace_skipSpace _).symm, hstart] at hitems
    rw [value?, skipSpace_cons (by decide)]
    simp only
    rw [hstart]
    split
    · next heq => exact absurd (List.cons.inj heq).1 hc
    · rw [hitems]
      rfl

theorem readsBack_object {fields : List (String × Json)}
    (h : ∀ field ∈ fields, ReadsBack field.2) :
  ReadsBack (.object fields)
  := by
  intro level fuel rest hrest hfuel
  by_cases hne : fields = []
  · subst hne
    cases fuel with
    | zero => simp [prettyAt] at hfuel
    | succ fuel => simp [prettyAt, value?, skipSpace_cons (c := '\x7b') (by decide),
        skipSpace_cons (c := '\x7d') (by decide)]
  · rw [toList_prettyAt_object hne] at hfuel ⊢
    simp only [List.length_append, List.length_cons] at hfuel
    obtain ⟨fuel, rfl⟩ := Nat.exists_eq_add_one.mpr (show 0 < fuel by omega)
    simp only [List.append_assoc, List.cons_append, List.nil_append]
    obtain ⟨cs, hstart⟩ := skipSpace_prettyFields hne (level + 1)
      ((newline level).toList ++ '\x7d' :: rest)
    have hfields := fields?_prettyFields h hne (level + 1) level [] rest
      (show _ ≤ fuel by omega)
    rw [fields?_of_skipSpace_eq (skipSpace_skipSpace _).symm, hstart] at hfields
    rw [value?, skipSpace_cons (by decide)]
    simp only
    rw [hstart]
    simpa using hfields

/-- A plain value is read back from its printed form. -/
theorem Plain.readsBack {json : Json} (h : json.Plain) :
  ReadsBack json
  := by
  induction h with
  | null =>
    intro level fuel rest hrest hfuel
    cases fuel with
    | zero => simp [prettyAt] at hfuel
    | succ fuel => simp [prettyAt, value?, skipSpace_cons (c := 'n') (by decide), keyword?]
  | bool value =>
    intro level fuel rest hrest hfuel
    cases fuel with
    | zero => cases value <;> simp [prettyAt] at hfuel
    | succ fuel =>
      cases value
      · simp [prettyAt, value?, skipSpace_cons (c := 'f') (by decide), keyword?]
      · simp [prettyAt, value?, skipSpace_cons (c := 't') (by decide), keyword?]
  | number n => exact readsBack_number n
  | string text => exact readsBack_string text
  | array hplain ih => exact readsBack_array hplain ih
  | object _ ih => exact readsBack_object ih

/-- A plain value is read back from the text of a file that it is printed to. -/
theorem Plain.parse?_pretty {json : Json} (h : json.Plain) :
  parse? (json.pretty ++ "\n") = some json
  := by
  have hnewline : Ends ['\n'] := by
    rintro c ⟨⟩
    rfl
  have hfuel : (prettyAt 0 json).toList.length ≤ (json.pretty ++ "\n").length + 1 := by
    rw [String.length_toList, String.length_append, pretty]
    omega
  have htext : (json.pretty ++ "\n").toList = (prettyAt 0 json).toList ++ ['\n'] := by
    rw [String.toList_append, pretty]
    rfl
  rw [parse?, htext, h.readsBack 0 _ _ hnewline hfuel]
  rfl

end MutationTesting.Json
