import MutationTesting.Proofs.Tree.Indented.Reading
import MutationTesting.Tree.Indented.Expression

/-!
# Expressions and their spans

Every reading of an expression lays its nodes where the tokens are that it takes (`reads`). The
nodes of a literal are inside of its token (`row_literalWith`), also those of interpolations, whose
values have tokens of their own.
-/

namespace MutationTesting.Indented

open Reading

variable {source : String} {gaps : List SyntaxNode} {first last limit offset fuel : Nat}
  {cs text : List Char} {n : SyntaxNode} {ns : List SyntaxNode} {ts rest : List Token}

/-! ### Content of literals -/

theorem one_le_escapeLength? {length : Nat} (h : escapeLength? cs = some length) :
  1 ≤ length
  := by
  have hexactly : ∀ {k m : Nat}, (if k ≤ m then some (k + 2) else none) = some length →
      1 ≤ length := by
    intro k m h
    split at h <;> cases h
    omega
  unfold escapeLength? at h
  split at h
  · cases h
    decide
  · dsimp only at h
    split at h
    · exact hexactly h
    · split at h
      · exact hexactly h
      · split at h
        · exact hexactly h
        · split at h
          · cases h
            omega
          · split at h <;> cases h
            decide
  · cases h

/-- A row of nodes in a text that is not at its start. -/
theorem row_skip (text : List Char) (hstands : Stands source offset (text ++ cs))
    (hfree : Free gaps offset (offset + Text.byteLength (text ++ cs)))
    (h : Stands source (offset + Text.byteLength text) cs →
      Free gaps (offset + Text.byteLength text)
        (offset + Text.byteLength text + Text.byteLength cs) →
      Row source gaps (offset + Text.byteLength text) ns
        (offset + Text.byteLength text + Text.byteLength cs)) :
  Row source gaps offset ns (offset + Text.byteLength (text ++ cs))
  := by
  rw [Text.byteLength_append, ← Nat.add_assoc] at hfree ⊢
  have hrow := h hstands.right (hfree.part (Nat.le_add_right _ _) (Nat.le_refl _))
  exact hrow.widen (Nat.le_add_right _ _) (Nat.le_refl _)

/-- A row of nodes in a text, with a leaf for its start. -/
theorem row_leaf_cons (kind : String) (named : Bool) (text : List Char)
    (hstands : Stands source offset (text ++ cs))
    (hfree : Free gaps offset (offset + Text.byteLength (text ++ cs))) (htext : text ≠ [])
    (h : Stands source (offset + Text.byteLength text) cs →
      Free gaps (offset + Text.byteLength text)
        (offset + Text.byteLength text + Text.byteLength cs) →
      Row source gaps (offset + Text.byteLength text) ns
        (offset + Text.byteLength text + Text.byteLength cs)) :
  Row source gaps offset (leaf kind named offset (offset + Text.byteLength text) :: ns)
    (offset + Text.byteLength (text ++ cs))
  := by
  have hlength : Text.byteLength text ≠ 0 := by rwa [Ne, Text.byteLength_eq_zero_iff]
  rw [Text.byteLength_append, ← Nat.add_assoc] at hfree ⊢
  have hrow := h hstands.right (hfree.part (Nat.le_add_right _ _) (Nat.le_refl _))
  have hleaf : Row source gaps offset [leaf kind named offset (offset + Text.byteLength text)]
      (offset + Text.byteLength text) :=
    Row.leaf hfree hstands.start hstands.left.stop (Nat.le_refl _) (by omega)
      (Nat.le_add_right _ _)
  exact hleaf.append hrow

/-- The escapes in a text are in order. -/
theorem row_escapes (fuel : Nat) (hstands : Stands source offset cs)
    (hfree : Free gaps offset (offset + Text.byteLength cs)) :
  Row source gaps offset (escapes fuel offset cs) (offset + Text.byteLength cs)
  := by
  fun_induction escapes fuel offset cs with
  | case1 => exact .nil (Nat.le_add_right _ _)
  | case2 => exact .nil (Nat.le_add_right _ _)
  | case3 fuel offset c cs length hlength text stop ih =>
    have hpositive := one_le_escapeLength? hlength
    have hdrop : cs.drop (length - 1) = (c :: cs).drop length := by
      rw [← List.drop_succ_cons, Nat.sub_add_cancel hpositive]
    have htext : text ≠ [] := by
      apply List.length_pos_iff.mp
      rw [List.length_take, List.length_cons]
      omega
    have hparts : text ++ (c :: cs).drop length = c :: cs := List.take_append_drop length (c :: cs)
    rw [hdrop] at ih ⊢
    have hrow := row_leaf_cons "escape_sequence" true text (hparts.symm ▸ hstands)
      (hparts.symm ▸ hfree) htext ih
    rwa [hparts] at hrow
  | case4 fuel offset d cs _ ih => exact row_skip ['\\', d] hstands hfree ih
  | case5 fuel offset c cs _ _ ih => exact row_skip [c] hstands hfree ih

/-- The content of a literal is one node, if it is not empty. -/
theorem row_content (raw : Bool) (hstands : Stands source offset cs)
    (hfree : Free gaps offset (offset + Text.byteLength cs)) :
  Row source gaps offset (content raw offset cs) (offset + Text.byteLength cs)
  := by
  rw [content]
  split
  · exact .nil (Nat.le_add_right _ _)
  · next hempty =>
    have hlength : Text.byteLength cs ≠ 0 := by
      rwa [Ne, Text.byteLength_eq_zero_iff, ← List.isEmpty_iff]
    have hlt : offset < offset + Text.byteLength cs := by omega
    have hchildren : Row source gaps offset
        (if raw then [] else escapes (cs.length + 1) offset cs) (offset + Text.byteLength cs) := by
      split
      · exact .nil (Nat.le_add_right _ _)
      · exact row_escapes _ hstands hfree
    exact hchildren.around hstands.start hstands.stop (hfree.opens hlt) (hfree.closes hlt) rfl rfl

/-! ### Interpolations -/

/-- Pieces of a literal stand in a source one after the other. -/
inductive Parted (source : String) : Nat → List Piece → Nat → Prop where
  | nil {first : Nat} : Parted source first [] first
  | plain {first last : Nat} {text : List Char} {pieces : List Piece} :
      Stands source first text → Parted source (first + Text.byteLength text) pieces last →
      Parted source first (.plain first text :: pieces) last
  | interpolation {first last : Nat} {text : List Char} {pieces : List Piece} :
      Stands source first (['\x7b'] ++ (text ++ ['\x7d'])) →
      Parted source (first + 1 + Text.byteLength text + 1) pieces last →
      Parted source first (.interpolation (first + 1) text :: pieces) last

theorem byteLength_reverse (cs : List Char) :
  Text.byteLength cs.reverse = Text.byteLength cs
  := by
  induction cs with
  | nil => rfl
  | cons c cs ih =>
    rw [List.reverse_cons, Text.byteLength_append, ih]
    simp [Nat.add_comm]

/-- The text of an interpolation is closed by a brace. -/
theorem interpolated?_spec {depth : Nat} (h : interpolated? depth cs = some text) :
  ∃ rest, cs = text ++ '\x7d' :: rest
  := by
  have hcons : ∀ {c : Char} {cs text : List Char} {found : Option (List Char)},
      (∀ text, found = some text → ∃ rest, cs = text ++ '\x7d' :: rest) →
      found.map (c :: ·) = some text → ∃ rest, c :: cs = text ++ '\x7d' :: rest := by
    intro c cs text found ih h
    obtain ⟨text, htext, rfl⟩ := Option.map_eq_some_iff.mp h
    obtain ⟨rest, rfl⟩ := ih text htext
    exact ⟨rest, rfl⟩
  fun_induction interpolated? depth cs generalizing text with
  | case1 => cases h
  | case2 cs =>
    cases h
    exact ⟨cs, rfl⟩
  | case3 _ _ _ ih => exact hcons (fun _ => ih) h
  | case4 _ _ _ ih => exact hcons (fun _ => ih) h
  | case5 _ _ _ _ _ ih => exact hcons (fun _ => ih) h

/-- A literal is parted into pieces from its start to its end. -/
theorem parted_pieces? {before : List Char} {pieces : List Piece}
    (h : pieces? fuel offset before cs = some pieces)
    (hstands : Stands source offset (before.reverse ++ cs))
    (hlast : offset + Text.byteLength before + Text.byteLength cs = last) :
  Parted source offset pieces last
  := by
  fun_induction pieces? fuel offset before cs generalizing pieces with
  | case1 => cases h
  | case2 _ offset before =>
    cases h
    apply Parted.plain hstands.left
    rw [byteLength_reverse]
    subst hlast
    exact .nil
  | case3 _ offset before cs ih =>
    apply ih h
    · simpa using hstands
    · simp only [Text.byteLength_cons] at hlast ⊢
      omega
  | case4 _ offset before cs ih =>
    apply ih h
    · simpa using hstands
    · simp only [Text.byteLength_cons] at hlast ⊢
      omega
  | case5 _ offset before cs _ ih =>
    obtain ⟨text, htext, h⟩ := Option.bind_eq_some_iff.mp h
    obtain ⟨pieces, hpieces, heq⟩ := Option.bind_eq_some_iff.mp h
    cases heq
    obtain ⟨rest, rfl⟩ := interpolated?_spec htext
    have hplain := hstands.left
    have hright := hstands.right
    rw [byteLength_reverse] at hright
    have hbraced : Stands source (offset + Text.byteLength before)
        ((['\x7b'] ++ (text ++ ['\x7d'])) ++ rest) := by
      simpa using hright
    have hopen : Char.utf8Size '\x7b' = 1 := rfl
    have hclose : Char.utf8Size '\x7d' = 1 := rfl
    have hrest := hbraced.right
    have hdrop : (text ++ '\x7d' :: rest).drop (text.length + 1) = rest := by simp
    have hpieces' := @ih text pieces
    rw [hdrop] at hpieces hpieces'
    apply Parted.plain hplain
    rw [byteLength_reverse]
    apply Parted.interpolation hbraced.left
    apply hpieces' hpieces
    · simpa [hopen, hclose, ← Nat.add_assoc] using hrest
    · subst hlast
      simp [hopen, hclose]
      omega
  | case6 _ offset before c cs _ _ _ ih =>
    apply ih h
    · simpa using hstands
    · simp only [Text.byteLength_cons] at hlast ⊢
      omega

/-- What follows on the value of an interpolation begins with its conversion or its format. -/
theorem head?_drop_valueLength (depth : Nat) (quote : Option Char) (cs : List Char) :
  ∀ c ∈ (cs.drop (valueLength depth quote cs)).head?, c = ':' ∨ c = '!'
  := by
  fun_induction valueLength depth quote cs with
  | case1 => simp
  | case2 _ _ _ _ ih =>
    rw [Nat.add_comm]
    exact ih
  | case3 depth c cs hends =>
    rintro _ ⟨⟩
    simp only [Bool.and_eq_true, Bool.or_eq_true, decide_eq_true_eq] at hends
    exact hends.2.imp_right And.left
  | case4 _ _ _ _ _ ih =>
    rw [Nat.add_comm]
    exact ih

/-- A format comes after a conversion, and begins with a colon. -/
theorem exists_format (hhead : ∀ c ∈ cs.head?, c = ':' ∨ c = '!') :
  ∃ format, (if cs.head? = some '!' then cs.takeWhile (· != ':') else []) ++ format = cs
    ∧ ∀ c ∈ format.head?, c = ':'
  := by
  split
  · use cs.dropWhile (· != ':'), List.takeWhile_append_dropWhile
    intro c hc
    have hcolon := List.head?_dropWhile_not (· != ':') cs
    rw [Option.mem_def.mp hc] at hcolon
    simpa using hcolon
  · next hmark =>
    use cs, rfl
    intro c hc
    obtain rfl | rfl := hhead c hc
    · rfl
    · cases hmark hc

/-- The conversion and the format are in order. -/
theorem row_formatting (hstands : Stands source offset cs)
    (hfree : Free gaps offset (offset + Text.byteLength cs))
    (hhead : ∀ c ∈ cs.head?, c = ':' ∨ c = '!') :
  Row source gaps offset (formatting offset cs) (offset + Text.byteLength cs)
  := by
  obtain ⟨format, hcs, hformat⟩ := exists_format hhead
  rw [formatting]
  generalize (if cs.head? = some '!' then cs.takeWhile (· != ':') else []) = conversion at hcs ⊢
  subst hcs
  have hformatted : Stands source (offset + Text.byteLength conversion) format →
      Free gaps (offset + Text.byteLength conversion)
        (offset + Text.byteLength conversion + Text.byteLength format) →
      Row source gaps (offset + Text.byteLength conversion)
        (if offset + Text.byteLength conversion = offset + Text.byteLength (conversion ++ format)
          then []
          else [.mk (leaf "format_specifier" true (offset + Text.byteLength conversion)
            (offset + Text.byteLength (conversion ++ format))).info
            [leaf ":" false (offset + Text.byteLength conversion)
              (offset + Text.byteLength conversion + 1)]])
        (offset + Text.byteLength conversion + Text.byteLength format) := by
    intro hstands hfree
    rw [Text.byteLength_append, ← Nat.add_assoc]
    cases format with
    | nil =>
      rw [if_pos (by simp)]
      exact .nil (Nat.le_add_right _ _)
    | cons c format =>
      obtain rfl := hformat c rfl
      have hcolon : Char.utf8Size ':' = 1 := rfl
      have hlt : offset + Text.byteLength conversion
          < offset + Text.byteLength conversion + Text.byteLength (':' :: format) := by
        simp only [Text.byteLength_cons, hcolon]
        omega
      rw [if_neg (Nat.ne_of_lt hlt)]
      have hleaf := row_leaf_cons ":" false [':'] hstands hfree (List.cons_ne_nil _ _)
        fun _ _ => Row.nil (Nat.le_add_right _ _)
      exact hleaf.around hstands.start hstands.stop (hfree.opens hlt) (hfree.closes hlt) rfl rfl
  split
  · exact row_skip _ hstands hfree hformatted
  · next hempty =>
    exact row_leaf_cons _ _ _ hstands hfree (mt List.isEmpty_iff.mpr hempty) hformatted

/-! ### Literals -/

/-- The value of an interpolation is laid where its tokens are. -/
def LaysValue (source : String) (gaps : List SyntaxNode)
    (value? : List Token → Option (List SyntaxNode)) : Prop :=
  ∀ first last tokens ns, After source gaps last first tokens → value? tokens = some ns →
    Row source gaps first ns last

variable {value? : List Token → Option (List SyntaxNode)}

/-- The value of an interpolation stands inside of its text. -/
theorem row_value {tokens : List Token} {extras : List SyntaxNode}
    (hvalue : LaysValue source gaps value?) (hstands : Stands source offset cs)
    (hfree : Free gaps offset (offset + Text.byteLength cs))
    (hlex : lex offset 1 cs = some (tokens, extras))
    (h : value? (tokens.filter (·.kind != .newline)) = some ns) :
  Row source gaps offset ns (offset + Text.byteLength cs)
  := by
  apply hvalue _ _ _ _ _ h
  obtain ⟨hafter | ⟨-, hall⟩, -⟩ := after_of_lex hstands hfree (.inr Nat.one_pos) hlex
  · apply (hafter.filter _).of_subset
    intro gap hgap
    exact List.mem_append_right _ hgap
  · have hnone : tokens.filter (·.kind != .newline) = [] := by
      rw [List.filter_eq_nil_iff]
      intro t ht
      simp [hall t ht]
    rw [hnone]
    exact .nil (Nat.le_add_right _ _)

theorem Parted.le {pieces : List Piece} (h : Parted source first pieces last) :
  first ≤ last
  := by
  induction h with
  | nil => exact Nat.le_refl _
  | plain _ _ ih => omega
  | interpolation _ _ ih => omega

/-- The tree of an interpolation, from its one brace to the other. -/
theorem row_interpolation (hvalue : LaysValue source gaps value?)
    (hstands : Stands source first (['\x7b'] ++ (text ++ ['\x7d'])))
    (hfree : Free gaps first (first + 1 + Text.byteLength text + 1))
    (h : pieceWith value? (.interpolation (first + 1) text) = some ns) :
  Row source gaps first ns (first + 1 + Text.byteLength text + 1)
  := by
  obtain ⟨⟨tokens, extras⟩, hlex, h⟩ := Option.bind_eq_some_iff.mp h
  obtain ⟨value, hvalues, heq⟩ := Option.bind_eq_some_iff.mp h
  cases heq
  have hbrace : Text.byteLength ['\x7b'] = 1 := rfl
  have htext := hstands.right
  rw [hbrace] at htext
  have hparts := List.take_append_drop (valueLength 0 none text) text
  have hlength := congrArg Text.byteLength hparts
  rw [Text.byteLength_append] at hlength
  have hinner : Stands source (first + 1) (text.take (valueLength 0 none text)
      ++ text.drop (valueLength 0 none text)) := by
    rw [hparts]
    exact htext.left
  have hopen : Row source gaps first [leaf "\x7b" false (first + 1 - 1) (first + 1)] (first + 1) :=
    Row.leaf hfree hstands.start hstands.left.stop (Nat.le_refl _) (Nat.lt_succ_self _) (by omega)
  have hrow := row_value hvalue hinner.left (hfree.part (by omega) (by omega)) hlex hvalues
  have hformatting := row_formatting hinner.right (hfree.part (by omega) (by omega))
    (head?_drop_valueLength 0 none text)
  have hstop : first + 1 + Text.byteLength (text.take (valueLength 0 none text))
      + Text.byteLength (text.drop (valueLength 0 none text))
        = first + 1 + Text.byteLength text := by omega
  rw [hstop] at hformatting
  have hclose : Row source gaps (first + 1 + Text.byteLength text)
      [leaf "\x7d" false (first + 1 + Text.byteLength text)
        (first + 1 + Text.byteLength text + 1)] (first + 1 + Text.byteLength text + 1) :=
    Row.leaf hfree htext.right.start htext.right.stop (by omega) (Nat.lt_succ_self _)
      (Nat.le_refl _)
  exact (((hopen.append hrow).append hformatting).append hclose).node (by simp) _

theorem row_pieces {pieces : List Piece} {found : List (List SyntaxNode)}
    (hvalue : LaysValue source gaps value?) (h : Parted source first pieces last)
    (hfree : Free gaps first last) (hfound : pieces.mapM (pieceWith value?) = some found) :
  Row source gaps first found.flatten last
  := by
  induction h generalizing found with
  | nil =>
    cases hfound
    exact .nil (Nat.le_refl _)
  | plain hstands hrest ih =>
    have hle := hrest.le
    rw [List.mapM_cons] at hfound
    obtain ⟨ns, hns, hfound⟩ := Option.bind_eq_some_iff.mp hfound
    obtain ⟨found, hmore, heq⟩ := Option.bind_eq_some_iff.mp hfound
    cases heq
    cases hns
    apply Row.append
    · exact row_content false hstands (hfree.part (Nat.le_refl _) hle)
    · exact ih (hfree.part (Nat.le_add_right _ _) (Nat.le_refl _)) hmore
  | interpolation hstands hrest ih =>
    have hle := hrest.le
    rw [List.mapM_cons] at hfound
    obtain ⟨ns, hns, hfound⟩ := Option.bind_eq_some_iff.mp hfound
    obtain ⟨found, hmore, heq⟩ := Option.bind_eq_some_iff.mp hfound
    cases heq
    apply Row.append
    · exact row_interpolation hvalue hstands (hfree.part (Nat.le_refl _) hle) hns
    · exact ih (hfree.part (by omega) (Nat.le_refl _)) hmore

/-- The nodes of a literal are inside of its token. -/
theorem row_literalWith {t : Token} (hvalue : LaysValue source gaps value?)
    (ht : t.Placed source gaps) (hkind : t.kind = .literal) (h : literalWith value? t = some n) :
  Row source gaps t.start [n] t.stop
  := by
  obtain ⟨marks, quotes, body, htext, hopening⟩ := ht.literal hkind
  obtain ⟨hquotes, hmarks, -⟩ := opening?_spec hopening
  have hstands := ht.stands
  have hstop := ht.stop
  rw [htext] at hstands hstop
  have hhead : Text.byteLength (marks ++ quotes) = marks.length + quotes.length := by
    rw [Text.byteLength_append, hmarks, hquotes.bytes]
  have hpositive := List.length_pos_iff.mpr hquotes.ne_nil
  rw [Text.byteLength_append _ quotes, Text.byteLength_append _ body, hhead, hquotes.bytes] at hstop
  have hinner : (t.text.toList.drop (marks.length + quotes.length)).take
      (t.text.toList.length - (marks.length + quotes.length) - quotes.length) = body := by
    rw [htext, ← List.length_append, List.append_assoc _ body, List.drop_left, List.length_append,
      Nat.add_sub_cancel_left, List.length_append, Nat.add_sub_cancel, List.take_left]
  have hfree := ht.free (ht.text_ne (by rw [hkind]; rfl))
  have hleft : Row source gaps t.start
      [leaf "string_start" true t.start (t.start + (marks.length + quotes.length))]
      (t.start + (marks.length + quotes.length)) := by
    apply Row.leaf hfree hstands.start _ (Nat.le_refl _) (by omega) (by omega)
    have hboundary := hstands.left.left.stop
    rwa [hhead] at hboundary
  have hbody := hstands.left.right
  rw [hhead] at hbody
  have hright : Row source gaps
      (t.start + (marks.length + quotes.length) + Text.byteLength body)
      [leaf "string_end" true (t.stop - quotes.length) t.stop] t.stop := by
    have hlast : t.stop - quotes.length
        = t.start + (marks.length + quotes.length) + Text.byteLength body := by omega
    have hstart := hbody.stop
    have hboundary := hstands.stop
    rw [Text.byteLength_append _ quotes, Text.byteLength_append _ body, hhead, hquotes.bytes,
      ← hstop] at hboundary
    rw [hlast]
    exact Row.leaf hfree hstart hboundary (by omega) (by omega) (Nat.le_refl _)
  have hwhole : ∀ parts, Row source gaps (t.start + (marks.length + quotes.length)) parts
      (t.start + (marks.length + quotes.length) + Text.byteLength body) →
      Row source gaps t.start [node "string"
        ([leaf "string_start" true t.start (t.start + (marks.length + quotes.length))] ++ parts
          ++ [leaf "string_end" true (t.stop - quotes.length) t.stop])] t.stop := by
    intro parts hparts
    exact ((hleft.append hparts).append hright).node (by simp) _
  have hfree' : Free gaps (t.start + (marks.length + quotes.length))
      (t.start + (marks.length + quotes.length) + Text.byteLength body) :=
    hfree.part (by omega) (by omega)
  rw [literalWith] at h
  dsimp only at h
  rw [hopening, Option.bind_eq_bind, Option.bind_some] at h
  dsimp only at h
  rw [hinner] at h
  split at h
  · obtain ⟨pieces, hpieces, h⟩ := Option.bind_eq_some_iff.mp h
    obtain ⟨found, hfound, heq⟩ := Option.bind_eq_some_iff.mp h
    cases heq
    apply hwhole
    exact row_pieces hvalue (parted_pieces? hpieces hbody rfl) hfree' hfound
  · cases h
    apply hwhole
    exact row_content _ hbody hfree'

/-! ### Levels of precedence -/

theorem Row.grouped (h : Row source gaps first ns last) (hne : ns ≠ []) (kind : String) :
  Row source gaps first [grouped kind ns] last
  := by
  unfold Indented.grouped
  split
  · exact h
  · exact h.node hne kind

theorem offers_comparator? :
  Offers source gaps comparator?
  := by
  have hpair : ∀ {kind first mid last a b}, Row source gaps first [a] mid →
      Row source gaps mid [b] last → Row source gaps first [comparator?.pair kind a b] last :=
    fun ha hb => (ha.append hb).gather (List.cons_ne_nil _ _) rfl rfl
  intro limit first ts h
  refine (offers_acceptAny _).bind h ?_ fun n p ts hn h => ?_
  · refine (offers_accept "is").bind h ?_ fun is_ p ts his h => ?_
    · refine gives_get_bind ?_
      split
      · split
        · refine (lays_expect "not").bind h fun not_ p ts hnot h => ?_
          refine (lays_expect "in").bind h fun in_ q ts hin h => ?_
          exact .pure (.inr ⟨_, rfl, q, hpair hnot hin, h⟩)
        · exact .pure (.inl ⟨rfl, rfl⟩)
      · exact .pure (.inl ⟨rfl, rfl⟩)
    · refine (offers_accept "not").bind h ?_ fun not_ q ts hnot h => ?_
      · exact .pure (.inr ⟨_, rfl, p, his, h⟩)
      · exact .pure (.inr ⟨_, rfl, q, hpair his hnot, h⟩)
  · exact .pure (.inr ⟨n, rfl, p, hn, h⟩)

/-- All readings of expressions with some fuel lay their nodes in order. -/
structure Reads (source : String) (gaps : List SyntaxNode) (fuel : Nat) : Prop where
  expression : LaysNode source gaps (expression fuel)
  disjunction : LaysNode source gaps (disjunction fuel)
  conjunction : LaysNode source gaps (conjunction fuel)
  inversion : LaysNode source gaps (inversion fuel)
  comparisons : ∀ count, LaysNodes source gaps (comparisons fuel count)
  operation : ∀ levels, LaysNode source gaps (operation fuel levels)
  unary : LaysNode source gaps (unary fuel)
  primary : LaysNode source gaps (primary fuel)
  trailers : ∀ count, Extends source gaps (trailers fuel count)
  subscript : LaysNode source gaps (subscript fuel)
  sliceEnd : LaysNodes source gaps (sliceEnd fuel)
  arguments : LaysNode source gaps (arguments fuel)
  argument : LaysNode source gaps (argument fuel)
  element : LaysNode source gaps (element fuel)
  clauses : ∀ count, LaysNodes source gaps (clauses fuel count)
  targets : LaysNode source gaps (targets fuel)
  parameter : ∀ typed, LaysNode source gaps (parameter fuel typed)
  typeHint : ∀ typed, LaysNodes source gaps (typeHint fuel typed)
  atom : LaysNode source gaps (atom fuel)
  literals : ∀ count, LaysNodes source gaps (literals fuel count)
  yielded : LaysNode source gaps (yielded fuel)
  parenthesized : LaysNode source gaps (parenthesized fuel)
  bracketed : LaysNode source gaps (bracketed fuel)
  braced : LaysNode source gaps (braced fuel)
  entry : LaysNode source gaps (entry fuel)

namespace Reads

theorem lays_expression (ih : Reads source gaps fuel) :
  LaysNode source gaps (Indented.expression (fuel + 1))
  := by
  intro limit first ts h
  rw [Indented.expression]
  refine (offers_accept "lambda").bind h ?_ fun lambda p ts hlambda h => ?_
  · refine ih.disjunction.bind h fun value p ts hvalue h => ?_
    refine (offers_accept ":=").bind h ?_ fun symbol q ts hsymbol h => ?_
    · refine (offers_accept "if").bind h ?_ fun if_ q ts hif h => ?_
      · exact .pure ⟨p, hvalue, h⟩
      · refine ih.disjunction.bind h fun test r ts htest h => ?_
        refine (lays_expect "else").bind h fun else_ s ts helse h => ?_
        refine ih.expression.bind h fun other t ts hother h => ?_
        have hrow := hvalue.append (hif.append (htest.append (helse.append hother)))
        exact hrow.gives (List.cons_ne_nil _ _) h
    · refine ih.expression.bind h fun bound r ts hbound h => ?_
      have hrow := (hvalue.filling .name).append (hsymbol.append (hbound.filling .value))
      exact hrow.gives (List.cons_ne_nil _ _) h
  · refine (looks_isNext ":").bind fun empty => ?_
    extract_lets k
    have hk : ∀ parameters q ts, Row source gaps p parameters q → After source gaps limit q ts →
        Gives (k parameters) ts fun a rest => Laid source gaps limit first [a] rest := by
      intro parameters q ts hparameters h
      refine (lays_expect ":").bind h fun colon r ts hcolon h => ?_
      refine ih.expression.bind h fun value s ts hvalue h => ?_
      have hrow := (hlambda.append hparameters).append (hcolon.append hvalue)
      exact hrow.gives (List.cons_ne_nil _ _) h
    split
    · exact .pure_bind (hk [] p ts (.nil (Nat.le_refl _)) h)
    · refine (lays_separated (ih.parameter false) fuel).bind h fun items hne q ts hitems h => ?_
      exact .pure_bind (hk _ q ts (hitems.node hne _) h)

theorem lays_disjunction (ih : Reads source gaps fuel) :
  LaysNode source gaps (Indented.disjunction (fuel + 1))
  := by
  intro limit first ts h
  rw [Indented.disjunction]
  refine ih.conjunction.bind h fun left p ts hleft h => ?_
  exact extends_chain ih.conjunction _ _ _ _ _ _ _ _ hleft h

theorem lays_conjunction (ih : Reads source gaps fuel) :
  LaysNode source gaps (Indented.conjunction (fuel + 1))
  := by
  intro limit first ts h
  rw [Indented.conjunction]
  refine ih.inversion.bind h fun left p ts hleft h => ?_
  exact extends_chain ih.inversion _ _ _ _ _ _ _ _ hleft h

theorem lays_inversion (ih : Reads source gaps fuel) :
  LaysNode source gaps (Indented.inversion (fuel + 1))
  := by
  intro limit first ts h
  rw [Indented.inversion]
  refine (offers_accept "not").bind h ?_ fun not_ p ts hnot h => ?_
  · refine (ih.operation binaryLevels).bind h fun left p ts hleft h => ?_
    refine (ih.comparisons fuel).bind h fun others q ts hothers h => ?_
    split
    · exact .pure ⟨p, hleft, h.mono hothers.first_le_last⟩
    · exact (hleft.append hothers).gives (List.cons_ne_nil _ _) h
  · refine ih.inversion.bind h fun value q ts hvalue h => ?_
    exact (hnot.append hvalue).gives (List.cons_ne_nil _ _) h

theorem lays_comparisons (ih : Reads source gaps fuel) (count : Nat) :
  LaysNodes source gaps (Indented.comparisons (fuel + 1) count)
  := by
  intro limit first ts h
  cases count with
  | zero =>
    simp only [Indented.comparisons]
    exact .pure (.nil h)
  | succ count =>
    rw [Indented.comparisons]
    refine offers_comparator?.bind h ?_ fun operator p ts hoperator h => ?_
    · exact .pure (.nil h)
    · refine (ih.operation binaryLevels).bind h fun right q ts hright h => ?_
      refine (ih.comparisons count).bind h fun others r ts hothers h => ?_
      exact .pure ⟨r, hoperator.append (hright.append hothers), h⟩

theorem lays_operation (ih : Reads source gaps fuel) (levels : List (List String)) :
  LaysNode source gaps (Indented.operation (fuel + 1) levels)
  := by
  intro limit first ts h
  cases levels with
  | nil =>
    rw [Indented.operation]
    exact ih.unary limit first ts h
  | cons operators levels =>
    rw [Indented.operation]
    refine (ih.operation levels).bind h fun left p ts hleft h => ?_
    exact extends_chain (ih.operation levels) _ _ _ _ _ _ _ _ hleft h

theorem lays_unary (ih : Reads source gaps fuel) :
  LaysNode source gaps (Indented.unary (fuel + 1))
  := by
  intro limit first ts h
  rw [Indented.unary]
  refine (offers_acceptAny _).bind h ?_ fun operator p ts hoperator h => ?_
  · extract_lets k
    have hk : ∀ base p ts, Row source gaps first [base] p → After source gaps limit p ts →
        Gives (k base) ts fun a rest => Laid source gaps limit first [a] rest := by
      intro base p ts hbase h
      refine (offers_accept "**").bind h ?_ fun operator q ts hoperator h => ?_
      · exact .pure ⟨p, hbase, h⟩
      · refine ih.unary.bind h fun power r ts hpower h => ?_
        have hrow := (hbase.filling .left).append (hoperator.append (hpower.filling .right))
        exact hrow.gives (List.cons_ne_nil _ _) h
    refine (offers_accept "await").bind h ?_ fun await p ts hawait h => ?_
    · exact ih.primary.bind h fun base p ts hbase h => hk base p ts hbase h
    · refine ih.primary.bind h fun value q ts hvalue h => ?_
      exact .pure_bind (hk _ q ts ((hawait.append hvalue).node (List.cons_ne_nil _ _) _) h)
  · refine ih.unary.bind h fun value q ts hvalue h => ?_
    exact (hoperator.append hvalue).gives (List.cons_ne_nil _ _) h

theorem lays_primary (ih : Reads source gaps fuel) :
  LaysNode source gaps (Indented.primary (fuel + 1))
  := by
  intro limit first ts h
  rw [Indented.primary]
  refine ih.atom.bind h fun n p ts hn h => ?_
  exact ih.trailers fuel _ _ _ _ _ hn h

theorem extends_trailers (ih : Reads source gaps fuel) (count : Nat) :
  Extends source gaps (Indented.trailers (fuel + 1) count)
  := by
  intro limit first p n ts hn h
  cases count with
  | zero =>
    simp only [Indented.trailers]
    exact .pure ⟨p, hn, h⟩
  | succ count =>
    rw [Indented.trailers]
    refine (offers_accept ".").bind h ?_ fun dot q ts hdot h => ?_
    · refine (looks_isNext "(").bind fun isCall => ?_
      split
      · refine ih.arguments.bind h fun arguments q ts harguments h => ?_
        have hrow := hn.append harguments
        exact ih.trailers count _ _ _ _ _ (hrow.node (List.cons_ne_nil _ _) _) h
      · refine (offers_accept "[").bind h ?_ fun opened q ts hopened h => ?_
        · exact .pure ⟨p, hn, h⟩
        · refine (lays_separated ih.subscript fuel).bind h fun items _ r ts hitems h => ?_
          refine (lays_expect "]").bind h fun closed s ts hclosed h => ?_
          have hrow := (((hn.filling .value).append hopened).append hitems).append hclosed
          exact ih.trailers count _ _ _ _ _ (hrow.node (List.cons_ne_nil _ _) _) h
    · refine lays_identifier.bind h fun name r ts hname h => ?_
      have hrow := hn.append (hdot.append hname)
      exact ih.trailers count _ _ _ _ _ (hrow.node (List.cons_ne_nil _ _) _) h

theorem lays_subscript (ih : Reads source gaps fuel) :
  LaysNode source gaps (Indented.subscript (fuel + 1))
  := by
  intro limit first ts h
  rw [Indented.subscript]
  refine ih.sliceEnd.bind h fun start p ts hstart h => ?_
  refine (offers_accept ":").bind h ?_ fun colon q ts hcolon h => ?_
  · dsimp only
    split
    · exact .pure ⟨p, hstart, h⟩
    · exact .failure
  · refine ih.sliceEnd.bind h fun stop r ts hstop h => ?_
    have hrow := (hstart.append hcolon).append hstop
    extract_lets k
    have hk : ∀ step s ts, Row source gaps r step s → After source gaps limit s ts →
        Gives (k step) ts fun a rest => Laid source gaps limit first [a] rest := by
      intro step s ts hstep h
      exact (hrow.append hstep).gives (by simp) h
    refine (offers_accept ":").bind h ?_ fun colon s ts hcolon h => ?_
    · exact .pure_bind (hk [] r ts (.nil (Nat.le_refl _)) h)
    · refine ih.sliceEnd.bind h fun step t ts hstep h => ?_
      exact .pure_bind (hk _ t ts (hcolon.append hstep) h)

theorem lays_sliceEnd (ih : Reads source gaps fuel) :
  LaysNodes source gaps (Indented.sliceEnd (fuel + 1))
  := by
  intro limit first ts h
  rw [Indented.sliceEnd]
  refine (looks_isNext ":").bind fun _ => (looks_isNext "]").bind fun _ =>
    (looks_isNext ",").bind fun _ => ?_
  split
  · exact .pure (.nil h)
  · refine ih.expression.bind h fun value p ts hvalue h => ?_
    exact .pure ⟨p, hvalue, h⟩

theorem lays_arguments (ih : Reads source gaps fuel) :
  LaysNode source gaps (Indented.arguments (fuel + 1))
  := by
  intro limit first ts h
  rw [Indented.arguments]
  refine (lays_expect "(").bind h fun opened p ts hopened h => ?_
  refine (looks_isNext ")").bind fun empty => ?_
  split
  · refine (lays_expect ")").bind h fun closed q ts hclosed h => ?_
    exact (hopened.append hclosed).gives (List.cons_ne_nil _ _) h
  · refine (lays_separated ih.argument fuel).bind h fun items _ q ts hitems h => ?_
    refine (ih.clauses fuel).bind h fun clauses r ts hclauses h => ?_
    refine (lays_expect ")").bind h fun closed s ts hclosed h => ?_
    have hrow := ((hopened.append hitems).append hclauses).append hclosed
    exact hrow.gives (by simp) h

theorem lays_argument (ih : Reads source gaps fuel) :
  LaysNode source gaps (Indented.argument (fuel + 1))
  := by
  intro limit first ts h
  rw [Indented.argument]
  refine (offers_accept "**").bind h ?_ fun stars p ts hstars h => ?_
  · refine ih.element.bind h fun value p ts hvalue h => ?_
    split
    · refine (offers_accept "=").bind h ?_ fun equals q ts hequals h => ?_
      · exact .pure ⟨p, hvalue, h⟩
      · refine ih.expression.bind h fun given r ts hgiven h => ?_
        have hrow := (hvalue.filling .name).append (hequals.append (hgiven.filling .value))
        exact hrow.gives (List.cons_ne_nil _ _) h
    · exact .pure ⟨p, hvalue, h⟩
  · refine ih.expression.bind h fun value q ts hvalue h => ?_
    exact (hstars.append hvalue).gives (List.cons_ne_nil _ _) h

theorem lays_element (ih : Reads source gaps fuel) :
  LaysNode source gaps (Indented.element (fuel + 1))
  := by
  intro limit first ts h
  rw [Indented.element]
  refine (offers_accept "*").bind h ?_ fun star p ts hstar h => ?_
  · exact ih.expression limit first ts h
  · refine ih.expression.bind h fun value q ts hvalue h => ?_
    exact (hstar.append hvalue).gives (List.cons_ne_nil _ _) h

theorem lays_clauses (ih : Reads source gaps fuel) (count : Nat) :
  LaysNodes source gaps (Indented.clauses (fuel + 1) count)
  := by
  intro limit first ts h
  cases count with
  | zero =>
    simp only [Indented.clauses]
    exact .pure (.nil h)
  | succ count =>
    rw [Indented.clauses]
    refine (looks_isNext "for").bind fun _ => (looks_isNext "async").bind fun _ => ?_
    split
    · refine (offers_accept "async").lays.bind h fun async_ p ts hasync h => ?_
      refine (lays_expect "for").bind h fun for_ q ts hfor h => ?_
      refine ih.targets.bind h fun left r ts hleft h => ?_
      refine (lays_expect "in").bind h fun in_ s ts hin h => ?_
      refine ih.disjunction.bind h fun right t ts hright h => ?_
      have hrow := hasync.append
        (hfor.append ((hleft.filling .left).append (hin.append (hright.filling .right))))
      refine (ih.clauses count).bind h fun more u ts hmore h => ?_
      exact .pure ⟨u, (hrow.node (by simp) _).append hmore, h⟩
    · refine (offers_accept "if").bind h ?_ fun if_ p ts hif h => ?_
      · exact .pure (.nil h)
      · refine ih.disjunction.bind h fun test q ts htest h => ?_
        have hclause := (hif.append htest).node (List.cons_ne_nil _ _) "if_clause"
        refine (ih.clauses count).bind h fun more r ts hmore h => ?_
        exact .pure ⟨r, hclause.append hmore, h⟩

theorem lays_targets (ih : Reads source gaps fuel) :
  LaysNode source gaps (Indented.targets (fuel + 1))
  := by
  intro limit first ts h
  rw [Indented.targets]
  refine (lays_separated (ih.operation binaryLevels) fuel).bind h fun items hne p ts hitems h => ?_
  exact .pure ⟨p, hitems.grouped hne _, h⟩

theorem lays_parameter (ih : Reads source gaps fuel) (typed : Bool) :
  LaysNode source gaps (Indented.parameter (fuel + 1) typed)
  := by
  intro limit first ts h
  rw [Indented.parameter]
  refine (offers_acceptAny _).bind h ?_ fun mark p ts hmark h => ?_
  · refine lays_identifier.bind h fun name p ts hname h => ?_
    refine (ih.typeHint typed).bind h fun type q ts htype h => ?_
    refine (offers_accept "=").bind h ?_ fun equals r ts hequals h => ?_
    · exact .pure ⟨q, (hname.append htype).grouped (List.cons_ne_nil _ _) _, h⟩
    · refine ih.expression.bind h fun value s ts hvalue h => ?_
      have hrow := ((hname.filling .name).append htype).append
        (hequals.append (hvalue.filling .value))
      exact hrow.gives (by simp) h
  · dsimp only
    split
    · exact hmark.gives (List.cons_ne_nil _ _) h
    · refine (looks_isNext ",").bind fun _ => (looks_isNext ")").bind fun _ =>
        (looks_isNext ":").bind fun _ => ?_
      split
      · exact hmark.gives (List.cons_ne_nil _ _) h
      · refine lays_identifier.bind h fun name q ts hname h => ?_
        have hpattern := (hmark.append hname).node (List.cons_ne_nil _ _)
          (if mark.kind = "*" then "list_splat_pattern" else "dictionary_splat_pattern")
        refine (ih.typeHint typed).bind h fun type r ts htype h => ?_
        exact .pure ⟨r, (hpattern.append htype).grouped (List.cons_ne_nil _ _) _, h⟩

theorem lays_typeHint (ih : Reads source gaps fuel) (typed : Bool) :
  LaysNodes source gaps (Indented.typeHint (fuel + 1) typed)
  := by
  intro limit first ts h
  rw [Indented.typeHint]
  split
  · exact .pure (.nil h)
  · refine (offers_accept ":").bind h ?_ fun colon p ts hcolon h => ?_
    · exact .pure (.nil h)
    · refine ih.expression.bind h fun type q ts htype h => ?_
      exact .pure ⟨q, hcolon.append (htype.node (List.cons_ne_nil _ _) _), h⟩

theorem lays_literals (ih : Reads source gaps fuel) (count : Nat) :
  LaysNodes source gaps (Indented.literals (fuel + 1) count)
  := by
  intro limit first ts h
  cases count with
  | zero =>
    simp only [Indented.literals]
    exact .pure (.nil h)
  | succ count =>
    rw [Indented.literals]
    apply gives_isKind_bind
    split
    · next hkind =>
      refine gives_take.bind ?_
      rintro t rest rfl
      extract_lets value?
      have hvalue : LaysValue source gaps value? := by
        intro first last tokens ns hafter hvalue
        obtain ⟨⟨items, rest⟩, hread, hvalue⟩ := Option.bind_eq_some_iff.mp hvalue
        obtain ⟨hne, p, hitems, hrest⟩ :=
          lays_separated ih.element fuel last first tokens hafter items rest hread
        have hgrouped := hitems.grouped hne "expression_list"
        dsimp only at hvalue
        split at hvalue
        · cases hvalue
          exact hgrouped.widen (Nat.le_refl _) hrest.low_le
        · split at hvalue
          · next sign htext =>
            cases hvalue
            cases hrest with
            | cons hstart hplaced hrest =>
              have hleaf := hplaced.leaf (by rw [htext]; decide) sign.text false
              exact hgrouped.append (hleaf.widen hstart hrest.low_le)
          · cases hvalue
        · cases hvalue
      cases h with
      | cons hstart hplaced hrest =>
        split
        · next n hliteral =>
          have hn := row_literalWith hvalue hplaced (of_decide_eq_true hkind) hliteral
          refine (ih.literals count).bind hrest fun ns p ts hns h => ?_
          exact .pure ⟨p, (hn.widen hstart (Nat.le_refl _)).append hns, h⟩
        · exact .failure
    · exact .pure (.nil h)

theorem lays_atom (ih : Reads source gaps fuel) :
  LaysNode source gaps (Indented.atom (fuel + 1))
  := by
  intro limit first ts h
  rw [Indented.atom]
  apply gives_next?_bind
  cases ts with
  | nil => exact .failure
  | cons t ts =>
    dsimp only [List.head?_cons]
    split
    · next hkind => exact gives_take_leaf h (by rw [hkind]; rfl) _
    · next hkind => exact gives_take_leaf h (by rw [hkind]; rfl) _
    · refine (ih.literals fuel).bind h fun found p ts hfound h => ?_
      split
      · exact .failure
      · next hne => exact .pure ⟨p, hfound.grouped hne _, h⟩
    · next hkind =>
      split
      · exact gives_take_leaf h (by rw [hkind]; rfl) _
      · exact gives_take_leaf h (by rw [hkind]; rfl) _
      · exact gives_take_leaf h (by rw [hkind]; rfl) _
      · exact lays_identifier _ _ _ h
    · next hkind =>
      split
      · exact ih.parenthesized _ _ _ h
      · exact ih.bracketed _ _ _ h
      · exact ih.braced _ _ _ h
      · exact gives_take_leaf h (by rw [hkind]; rfl) _
      · exact .failure
    · exact .failure

theorem lays_yielded (ih : Reads source gaps fuel) :
  LaysNode source gaps (Indented.yielded (fuel + 1))
  := by
  intro limit first ts h
  rw [Indented.yielded]
  refine (lays_expect "yield").bind h fun yield_ p ts hyield h => ?_
  refine (offers_accept "from").bind h ?_ fun from_ q ts hfrom h => ?_
  · refine (looks_isNext ")").bind fun _ => (looks_isKind .newline).bind fun _ =>
      (looks_isKind .comment).bind fun _ => (looks_isNext "=").bind fun _ => ?_
    split
    · exact hyield.gives (List.cons_ne_nil _ _) h
    · refine (lays_separated ih.element fuel).bind h fun items hne q ts hitems h => ?_
      exact (hyield.append (hitems.grouped hne _)).gives (List.cons_ne_nil _ _) h
  · refine ih.expression.bind h fun value r ts hvalue h => ?_
    exact (hyield.append (hfrom.append hvalue)).gives (List.cons_ne_nil _ _) h

theorem lays_parenthesized (ih : Reads source gaps fuel) :
  LaysNode source gaps (Indented.parenthesized (fuel + 1))
  := by
  intro limit first ts h
  rw [Indented.parenthesized]
  refine (lays_expect "(").bind h fun opened p ts hopened h => ?_
  refine (looks_isNext ")").bind fun empty => ?_
  split
  · refine (lays_expect ")").bind h fun closed q ts hclosed h => ?_
    exact (hopened.append hclosed).gives (List.cons_ne_nil _ _) h
  · refine (looks_isNext "yield").bind fun yields => ?_
    split
    · refine ih.yielded.bind h fun value q ts hvalue h => ?_
      refine (lays_expect ")").bind h fun closed r ts hclosed h => ?_
      exact (hopened.append (hvalue.append hclosed)).gives (List.cons_ne_nil _ _) h
    · refine (lays_separated ih.element fuel).bind h fun items _ q ts hitems h => ?_
      refine (ih.clauses fuel).bind h fun clauses r ts hclauses h => ?_
      refine (lays_expect ")").bind h fun closed s ts hclosed h => ?_
      have hrow := ((hopened.append hitems).append hclauses).append hclosed
      exact hrow.gives (by simp) h

theorem lays_bracketed (ih : Reads source gaps fuel) :
  LaysNode source gaps (Indented.bracketed (fuel + 1))
  := by
  intro limit first ts h
  rw [Indented.bracketed]
  refine (lays_expect "[").bind h fun opened p ts hopened h => ?_
  refine (offers_accept "]").bind h ?_ fun closed q ts hclosed h => ?_
  · refine (lays_separated ih.element fuel).bind h fun items _ q ts hitems h => ?_
    refine (ih.clauses fuel).bind h fun clauses r ts hclauses h => ?_
    refine (lays_expect "]").bind h fun closed s ts hclosed h => ?_
    have hrow := ((hopened.append hitems).append hclauses).append hclosed
    exact hrow.gives (by simp) h
  · exact (hopened.append hclosed).gives (List.cons_ne_nil _ _) h

theorem lays_braced (ih : Reads source gaps fuel) :
  LaysNode source gaps (Indented.braced (fuel + 1))
  := by
  intro limit first ts h
  rw [Indented.braced]
  refine (lays_expect "\x7b").bind h fun opened p ts hopened h => ?_
  refine (offers_accept "\x7d").bind h ?_ fun closed q ts hclosed h => ?_
  · refine (lays_separated ih.entry fuel).bind h fun items _ q ts hitems h => ?_
    refine (ih.clauses fuel).bind h fun clauses r ts hclauses h => ?_
    refine (lays_expect "\x7d").bind h fun closed s ts hclosed h => ?_
    have hrow := ((hopened.append hitems).append hclauses).append hclosed
    exact hrow.gives (by simp) h
  · exact (hopened.append hclosed).gives (List.cons_ne_nil _ _) h

theorem lays_entry (ih : Reads source gaps fuel) :
  LaysNode source gaps (Indented.entry (fuel + 1))
  := by
  intro limit first ts h
  rw [Indented.entry]
  refine (offers_accept "**").bind h ?_ fun stars p ts hstars h => ?_
  · refine ih.element.bind h fun key p ts hkey h => ?_
    refine (offers_accept ":").bind h ?_ fun colon q ts hcolon h => ?_
    · exact .pure ⟨p, hkey, h⟩
    · refine ih.expression.bind h fun value r ts hvalue h => ?_
      have hrow := hkey.append (hcolon.append (hvalue.filling .value))
      exact hrow.gives (List.cons_ne_nil _ _) h
  · refine (ih.operation binaryLevels).bind h fun value q ts hvalue h => ?_
    exact (hstars.append hvalue).gives (List.cons_ne_nil _ _) h

end Reads

/-- The tokens that expressions are made of are where their nodes are, with any fuel. -/
theorem reads (source : String) (gaps : List SyntaxNode) (fuel : Nat) :
  Reads source gaps fuel
  := by
  induction fuel with
  | zero =>
    have hfail : LaysNode source gaps failure := fun _ _ _ _ => .failure
    have hfails : LaysNodes source gaps failure := fun _ _ _ _ => .failure
    have hnone : LaysNodes source gaps (pure []) :=
      fun _ _ _ h => .pure (.nil h)
    have hsame : Extends source gaps fun n => pure n :=
      fun _ _ mid _ _ hn h => .pure ⟨mid, hn, h⟩
    constructor
    all_goals
      intros
    case trailers =>
      intro limit first mid n ts
      rw [trailers]
      apply hsame
    all_goals
      simp only [expression, disjunction, conjunction, inversion, comparisons, operation, unary,
        primary, subscript, sliceEnd, arguments, argument, element, clauses, targets, parameter,
        typeHint, atom, literals, yielded, parenthesized, bracketed, braced, entry]
      first
      | exact hfail
      | exact hfails
      | exact hnone
  | succ fuel ih =>
    exact {
      expression := ih.lays_expression
      disjunction := ih.lays_disjunction
      conjunction := ih.lays_conjunction
      inversion := ih.lays_inversion
      comparisons := ih.lays_comparisons
      operation := ih.lays_operation
      unary := ih.lays_unary
      primary := ih.lays_primary
      trailers := ih.extends_trailers
      subscript := ih.lays_subscript
      sliceEnd := ih.lays_sliceEnd
      arguments := ih.lays_arguments
      argument := ih.lays_argument
      element := ih.lays_element
      clauses := ih.lays_clauses
      targets := ih.lays_targets
      parameter := ih.lays_parameter
      typeHint := ih.lays_typeHint
      atom := ih.lays_atom
      literals := ih.lays_literals
      yielded := ih.lays_yielded
      parenthesized := ih.lays_parenthesized
      bracketed := ih.lays_bracketed
      braced := ih.lays_braced
      entry := ih.lays_entry }

theorem lays_expressions (fuel : Nat) :
  LaysNode source gaps (expressions fuel)
  := by
  intro limit first ts h
  refine (lays_separated (reads source gaps fuel).element fuel).bind h
    fun items hne p ts hitems h => ?_
  exact .pure ⟨p, hitems.grouped hne _, h⟩

end MutationTesting.Indented
