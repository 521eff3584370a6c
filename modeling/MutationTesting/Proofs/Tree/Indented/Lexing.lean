import Mathlib.Data.List.TakeWhile
import MutationTesting.Proofs.Text.Splice
import MutationTesting.Tree.Indented.Token

/-!
# Places of tokens

The tokens of a source stand in it one after the other, each where its text is, and what is set
aside stands between them (`after_of_lex`). Tokens that show the layout have no text; they are at
the ends of others.
-/

namespace MutationTesting.Indented

variable {source : String} {offset first last low limit n : Nat}
  {cs ds marks quotes rest : List Char} {gaps : List SyntaxNode}

/-! ### Places -/

/-- Characters stand in a source at an offset. -/
def Stands (source : String) (offset : Nat) (cs : List Char) : Prop :=
  ∃ before after, source.toList = before ++ cs ++ after ∧ Text.byteLength before = offset

theorem Stands.start (h : Stands source offset cs) :
  Text.IsBoundary offset source.toList
  := by
  obtain ⟨before, after, hsource, hoffset⟩ := h
  use before, cs ++ after
  rw [hsource, List.append_assoc]
  use rfl

theorem Stands.left (h : Stands source offset (cs ++ ds)) :
  Stands source offset cs
  := by
  obtain ⟨before, after, hsource, hoffset⟩ := h
  use before, ds ++ after
  rw [hsource]
  simp [hoffset]

theorem Stands.right (h : Stands source offset (cs ++ ds)) :
  Stands source (offset + Text.byteLength cs) ds
  := by
  obtain ⟨before, after, hsource, hoffset⟩ := h
  use before ++ cs, after
  rw [hsource]
  simp [hoffset]

theorem Stands.stop (h : Stands source offset cs) :
  Text.IsBoundary (offset + Text.byteLength cs) source.toList
  := by
  rw [← List.append_nil cs] at h
  apply h.right.start

theorem Stands.of_boundary (h : Text.IsBoundary offset source.toList) :
  Stands source offset []
  := by
  obtain ⟨before, after, hsource, hoffset⟩ := h
  use before, after
  rw [List.append_nil]
  use hsource

/-- A part of a text, if any of it is there, overlaps with no gap. -/
def Free (gaps : List SyntaxNode) (first last : Nat) : Prop :=
  ∀ gap ∈ gaps, gap.info.stop ≤ first ∨ last ≤ gap.info.start

/-- No gap ends at an offset, and it is inside of none. -/
def Closes (gaps : List SyntaxNode) (offset : Nat) : Prop :=
  ∀ gap ∈ gaps, gap.info.stop < offset ∨ offset ≤ gap.info.start

/-- No gap begins at an offset, and it is inside of none. -/
def Opens (gaps : List SyntaxNode) (offset : Nat) : Prop :=
  ∀ gap ∈ gaps, gap.info.stop ≤ offset ∨ offset < gap.info.start

theorem Free.part (h : Free gaps low limit) (hlow : low ≤ first) (hlimit : last ≤ limit) :
  Free gaps first last
  := by
  intro gap hgap
  have := h gap hgap
  omega

theorem Free.closes (h : Free gaps first last) (hlt : first < last) :
  Closes gaps last
  := by
  intro gap hgap
  have := h gap hgap
  omega

theorem Free.opens (h : Free gaps first last) (hlt : first < last) :
  Opens gaps first
  := by
  intro gap hgap
  have := h gap hgap
  omega

/-! ### Literals -/

/-- What can be around the content of a literal. -/
structure AreQuotes (quotes : List Char) : Prop where
  ne_nil : quotes ≠ []
  bytes : Text.byteLength quotes = quotes.length
  head : ∀ c ∈ quotes.head?, isMark c = false

theorem quotes?_spec (h : quotes? cs = some quotes) :
  AreQuotes quotes ∧ ∃ rest, cs = quotes ++ rest
  := by
  unfold quotes? at h
  split at h
  all_goals
    cases h
  all_goals
    refine ⟨⟨List.cons_ne_nil _ _, rfl, ?_⟩, _, rfl⟩
    rintro _ ⟨⟩
    rfl

/-- The beginning of a text is enough to tell the quotes that it starts with. -/
theorem quotes?_of_append (h : quotes? (quotes ++ rest ++ ds) = some quotes) :
  quotes? (quotes ++ rest) = some quotes
  := by
  unfold quotes? at h
  split at h
  · cases h
    rfl
  · cases h
    rfl
  · next tail htriple heq =>
    cases h
    cases heq
    unfold quotes?
    split
    · next heq =>
      cases heq
      cases htriple _ rfl
    all_goals
      simp_all
  · next tail htriple heq =>
    cases h
    cases heq
    unfold quotes?
    split
    · simp_all
    · next heq =>
      cases heq
      cases htriple _ rfl
    all_goals
      simp_all
  · cases h

theorem utf8Size_of_isMark {c : Char} (h : isMark c = true) :
  c.utf8Size = 1
  := by
  have hmem : c ∈ ['r', 'R', 'b', 'B', 'u', 'U', 'f', 'F'] := List.contains_iff_mem.mp h
  simp only [List.mem_cons, List.not_mem_nil, or_false] at hmem
  obtain rfl | rfl | rfl | rfl | rfl | rfl | rfl | rfl := hmem <;> rfl

theorem byteLength_takeWhile_isMark (cs : List Char) :
  Text.byteLength (cs.takeWhile isMark) = (cs.takeWhile isMark).length
  := by
  induction cs with
  | nil => rfl
  | cons c cs ih =>
    rw [List.takeWhile_cons]
    split
    · next hmark =>
      rw [Text.byteLength_cons, List.length_cons, ih, utf8Size_of_isMark hmark]
      omega
    · rfl

/-- The marks and the quotes of a literal are where its text begins. -/
theorem opening?_eq_some_iff :
  opening? cs = some (marks, quotes)
    ↔ cs.takeWhile isMark = marks ∧ marks.length ≤ 2 ∧ quotes? (cs.dropWhile isMark) = some quotes
  := by
  unfold opening?
  constructor
  · intro h
    dsimp only at h
    split at h
    · cases h
    · obtain ⟨_, hquotes, heq⟩ := Option.map_eq_some_iff.mp h
      cases heq
      use rfl, by omega
  · rintro ⟨rfl, hlength, hquotes⟩
    rw [if_neg (by omega), hquotes]
    rfl

theorem opening?_spec (h : opening? cs = some (marks, quotes)) :
  AreQuotes quotes ∧ Text.byteLength marks = marks.length ∧ ∃ rest, cs = marks ++ quotes ++ rest
  := by
  obtain ⟨rfl, -, h⟩ := opening?_eq_some_iff.mp h
  obtain ⟨hquotes, rest, hrest⟩ := quotes?_spec h
  use hquotes, byteLength_takeWhile_isMark cs, rest
  rw [List.append_assoc, ← hrest, List.takeWhile_append_dropWhile]

/-- Marks are read up to the quotes. -/
theorem takeWhile_isMark (hmarks : ∀ c ∈ marks, isMark c = true) (hquotes : AreQuotes quotes) :
  (marks ++ quotes ++ rest).takeWhile isMark = marks
    ∧ (marks ++ quotes ++ rest).dropWhile isMark = quotes ++ rest
  := by
  obtain ⟨q, qs, rfl⟩ := List.exists_cons_of_ne_nil hquotes.ne_nil
  have hq := hquotes.head q rfl
  rw [List.append_assoc, List.takeWhile_append_of_pos hmarks, List.dropWhile_append_of_pos hmarks]
  simp [hq]

/-- The beginning of a text with a literal is enough to tell its marks and its quotes. -/
theorem opening?_of_append (h : opening? (marks ++ quotes ++ rest ++ ds) = some (marks, quotes)) :
  opening? (marks ++ quotes ++ rest) = some (marks, quotes)
  := by
  obtain ⟨hquotes, -, -⟩ := opening?_spec h
  rw [opening?_eq_some_iff] at h
  have hmarks : ∀ c ∈ marks, isMark c = true := by
    rw [← h.1]
    intro c hc
    apply List.all_eq_true.mp (List.all_takeWhile) c hc
  rw [List.append_assoc _ rest, (takeWhile_isMark hmarks hquotes).2,
    ← List.append_assoc quotes] at h
  rw [opening?_eq_some_iff, (takeWhile_isMark hmarks hquotes).1,
    (takeWhile_isMark hmarks hquotes).2]
  use rfl, h.2.1, quotes?_of_append h.2.2

/-- A literal is closed by its quotes. -/
theorem closing?_spec (h : closing? quotes cs = some n) :
  ∃ body rest, cs = body ++ quotes ++ rest ∧ n = (body ++ quotes).length
  := by
  fun_induction closing? quotes cs generalizing n with
  | case1 => cases h
  | case2 c cs ih =>
    obtain ⟨m, hm, rfl⟩ := Option.map_eq_some_iff.mp h
    obtain ⟨body, rest, rfl, rfl⟩ := ih hm
    use '\\' :: c :: body, rest
    simp
  | case3 c cs hescape hprefix =>
    cases h
    obtain ⟨rest, hrest⟩ := List.isPrefixOf_iff_prefix.mp hprefix
    use [], rest
    simp [hrest]
  | case4 => cases h
  | case5 c cs hescape hprefix hline ih =>
    obtain ⟨m, hm, rfl⟩ := Option.map_eq_some_iff.mp h
    obtain ⟨body, rest, rfl, rfl⟩ := ih hm
    use c :: body, rest
    simp

/-- The text of a literal. -/
def IsLiteral (cs : List Char) : Prop :=
  ∃ marks quotes body, cs = marks ++ quotes ++ body ++ quotes
    ∧ opening? cs = some (marks, quotes)

theorem isLiteral_of_literalLength? (h : literalLength? cs = some n) :
  IsLiteral (cs.take n)
  := by
  obtain ⟨⟨marks, quotes⟩, hopening, h⟩ := Option.bind_eq_some_iff.mp h
  obtain ⟨m, hclosing, heq⟩ := Option.bind_eq_some_iff.mp h
  cases heq
  obtain ⟨-, -, rest, rfl⟩ := opening?_spec hopening
  rw [← List.length_append, List.drop_left] at hclosing
  obtain ⟨body, after, rfl, rfl⟩ := closing?_spec hclosing
  have htake : (marks ++ quotes ++ (body ++ quotes ++ after)).take
      (marks.length + quotes.length + (body ++ quotes).length)
        = marks ++ quotes ++ (body ++ quotes) := by
    rw [← List.length_append, ← List.length_append, ← List.append_assoc _ _ after, List.take_left]
  rw [htake]
  use marks, quotes, body, by simp
  apply opening?_of_append
  rwa [List.append_assoc _ _ after]

/-! ### Tokens in order -/

/-- Whether a token shows the layout of a source. -/
def TokenKind.isLayout (kind : TokenKind) : Bool :=
  kind == .newline || kind == .indent || kind == .dedent

/-- A token stands where its text does, and its text is between gaps. -/
structure Token.Placed (source : String) (gaps : List SyntaxNode) (t : Token) : Prop where
  stands : Stands source t.start t.text.toList
  stop : t.stop = t.start + Text.byteLength t.text.toList
  closes : Closes gaps t.stop
  free : t.text ≠ "" → Free gaps t.start t.stop
  text_ne : t.kind.isLayout = false → t.text ≠ ""
  literal : t.kind = .literal → IsLiteral t.text.toList

/-- Tokens are placed one after the other, from one offset on and up to another one. -/
inductive After (source : String) (gaps : List SyntaxNode) (limit : Nat) :
    Nat → List Token → Prop where
  | nil {low : Nat} : low ≤ limit → After source gaps limit low []
  | cons {low : Nat} {t : Token} {ts : List Token} :
      low ≤ t.start → t.Placed source gaps → After source gaps limit t.stop ts →
      After source gaps limit low (t :: ts)

variable {t : Token} {ts : List Token} {gap : SyntaxNode} {low' limit' : Nat}

theorem Token.Placed.start_le_stop (h : t.Placed source gaps) :
  t.start ≤ t.stop
  := by
  rw [h.stop]
  apply Nat.le_add_right

theorem Token.Placed.start_lt_stop (h : t.Placed source gaps) (htext : t.text ≠ "") :
  t.start < t.stop
  := by
  have hlength : Text.byteLength t.text.toList ≠ 0 := by
    rwa [Ne, Text.byteLength_eq_zero_iff, String.toList_eq_nil_iff]
  rw [h.stop]
  omega

theorem Token.Placed.of_subset {gaps' : List SyntaxNode} (h : t.Placed source gaps)
    (hsubset : ∀ gap ∈ gaps', gap ∈ gaps) :
  t.Placed source gaps'
  := by
  refine ⟨h.stands, h.stop, ?_, ?_, h.text_ne, h.literal⟩
  · intro gap hgap
    apply h.closes gap (hsubset gap hgap)
  · intro htext gap hgap
    apply h.free htext gap (hsubset gap hgap)

namespace After

theorem low_le (h : After source gaps limit low ts) :
  low ≤ limit
  := by
  induction h with
  | nil hle => exact hle
  | cons hle hplaced _ ih =>
    have := hplaced.start_le_stop
    omega

theorem mono (h : After source gaps limit low ts) (hle : low' ≤ low) :
  After source gaps limit low' ts
  := by
  cases h with
  | nil hlimit => exact .nil (Nat.le_trans hle hlimit)
  | cons hstart hplaced hrest => exact .cons (Nat.le_trans hle hstart) hplaced hrest

theorem tail (h : After source gaps limit low (t :: ts)) :
  After source gaps limit low ts
  := by
  cases h with
  | cons hstart hplaced hrest =>
    exact hrest.mono (Nat.le_trans hstart hplaced.start_le_stop)

theorem widen (h : After source gaps limit low ts) (hle : limit ≤ limit') :
  After source gaps limit' low ts
  := by
  induction h with
  | nil hlimit => exact .nil (Nat.le_trans hlimit hle)
  | cons hstart hplaced _ ih => exact .cons hstart hplaced ih

theorem of_subset {gaps' : List SyntaxNode} (h : After source gaps limit low ts)
    (hsubset : ∀ gap ∈ gaps', gap ∈ gaps) :
  After source gaps' limit low ts
  := by
  induction h with
  | nil hlimit => exact .nil hlimit
  | cons hstart hplaced _ ih => exact .cons hstart (hplaced.of_subset hsubset) ih

/-- Tokens of some kinds can be left out. -/
theorem filter (h : After source gaps limit low ts) (f : Token → Bool) :
  After source gaps limit low (ts.filter f)
  := by
  induction h with
  | nil hlimit => exact .nil hlimit
  | cons hstart hplaced _ ih =>
    rw [List.filter_cons]
    split
    · exact .cons hstart hplaced ih
    · exact ih.mono (Nat.le_trans hstart hplaced.start_le_stop)

/-- A token follows on others. -/
theorem concat (h : After source gaps limit low ts) (hstart : limit ≤ t.start)
    (hplaced : t.Placed source gaps) :
  After source gaps t.stop low (ts ++ [t])
  := by
  induction h with
  | nil hlimit =>
    exact .cons (Nat.le_trans hlimit hstart) hplaced (.nil (Nat.le_refl _))
  | cons hfirst hplaced' _ ih => exact .cons hfirst hplaced' ih

/-- A gap may follow on tokens. -/
theorem consGap (h : After source gaps limit low ts) (hstart : limit ≤ gap.info.start) :
  After source (gap :: gaps) limit low ts
  := by
  induction h with
  | nil hlimit => exact .nil hlimit
  | cons hfirst hplaced hrest ih =>
    have hlimit := hrest.low_le
    refine .cons hfirst ⟨hplaced.stands, hplaced.stop, ?_, ?_, hplaced.text_ne, hplaced.literal⟩ ih
    · rintro other (_ | ⟨_, hother⟩)
      · right
        omega
      · apply hplaced.closes other hother
    · rintro htext other (_ | ⟨_, hother⟩)
      · right
        omega
      · apply hplaced.free htext other hother

end After

/-- Nodes without children that stand in a source one after the other, the last one first. -/
structure Aside (source : String) (low limit : Nat) (nodes : List SyntaxNode) : Prop where
  children : ∀ n ∈ nodes, n.children = []
  start : ∀ n ∈ nodes, Text.IsBoundary n.info.start source.toList ∧ low ≤ n.info.start
  stop : ∀ n ∈ nodes, Text.IsBoundary n.info.stop source.toList ∧ n.info.stop ≤ limit
  start_lt_stop : ∀ n ∈ nodes, n.info.start < n.info.stop
  ordered : nodes.Pairwise fun a b => b.info.stop ≤ a.info.start

theorem Aside.sublist {nodes nodes' : List SyntaxNode} (h : Aside source low limit nodes)
    (hsublist : List.Sublist nodes' nodes) :
  Aside source low limit nodes'
  := by
  refine ⟨?_, ?_, ?_, ?_, h.ordered.sublist hsublist⟩
  · exact fun n hn => h.children n (hsublist.subset hn)
  · exact fun n hn => h.start n (hsublist.subset hn)
  · exact fun n hn => h.stop n (hsublist.subset hn)
  · exact fun n hn => h.start_lt_stop n (hsublist.subset hn)

/-! ### Layout -/

/-- How far the lexer has come in a source: what it has read and what is left are all that stands
there from an offset up to another one. -/
structure Lexer.Tidy (source : String) (gaps : List SyntaxNode) (low limit : Nat) (l : Lexer)
    (cs : List Char) : Prop where
  stands : Stands source l.offset cs
  ends : l.offset + Text.byteLength cs = limit
  low_le : low ≤ l.offset
  lastStop_le : l.lastStop ≤ l.offset
  lastPlace : Text.IsBoundary l.lastStop source.toList ∧ Closes (l.extras ++ gaps) l.lastStop
  after : After source (l.extras ++ gaps) (max low l.lastStop) low l.tokens.reverse
  aside : Aside source low l.offset l.extras
  /-- Layout is shown only where there is a token before. -/
  begun : low ≤ l.lastStop ∨ l.tokens = [] ∧ 0 < l.depth ∧ l.fresh = false ∧ l.blocks = []

namespace Lexer.Tidy

variable {l : Lexer} {text : List Char}

theorem skip (h : l.Tidy source gaps low limit (text ++ cs)) :
  (l.skip text).Tidy source gaps low limit cs
  := by
  have hoffset : (l.skip text).offset = l.offset + Text.byteLength text := rfl
  refine ⟨h.stands.right, ?_, ?_, ?_, h.lastPlace, h.after, ?_, h.begun⟩
  · rw [hoffset, ← h.ends, Text.byteLength_append, Nat.add_assoc]
  · exact Nat.le_trans h.low_le (Nat.le_add_right _ _)
  · exact Nat.le_trans h.lastStop_le (Nat.le_add_right _ _)
  · refine ⟨h.aside.children, h.aside.start, ?_, h.aside.start_lt_stop, h.aside.ordered⟩
    intro n hn
    have := (h.aside.stop n hn).2
    use (h.aside.stop n hn).1
    omega

/-- What is read next overlaps with no gap. -/
theorem free (h : l.Tidy source gaps low limit (text ++ cs)) (hfree : Free gaps low limit) :
  Free (l.extras ++ gaps) l.offset (l.offset + Text.byteLength text)
  := by
  intro gap hgap
  obtain hextra | hgap := List.mem_append.mp hgap
  · left
    apply (h.aside.stop gap hextra).2
  · have hends := h.ends
    rw [Text.byteLength_append] at hends
    apply hfree.part h.low_le (by omega) gap hgap

/-- A token for some characters. -/
theorem add (kind : TokenKind) (h : l.Tidy source gaps low limit (text ++ cs))
    (hfree : Free gaps low limit) (htext : text ≠ [])
    (hliteral : kind = .literal → IsLiteral text) :
  (l.add kind text).Tidy source gaps low limit cs ∧ low ≤ (l.add kind text).lastStop
  := by
  have hlt : l.offset < l.offset + Text.byteLength text := by
    have hlength : Text.byteLength text ≠ 0 := by rwa [Ne, Text.byteLength_eq_zero_iff]
    omega
  have hplaced : Token.Placed source (l.extras ++ gaps)
      ⟨kind, String.ofList text, l.offset, l.offset + Text.byteLength text⟩ := by
    refine ⟨?_, ?_, (h.free hfree).closes hlt, fun _ => h.free hfree, ?_, ?_⟩
    · rw [String.toList_ofList]
      exact h.stands.left
    · rw [String.toList_ofList]
    · intro _ hempty
      apply htext
      have hlist := congrArg String.toList hempty
      rwa [String.toList_ofList] at hlist
    · rw [String.toList_ofList]
      exact hliteral
  have hskip := h.skip
  have hafter := h.after.concat (Nat.max_le.mpr ⟨h.low_le, h.lastStop_le⟩) hplaced
  refine ⟨⟨hskip.stands, hskip.ends, hskip.low_le, Nat.le_refl _, ?_, ?_, hskip.aside, ?_⟩,
    hskip.low_le⟩
  · use h.stands.left.stop, hplaced.closes
  · have hmax : max low (l.add kind text).lastStop = l.offset + Text.byteLength text :=
      Nat.max_eq_right hskip.low_le
    have htokens : (l.add kind text).tokens.reverse = l.tokens.reverse ++ [_] := List.reverse_cons
    rw [hmax, htokens]
    exact hafter
  · left
    exact hskip.low_le

/-- A node for some characters that are set aside. -/
theorem setAside {name : String} (h : l.Tidy source gaps low limit (text ++ cs))
    (htext : text ≠ []) :
  (l.setAside name text).Tidy source gaps low limit cs
  := by
  have hlt : l.offset < l.offset + Text.byteLength text := by
    have hlength : Text.byteLength text ≠ 0 := by rwa [Ne, Text.byteLength_eq_zero_iff]
    omega
  have hskip := h.skip
  have hle : max low l.lastStop ≤ l.offset := Nat.max_le.mpr ⟨h.low_le, h.lastStop_le⟩
  refine ⟨hskip.stands, hskip.ends, hskip.low_le, hskip.lastStop_le, ⟨h.lastPlace.1, ?_⟩,
    h.after.consGap hle, ?_, h.begun⟩
  · rintro gap (_ | ⟨_, hgap⟩)
    · right
      exact h.lastStop_le
    · apply h.lastPlace.2 gap hgap
  · refine ⟨?_, ?_, ?_, ?_, ?_⟩
    · rintro n (_ | ⟨_, hn⟩)
      · rfl
      · apply h.aside.children n hn
    · rintro n (_ | ⟨_, hn⟩)
      · exact ⟨h.stands.start, h.low_le⟩
      · apply h.aside.start n hn
    · rintro n (_ | ⟨_, hn⟩)
      · exact ⟨h.stands.left.stop, Nat.le_refl _⟩
      · apply hskip.aside.stop n hn
    · rintro n (_ | ⟨_, hn⟩)
      · exact hlt
      · apply h.aside.start_lt_stop n hn
    · apply List.Pairwise.cons _ h.aside.ordered
      intro n hn
      apply (h.aside.stop n hn).2

/-- A token that shows the layout. -/
theorem mark (kind : TokenKind) (h : l.Tidy source gaps low limit cs) (hbegun : low ≤ l.lastStop)
    (hkind : kind.isLayout = true) :
  (l.mark kind).Tidy source gaps low limit cs
  := by
  have hplaced : Token.Placed source (l.extras ++ gaps) ⟨kind, "", l.lastStop, l.lastStop⟩ := by
    refine ⟨.of_boundary h.lastPlace.1, rfl, h.lastPlace.2, ?_, ?_, ?_⟩
    · intro hne
      cases hne rfl
    · rw [hkind]
      intro hne
      cases hne
    · rintro rfl
      cases hkind
  have hafter := h.after.concat (t := ⟨kind, "", l.lastStop, l.lastStop⟩)
    (Nat.max_le.mpr ⟨hbegun, Nat.le_refl _⟩) hplaced
  refine ⟨h.stands, h.ends, h.low_le, h.lastStop_le, h.lastPlace, ?_, h.aside, .inl hbegun⟩
  have hmax : max low (l.mark kind).lastStop = l.lastStop := Nat.max_eq_right hbegun
  have htokens : (l.mark kind).tokens.reverse = l.tokens.reverse ++ [_] := List.reverse_cons
  rw [hmax, htokens]
  exact hafter

/-- What the lexer knows of blocks and brackets matters only before the first token. -/
theorem arranged {l' : Lexer} (h : l.Tidy source gaps low limit cs) (hbegun : low ≤ l.lastStop)
    (htokens : l'.tokens = l.tokens) (hextras : l'.extras = l.extras)
    (hoffset : l'.offset = l.offset) :
  l'.Tidy source gaps low limit cs
  := by
  have hlast : l'.lastStop = l.lastStop := by
    rw [lastStop, htokens]
    rfl
  refine ⟨?_, ?_, ?_, ?_, ?_, ?_, ?_, ?_⟩
  · rw [hoffset]
    exact h.stands
  · rw [hoffset]
    exact h.ends
  · rw [hoffset]
    exact h.low_le
  · rw [hlast, hoffset]
    exact h.lastStop_le
  · rw [hlast, hextras]
    exact h.lastPlace
  · rw [hextras, hlast, htokens]
    exact h.after
  · rw [hextras, hoffset]
    exact h.aside
  · rw [hlast]
    exact .inl hbegun

/-- Where a line begins, or no bracket is open, there was a token before. -/
theorem shown (h : l.Tidy source gaps low limit cs) (hplace : l.fresh = true ∨ l.depth = 0) :
  low ≤ l.lastStop
  := by
  obtain hle | ⟨-, hdepth, hfresh, -⟩ := h.begun
  · exact hle
  · obtain hplace | hplace := hplace
    · rw [hplace] at hfresh
      cases hfresh
    · omega

/-- Blocks are closed, which shows only where a token was before. -/
theorem close (h : l.Tidy source gaps low limit cs) (hbegun : low ≤ l.lastStop)
    (code comment : Nat) :
  (l.close code comment).Tidy source gaps low limit cs ∧ low ≤ (l.close code comment).lastStop
  := by
  have hmarks : ∀ n, ((List.range n).foldl (fun l _ => l.mark .dedent) l).Tidy source gaps low
      limit cs ∧ low ≤ ((List.range n).foldl (fun l _ => l.mark .dedent) l).lastStop := by
    intro n
    induction n with
    | zero => exact ⟨h, hbegun⟩
    | succ n ih =>
      rw [List.range_succ, List.foldl_append]
      exact ⟨ih.1.mark .dedent ih.2 rfl, ih.2⟩
  rw [Lexer.close]
  have hclosed := hmarks (l.blocks.length
    - (l.blocks.dropWhile fun block => code < block && comment < block).length)
  use hclosed.1.arranged hclosed.2 rfl rfl rfl, hclosed.2

theorem arrange (h : l.Tidy source gaps low limit cs) (hbegun : low ≤ l.lastStop)
    (code comment : Nat) :
  (l.arrange code comment).Tidy source gaps low limit cs
    ∧ low ≤ (l.arrange code comment).lastStop
  := by
  rw [Lexer.arrange]
  split
  · have hmark := h.mark .indent hbegun rfl
    use hmark.arranged hbegun rfl rfl rfl, hbegun
  · apply h.close hbegun

theorem track (h : l.Tidy source gaps low limit cs) (hbegun : low ≤ l.lastStop)
    (symbol : List Char) :
  (l.track symbol).Tidy source gaps low limit cs
  := by
  unfold Lexer.track
  split
  all_goals
    exact h.arranged hbegun rfl rfl rfl

/-- The blanks at the start of a line are left out. -/
theorem beginLine (h : l.Tidy source gaps low limit cs) (hbegun : low ≤ l.lastStop) :
  (l.beginLine cs).Tidy source gaps low limit (cs.dropWhile isSpace)
  := by
  have hblanks := List.takeWhile_append_dropWhile (p := isSpace) (l := cs)
  have hskip : (l.skip (cs.takeWhile isSpace)).Tidy source gaps low limit
      (cs.dropWhile isSpace) := by
    apply Tidy.skip
    rwa [hblanks]
  rw [Lexer.beginLine]
  dsimp only
  split
  · exact hskip.arranged hbegun rfl rfl rfl
  · exact hskip.arranged hbegun rfl rfl rfl
  · have harrange := hskip.arrange hbegun (nextWidth (cs.drop (cs.takeWhile isSpace).length))
      (width (cs.takeWhile isSpace))
    exact harrange.1.arranged harrange.2 rfl rfl rfl
  · have harrange := hskip.arrange hbegun (width (cs.takeWhile isSpace)) 0
    exact harrange.1.arranged harrange.2 rfl rfl rfl

end Lexer.Tidy

/-! ### Lengths of tokens -/

theorem one_le_length_takeWhile {p : Char → Bool} {c : Char} (h : p c = true) :
  1 ≤ ((c :: cs).takeWhile p).length
  := by
  rw [List.takeWhile_cons, if_pos h, List.length_cons]
  omega

theorem one_le_decimal {c : Char} (h : isDigit c = true ∨ c = '.') :
  1 ≤ (numberLength.decimal (c :: cs)).2
  := by
  rw [numberLength.decimal]
  dsimp only
  obtain hdigit | rfl := h
  · have hwhole : 1 ≤ (digits (c :: cs)).length := by
      apply one_le_length_takeWhile
      rw [hdigit]
      rfl
    omega
  · have hwhole : digits ('.' :: cs) = [] := rfl
    have htail : 1 ≤ (fraction ('.' :: cs)).length := by
      rw [fraction, List.length_cons]
      omega
    rw [hwhole, List.length_nil, List.drop_zero]
    omega

theorem numberLength_spec {c : Char} (cs : List Char) (h : isDigit c = true ∨ c = '.') :
  1 ≤ (numberLength (c :: cs)).2 ∧ (numberLength (c :: cs)).1 ≠ .literal
  := by
  have hdecimal : 1 ≤ (numberLength.decimal (c :: cs)).2
      ∧ (numberLength.decimal (c :: cs)).1 ≠ .literal := by
    use one_le_decimal h
    rw [numberLength.decimal]
    dsimp only
    split <;> exact TokenKind.noConfusion
  unfold numberLength
  split
  · next heq =>
    cases heq
    split
    · refine ⟨?_, TokenKind.noConfusion⟩
      apply one_le_length_takeWhile
      decide
    · exact hdecimal
  · exact hdecimal

/-- A token has a text, which for a literal is that of one. -/
theorem nextToken_spec (c : Char) (cs : List Char) :
  1 ≤ (nextToken (c :: cs)).2
    ∧ ((nextToken (c :: cs)).1 = .literal → IsLiteral ((c :: cs).take (nextToken (c :: cs)).2))
  := by
  unfold nextToken
  split
  · next length hlength =>
    refine ⟨?_, fun _ => isLiteral_of_literalLength? hlength⟩
    obtain ⟨⟨marks, quotes⟩, hopening, hlength⟩ := Option.bind_eq_some_iff.mp hlength
    obtain ⟨m, -, heq⟩ := Option.bind_eq_some_iff.mp hlength
    cases heq
    have hquotes := List.length_pos_iff.mpr (opening?_spec hopening).1.ne_nil
    omega
  · dsimp only
    split
    · next hnumber =>
      have hstart : isDigit c = true ∨ c = '.' := by
        simp only [Bool.or_eq_true, Bool.and_eq_true, decide_eq_true_eq] at hnumber
        exact hnumber.imp_right And.left
      obtain ⟨hlength, hliteral⟩ := numberLength_spec cs hstart
      exact ⟨hlength, fun h => absurd h hliteral⟩
    · split
      · next hword =>
        refine ⟨?_, TokenKind.noConfusion⟩
        apply one_le_length_takeWhile
        rw [isWordPart, hword]
        rfl
      · refine ⟨?_, TokenKind.noConfusion⟩
        rw [symbolLength]
        cases h : longSymbols.find? fun symbol => symbol.toList.isPrefixOf (c :: cs) with
        | none => exact Nat.le_refl 1
        | some symbol =>
          have hall : ∀ s ∈ longSymbols, 1 ≤ s.length := by decide
          apply hall symbol (List.mem_of_find?_eq_some h)

/-! ### Sources -/

theorem drop_eq_of_cons_eq_append {c : Char} {text rest : List Char} (h : c :: cs = text ++ rest)
    (htext : text ≠ []) :
  cs.drop (text.length - 1) = rest
  := by
  obtain ⟨d, ds, rfl⟩ := List.exists_cons_of_ne_nil htext
  cases h
  simp

/-- A comment is at the beginning of what is left. -/
theorem comment_spec (cs : List Char) :
  ((restOfLine ('#' :: cs)).reverse.dropWhile (· == '\r')).reverse ≠ []
    ∧ ∃ rest, '#' :: cs = ((restOfLine ('#' :: cs)).reverse.dropWhile (· == '\r')).reverse ++ rest
  := by
  have hline : restOfLine ('#' :: cs) = '#' :: restOfLine cs := by
    rw [restOfLine, List.takeWhile_cons, if_pos (by decide)]
    rfl
  constructor
  · intro hnil
    have hall := List.dropWhile_eq_nil_iff.mp (List.reverse_eq_nil_iff.mp hnil)
    have hsign := hall '#' (by simp [hline])
    cases hsign
  · obtain ⟨ends, hends⟩ :=
      List.dropWhile_suffix (· == '\r') (l := (restOfLine ('#' :: cs)).reverse)
    obtain ⟨rest, hrest⟩ := List.takeWhile_prefix (· != '\n') (l := '#' :: cs)
    use ends.reverse ++ rest
    rw [← List.append_assoc, ← List.reverse_append, hends, List.reverse_reverse]
    exact hrest.symm

/-- The lexer goes over a source to its end. -/
theorem tidy_lexFrom {fuel : Nat} {l l' : Lexer} (hfree : Free gaps low limit)
    (h : l.Tidy source gaps low limit cs) (hlex : lexFrom fuel l cs = some l') :
  ∃ last : Lexer, l' = last.finish ∧ last.Tidy source gaps low limit []
  := by
  fun_induction lexFrom fuel l cs with
  | case1 l cs hempty =>
    cases hlex
    cases List.isEmpty_iff.mp hempty
    exact ⟨l, rfl, h⟩
  | case2 => cases hlex
  | case3 _ l =>
    cases hlex
    exact ⟨l, rfl, h⟩
  | case4 fuel l c cs hspace blanks ih =>
    obtain ⟨hfresh, hspace⟩ := Bool.and_eq_true_iff.mp hspace
    apply ih _ hlex
    have hdrop : cs.drop (blanks.length - 1) = (c :: cs).dropWhile isSpace := by
      apply drop_eq_of_cons_eq_append List.takeWhile_append_dropWhile.symm
      apply List.length_pos_iff.mp
      apply one_le_length_takeWhile hspace
    rw [hdrop]
    apply h.beginLine (h.shown (.inl hfresh))
  | case5 fuel l cs next _ ih =>
    apply ih _ hlex
    apply Lexer.Tidy.skip
    dsimp only [next]
    split
    · exact h
    · next hplace =>
      have hshown : low ≤ l.lastStop := by
        apply h.shown
        simp only [Bool.or_eq_true, decide_eq_true_eq, not_or] at hplace
        omega
      exact (h.mark .newline hshown rfl).arranged hshown rfl rfl rfl
  | case6 fuel l c cs hspace _ hfresh ih =>
    apply ih _ hlex
    have hdrop : (c :: cs).dropWhile isSpace = c :: cs := by
      rw [hfresh, Bool.true_and] at hspace
      rw [List.dropWhile_cons, if_neg hspace]
    rw [← hdrop]
    nth_rewrite 1 [hdrop]
    apply h.beginLine (h.shown (.inl hfresh))
  | case7 fuel l c cs _ _ _ _ ih =>
    apply ih _ hlex
    apply Lexer.Tidy.skip
    exact h
  | case8 fuel l cs _ _ _ _ comment next ih =>
    apply ih _ hlex
    obtain ⟨hcomment, rest, hrest⟩ := comment_spec cs
    rw [drop_eq_of_cons_eq_append hrest hcomment]
    rw [hrest] at h
    dsimp only [next]
    split
    · exact h.setAside hcomment
    · obtain ⟨hadd, hshown⟩ := h.add .comment hfree hcomment TokenKind.noConfusion
      exact hadd.arranged hshown rfl rfl rfl
  | case9 fuel l cs _ _ _ _ _ ih =>
    apply ih _ hlex
    apply Lexer.Tidy.setAside h
    decide
  | case10 fuel l cs _ _ _ _ _ ih =>
    apply ih _ hlex
    apply Lexer.Tidy.setAside h
    decide
  | case11 fuel l c cs _ _ _ _ _ kind length hnext text next _ _ ih =>
    obtain ⟨hlength, hliteral⟩ := nextToken_spec c cs
    obtain rfl : (nextToken (c :: cs)).1 = kind := congrArg Prod.fst hnext
    obtain rfl : (nextToken (c :: cs)).2 = length := congrArg Prod.snd hnext
    apply ih _ hlex
    have hparts := (List.take_append_drop (nextToken (c :: cs)).2 (c :: cs)).symm
    have htext : text ≠ [] := by
      apply List.length_pos_iff.mp
      rw [List.length_take, List.length_cons]
      omega
    have hdrop : cs.drop ((nextToken (c :: cs)).2 - 1)
        = (c :: cs).drop (nextToken (c :: cs)).2 := by
      rw [← List.drop_succ_cons, Nat.sub_add_cancel hlength]
    rw [hdrop]
    rw [hparts] at h
    obtain ⟨hadd, hshown⟩ := h.add _ hfree htext hliteral
    apply hadd.track hshown

/-- The end of a source ends its last line and its blocks. -/
theorem Lexer.Tidy.finish {l : Lexer} (h : l.Tidy source gaps low limit []) :
  (After source (l.finish.extras ++ gaps) limit low l.finish.tokens.reverse
      ∨ 0 < low ∧ ∀ t ∈ l.finish.tokens, t.kind = .newline)
    ∧ Aside source low limit l.finish.extras
  := by
  have hlimit : l.offset = limit := h.ends
  by_cases hshown : low ≤ l.lastStop
  · have hended : (if l.fresh then l else l.mark .newline).Tidy source gaps low limit []
        ∧ low ≤ (if l.fresh then l else l.mark .newline).lastStop := by
      split
      · exact ⟨h, hshown⟩
      · exact ⟨h.mark .newline hshown rfl, hshown⟩
    obtain ⟨htidy, -⟩ := hended.1.close hended.2 0 0
    have hoffset : l.finish.offset = limit := htidy.ends
    constructor
    · left
      apply htidy.after.widen
      rw [← hoffset]
      exact Nat.max_le.mpr ⟨htidy.low_le, htidy.lastStop_le⟩
    · rw [← hoffset]
      exact htidy.aside
  · obtain ⟨htokens, -, hfresh, hblocks⟩ := h.begun.resolve_left hshown
    have hfinish : l.finish = l.mark .newline := by
      simp [Lexer.finish, hfresh, Lexer.close, Lexer.mark, hblocks]
    rw [hfinish]
    constructor
    · right
      use Nat.zero_lt_of_lt (Nat.lt_of_not_le hshown)
      intro t ht
      rw [Lexer.mark, htokens] at ht
      cases List.mem_singleton.mp ht
      rfl
    · rw [← hlimit]
      exact h.aside

/-- What the lexer makes of a part of a source: its tokens stand in order between the gaps and what
is set aside, or it is nothing but the end of a line inside of a source. -/
theorem after_of_lex {depth : Nat} {tokens : List Token} {extras : List SyntaxNode}
    (hstands : Stands source low cs) (hfree : Free gaps low (low + Text.byteLength cs))
    (hdepth : low = 0 ∨ 0 < depth) (h : lex low depth cs = some (tokens, extras)) :
  (After source (extras ++ gaps) (low + Text.byteLength cs) low tokens
      ∨ 0 < low ∧ ∀ t ∈ tokens, t.kind = .newline)
    ∧ Aside source low (low + Text.byteLength cs) extras.reverse
  := by
  obtain ⟨l, hlex, heq⟩ := Option.map_eq_some_iff.mp h
  cases heq
  rw [List.reverse_reverse]
  have hstart : Lexer.Tidy source gaps low (low + Text.byteLength cs)
      { Lexer.start with offset := low, depth := depth, fresh := depth = 0 } cs := by
    refine ⟨hstands, rfl, Nat.le_refl _, Nat.zero_le _, ⟨⟨[], _, rfl, rfl⟩, ?_⟩, ?_, ?_, ?_⟩
    · intro gap _
      right
      exact Nat.zero_le _
    · exact .nil (Nat.le_max_left _ _)
    · constructor <;> simp [Lexer.start]
    · apply hdepth.imp
      · rintro rfl
        exact Nat.le_refl 0
      · intro hdepth
        exact ⟨rfl, hdepth, decide_eq_false (by omega), rfl⟩
  obtain ⟨last, rfl, htidy⟩ := tidy_lexFrom hfree hstart hlex
  obtain ⟨hafter, haside⟩ := htidy.finish
  refine ⟨hafter.imp (fun hafter => ?_) (And.imp_right fun hall t ht => ?_), haside⟩
  · apply hafter.of_subset
    intro gap
    rw [List.mem_append, List.mem_append, List.mem_reverse]
    exact id
  · apply hall t (List.mem_reverse.mp ht)

end MutationTesting.Indented
