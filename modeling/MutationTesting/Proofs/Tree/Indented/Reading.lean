import MutationTesting.Proofs.Tree.Indented.Lexing
import MutationTesting.Proofs.Tree.WellFormed
import MutationTesting.Tree.Indented.Reading

/-!
# Rows of nodes

A `Row` is made of nodes that follow one another between two offsets of a source, and below which
all spans are in order. Nodes are made out of rows (`Row.node`), and a reading `Lays` a row where
the tokens are that it takes.
-/

namespace MutationTesting.Indented

variable {source : String} {gaps : List SyntaxNode} {first mid last limit : Nat}
  {n : SyntaxNode} {ns ms : List SyntaxNode} {info : NodeInfo}

/-! ### Rows -/

/-- A gap is outside of the span of a node, or strictly inside. -/
def Clear (gaps : List SyntaxNode) (n : SyntaxNode) : Prop :=
  ∀ gap ∈ gaps, gap.info.stop ≤ n.info.start ∨ n.info.stop ≤ gap.info.start
    ∨ n.info.start < gap.info.start ∧ gap.info.stop < n.info.stop

/-- A node and all nodes below it span parts of a source, in order, around the gaps. -/
def Sound (source : String) (gaps : List SyntaxNode) (n : SyntaxNode) : Prop :=
  ∀ m ∈ n.preorder, m.Spanned source ∧ Clear gaps m

/-- Sound nodes follow one another between two offsets. -/
structure Ordered (source : String) (gaps : List SyntaxNode) (first : Nat)
    (ns : List SyntaxNode) (last : Nat) : Prop where
  first_le_last : first ≤ last
  inside : ∀ n ∈ ns, first ≤ n.info.start ∧ n.info.stop ≤ last
  sound : ∀ n ∈ ns, Sound source gaps n
  ordered : ns.Pairwise fun a b => a.info.stop ≤ b.info.start

/-- Ordered nodes, of which the first one has a text, and none ends where a gap does. -/
structure Row (source : String) (gaps : List SyntaxNode) (first : Nat) (ns : List SyntaxNode)
    (last : Nat) : Prop extends Ordered source gaps first ns last where
  opens : ∀ n ∈ ns.head?, Opens gaps n.info.start
  closes : ∀ n ∈ ns, Closes gaps n.info.stop

theorem sound_mk_iff :
  Sound source gaps (.mk info ns)
    ↔ Text.IsBoundary info.start source.toList ∧ Text.IsBoundary info.stop source.toList
      ∧ Clear gaps (.mk info ns) ∧ Ordered source gaps info.start ns info.stop
  := by
  constructor
  · intro h
    obtain ⟨hspanned, hclear⟩ := h _ (SyntaxNode.self_mem_preorder _)
    refine ⟨hspanned.start, hspanned.stop, hclear, hspanned.start_le_stop, hspanned.inside, ?_,
      hspanned.ordered⟩
    intro child hchild below hbelow
    exact h below (SyntaxNode.mem_preorder_mk.mpr (.inr ⟨child, hchild, hbelow⟩))
  · rintro ⟨hstart, hstop, hclear, hordered⟩ below hbelow
    obtain rfl | ⟨child, hchild, hbelow⟩ := SyntaxNode.mem_preorder_mk.mp hbelow
    · exact ⟨⟨hstart, hstop, hordered.first_le_last, hordered.inside, hordered.ordered⟩, hclear⟩
    · exact hordered.sound child hchild below hbelow

theorem Sound.of_subset {gaps' : List SyntaxNode} (h : Sound source gaps n)
    (hsubset : ∀ gap ∈ gaps', gap ∈ gaps) :
  Sound source gaps' n
  := fun m hm => ⟨(h m hm).1, fun gap hgap => (h m hm).2 gap (hsubset gap hgap)⟩

theorem Sound.start_le_stop (h : Sound source gaps n) :
  n.info.start ≤ n.info.stop
  := (h n n.self_mem_preorder).1.start_le_stop

namespace Ordered

theorem append (h : Ordered source gaps first ns mid) (h' : Ordered source gaps mid ms last) :
  Ordered source gaps first (ns ++ ms) last
  := by
  have hle := h.first_le_last
  have hle' := h'.first_le_last
  refine ⟨by omega, ?_, ?_, ?_⟩
  · intro n hn
    obtain hn | hn := List.mem_append.mp hn
    · have := h.inside n hn
      omega
    · have := h'.inside n hn
      omega
  · intro n hn
    exact (List.mem_append.mp hn).elim (h.sound n) (h'.sound n)
  · refine List.pairwise_append.mpr ⟨h.ordered, h'.ordered, ?_⟩
    intro a ha b hb
    have hstop := (h.inside a ha).2
    have hstart := (h'.inside b hb).1
    omega

/-- Nodes that have the spans of others follow one another as these do. -/
theorem map {f : SyntaxNode → SyntaxNode} (h : Ordered source gaps first ns last)
    (hsound : ∀ n, Sound source gaps n → Sound source gaps (f n))
    (hstart : ∀ n, (f n).info.start = n.info.start)
    (hstop : ∀ n, (f n).info.stop = n.info.stop) :
  Ordered source gaps first (ns.map f) last
  := by
  refine ⟨h.first_le_last, ?_, ?_, ?_⟩
  · intro _ hm
    obtain ⟨n, hn, rfl⟩ := List.mem_map.mp hm
    rw [hstart, hstop]
    exact h.inside n hn
  · intro _ hm
    obtain ⟨n, hn, rfl⟩ := List.mem_map.mp hm
    exact hsound n (h.sound n hn)
  · rw [List.pairwise_map]
    apply h.ordered.imp
    intro a b hab
    rwa [hstop, hstart]

theorem of_subset {gaps' : List SyntaxNode} (h : Ordered source gaps first ns last)
    (hsubset : ∀ gap ∈ gaps', gap ∈ gaps) :
  Ordered source gaps' first ns last
  := ⟨h.first_le_last, h.inside, fun n hn => (h.sound n hn).of_subset hsubset, h.ordered⟩

end Ordered

theorem ordered_cons_iff :
  Ordered source gaps first (n :: ns) last
    ↔ first ≤ n.info.start ∧ Sound source gaps n ∧ Ordered source gaps n.info.stop ns last
  := by
  constructor
  · intro h
    have hinside := h.inside n List.mem_cons_self
    have hordered := List.pairwise_cons.mp h.ordered
    refine ⟨hinside.1, h.sound n List.mem_cons_self, hinside.2, ?_, ?_, hordered.2⟩
    · intro m hm
      exact ⟨hordered.1 m hm, (h.inside m (List.mem_cons_of_mem _ hm)).2⟩
    · intro m hm
      exact h.sound m (List.mem_cons_of_mem _ hm)
  · rintro ⟨hfirst, hsound, h⟩
    have hle := hsound.start_le_stop
    have hle' := h.first_le_last
    refine ⟨by omega, ?_, ?_, List.pairwise_cons.mpr ⟨fun m hm => (h.inside m hm).1, h.ordered⟩⟩
    · intro m hm
      obtain rfl | hm := List.mem_cons.mp hm
      · omega
      · have := h.inside m hm
        omega
    · intro m hm
      obtain rfl | hm := List.mem_cons.mp hm
      · exact hsound
      · exact h.sound m hm

/-- Only the spans of a node and of its children matter. -/
theorem Sound.map {f : SyntaxNode → SyntaxNode} {info' : NodeInfo}
    (h : Sound source gaps (.mk info ns))
    (hsound : ∀ n, Sound source gaps n → Sound source gaps (f n))
    (hstart : ∀ n, (f n).info.start = n.info.start)
    (hstop : ∀ n, (f n).info.stop = n.info.stop) (hfirst : info'.start = info.start)
    (hlast : info'.stop = info.stop) :
  Sound source gaps (.mk info' (ns.map f))
  := by
  rw [sound_mk_iff] at h ⊢
  rw [hfirst, hlast]
  obtain ⟨hboundary, hboundary', hclear, hordered⟩ := h
  refine ⟨hboundary, hboundary', ?_, hordered.map hsound hstart hstop⟩
  intro gap hgap
  dsimp only [SyntaxNode.info_mk]
  rw [hfirst, hlast]
  exact hclear gap hgap

theorem Sound.filling (h : Sound source gaps n) (field : Field) :
  Sound source gaps (filling field n)
  := by
  cases n with
  | mk info ns =>
    rw [Indented.filling, SyntaxNode.children_mk, ← List.map_id ns]
    exact h.map (fun _ => id) (fun _ => rfl) (fun _ => rfl) rfl rfl

namespace Row

theorem nil (h : first ≤ last) :
  Row source gaps first [] last
  := by
  constructor
  · constructor <;> simp [h]
  · simp
  · simp

theorem widen {first' last' : Nat} (h : Row source gaps first ns last) (hfirst : first' ≤ first)
    (hlast : last ≤ last') :
  Row source gaps first' ns last'
  := by
  have hle := h.first_le_last
  refine ⟨⟨by omega, ?_, h.sound, h.ordered⟩, h.opens, h.closes⟩
  intro n hn
  have := h.inside n hn
  omega

/-- Nodes without texts may follow on a row. -/
theorem concat (h : Row source gaps first ns mid) (hne : ns ≠ [])
    (h' : Ordered source gaps mid ms last) (hcloses : ∀ n ∈ ms, Closes gaps n.info.stop) :
  Row source gaps first (ns ++ ms) last
  := by
  refine ⟨h.toOrdered.append h', ?_, ?_⟩
  · rw [List.head?_append_of_ne_nil _ hne]
    exact h.opens
  · intro n hn
    exact (List.mem_append.mp hn).elim (h.closes n) (hcloses n)

theorem append (h : Row source gaps first ns mid) (h' : Row source gaps mid ms last) :
  Row source gaps first (ns ++ ms) last
  := by
  cases ns with
  | nil => exact h'.widen h.first_le_last (Nat.le_refl _)
  | cons n ns => exact h.concat (List.cons_ne_nil _ _) h'.toOrdered h'.closes

/-- A node around a row. -/
theorem around (h : Row source gaps first ns last)
    (hstart : Text.IsBoundary first source.toList) (hstop : Text.IsBoundary last source.toList)
    (hopens : Opens gaps first) (hcloses : Closes gaps last) (hfirst : info.start = first)
    (hlast : info.stop = last) :
  Row source gaps first [.mk info ns] last
  := by
  have hle := h.first_le_last
  subst hfirst hlast
  have hclear : Clear gaps (.mk info ns) := by
    intro gap hgap
    have := hopens gap hgap
    have := hcloses gap hgap
    dsimp only [SyntaxNode.info_mk]
    omega
  refine ⟨⟨hle, ?_, ?_, List.pairwise_singleton _ _⟩, ?_, ?_⟩
  · rintro n (_ | ⟨_, ⟨⟩⟩)
    exact ⟨Nat.le_refl _, Nat.le_refl _⟩
  · rintro n (_ | ⟨_, ⟨⟩⟩)
    exact sound_mk_iff.mpr ⟨hstart, hstop, hclear, h.toOrdered⟩
  · rintro n ⟨⟩
    exact hopens
  · rintro n (_ | ⟨_, ⟨⟩⟩)
    exact hcloses

/-- A row goes from where its first node starts to where its last one stops. -/
theorem tighten (h : Row source gaps first ns last) (hne : ns ≠ []) :
  Row source gaps (ns.head hne).info.start ns (ns.getLast hne).info.stop
  := by
  have hhead : ∀ n ∈ ns, (ns.head hne).info.start ≤ n.info.start := by
    intro n hn
    cases ns with
    | nil => cases hn
    | cons first rest =>
      obtain rfl | hn := List.mem_cons.mp hn
      · apply Nat.le_refl
      · apply Nat.le_trans (h.sound first List.mem_cons_self).start_le_stop
        apply List.rel_of_pairwise_cons h.ordered hn
  have hlast : ∀ n ∈ ns, n.info.stop ≤ (ns.getLast hne).info.stop := by
    intro n hn
    have hordered := h.ordered
    rw [← List.dropLast_append_getLast hne] at hn hordered
    obtain hn | hn := List.mem_append.mp hn
    · apply Nat.le_trans _ (h.sound _ (List.getLast_mem hne)).start_le_stop
      apply (List.pairwise_append.mp hordered).2.2 n hn _ List.mem_cons_self
    · apply Nat.le_of_eq
      rw [List.mem_singleton.mp hn]
  refine ⟨⟨?_, fun n hn => ⟨hhead n hn, hlast n hn⟩, h.sound, h.ordered⟩, h.opens, h.closes⟩
  apply Nat.le_trans (h.sound _ (List.head_mem hne)).start_le_stop
  apply hlast _ (List.head_mem hne)

/-- A node that has a row as its children and no span beyond. -/
theorem gather (h : Row source gaps first ns last) (hne : ns ≠ [])
    (hstart : info.start = (ns.head hne).info.start)
    (hstop : info.stop = (ns.getLast hne).info.stop) :
  Row source gaps first [.mk info ns] last
  := by
  have hhead := List.head_mem hne
  have hlast := List.getLast_mem hne
  apply widen _ (h.inside _ hhead).1 (h.inside _ hlast).2
  apply (h.tighten hne).around _ _ _ (h.closes _ hlast) hstart hstop
  · exact (h.sound _ hhead _ (SyntaxNode.self_mem_preorder _)).1.start
  · exact (h.sound _ hlast _ (SyntaxNode.self_mem_preorder _)).1.stop
  · apply h.opens
    apply List.head?_eq_some_head

theorem node (h : Row source gaps first ns last) (hne : ns ≠ []) (kind : String) :
  Row source gaps first [node kind ns] last
  := by
  apply h.gather hne
  · rw [List.head?_eq_some_head hne]
    rfl
  · rw [List.getLast?_eq_some_getLast hne]
    rfl

theorem map {f : SyntaxNode → SyntaxNode} (h : Row source gaps first ns last)
    (hsound : ∀ n, Sound source gaps n → Sound source gaps (f n))
    (hstart : ∀ n, (f n).info.start = n.info.start)
    (hstop : ∀ n, (f n).info.stop = n.info.stop) :
  Row source gaps first (ns.map f) last
  := by
  refine ⟨h.toOrdered.map hsound hstart hstop, ?_, ?_⟩
  · intro _ hm
    rw [List.head?_map] at hm
    obtain ⟨n, hn, rfl⟩ := Option.map_eq_some_iff.mp hm
    rw [hstart]
    exact h.opens n hn
  · intro _ hm
    obtain ⟨n, hn, rfl⟩ := List.mem_map.mp hm
    rw [hstop]
    exact h.closes n hn

theorem filling (h : Row source gaps first [n] last) (field : Field) :
  Row source gaps first [filling field n] last
  := h.map (fun _ hn => hn.filling field) (fun _ => rfl) fun _ => rfl

end Row

/-! ### Leaves -/

theorem Row.leaf {kind : String} {named : Bool} {low high : Nat} (h : Free gaps low high)
    (hstart : Text.IsBoundary first source.toList) (hstop : Text.IsBoundary last source.toList)
    (hlow : low ≤ first) (hlt : first < last) (hhigh : last ≤ high) :
  Row source gaps first [leaf kind named first last] last
  := by
  have hfree := h.part hlow hhigh
  have hnil : Row source gaps first [] last := .nil (Nat.le_of_lt hlt)
  exact hnil.around hstart hstop (hfree.opens hlt) (hfree.closes hlt) rfl rfl

/-- The leaf of a token with a text. -/
theorem Token.Placed.leaf {t : Token} (h : t.Placed source gaps) (htext : t.text ≠ "")
    (kind : String) (named : Bool) :
  Row source gaps t.start [leaf kind named t.start t.stop] t.stop
  := by
  have hstop := h.stands.stop
  rw [← h.stop] at hstop
  exact Row.leaf (h.free htext) h.stands.start hstop (Nat.le_refl _) (h.start_lt_stop htext)
    (Nat.le_refl _)

/-! ### Readings -/

variable {α β : Type} {r s : Reading α} {f : α → Reading β} {ts rest : List Token}
  {P Q : α → List Token → Prop} {R : β → List Token → Prop} {text kind : String}

/-- What holds of all that a reading can make of some tokens, and of the tokens that it leaves. -/
def Gives (r : Reading α) (ts : List Token) (P : α → List Token → Prop) : Prop :=
  ∀ a rest, r.run ts = some (a, rest) → P a rest

namespace Gives

theorem mono (h : Gives r ts P) (hP : ∀ a rest, P a rest → Q a rest) :
  Gives r ts Q
  := fun a rest hread => hP a rest (h a rest hread)

theorem pure {a : α} (h : P a ts) :
  Gives (pure a) ts P
  := by
  rintro _ _ ⟨⟩
  exact h

theorem failure :
  Gives failure ts P
  := by
  rintro _ _ ⟨⟩

theorem bind (h : Gives r ts P) (hf : ∀ a rest, P a rest → Gives (f a) rest R) :
  Gives (r >>= f) ts R
  := by
  intro b rest hread
  obtain ⟨⟨a, mid⟩, ha, hb⟩ := Option.bind_eq_some_iff.mp hread
  exact hf a mid (h a mid ha) b rest hb

theorem pure_bind {a : α} (h : Gives (f a) ts R) :
  Gives (Pure.pure a >>= f) ts R
  := h

theorem orElse (h : Gives r ts P) (h' : Gives s ts P) :
  Gives (r <|> s) ts P
  := by
  intro a rest hread
  have hread' : ((r.run ts).orElse fun _ => s.run ts) = some (a, rest) := hread
  rw [Option.orElse_eq_or] at hread'
  obtain hread | ⟨-, hread⟩ := Option.or_eq_some_iff.mp hread'
  · exact h a rest hread
  · exact h' a rest hread

end Gives

/-- A reading that takes no tokens. -/
def Looks (r : Reading α) : Prop := ∀ ts, Gives r ts fun _ rest => rest = ts

theorem Looks.bind (h : Looks r) (hf : ∀ a, Gives (f a) ts R) :
  Gives (r >>= f) ts R
  := by
  refine (h ts).bind ?_
  rintro a _ rfl
  exact hf a

/-- Nodes are laid in order from an offset on, and tokens follow. -/
def Laid (source : String) (gaps : List SyntaxNode) (limit first : Nat) (ns : List SyntaxNode)
    (rest : List Token) : Prop :=
  ∃ mid, Row source gaps first ns mid ∧ After source gaps limit mid rest

theorem Laid.nil (h : After source gaps limit first ts) :
  Laid source gaps limit first [] ts
  := ⟨first, .nil (Nat.le_refl _), h⟩

/-- A reading makes nodes that are laid where the tokens are that it takes. -/
def Lays (source : String) (gaps : List SyntaxNode) (nodes : α → List SyntaxNode)
    (r : Reading α) : Prop :=
  ∀ limit first ts, After source gaps limit first ts →
    Gives r ts fun a rest => Laid source gaps limit first (nodes a) rest

theorem Lays.bind {nodes : α → List SyntaxNode} (hr : Lays source gaps nodes r)
    (h : After source gaps limit first ts)
    (hf : ∀ a mid rest, Row source gaps first (nodes a) mid → After source gaps limit mid rest →
      Gives (f a) rest R) :
  Gives (r >>= f) ts R
  := by
  refine (hr limit first ts h).bind ?_
  rintro a rest ⟨mid, hrow, hafter⟩
  exact hf a mid rest hrow hafter

/-- A reading of one node or none, which then takes no tokens. -/
def Offers (source : String) (gaps : List SyntaxNode) (r : Reading (Option SyntaxNode)) : Prop :=
  ∀ limit first ts, After source gaps limit first ts →
    Gives r ts fun a rest => a = none ∧ rest = ts
      ∨ ∃ n, a = some n ∧ Laid source gaps limit first [n] rest

/-- A reading that makes one node. -/
abbrev LaysNode (source : String) (gaps : List SyntaxNode) (r : Reading SyntaxNode) : Prop :=
  Lays source gaps (fun n => [n]) r

/-- A reading that makes nodes in a row. -/
abbrev LaysNodes (source : String) (gaps : List SyntaxNode) (r : Reading (List SyntaxNode)) :
    Prop :=
  Lays source gaps id r

/-- A reading that makes at least one node. -/
def LaysSome (source : String) (gaps : List SyntaxNode) (r : Reading (List SyntaxNode)) : Prop :=
  ∀ limit first ts, After source gaps limit first ts →
    Gives r ts fun ns rest => ns ≠ [] ∧ Laid source gaps limit first ns rest

theorem LaysSome.bind {r : Reading (List SyntaxNode)} {f : List SyntaxNode → Reading β}
    (hr : LaysSome source gaps r) (h : After source gaps limit first ts)
    (hf : ∀ ns, ns ≠ [] → ∀ mid rest, Row source gaps first ns mid →
      After source gaps limit mid rest → Gives (f ns) rest R) :
  Gives (r >>= f) ts R
  := by
  refine (hr limit first ts h).bind ?_
  rintro ns rest ⟨hne, mid, hrow, hafter⟩
  exact hf ns hne mid rest hrow hafter

theorem LaysSome.lays {r : Reading (List SyntaxNode)} (hr : LaysSome source gaps r) :
  LaysNodes source gaps r
  := fun limit first ts h => (hr limit first ts h).mono fun _ _ => And.right

/-- A reading that makes a node of one that was laid before, and of what follows on it. -/
def Extends (source : String) (gaps : List SyntaxNode) (r : SyntaxNode → Reading SyntaxNode) :
    Prop :=
  ∀ limit first mid n ts, Row source gaps first [n] mid → After source gaps limit mid ts →
    Gives (r n) ts fun m rest => Laid source gaps limit first [m] rest

/-- A node is made of a row that was laid. -/
theorem Row.gives (h : Row source gaps first ns mid) (hne : ns ≠ [])
    (hafter : After source gaps limit mid ts) :
  Gives (Pure.pure (Indented.node kind ns)) ts fun n rest => Laid source gaps limit first [n] rest
  := .pure ⟨mid, h.node hne kind, hafter⟩

theorem Offers.bind {r : Reading (Option SyntaxNode)} {f : Option SyntaxNode → Reading β}
    (hr : Offers source gaps r) (h : After source gaps limit first ts)
    (hnone : Gives (f none) ts R)
    (hsome : ∀ n mid rest, Row source gaps first [n] mid → After source gaps limit mid rest →
      Gives (f (some n)) rest R) :
  Gives (r >>= f) ts R
  := by
  refine (hr limit first ts h).bind ?_
  rintro a rest (⟨rfl, rfl⟩ | ⟨n, rfl, mid, hrow, hafter⟩)
  · exact hnone
  · exact hsome n mid rest hrow hafter

theorem Offers.lays {r : Reading (Option SyntaxNode)} (hr : Offers source gaps r) :
  Lays source gaps Option.toList r
  := by
  intro limit first ts h
  refine (hr limit first ts h).mono ?_
  rintro a rest (⟨rfl, rfl⟩ | ⟨n, rfl, hlaid⟩)
  · exact .nil h
  · exact hlaid

/-! ### Tokens -/

namespace Reading

theorem looks_isKind (kind : TokenKind) :
  Looks (isKind kind)
  := by
  rintro ts _ _ ⟨⟩
  rfl

theorem gives_next?_bind {f : Option Token → Reading β} (h : Gives (f ts.head?) ts R) :
  Gives (next? >>= f) ts R
  := h

theorem gives_get_bind {f : List Token → Reading β} (h : Gives (f ts) ts R) :
  Gives (get >>= f) ts R
  := h

/-- The kind of the next token is known after a look at it. -/
theorem gives_isKind_bind {kind : TokenKind} {f : Bool → Reading β}
    (h : Gives (f (ts.head?.any (·.kind = kind))) ts R) :
  Gives (isKind kind >>= f) ts R
  := h

theorem looks_isNext (text : String) :
  Looks (isNext text)
  := by
  rintro ts _ _ ⟨⟩
  rfl

theorem gives_take :
  Gives take ts fun t rest => ts = t :: rest
  := by
  cases ts with
  | nil => rintro _ _ ⟨⟩
  | cons t ts =>
    rintro _ _ ⟨⟩
    rfl

/-- A leaf for the next token. -/
theorem gives_take_leaf {t : Token} (h : After source gaps limit first (t :: ts))
    (hkind : t.kind.isLayout = false) (kind : String) :
  Gives (take >>= fun t' => Pure.pure (leaf kind true t.start t'.stop)) (t :: ts) fun n rest =>
    Laid source gaps limit first [n] rest
  := by
  refine gives_take.bind ?_
  rintro _ _ ⟨⟩
  cases h with
  | cons hstart hplaced hrest =>
    have hrow := hplaced.leaf (hplaced.text_ne hkind) kind true
    exact .pure ⟨t.stop, hrow.widen hstart (Nat.le_refl _), hrest⟩

theorem gives_takeKind (kind : TokenKind) :
  Gives (takeKind kind) ts fun t rest => ts = t :: rest ∧ t.kind = kind
  := by
  cases ts with
  | nil => rintro _ _ ⟨⟩
  | cons t ts =>
    intro a rest hread
    have hread' : (if decide (t.kind = kind) then take else Alternative.failure : Reading Token).run
        (t :: ts) = some (a, rest) := hread
    split at hread'
    · next hkind =>
      cases hread'
      exact ⟨rfl, of_decide_eq_true hkind⟩
    · cases hread'

/-- A token that is passed over makes no node. -/
theorem gives_take_bind {f : Token → Reading β} (h : After source gaps limit first ts)
    (hf : ∀ t ts, After source gaps limit first ts → Gives (f t) ts R) :
  Gives (take >>= f) ts R
  := by
  refine gives_take.bind ?_
  rintro t rest rfl
  exact hf t rest h.tail

theorem gives_takeKind_bind {f : Token → Reading β} (kind : TokenKind)
    (h : After source gaps limit first ts)
    (hf : ∀ t ts, After source gaps limit first ts → Gives (f t) ts R) :
  Gives (takeKind kind >>= f) ts R
  := by
  refine (gives_takeKind kind).bind ?_
  rintro t rest ⟨rfl, -⟩
  exact hf t rest h.tail

theorem offers_accept (text : String) :
  Offers source gaps (accept text)
  := by
  intro limit first ts h a rest hread
  cases h with
  | nil =>
    cases hread
    exact .inl ⟨rfl, rfl⟩
  | @cons _ t ts hstart hplaced hrest =>
    have hread' : (if (t.kind = .word || t.kind = .symbol) && t.text = text then
        (do return some (fixed (← take))) else pure none : Reading (Option SyntaxNode)).run
        (t :: ts) = some (a, rest) := hread
    split at hread'
    · next hnext =>
      cases hread'
      right
      have htext : t.text ≠ "" := by
        apply hplaced.text_ne
        simp only [Bool.and_eq_true, Bool.or_eq_true, decide_eq_true_eq] at hnext
        obtain hkind | hkind := hnext.1 <;> rw [hkind] <;> rfl
      exact ⟨_, rfl, t.stop, (hplaced.leaf htext _ _).widen hstart (Nat.le_refl _), hrest⟩
    · cases hread'
      exact .inl ⟨rfl, rfl⟩

theorem offers_acceptAny (texts : List String) :
  Offers source gaps (acceptAny texts)
  := by
  induction texts with
  | nil =>
    rintro limit first ts h _ _ ⟨⟩
    exact .inl ⟨rfl, rfl⟩
  | cons text texts ih =>
    intro limit first ts h
    refine (offers_accept text).bind h ?_ fun n mid rest hn h => ?_
    · exact ih limit first ts h
    · exact .pure (.inr ⟨n, rfl, mid, hn, h⟩)

theorem lays_expect (text : String) :
  LaysNode source gaps (expect text)
  := by
  intro limit first ts h
  refine (offers_accept text).bind h ?_ fun n mid rest hn h => ?_
  · exact .failure
  · exact .pure ⟨mid, hn, h⟩

theorem lays_identifier :
  LaysNode source gaps identifier
  := by
  intro limit first ts h
  refine (gives_takeKind .word).bind ?_
  rintro t rest ⟨rfl, hkind⟩
  cases h with
  | cons hstart hplaced hrest =>
    split
    · exact .failure
    · have htext : t.text ≠ "" := by
        apply hplaced.text_ne
        rw [hkind]
        rfl
      exact .pure ⟨t.stop, (hplaced.leaf htext _ _).widen hstart (Nat.le_refl _), hrest⟩

theorem lays_comments (fuel : Nat) :
  LaysNodes source gaps (comments fuel)
  := by
  induction fuel with
  | zero =>
    intro limit first ts h
    exact .pure (.nil h)
  | succ fuel ih =>
    intro limit first ts h
    apply gives_isKind_bind
    split
    · next hkind =>
      refine gives_take.bind ?_
      rintro t rest rfl
      cases h with
      | cons hstart hplaced hrest =>
        have htext : t.text ≠ "" := by
          apply hplaced.text_ne
          rw [of_decide_eq_true hkind]
          rfl
        refine ih.bind hrest fun ns p ts hns h => ?_
        exact .pure ⟨p, ((hplaced.leaf htext _ _).widen hstart (Nat.le_refl _)).append hns, h⟩
    · exact .pure (.nil h)

/-- Items between which there are commas are at least one. -/
theorem lays_separated {item : Reading SyntaxNode} (hitem : LaysNode source gaps item)
    (fuel : Nat) :
  LaysSome source gaps (separated item fuel)
  := by
  induction fuel with
  | zero => exact fun _ _ _ _ => .failure
  | succ fuel ih =>
    intro limit first ts h
    refine hitem.bind h fun n p ts hn h => ?_
    refine (offers_accept ",").bind h ?_ fun comma q ts hcomma h => ?_
    · exact .pure ⟨List.cons_ne_nil _ _, p, hn, h⟩
    · have hmore : LaysNodes source gaps (separated item fuel <|> pure []) := by
        intro limit first ts h
        apply Gives.orElse
        · exact ih.lays limit first ts h
        · exact .pure (.nil h)
      refine hmore.bind h fun more r ts hmore h => ?_
      exact .pure ⟨List.cons_ne_nil _ _, r, hn.append (hcomma.append hmore), h⟩

theorem extends_chain {operand : Reading SyntaxNode} (hoperand : LaysNode source gaps operand)
    (operators : List String) (kind : String) (fuel : Nat) :
  Extends source gaps (chain operand operators kind fuel)
  := by
  induction fuel with
  | zero =>
    intro limit first mid left ts _ _
    exact .failure
  | succ fuel ih =>
    intro limit first mid left ts hleft h
    refine (offers_acceptAny operators).bind h ?_ fun operator p ts hoperator h => ?_
    · exact .pure ⟨mid, hleft, h⟩
    · refine hoperand.bind h fun right q ts hright h => ?_
      have hrow := (hleft.filling .left).append (hoperator.append (hright.filling .right))
      apply ih limit first q _ ts (hrow.node (List.cons_ne_nil _ _) kind) h

end Reading

end MutationTesting.Indented
