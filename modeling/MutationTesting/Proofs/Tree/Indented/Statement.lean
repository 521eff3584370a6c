import MutationTesting.Proofs.Tree.Indented.Expression
import MutationTesting.Tree.Builtin

/-!
# Trees of indented sources

Every node of a tree that the builtin parser makes spans a part of the source, and its children
follow one another inside of it: the readings of statements lay their nodes in order, and what was
set aside is put between them.
-/

namespace MutationTesting.Indented

open Reading

variable {source : String} {gaps : List SyntaxNode} {first mid last limit fuel : Nat}
  {n extra : SyntaxNode} {ns extras : List SyntaxNode} {ts : List Token}

/-! ### Simple statements -/

theorem asPattern_start (fuel : Nat) (n : SyntaxNode) :
  (asPattern fuel n).info.start = n.info.start
  := by
  cases fuel with
  | zero => rfl
  | succ fuel =>
    rw [asPattern]
    split <;> rfl

theorem asPattern_stop (fuel : Nat) (n : SyntaxNode) :
  (asPattern fuel n).info.stop = n.info.stop
  := by
  cases fuel with
  | zero => rfl
  | succ fuel =>
    rw [asPattern]
    split <;> rfl

theorem Sound.asPattern (fuel : Nat) (h : Sound source gaps n) :
  Sound source gaps (asPattern fuel n)
  := by
  induction fuel generalizing n with
  | zero => exact h
  | succ fuel ih =>
    cases n with
    | mk info ns =>
      have hwithin : ∀ kind, Sound source gaps
          (.mk { info with kind := kind } (ns.map (Indented.asPattern fuel))) := fun kind =>
        h.map (fun _ => ih) (asPattern_start fuel) (asPattern_stop fuel) rfl rfl
      rw [Indented.asPattern]
      split
      · apply hwithin
      · apply hwithin
      · apply hwithin
      · apply hwithin
      · exact h

theorem Row.asPattern (fuel : Nat) (h : Row source gaps first ns last) :
  Row source gaps first (ns.map (asPattern fuel)) last
  := h.map (fun _ => Sound.asPattern fuel) (asPattern_start fuel) (asPattern_stop fuel)

theorem Row.target (fuel : Nat) (h : Row source gaps first ns last) (hne : ns ≠ []) :
  Row source gaps first [target fuel ns] last
  := ((h.asPattern fuel).grouped (mt List.map_eq_nil_iff.mp hne) _).filling .left

theorem lays_assigned (fuel count : Nat) :
  LaysNode source gaps (assigned fuel count)
  := by
  induction count with
  | zero => exact fun _ _ _ _ => .failure
  | succ count ih =>
    intro limit first ts h
    rw [assigned]
    refine (looks_isNext "yield").bind fun yields => ?_
    split
    · exact (reads source gaps fuel).yielded limit first ts h
    · refine (lays_separated (reads source gaps fuel).element fuel).bind h
        fun items hne p ts hitems h => ?_
      refine (offers_accept "=").bind h ?_ fun equals q ts hequals h => ?_
      · exact .pure ⟨p, hitems.grouped hne _, h⟩
      · refine ih.bind h fun value r ts hvalue h => ?_
        have hrow := (hitems.target fuel hne).append (hequals.append (hvalue.filling .right))
        exact hrow.gives (List.cons_ne_nil _ _) h

/-- What is assigned to has been read, and the sign after it. -/
theorem gives_declared {items : List SyntaxNode} {colon : SyntaxNode}
    (hitems : Row source gaps first items mid) (hne : items ≠ [])
    (hcolon : Row source gaps mid [colon] last) (h : After source gaps limit last ts) :
  Gives (declared fuel items colon) ts fun n rest => Laid source gaps limit first [n] rest
  := by
  refine (reads source gaps fuel).expression.bind h fun type p ts htype h => ?_
  have hrow := (hitems.target fuel hne).append
    (hcolon.append (htype.node (List.cons_ne_nil _ _) "type"))
  refine (offers_accept "=").bind h ?_ fun equals q ts hequals h => ?_
  · exact hrow.gives (List.cons_ne_nil _ _) h
  · refine (lays_assigned fuel fuel).bind h fun value r ts hvalue h => ?_
    exact (hrow.append (hequals.append (hvalue.filling .right))).gives (List.cons_ne_nil _ _) h

theorem lays_expressionStatement (fuel : Nat) :
  LaysNode source gaps (expressionStatement fuel)
  := by
  intro limit first ts h
  refine (looks_isNext "yield").bind fun yields => ?_
  split
  · refine (reads source gaps fuel).yielded.bind h fun value p ts hvalue h => ?_
    exact hvalue.gives (List.cons_ne_nil _ _) h
  · refine (lays_separated (reads source gaps fuel).element fuel).bind h
      fun items hne p ts hitems h => ?_
    refine (offers_acceptAny _).bind h ?_ fun sign q ts hsign h => ?_
    · exact hitems.gives hne h
    · extract_lets k
      have hk : ∀ change r ts, Row source gaps first [change] r → After source gaps limit r ts →
          Gives (k change) ts fun n rest => Laid source gaps limit first [n] rest :=
        fun _ _ _ hchange h => hchange.gives (List.cons_ne_nil _ _) h
      have hassigned : ∀ kind value r ts, Row source gaps q [value] r →
          After source gaps limit r ts →
          Gives (k (node kind [target fuel items, sign, filling .right value])) ts fun n rest =>
            Laid source gaps limit first [n] rest := by
        intro kind value r ts hvalue h
        have hrow := (hitems.target fuel hne).append (hsign.append (hvalue.filling .right))
        exact hk _ r ts (hrow.node (List.cons_ne_nil _ _) kind) h
      dsimp only
      split
      · exact (lays_assigned fuel fuel).bind h fun value r ts hvalue h =>
          .pure_bind (hassigned _ value r ts hvalue h)
      · refine (gives_declared hitems hne hsign h).bind ?_
        rintro change rest ⟨r, hchange, h⟩
        exact hk change r rest hchange h
      · exact (lays_assigned fuel fuel).bind h fun value r ts hvalue h =>
          .pure_bind (hassigned _ value r ts hvalue h)

/-! ### Imports -/

theorem lays_parts (fuel : Nat) :
  LaysSome source gaps (dottedName.parts fuel)
  := by
  induction fuel with
  | zero => exact fun _ _ _ _ => .failure
  | succ fuel ih =>
    intro limit first ts h
    rw [dottedName.parts]
    refine lays_identifier.bind h fun name p ts hname h => ?_
    refine (offers_accept ".").bind h ?_ fun dot q ts hdot h => ?_
    · exact .pure ⟨List.cons_ne_nil _ _, p, hname, h⟩
    · refine ih.bind h fun more _ r ts hmore h => ?_
      exact .pure ⟨List.cons_ne_nil _ _, r, hname.append (hdot.append hmore), h⟩

theorem lays_dottedName (fuel : Nat) :
  LaysNode source gaps (dottedName fuel)
  := by
  intro limit first ts h
  refine (lays_parts fuel).bind h fun parts hne p ts hparts h => ?_
  exact hparts.gives hne h

theorem lays_imported (fuel : Nat) :
  LaysNode source gaps (imported fuel)
  := by
  intro limit first ts h
  refine (lays_dottedName fuel).bind h fun name p ts hname h => ?_
  refine (offers_accept "as").bind h ?_ fun as_ q ts has h => ?_
  · exact .pure ⟨p, hname.filling .name, h⟩
  · refine lays_identifier.bind h fun other r ts hother h => ?_
    have hrow := (hname.filling .name).append (has.append hother)
    exact .pure ⟨r, (hrow.node (List.cons_ne_nil _ _) _).filling .name, h⟩

theorem lays_dots (fuel : Nat) :
  LaysNodes source gaps (module_.dots fuel)
  := by
  induction fuel with
  | zero => exact fun _ _ _ h => .pure (.nil h)
  | succ fuel ih =>
    intro limit first ts h
    rw [module_.dots]
    refine (offers_accept ".").bind h ?_ fun dot p ts hdot h => ?_
    · exact .pure (.nil h)
    · refine ih.bind h fun more q ts hmore h => ?_
      exact .pure ⟨q, hdot.append hmore, h⟩

theorem lays_module_ (fuel : Nat) :
  LaysNode source gaps (module_ fuel)
  := by
  intro limit first ts h
  refine (lays_dots fuel).bind h fun dots p ts hdots h => ?_
  cases dots with
  | nil => exact lays_dottedName fuel _ _ _ (h.mono hdots.first_le_last)
  | cons dot dots =>
    have hdotted := hdots.node (List.cons_ne_nil _ _) "import_prefix"
    refine (looks_isNext "import").bind fun ended => ?_
    split
    · exact hdotted.gives (List.cons_ne_nil _ _) h
    · refine (lays_dottedName fuel).bind h fun name q ts hname h => ?_
      exact (hdotted.append hname).gives (List.cons_ne_nil _ _) h

theorem extends_importFrom (fuel : Nat) :
  Extends source gaps (importFrom fuel)
  := by
  intro limit first mid from_ ts hfrom h
  refine (lays_module_ fuel).bind h fun found p ts hfound h => ?_
  refine (lays_expect "import").bind h fun import_ q ts himport h => ?_
  have hhead := hfrom.append (hfound.append himport)
  refine (offers_accept "*").bind h ?_ fun star r ts hstar h => ?_
  · refine (offers_accept "(").bind h ?_ fun opened r ts hopened h => ?_
    · refine (lays_separated (lays_imported fuel) fuel).bind h fun names _ r ts hnames h => ?_
      exact (hhead.append hnames).gives (List.cons_ne_nil _ _) h
    · refine (lays_separated (lays_imported fuel) fuel).bind h fun names _ s ts hnames h => ?_
      refine (lays_expect ")").bind h fun closed t ts hclosed h => ?_
      have hrow := ((hhead.append hopened).append hnames).append hclosed
      exact hrow.gives (by simp) h
  · have hrow := hhead.append (hstar.node (List.cons_ne_nil _ _) "wildcard_import")
    exact hrow.gives (List.cons_ne_nil _ _) h

theorem lays_optionalValue (fuel : Nat) :
  LaysNodes source gaps (optionalValue fuel)
  := by
  intro limit first ts h
  refine (looks_isKind .newline).bind fun _ => (looks_isKind .comment).bind fun _ =>
    (looks_isNext ";").bind fun _ => (looks_isNext "from").bind fun _ => ?_
  split
  · exact .pure (.nil h)
  · refine (lays_expressions fuel).bind h fun value p ts hvalue h => ?_
    exact .pure ⟨p, hvalue, h⟩

theorem extends_raised (fuel : Nat) :
  Extends source gaps (raised fuel)
  := by
  intro limit first mid raise ts hraise h
  refine (lays_optionalValue fuel).bind h fun value p ts hvalue h => ?_
  have hrow := hraise.append hvalue
  extract_lets k
  have hk : ∀ cause q ts, Row source gaps p cause q → After source gaps limit q ts →
      Gives (k cause) ts fun n rest => Laid source gaps limit first [n] rest := by
    intro cause q ts hcause h
    exact (hrow.append hcause).gives (by simp) h
  refine (offers_accept "from").bind h ?_ fun from_ q ts hfrom h => ?_
  · exact .pure_bind (hk [] p ts (.nil (Nat.le_refl _)) h)
  · refine (reads source gaps fuel).expression.bind h fun value r ts hvalue h => ?_
    exact .pure_bind (hk _ r ts (hfrom.append hvalue) h)

theorem lays_simpleStatement (fuel : Nat) :
  LaysNode source gaps (simpleStatement fuel)
  := by
  intro limit first ts h
  refine (offers_acceptAny _).bind h ?_ fun keyword p ts hkeyword h => ?_
  · exact lays_expressionStatement fuel limit first _ h
  · have hlist : ∀ {r : Reading (List SyntaxNode)} (kind : String), LaysNodes source gaps r →
        Gives (r >>= fun items => pure (node kind (keyword :: items))) ts fun n rest =>
          Laid source gaps limit first [n] rest := by
      intro r kind hr
      refine hr.bind h fun items q ts hitems h => ?_
      exact (hkeyword.append hitems).gives (List.cons_ne_nil _ _) h
    dsimp only
    split
    · exact hlist _ (lays_optionalValue fuel)
    · refine (lays_expressions fuel).bind h fun value q ts hvalue h => ?_
      exact (hkeyword.append hvalue).gives (List.cons_ne_nil _ _) h
    · exact extends_raised fuel limit first p keyword ts hkeyword h
    · exact hlist _ (lays_separated (reads source gaps fuel).expression fuel).lays
    · exact hlist _ (lays_separated lays_identifier fuel).lays
    · exact hlist _ (lays_separated lays_identifier fuel).lays
    · exact hlist _ (lays_separated (lays_imported fuel) fuel).lays
    · exact extends_importFrom fuel limit first p keyword ts hkeyword h
    · exact hkeyword.gives (List.cons_ne_nil _ _) h

theorem lays_ending (fuel : Nat) :
  LaysNodes source gaps (line.ending fuel)
  := by
  intro limit first ts h
  refine (lays_comments fuel).bind h fun ns p ts hns h => ?_
  exact gives_takeKind_bind .newline h fun _ _ h => .pure ⟨p, hns, h⟩

theorem lays_line (fuel count : Nat) :
  LaysNodes source gaps (line fuel count)
  := by
  induction count with
  | zero => exact fun _ _ _ _ => .failure
  | succ count ih =>
    intro limit first ts h
    rw [line]
    refine (lays_simpleStatement fuel).bind h fun n p ts hn h => ?_
    refine (offers_accept ";").bind h ?_ fun semicolon q ts hsemicolon h => ?_
    · refine (lays_ending fuel).bind h fun ns q ts hns h => ?_
      exact .pure ⟨q, hn.append hns, h⟩
    · refine (looks_isKind .newline).bind fun _ => (looks_isKind .comment).bind fun _ => ?_
      split
      · refine (lays_ending fuel).bind h fun ns r ts hns h => ?_
        exact .pure ⟨r, hn.append (hsemicolon.append hns), h⟩
      · refine ih.bind h fun ns r ts hns h => ?_
        exact .pure ⟨r, hn.append (hsemicolon.append hns), h⟩

/-! ### Patterns -/

theorem lays_number (fuel : Nat) :
  LaysNode source gaps (number fuel)
  := by
  intro limit first ts h
  refine (looks_isKind .integer).bind fun _ => (looks_isKind .float).bind fun _ => ?_
  split
  · exact (reads source gaps fuel).atom limit first ts h
  · exact .failure

/-- The sign of a number has been read, if there is one. -/
theorem gives_numberPattern {sign : List SyntaxNode} (fuel : Nat)
    (hsign : Row source gaps first sign mid) (h : After source gaps limit mid ts) :
  Gives (numberPattern sign fuel) ts fun ns rest =>
    ns ≠ [] ∧ Laid source gaps limit first ns rest
  := by
  refine (lays_number fuel).bind h fun n p ts hn h => ?_
  refine (offers_acceptAny _).bind h ?_ fun operator q ts hoperator h => ?_
  · exact .pure ⟨by simp, p, hsign.append hn, h⟩
  · refine (lays_number fuel).bind h fun other r ts hother h => ?_
    have hrow := hsign.append (hn.append (hoperator.append hother))
    exact .pure ⟨List.cons_ne_nil _ _, r, hrow.node (by simp) _, h⟩

theorem lays_wildcard :
  LaysNode source gaps wildcard
  := by
  intro limit first ts h
  refine (offers_accept "_").bind h ?_ fun mark p ts hmark h => ?_
  · exact lays_identifier limit first ts h
  · exact .pure ⟨p, hmark, h⟩

/-- All readings of patterns with some fuel lay their nodes in order. -/
structure ReadsPatterns (source : String) (gaps : List SyntaxNode) (fuel : Nat) : Prop where
  casePattern : LaysNode source gaps (casePattern fuel)
  namedPattern : LaysSome source gaps (namedPattern fuel)
  alternatives : LaysSome source gaps (alternatives fuel)
  moreAlternatives : ∀ count, LaysNodes source gaps (moreAlternatives fuel count)
  simplePattern : LaysSome source gaps (simplePattern fuel)
  sequencePattern : ∀ closing kind,
    Extends source gaps fun opened => sequencePattern fuel opened closing kind
  classPattern : LaysNode source gaps (classPattern fuel)
  mappingPattern : LaysNode source gaps (mappingPattern fuel)
  mappingItems : ∀ count, LaysNodes source gaps (mappingItems fuel count)

namespace ReadsPatterns

theorem lays_casePattern (ih : ReadsPatterns source gaps fuel) :
  LaysNode source gaps (Indented.casePattern (fuel + 1))
  := by
  intro limit first ts h
  rw [Indented.casePattern]
  have hwhole : LaysSome source gaps (Indented.namedPattern fuel <|> Indented.alternatives fuel) :=
    fun limit first ts h => .orElse (ih.namedPattern limit first ts h)
      (ih.alternatives limit first ts h)
  refine hwhole.bind h fun ns hne p ts hns h => ?_
  have hrow := hns.node hne "case_pattern"
  refine (offers_accept "as").bind h ?_ fun as_ q ts has h => ?_
  · exact .pure ⟨p, hrow, h⟩
  · refine lays_identifier.bind h fun name r ts hname h => ?_
    have hpattern := (hrow.append (has.append hname)).node (List.cons_ne_nil _ _) "as_pattern"
    exact hpattern.gives (List.cons_ne_nil _ _) h

theorem lays_namedPattern (ih : ReadsPatterns source gaps fuel) :
  LaysSome source gaps (Indented.namedPattern (fuel + 1))
  := by
  intro limit first ts h
  rw [Indented.namedPattern]
  refine lays_identifier.bind h fun name p ts hname h => ?_
  refine (lays_expect "=").bind h fun equals q ts hequals h => ?_
  refine ih.simplePattern.bind h fun value _ r ts hvalue h => ?_
  have hrow := (hname.append hequals).append hvalue
  exact .pure ⟨List.cons_ne_nil _ _, r, hrow.node (by simp) _, h⟩

theorem lays_alternatives (ih : ReadsPatterns source gaps fuel) :
  LaysSome source gaps (Indented.alternatives (fuel + 1))
  := by
  intro limit first ts h
  rw [Indented.alternatives]
  refine ih.simplePattern.bind h fun ns hne p ts hns h => ?_
  refine (ih.moreAlternatives fuel).bind h fun more q ts hmore h => ?_
  split
  · exact .pure ⟨hne, p, hns, h.mono hmore.first_le_last⟩
  · exact .pure ⟨List.cons_ne_nil _ _, q,
      (hns.append hmore).node (List.append_ne_nil_of_left_ne_nil hne _) _, h⟩

theorem lays_moreAlternatives (ih : ReadsPatterns source gaps fuel) (count : Nat) :
  LaysNodes source gaps (Indented.moreAlternatives (fuel + 1) count)
  := by
  intro limit first ts h
  cases count with
  | zero =>
    simp only [Indented.moreAlternatives]
    exact .pure (.nil h)
  | succ count =>
    rw [Indented.moreAlternatives]
    refine (offers_accept "|").bind h ?_ fun bar p ts hbar h => ?_
    · exact .pure (.nil h)
    · refine ih.simplePattern.bind h fun ns _ q ts hns h => ?_
      refine (ih.moreAlternatives count).bind h fun more r ts hmore h => ?_
      exact .pure ⟨r, (hbar.append hns).append hmore, h⟩

theorem lays_simplePattern (ih : ReadsPatterns source gaps fuel) :
  LaysSome source gaps (Indented.simplePattern (fuel + 1))
  := by
  have hone : ∀ {r limit first ts}, LaysNode source gaps r → After source gaps limit first ts →
      Gives (do return [← r]) ts fun ns rest => ns ≠ [] ∧ Laid source gaps limit first ns rest := by
    intro r limit first ts hr h
    exact hr.bind h fun n p ts hn h => .pure ⟨List.cons_ne_nil _ _, p, hn, h⟩
  intro limit first ts h
  rw [Indented.simplePattern]
  refine (offers_acceptAny _).bind h ?_ fun mark p ts hmark h => ?_
  · refine (looks_isKind .word).bind fun _ => ?_
    split
    · apply gives_next?_bind
      split
      · exact hone (reads source gaps fuel).atom h
      · exact hone ih.classPattern h
    · refine (looks_isNext _).bind fun _ => ?_
      split
      · exact hone ih.mappingPattern h
      · refine (looks_isKind .integer).bind fun _ => (looks_isKind .float).bind fun _ => ?_
        split
        · exact gives_numberPattern fuel (.nil (Nat.le_refl _)) h
        · refine (reads source gaps fuel).atom.bind h fun text p ts htext h => ?_
          split
          · exact .pure ⟨List.cons_ne_nil _ _, p, htext, h⟩
          · exact .failure
  · have hsplat : Gives (do return [node "splat_pattern" [mark, ← wildcard]]) ts fun ns rest =>
        ns ≠ [] ∧ Laid source gaps limit first ns rest := by
      refine lays_wildcard.bind h fun name q ts hname h => ?_
      have hrow := (hmark.append hname).node (List.cons_ne_nil _ _) "splat_pattern"
      exact .pure ⟨List.cons_ne_nil _ _, q, hrow, h⟩
    have hsequence : ∀ closing kind, Gives (do
          return [← Indented.sequencePattern fuel mark closing kind]) ts fun ns rest =>
        ns ≠ [] ∧ Laid source gaps limit first ns rest := by
      intro closing kind
      refine (ih.sequencePattern closing kind limit first p mark ts hmark h).bind ?_
      rintro n rest ⟨q, hn, h⟩
      exact .pure ⟨List.cons_ne_nil _ _, q, hn, h⟩
    dsimp only
    split
    · exact .pure ⟨List.cons_ne_nil _ _, p, hmark, h⟩
    · exact gives_numberPattern fuel hmark h
    · exact hsplat
    · exact hsplat
    · exact hsequence _ _
    · exact hsequence _ _

theorem extends_sequencePattern (ih : ReadsPatterns source gaps fuel) (closing kind : String) :
  Extends source gaps fun opened => Indented.sequencePattern (fuel + 1) opened closing kind
  := by
  intro limit first mid opened ts hopened h
  dsimp only
  rw [Indented.sequencePattern]
  refine (offers_accept closing).bind h ?_ fun closed p ts hclosed h => ?_
  · refine (lays_separated ih.casePattern fuel).bind h fun items _ p ts hitems h => ?_
    refine (lays_expect closing).bind h fun closed q ts hclosed h => ?_
    exact ((hopened.append hitems).append hclosed).gives (by simp) h
  · exact (hopened.append hclosed).gives (List.cons_ne_nil _ _) h

theorem lays_classPattern (ih : ReadsPatterns source gaps fuel) :
  LaysNode source gaps (Indented.classPattern (fuel + 1))
  := by
  intro limit first ts h
  rw [Indented.classPattern]
  refine (lays_dottedName fuel).bind h fun name p ts hname h => ?_
  refine (offers_accept "(").bind h ?_ fun opened q ts hopened h => ?_
  · exact .pure ⟨p, hname, h⟩
  · refine (offers_accept ")").bind h ?_ fun closed r ts hclosed h => ?_
    · refine (lays_separated ih.casePattern fuel).bind h fun items _ r ts hitems h => ?_
      refine (lays_expect ")").bind h fun closed s ts hclosed h => ?_
      have hrow := ((hname.append hopened).append hitems).append hclosed
      exact hrow.gives (by simp) h
    · exact (hname.append (hopened.append hclosed)).gives (List.cons_ne_nil _ _) h

theorem lays_mappingPattern (ih : ReadsPatterns source gaps fuel) :
  LaysNode source gaps (Indented.mappingPattern (fuel + 1))
  := by
  intro limit first ts h
  rw [Indented.mappingPattern]
  refine (lays_expect "\x7b").bind h fun opened p ts hopened h => ?_
  refine (offers_accept "\x7d").bind h ?_ fun closed q ts hclosed h => ?_
  · refine (ih.mappingItems fuel).bind h fun items q ts hitems h => ?_
    refine (lays_expect "\x7d").bind h fun closed r ts hclosed h => ?_
    exact ((hopened.append hitems).append hclosed).gives (by simp) h
  · exact (hopened.append hclosed).gives (List.cons_ne_nil _ _) h

theorem lays_mappingItems (ih : ReadsPatterns source gaps fuel) (count : Nat) :
  LaysNodes source gaps (Indented.mappingItems (fuel + 1) count)
  := by
  intro limit first ts h
  cases count with
  | zero =>
    simp only [Indented.mappingItems]
    exact .pure (.nil h)
  | succ count =>
    rw [Indented.mappingItems]
    extract_lets k
    have hk : ∀ item p ts, Row source gaps first item p → After source gaps limit p ts →
        Gives (k item) ts fun ns rest => Laid source gaps limit first ns rest := by
      intro item p ts hitem h
      refine (offers_accept ",").bind h ?_ fun comma q ts hcomma h => ?_
      · exact .pure ⟨p, hitem, h⟩
      · refine (looks_isNext _).bind fun _ => ?_
        split
        · exact .pure ⟨q, hitem.append hcomma, h⟩
        · refine (ih.mappingItems count).bind h fun more r ts hmore h => ?_
          exact .pure ⟨r, (hitem.append hcomma).append hmore, h⟩
    refine (offers_acceptAny _).bind h ?_ fun stars p ts hstars h => ?_
    · refine ih.simplePattern.bind h fun key _ p ts hkey h => ?_
      refine (lays_expect ":").bind h fun colon q ts hcolon h => ?_
      refine ih.casePattern.bind h fun value r ts hvalue h => ?_
      exact .pure_bind (hk _ r ts (hkey.append (hcolon.append (hvalue.filling .value))) h)
    · refine lays_wildcard.bind h fun name q ts hname h => ?_
      exact .pure_bind (hk _ q ts ((hstars.append hname).node (List.cons_ne_nil _ _) _) h)

end ReadsPatterns

/-- The tokens that patterns are made of are where their nodes are, with any fuel. -/
theorem readsPatterns (source : String) (gaps : List SyntaxNode) (fuel : Nat) :
  ReadsPatterns source gaps fuel
  := by
  induction fuel with
  | zero =>
    constructor
    all_goals
      intros
      intro limit first
    case moreAlternatives =>
      intro ts h
      simp only [moreAlternatives]
      exact .pure (.nil h)
    case mappingItems =>
      intro ts h
      simp only [mappingItems]
      exact .pure (.nil h)
    all_goals
      intros
      simp only [casePattern, namedPattern, alternatives, simplePattern, sequencePattern,
        classPattern, mappingPattern]
      exact .failure
  | succ fuel ih =>
    exact {
      casePattern := ih.lays_casePattern
      namedPattern := ih.lays_namedPattern
      alternatives := ih.lays_alternatives
      moreAlternatives := ih.lays_moreAlternatives
      simplePattern := ih.lays_simplePattern
      sequencePattern := ih.extends_sequencePattern
      classPattern := ih.lays_classPattern
      mappingPattern := ih.lays_mappingPattern
      mappingItems := ih.lays_mappingItems }

/-! ### Compound statements -/

theorem extends_bound (fuel : Nat) :
  Extends source gaps (bound fuel)
  := by
  intro limit first mid value ts hvalue h
  refine (offers_accept "as").bind h ?_ fun as_ p ts has h => ?_
  · exact .pure ⟨mid, hvalue.filling .value, h⟩
  · refine (reads source gaps fuel).primary.bind h fun name q ts hname h => ?_
    have htarget := hname.node (List.cons_ne_nil _ _) "as_pattern_target"
    have hrow := hvalue.append (has.append htarget)
    exact .pure ⟨q, (hrow.node (List.cons_ne_nil _ _) _).filling .value, h⟩

theorem lays_withClause (fuel : Nat) :
  LaysNode source gaps (withClause fuel)
  := by
  have hitem : LaysNode source gaps (withItem fuel) := by
    intro limit first ts h
    refine (reads source gaps fuel).expression.bind h fun value p ts hvalue h => ?_
    refine (extends_bound fuel limit first p value ts hvalue h).bind ?_
    rintro item rest ⟨q, hitem, h⟩
    exact hitem.gives (List.cons_ne_nil _ _) h
  intro limit first ts h
  refine (lays_separated hitem fuel).bind h fun items hne p ts hitems h => ?_
  exact hitems.gives hne h

theorem gives_blockOf (hns : Row source gaps first ns mid) (h : After source gaps limit mid ts) :
  Gives (blockOf ns) ts fun n rest => Laid source gaps limit first [n] rest
  := by
  unfold blockOf
  split
  · exact .failure
  · next hne => exact hns.gives hne h

theorem Row.clauseField (h : Row source gaps first [n] last) (statement : String) :
  Row source gaps first [clauseField statement n] last
  := by
  unfold Indented.clauseField
  split
  · exact h
  · exact h.filling .alternative

/-- A block without statements has no text, and it is where the line before it ends. -/
theorem gives_emptyBlock (h : After source gaps limit first ts) :
  Gives emptyBlock ts fun ns rest => ∃ mid, Ordered source gaps first ns mid
    ∧ (∀ n ∈ ns, Closes gaps n.info.stop) ∧ After source gaps limit mid rest
  := by
  refine (gives_takeKind .newline).bind ?_
  rintro t rest ⟨rfl, hkind⟩
  cases h with
  | cons hstart hplaced hrest =>
    have hle := hplaced.start_le_stop
    have hstop := hplaced.stands.stop
    rw [← hplaced.stop] at hstop
    have hclear : Clear gaps (leaf "block" true t.start t.stop) := by
      intro gap hgap
      dsimp only [leaf, SyntaxNode.info_mk]
      by_cases htext : t.text = ""
      · have hempty : t.stop = t.start := by
          rw [hplaced.stop, htext]
          rfl
        have := hplaced.closes gap hgap
        omega
      · have := hplaced.free htext gap hgap
        omega
    have hsound : Sound source gaps (leaf "block" true t.start t.stop) :=
      sound_mk_iff.mpr ⟨hplaced.stands.start, hstop, hclear, (Row.nil hle).toOrdered⟩
    refine .pure ⟨t.stop, ⟨by omega, ?_, ?_, List.pairwise_singleton _ _⟩, ?_, hrest⟩
    · rintro n (_ | ⟨_, ⟨⟩⟩)
      exact ⟨hstart, Nat.le_refl _⟩
    · rintro n (_ | ⟨_, ⟨⟩⟩)
      exact hsound
    · rintro n (_ | ⟨_, ⟨⟩⟩)
      exact hplaced.closes

/-- All readings of statements with some fuel lay their nodes in order. -/
structure ReadsStatements (source : String) (gaps : List SyntaxNode) (fuel : Nat) : Prop where
  statement : LaysNodes source gaps (statement fuel)
  statements : ∀ count, LaysNodes source gaps (statements fuel count)
  suite : ∀ field, LaysNodes source gaps (suite fuel field)
  continuations : ∀ count kind, LaysNodes source gaps (continuations fuel count kind)
  continuation : LaysNode source gaps (continuation fuel)
  compound : LaysNode source gaps (compound fuel)
  function : ∀ {limit first mid head ts}, Row source gaps first head mid →
    After source gaps limit mid ts →
      Gives (function fuel head) ts fun n rest => Laid source gaps limit first [n] rest
  decorated : LaysNode source gaps (decorated fuel)
  decorators : ∀ count, LaysNodes source gaps (decorators fuel count)
  matching : LaysNode source gaps (matching fuel)
  caseClauses : ∀ count, LaysNodes source gaps (caseClauses fuel count)

namespace ReadsStatements

theorem lays_statement (ih : ReadsStatements source gaps fuel) :
  LaysNodes source gaps (Indented.statement (fuel + 1))
  := by
  intro limit first ts h
  rw [Indented.statement]
  apply gives_next?_bind
  split
  · exact .failure
  · split
    · exact lays_comments 1 limit first ts h
    · split
      · exact ih.compound.bind h fun n p ts hn h => .pure ⟨p, hn, h⟩
      · split
        · apply Gives.orElse
          · exact ih.matching.bind h fun n p ts hn h => .pure ⟨p, hn, h⟩
          · exact lays_line fuel fuel limit first ts h
        · exact lays_line fuel fuel limit first ts h

theorem lays_statements (ih : ReadsStatements source gaps fuel) (count : Nat) :
  LaysNodes source gaps (Indented.statements (fuel + 1) count)
  := by
  intro limit first ts h
  cases count with
  | zero =>
    simp only [Indented.statements]
    exact .pure (.nil h)
  | succ count =>
    rw [Indented.statements]
    apply gives_next?_bind
    refine (looks_isKind .dedent).bind fun _ => ?_
    split
    · exact .pure (.nil h)
    · refine ih.statement.bind h fun ns p ts hns h => ?_
      refine (ih.statements count).bind h fun more q ts hmore h => ?_
      exact .pure ⟨q, hns.append hmore, h⟩

theorem lays_suite (ih : ReadsStatements source gaps fuel) (field : Option Field) :
  LaysNodes source gaps (Indented.suite (fuel + 1) field)
  := by
  intro limit first ts h
  rw [Indented.suite]
  refine (lays_expect ":").bind h fun colon p ts hcolon h => ?_
  extract_lets place
  have hsound : ∀ n, Sound source gaps n → Sound source gaps (place n) := by
    intro n hn
    cases field with
    | none => exact hn
    | some field => exact hn.filling field
  have hstart : ∀ n, (place n).info.start = n.info.start := by
    intro n
    cases field <;> rfl
  have hstop : ∀ n, (place n).info.stop = n.info.stop := by
    intro n
    cases field <;> rfl
  refine (lays_comments fuel).bind h fun early q ts hearly h => ?_
  have hhead := hcolon.append hearly
  refine (looks_isKind .newline).bind fun _ => ?_
  split
  · refine (lays_line fuel fuel).bind h fun items r ts hitems h => ?_
    refine (gives_blockOf hitems h).bind ?_
    rintro body rest ⟨s, hbody, h⟩
    exact .pure ⟨s, hhead.append (hbody.map hsound hstart hstop), h⟩
  · refine (gives_emptyBlock h).bind ?_
    rintro ended rest ⟨r, hended, hcloses, h⟩
    refine (looks_isKind .indent).bind fun _ => ?_
    split
    · refine gives_take_bind (h.mono hended.first_le_last) fun _ ts h => ?_
      refine (lays_comments fuel).bind h fun late s ts hlate h => ?_
      refine (ih.statements fuel).bind h fun items t ts hitems h => ?_
      refine (gives_blockOf hitems h).bind ?_
      rintro body rest ⟨u, hbody, h⟩
      refine gives_takeKind_bind .dedent h fun _ ts h => ?_
      exact .pure ⟨u, (hhead.append hlate).append (hbody.map hsound hstart hstop), h⟩
    · refine .pure ⟨r, hhead.concat (by simp) (hended.map hsound hstart hstop) ?_, h⟩
      intro _ hm
      obtain ⟨n, hn, rfl⟩ := List.mem_map.mp hm
      rw [hstop]
      exact hcloses n hn

theorem lays_continuations (ih : ReadsStatements source gaps fuel) (count : Nat) (kind : String) :
  LaysNodes source gaps (Indented.continuations (fuel + 1) count kind)
  := by
  intro limit first ts h
  cases count with
  | zero =>
    simp only [Indented.continuations]
    exact .pure (.nil h)
  | succ count =>
    rw [Indented.continuations]
    apply Gives.orElse
    · refine (lays_comments fuel).bind h fun before p ts hbefore h => ?_
      refine ih.continuation.bind h fun clause q ts hclause h => ?_
      refine (ih.continuations count kind).bind h fun more r ts hmore h => ?_
      exact .pure ⟨r, (hbefore.append (hclause.clauseField kind)).append hmore, h⟩
    · exact .pure (.nil h)

theorem lays_continuation (ih : ReadsStatements source gaps fuel) :
  LaysNode source gaps (Indented.continuation (fuel + 1))
  := by
  intro limit first ts h
  rw [Indented.continuation]
  refine (offers_acceptAny _).bind h ?_ fun keyword p ts hkeyword h => ?_
  · exact .failure
  · dsimp -zeta only
    split
    · refine (reads source gaps fuel).expression.bind h fun test q ts htest h => ?_
      refine (ih.suite _).bind h fun block r ts hblock h => ?_
      have hrow := (hkeyword.append (htest.filling .condition)).append hblock
      exact hrow.gives (by simp) h
    · refine (offers_accept "*").lays.bind h fun star q ts hstar h => ?_
      refine (looks_isNext ":").bind fun _ => ?_
      extract_lets k
      have hk : ∀ caught r ts, Row source gaps q caught r → After source gaps limit r ts →
          Gives (k caught) ts fun n rest => Laid source gaps limit first [n] rest := by
        intro caught r ts hcaught h
        refine (ih.suite _).bind h fun block s ts hblock h => ?_
        have hrow := ((hkeyword.append hstar).append hcaught).append hblock
        exact hrow.gives (by simp) h
      split
      · exact .pure_bind (hk [] q ts (.nil (Nat.le_refl _)) h)
      · refine (lays_expressions fuel).bind h fun value r ts hvalue h => ?_
        refine (extends_bound fuel limit q r value ts hvalue h).bind ?_
        rintro caught rest ⟨s, hcaught, h⟩
        exact .pure_bind (hk _ s rest hcaught h)
    · refine (ih.suite _).bind h fun block q ts hblock h => ?_
      exact (hkeyword.append hblock).gives (List.cons_ne_nil _ _) h

theorem lays_compound (ih : ReadsStatements source gaps fuel) :
  LaysNode source gaps (Indented.compound (fuel + 1))
  := by
  intro limit first ts h
  rw [Indented.compound]
  refine (looks_isNext "@").bind fun _ => ?_
  split
  · exact ih.decorated limit first ts h
  · refine (offers_accept "async").lays.bind h fun async_ p ts hasync h => ?_
    refine (offers_acceptAny _).bind h ?_ fun keyword q ts hkeyword h => ?_
    · exact .failure
    · have hkeyword' := hkeyword.widen hasync.first_le_last (Nat.le_refl _)
      have htested : ∀ field kind, Gives (do
            let test ← expression fuel
            let block ← Indented.suite fuel field
            return node kind ([keyword, filling .condition test] ++ block
              ++ (← Indented.continuations fuel fuel kind))) ts fun n rest =>
          Laid source gaps limit first [n] rest := by
        intro field kind
        refine (reads source gaps fuel).expression.bind h fun test r ts htest h => ?_
        refine (ih.suite field).bind h fun block s ts hblock h => ?_
        refine (ih.continuations fuel kind).bind h fun clauses t ts hclauses h => ?_
        have hrow := (hkeyword'.append (htest.filling .condition)).append hblock
        exact (hrow.append hclauses).gives (by simp) h
      dsimp -zeta only
      split
      · exact htested _ _
      · exact htested _ _
      · refine (reads source gaps fuel).targets.bind h fun left r ts hleft h => ?_
        refine (lays_expect "in").bind h fun in_ s ts hin h => ?_
        refine (lays_expressions fuel).bind h fun right t ts hright h => ?_
        refine (ih.suite _).bind h fun block u ts hblock h => ?_
        refine (ih.continuations fuel _).bind h fun clauses v ts hclauses h => ?_
        have htargets := ((hleft.asPattern fuel).filling .left).append
          (hin.append (hright.filling .right))
        have hrow := (hasync.append (hkeyword.append htargets)).append hblock
        exact (hrow.append hclauses).gives (by simp) h
      · refine (ih.suite _).bind h fun block r ts hblock h => ?_
        refine (ih.continuations fuel _).bind h fun clauses s ts hclauses h => ?_
        exact ((hkeyword'.append hblock).append hclauses).gives (by simp) h
      · refine (lays_withClause fuel).bind h fun clause r ts hclause h => ?_
        refine (ih.suite _).bind h fun block s ts hblock h => ?_
        exact ((hasync.append (hkeyword.append hclause)).append hblock).gives (by simp) h
      · exact ih.function (hasync.append hkeyword) h
      · refine lays_identifier.bind h fun name r ts hname h => ?_
        refine (looks_isNext "(").bind fun _ => ?_
        extract_lets k
        have hk : ∀ bases s ts, Row source gaps r bases s → After source gaps limit s ts →
            Gives (k bases) ts fun n rest => Laid source gaps limit first [n] rest := by
          intro bases s ts hbases h
          refine (ih.suite _).bind h fun block t ts hblock h => ?_
          have hrow := ((hkeyword'.append (hname.filling .name)).append hbases).append hblock
          exact hrow.gives (by simp) h
        split
        · refine (reads source gaps fuel).arguments.bind h fun bases s ts hbases h => ?_
          exact .pure_bind (hk _ s ts hbases h)
        · exact .pure_bind (hk [] r ts (.nil (Nat.le_refl _)) h)

theorem gives_function {head : List SyntaxNode} (ih : ReadsStatements source gaps fuel)
    (hhead : Row source gaps first head mid) (h : After source gaps limit mid ts) :
  Gives (Indented.function (fuel + 1) head) ts fun n rest => Laid source gaps limit first [n] rest
  := by
  rw [Indented.function]
  refine lays_identifier.bind h fun name p ts hname h => ?_
  refine (lays_expect "(").bind h fun opened q ts hopened h => ?_
  refine (looks_isNext ")").bind fun _ => ?_
  extract_lets k
  have hk : ∀ items r ts, Row source gaps q items r → After source gaps limit r ts →
      Gives (k items) ts fun n rest => Laid source gaps limit first [n] rest := by
    intro items r ts hitems h
    refine (lays_expect ")").bind h fun closed s ts hclosed h => ?_
    have hparameters := ((hopened.append hitems).append hclosed).node (by simp) "parameters"
    have hsignature := hhead.append ((hname.filling .name).append hparameters)
    refine (offers_accept "->" limit s ts h).bind ?_
    intro arrow rest harrow
    extract_lets k
    have hk : ∀ result t ts, Row source gaps s result t → After source gaps limit t ts →
        Gives (k result) ts fun n rest => Laid source gaps limit first [n] rest := by
      intro result t ts hresult h
      refine (ih.suite _).bind h fun block u ts hblock h => ?_
      exact ((hsignature.append hresult).append hblock).gives (by simp) h
    obtain ⟨rfl, rfl⟩ | ⟨arrow, rfl, t, harrow, h⟩ := harrow
    · exact .pure_bind (hk [] s rest (.nil (Nat.le_refl _)) h)
    · refine (reads source gaps fuel).expression.bind h fun type u ts htype h => ?_
      exact .pure_bind (hk _ u ts (harrow.append (htype.node (List.cons_ne_nil _ _) "type")) h)
  split
  · exact .pure_bind (hk [] q ts (.nil (Nat.le_refl _)) h)
  · refine (lays_separated ((reads source gaps fuel).parameter true) fuel).bind h
      fun items _ r ts hitems h => ?_
    exact hk items r ts hitems h

theorem lays_decorated (ih : ReadsStatements source gaps fuel) :
  LaysNode source gaps (Indented.decorated (fuel + 1))
  := by
  intro limit first ts h
  rw [Indented.decorated]
  refine (ih.decorators fuel).bind h fun before p ts hbefore h => ?_
  refine ih.compound.bind h fun n q ts hn h => ?_
  exact (hbefore.append hn).gives (by simp) h

theorem lays_decorators (ih : ReadsStatements source gaps fuel) (count : Nat) :
  LaysNodes source gaps (Indented.decorators (fuel + 1) count)
  := by
  intro limit first ts h
  cases count with
  | zero =>
    simp only [Indented.decorators]
    exact .pure (.nil h)
  | succ count =>
    rw [Indented.decorators]
    refine (offers_accept "@").bind h ?_ fun sign p ts hsign h => ?_
    · exact .pure (.nil h)
    · refine (reads source gaps fuel).expression.bind h fun value q ts hvalue h => ?_
      have hdecorator := (hsign.append hvalue).node (List.cons_ne_nil _ _) "decorator"
      refine (lays_comments fuel).bind h fun after r ts hafter h => ?_
      refine gives_takeKind_bind .newline h fun _ ts h => ?_
      refine (ih.decorators count).bind h fun more s ts hmore h => ?_
      exact .pure ⟨s, (hdecorator.append hafter).append hmore, h⟩

theorem lays_matching (ih : ReadsStatements source gaps fuel) :
  LaysNode source gaps (Indented.matching (fuel + 1))
  := by
  intro limit first ts h
  rw [Indented.matching]
  refine (lays_expect "match").bind h fun match_ p ts hmatch h => ?_
  refine (lays_separated (reads source gaps fuel).expression fuel).bind h
    fun subjects _ q ts hsubjects h => ?_
  refine (lays_expect ":").bind h fun colon r ts hcolon h => ?_
  refine (lays_comments fuel).bind h fun early s ts hearly h => ?_
  refine gives_takeKind_bind .newline h fun _ ts h => ?_
  refine gives_takeKind_bind .indent h fun _ ts h => ?_
  refine (lays_comments fuel).bind h fun late t ts hlate h => ?_
  refine (ih.caseClauses fuel).bind h fun clauses u ts hclauses h => ?_
  refine (gives_blockOf hclauses h).bind ?_
  rintro body rest ⟨v, hbody, h⟩
  refine gives_takeKind_bind .dedent h fun _ ts h => ?_
  have hhead := (hmatch.append hsubjects).append hcolon
  exact (((hhead.append hearly).append hlate).append hbody).gives (by simp) h

theorem lays_caseClauses (ih : ReadsStatements source gaps fuel) (count : Nat) :
  LaysNodes source gaps (Indented.caseClauses (fuel + 1) count)
  := by
  intro limit first ts h
  cases count with
  | zero =>
    simp only [Indented.caseClauses]
    exact .pure (.nil h)
  | succ count =>
    rw [Indented.caseClauses]
    refine (looks_isKind .dedent).bind fun _ => ?_
    split
    · exact .pure (.nil h)
    · refine (lays_comments fuel).bind h fun before p ts hbefore h => ?_
      refine (looks_isKind .dedent).bind fun _ => ?_
      split
      · exact .pure ⟨p, hbefore, h⟩
      · refine (lays_expect "case").bind h fun case_ q ts hcase h => ?_
        refine (lays_separated (readsPatterns source gaps fuel).casePattern fuel).bind h
          fun patterns _ r ts hpatterns h => ?_
        extract_lets k
        have hk : ∀ guard s ts, Row source gaps r guard s → After source gaps limit s ts →
            Gives (k guard) ts fun ns rest => Laid source gaps limit first ns rest := by
          intro guard s ts hguard h
          refine (ih.suite _).bind h fun block t ts hblock h => ?_
          have hrow := ((hcase.append hpatterns).append hguard).append hblock
          have hclause := (hrow.node (by simp) "case_clause").filling .alternative
          refine (ih.caseClauses count).bind h fun more u ts hmore h => ?_
          exact .pure ⟨u, (hbefore.append hclause).append hmore, h⟩
        refine (offers_accept "if").bind h ?_ fun if_ s ts hif h => ?_
        · exact .pure_bind (hk [] r ts (.nil (Nat.le_refl _)) h)
        · refine (reads source gaps fuel).expression.bind h fun test t ts htest h => ?_
          exact .pure_bind (hk _ t ts ((hif.append htest).node (List.cons_ne_nil _ _) _) h)

end ReadsStatements

/-- The tokens that statements are made of are where their nodes are, with any fuel. -/
theorem readsStatements (source : String) (gaps : List SyntaxNode) (fuel : Nat) :
  ReadsStatements source gaps fuel
  := by
  induction fuel with
  | zero =>
    have hnone : LaysNodes source gaps (pure []) :=
      fun _ _ _ h => .pure (.nil h)
    constructor
    case statements | continuations | decorators | caseClauses =>
      intros
      simp only [statements, continuations, decorators, caseClauses]
      exact hnone
    case function =>
      intros
      simp only [function]
      exact .failure
    all_goals
      intros
      intro limit first ts h
      simp only [statement, suite, continuation, compound, decorated, matching]
      exact .failure
  | succ fuel ih =>
    exact {
      statement := ih.lays_statement
      statements := ih.lays_statements
      suite := ih.lays_suite
      continuations := ih.lays_continuations
      continuation := ih.lays_continuation
      compound := ih.lays_compound
      function := ih.gives_function
      decorated := ih.lays_decorated
      decorators := ih.lays_decorators
      matching := ih.lays_matching
      caseClauses := ih.lays_caseClauses }

/-! ### What was set aside -/

theorem info_insert (extra n : SyntaxNode) :
  (insert extra n).info = n.info
  := by
  cases n with
  | mk info ns => rw [insert, SyntaxNode.info_mk, SyntaxNode.info_mk]

/-- A node that was set aside goes between nodes that are in order, or below one of them. -/
theorem ordered_insertAmong_of (hextra : Sound source gaps extra)
    (hlt : extra.info.start < extra.info.stop)
    (hbelow : ∀ n ∈ ns, Sound source (extra :: gaps) n → n.info.start < extra.info.start →
      extra.info.stop < n.info.stop → Sound source gaps (insert extra n))
    (h : Ordered source (extra :: gaps) first ns last) (hfirst : first ≤ extra.info.start)
    (hlast : extra.info.stop ≤ last) :
  Ordered source gaps first (insertAmong extra ns) last
  := by
  induction ns generalizing first with
  | nil => exact ordered_cons_iff.mpr ⟨hfirst, hextra, (Row.nil hlast).toOrdered⟩
  | cons n ns ih =>
    have hsubset : ∀ gap ∈ gaps, gap ∈ extra :: gaps := fun _ => List.mem_cons_of_mem _
    obtain ⟨hle, hn, hns⟩ := ordered_cons_iff.mp h
    have hclear := (hn n n.self_mem_preorder).2 extra List.mem_cons_self
    have hspan := hn.start_le_stop
    rw [insertAmong]
    split
    · next hinside =>
      rw [Bool.and_eq_true, decide_eq_true_eq, decide_eq_true_eq] at hinside
      have hinsert := hbelow n List.mem_cons_self hn hinside.1 hinside.2
      rw [ordered_cons_iff, info_insert]
      exact ⟨hle, hinsert, hns.of_subset hsubset⟩
    · next houtside =>
      rw [Bool.and_eq_true, decide_eq_true_eq, decide_eq_true_eq] at houtside
      split
      · have hrest : Ordered source gaps extra.info.stop (n :: ns) last :=
          ordered_cons_iff.mpr ⟨by omega, hn.of_subset hsubset, hns.of_subset hsubset⟩
        exact ordered_cons_iff.mpr ⟨hfirst, hextra, hrest⟩
      · have hrest := ih (fun m hm => hbelow m (List.mem_cons_of_mem _ hm)) hns (by omega)
        exact ordered_cons_iff.mpr ⟨hle, hn.of_subset hsubset, hrest⟩

theorem sound_insert (hextra : Sound source gaps extra)
    (hlt : extra.info.start < extra.info.stop) (h : Sound source (extra :: gaps) n)
    (hstart : n.info.start < extra.info.start) (hstop : extra.info.stop < n.info.stop) :
  Sound source gaps (insert extra n)
  := by
  induction n with
  | mk info ns ih =>
    obtain ⟨hboundary, hboundary', hclear, hordered⟩ := sound_mk_iff.mp h
    rw [insert]
    refine sound_mk_iff.mpr ⟨hboundary, hboundary', ?_, ?_⟩
    · intro gap hgap
      exact hclear gap (List.mem_cons_of_mem _ hgap)
    · exact ordered_insertAmong_of hextra hlt ih hordered (Nat.le_of_lt hstart)
        (Nat.le_of_lt hstop)

/-- All that was set aside goes where its place is. -/
theorem ordered_foldl_insertAmong (hextras : Aside source first last extras.reverse)
    (h : Ordered source extras first ns last) :
  Ordered source [] first (extras.foldl (fun ns extra => insertAmong extra ns) ns) last
  := by
  induction extras generalizing ns with
  | nil => exact h
  | cons extra extras ih =>
    have hmem : extra ∈ (extra :: extras).reverse := List.mem_reverse.mpr List.mem_cons_self
    have hordered := List.pairwise_cons.mp (List.pairwise_reverse.mp hextras.ordered)
    have hstart := hextras.start extra hmem
    have hstop := hextras.stop extra hmem
    have hlt := hextras.start_lt_stop extra hmem
    have hextra : Sound source extras extra := by
      have hchildren := hextras.children extra hmem
      cases extra with
      | mk info children =>
        rw [SyntaxNode.children_mk] at hchildren
        subst hchildren
        refine sound_mk_iff.mpr ⟨hstart.1, hstop.1, ?_, (Row.nil (Nat.le_of_lt hlt)).toOrdered⟩
        intro gap hgap
        exact .inr (.inl (hordered.1 gap hgap))
    apply ih
    · apply hextras.sublist
      rw [List.reverse_cons]
      apply List.sublist_append_left
    · apply ordered_insertAmong_of hextra hlt _ h hstart.2 hstop.2
      exact fun _ _ => sound_insert hextra hlt

/-! ### Sources -/

theorem sound_broken (hstart : Text.IsBoundary first source.toList)
    (hstop : Text.IsBoundary last source.toList) (hle : first ≤ last) :
  Sound source [] (broken first last)
  := sound_mk_iff.mpr ⟨hstart, hstop, by simp [Clear], (Row.nil hle).toOrdered⟩

theorem sound_module (h : Ordered source [] first ns last)
    (hstop : Text.IsBoundary last source.toList) :
  Sound source [] (module ns last)
  := by
  refine sound_mk_iff.mpr ⟨?_, hstop, by simp [Clear], ?_⟩
  · cases ns with
    | nil => exact hstop
    | cons n ns => exact ((h.sound n List.mem_cons_self) n n.self_mem_preorder).1.start
  · cases ns with
    | nil => exact (Row.nil (Nat.le_refl _)).toOrdered
    | cons n ns =>
      obtain ⟨-, hn, hns⟩ := ordered_cons_iff.mp h
      exact ordered_cons_iff.mpr ⟨Nat.le_refl _, hn, hns⟩

theorem stands_source (source : String) :
  Stands source 0 source.toList
  := ⟨[], [], by simp, rfl⟩

theorem isBoundary_utf8ByteSize (source : String) :
  Text.IsBoundary source.utf8ByteSize source.toList
  := by
  have hstop := (stands_source source).stop
  rwa [Nat.zero_add, ← Text.utf8ByteSize_eq_byteLength] at hstop

theorem sound_parse (source : String) :
  Sound source [] (parse source)
  := by
  have hwhole := stands_source source
  have hstop := isBoundary_utf8ByteSize source
  have hbroken : Sound source [] (broken 0 source.utf8ByteSize) :=
    sound_broken hwhole.start hstop (Nat.zero_le _)
  unfold parse
  dsimp only
  split
  · exact hbroken
  · next tokens extras hlex =>
    have hfree : Free [] 0 (0 + Text.byteLength source.toList) := by simp [Free]
    obtain ⟨hafter, haside⟩ := after_of_lex hwhole hfree (.inl rfl) hlex
    have hafter := hafter.resolve_right fun h => Nat.lt_irrefl 0 h.1
    rw [List.append_nil, Nat.zero_add, ← Text.utf8ByteSize_eq_byteLength] at hafter
    rw [Nat.zero_add, ← Text.utf8ByteSize_eq_byteLength] at haside
    have hreads := (readsStatements source extras (20 * (tokens.length + 10))).statements
      (20 * (tokens.length + 10)) _ _ _ hafter
    split
    · next items hitems =>
      obtain ⟨mid, hrow, hafter⟩ := hreads items [] hitems
      have hitems := (hrow.widen (Nat.le_refl _) hafter.low_le).toOrdered
      exact sound_module (ordered_foldl_insertAmong haside hitems) hstop
    · next t rest hrest =>
      obtain ⟨mid, -, hafter⟩ := hreads _ _ hrest
      cases hafter with
      | cons _ hplaced hafter =>
        exact sound_broken hplaced.stands.start hstop
          (Nat.le_trans hplaced.start_le_stop hafter.low_le)
    · exact hbroken

end MutationTesting.Indented

namespace MutationTesting

/-- Every node of a tree that the builtin parser makes spans a part of its source. -/
theorem spanned_of_builtinParser {language : Language} {source : String} {n : SyntaxNode}
    (h : n ∈ (builtinParser language source).preorder) :
  n.Spanned source
  := by
  unfold builtinParser at h
  split at h
  · exact (Indented.sound_parse source n h).1
  · have hbroken := Indented.sound_broken (Indented.stands_source source).start
      (Indented.isBoundary_utf8ByteSize source) (Nat.zero_le _)
    exact (hbroken n h).1

theorem SyntaxTree.spanned_of_parse {language : Language} {source : String} {tree : SyntaxTree}
    (h : parse builtinParser language source = .ok tree) :
  ∀ node ∈ tree.nodes, node.Spanned tree.source
  := by
  rw [eq_of_parse h]
  exact fun _ => spanned_of_builtinParser

end MutationTesting
