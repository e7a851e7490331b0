import GoIdiom.Proofs.Sites.Layer

/-!
# Sites in statement trees

The readers of statements hand every token of a run to one statement at most, as its keyword or as one of its
own tokens, or to a clause. So the sites that a statement tree offers in a layer are no more than the tokens it
was read from.
-/

namespace GoIdiom

/-- How many sites a plain statement offers at a place: where it begins, the parameters of the function literal
that it launches, or its own tokens. -/
def Layer.ownAt (layer : Layer) (p : Position) (place : Place) (tokens : List Token) (literals : List FuncLiteral) :
    Nat :=
  match layer with
  | .kind .go | .kind .defer | .leave => [place.pos].count p
  | .part => ((((Body.launched tokens literals).map (·.params)).getD []).map (·.pos)).count p
  | _ => Token.countAt p tokens

namespace Statement

mutual

/-- How many sites a statement offers at a place, in nested statements and function literals too. -/
def sitesAt (layer : Layer) (p : Position) : Statement → Nat
  | .plain place _ tokens literals => layer.ownAt p place tokens literals + literalSitesAt layer p literals
  | .block _ body => listSitesAt layer p body
  | .branch place header literals body otherwise =>
    [place.pos].count p + Token.countAt p header + literalSitesAt layer p literals + listSitesAt layer p body +
      otherSitesAt layer p otherwise
  | .loop place header literals body =>
    [place.pos].count p + Token.countAt p header + literalSitesAt layer p literals + listSitesAt layer p body
  | .switch place header literals clauses =>
    [place.pos].count p + Token.countAt p header + literalSitesAt layer p literals + clauseSitesAt layer p clauses
  | .select place header literals clauses =>
    [place.pos].count p + Token.countAt p header + literalSitesAt layer p literals + clauseSitesAt layer p clauses

/-- How many sites a statement list offers at a place. -/
def listSitesAt (layer : Layer) (p : Position) : List Statement → Nat
  | [] => 0
  | s :: rest => sitesAt layer p s + listSitesAt layer p rest

/-- How many sites the other branch offers at a place. -/
def otherSitesAt (layer : Layer) (p : Position) : Option (List Statement) → Nat
  | none => 0
  | some body => listSitesAt layer p body

/-- How many sites clauses offer at a place. -/
def clauseSitesAt (layer : Layer) (p : Position) : List Clause → Nat
  | [] => 0
  | .mk _ _ header body :: rest => Token.countAt p header + listSitesAt layer p body + clauseSitesAt layer p rest

/-- How many sites the bodies of function literals offer at a place. -/
def literalSitesAt (layer : Layer) (p : Position) : List FuncLiteral → Nat
  | [] => 0
  | .mk _ _ _ _ body :: rest => listSitesAt layer p body + literalSitesAt layer p rest

end

variable (layer : Layer) (p : Position)

/-- A label offers no site. -/
theorem sitesAt_withLabel (label : Option String) (s : Statement) :
    sitesAt layer p (s.withLabel label) = sitesAt layer p s := by
  cases s with
  | plain place kind tokens literals => cases layer <;> rfl
  | _ => rfl

/-- The function literals that are cut out of tokens, and what is left of the tokens: together they offer no more
sites, the first token is still the first, and the parameters of the literals are still there. -/
structure CutSites (layer : Layer) (p : Position) (ts : List Token) (cut : List FuncLiteral × List Token) :
    Prop where
  count : literalSitesAt layer p cut.1 + Token.countAt p cut.2 ≤ Token.countAt p ts
  head : cut.2.head? = ts.head?
  params : ∀ l ∈ cut.1, (l.params.map (·.pos)).Sublist (cut.2.map (·.pos))

/-- A plain statement offers no more sites than its own tokens, when it begins with the first of them. -/
theorem ownAt_le {layer : Layer} {p : Position} {t : Token} {ts : List Token} {cut : List FuncLiteral × List Token}
    (h : CutSites layer p (t :: ts) cut) (place : Place) (hplace : place.pos = t.pos) :
    layer.ownAt p place cut.2 cut.1 ≤ Token.countAt p cut.2 := by
  have hfirst : [place.pos].count p ≤ Token.countAt p cut.2 := by
    rw [hplace]
    exact Token.count_pos_le (List.mem_of_mem_head? h.head)
  unfold Layer.ownAt
  split
  · exact hfirst
  · exact hfirst
  · exact hfirst
  · cases hlaunched : Body.launched cut.2 cut.1 with
    | none => exact Nat.zero_le _
    | some l =>
      have hl : l ∈ cut.1 := List.mem_of_mem_head? (Option.ite_none_right_eq_some.mp hlaunched).2
      exact (h.params l hl).count_le p
  · exact Nat.le_refl _

/-- A compound statement leaves fewer tokens than follow its keyword. -/
theorem length_of_compound {follow : Option Token} {keyword : Token} {ts : List Token} {r : Statement × List Token}
    (h : compound follow keyword ts = .ok r) : r.2.length < ts.length := by
  rw [compound] at h
  cases hread : readCompound follow keyword ts with
  | error e =>
    rw [hread] at h
    cases h
  | ok x =>
    rw [hread] at h
    cases h
    exact x.2

/-- A reading whose result has a property, if it succeeds. -/
abbrev Reads {α : Type} (P : α → Prop) : Except SourceFault α → Prop := Outcome P fun _ => True

mutual

/-- The sites of a statement list. -/
theorem sites_readList (follow : Option Token) (label : Option String) (ts : List Token) :
    Reads (fun ss => listSitesAt layer p ss ≤ Token.countAt p ts) (readList follow label ts) := by
  match ts with
  | [] =>
    rw [readList]
    exact .ok (Nat.le_refl _)
  | t :: rest =>
    have hts := Token.countAt_cons (p := p) t rest
    rw [readList_cons]
    split
    · exact (sites_readList follow label rest).mono fun ss hss => by omega
    · split
      · have hdrop := Token.countAt_le_of_sublist (p := p) (List.drop_sublist 1 rest)
        exact (sites_readList follow (some t.text) (rest.drop 1)).mono fun ss hss => by omega
      · split
        · have hcompound := sites_compound follow t rest
          cases hr : compound follow t rest with
          | error f => exact .error trivial
          | ok r =>
            have hstatement := (hr ▸ hcompound).of_ok
            have hlength := length_of_compound hr
            refine (sites_readList follow none r.2).bind fun more hmore => .ok ?_
            rw [listSitesAt, sitesAt_withLabel]
            omega
        · cases hopened : if t.isOp "\x7b" = true then Token.closeGroup rest else none with
          | some g =>
            obtain ⟨-, hg⟩ := Option.ite_none_right_eq_some.mp hopened
            have hrest := congrArg (Token.countAt p) (Token.splitGroup_eq_append hg)
            rw [Token.countAt_append, Token.countAt_cons] at hrest
            refine (sites_readList (some g.closer) none g.inner).bind fun body hbody => ?_
            refine (sites_readList follow none g.rest).bind fun more hmore => .ok ?_
            rw [listSitesAt, sitesAt]
            omega
          | none =>
            have happend := takeRun_append t rest
            obtain ⟨run, hrun⟩ : ∃ run, (takeRun t rest).1 = t :: run := by
              obtain ⟨more, hmore⟩ := Token.takePiece_eq_cons t rest
              exact ⟨_, by rw [takeRun, hmore]; rfl⟩
            refine (sites_cutLiterals (takeRun t rest).1).bind fun cut hcut => ?_
            refine (sites_readList follow none (takeRun t rest).2).bind fun more hmore => .ok ?_
            have hcount := hcut.count
            have hown := ownAt_le (hrun ▸ hcut) ⟨label, t.pos, (lastOr t (takeRun t rest).1).line⟩ rfl
            rw [listSitesAt, sitesAt, ← happend, Token.countAt_append]
            omega
termination_by (ts.length, 1)
decreasing_by
  all_goals simp only [Prod.lex_def, List.length_cons, List.length_drop]
  all_goals try
    have := Token.closeGroup_length hg
    omega
  all_goals
    have := takeRun_length t rest
    have := takeRun_run_length t rest
    omega

/-- The sites of a compound statement. -/
theorem sites_compound (follow : Option Token) (keyword : Token) (ts : List Token) :
    Reads (fun r => sitesAt layer p r.1 + Token.countAt p r.2 ≤ [keyword.pos].count p + Token.countAt p ts)
      (compound follow keyword ts) := by
  rw [compound_eq]
  cases hb : Block.afterHeader? keyword ts with
  | none => exact .error trivial
  | some b =>
    have hsize : b.before.length + b.inner.length + b.rest.length + 2 = ts.length := Block.size_afterHeader? hb
    have hts : Token.countAt p ts = Token.countAt p b.before + ([b.opener.pos].count p + (Token.countAt p b.inner +
        ([b.closer.pos].count p + Token.countAt p b.rest))) := by
      rw [← Block.run_afterHeader? hb, Block.run]
      simp only [Token.countAt_append, Token.countAt_cons]
    dsimp only
    refine (sites_cutLiterals b.before).bind fun cut hcut => ?_
    have hheader := hcut.count
    split
    · refine (sites_readClauses b.closer b.inner).bind fun clauses hclauses => .ok ?_
      split
      · rw [sitesAt]
        dsimp only
        omega
      · rw [sitesAt]
        dsimp only
        omega
    · refine (sites_readList (some b.closer) none b.inner).bind fun body hbody => ?_
      split
      · refine .ok ?_
        rw [sitesAt]
        dsimp only
        omega
      · refine (sites_afterBranch follow keyword.pos b.closer.line cut.2 cut.1 body b.rest).mono fun r hr => ?_
        omega
termination_by (ts.length, 0)
decreasing_by
  all_goals simp only [Prod.lex_def]
  all_goals omega

/-- The sites of a branch with its other branch. -/
theorem sites_afterBranch (follow : Option Token) (pos : Position) (line : Nat) (header : List Token)
    (literals : List FuncLiteral) (body : List Statement) (ts : List Token) :
    Reads (fun r => sitesAt layer p r.1 + Token.countAt p r.2 ≤ [pos].count p + Token.countAt p header +
        literalSitesAt layer p literals + listSitesAt layer p body + Token.countAt p ts)
      (afterBranch follow pos line header literals body ts) := by
  rw [afterBranch.eq_def]
  match ts with
  | [] =>
    refine .ok ?_
    rw [sitesAt, otherSitesAt]
    dsimp only
    omega
  | [e] =>
    dsimp only
    split
    · exact .error trivial
    · refine .ok ?_
      rw [sitesAt, otherSitesAt]
      dsimp only
      omega
  | e :: n :: more =>
    have hts : Token.countAt p (e :: n :: more) = [e.pos].count p + ([n.pos].count p + Token.countAt p more) := by
      rw [Token.countAt_cons, Token.countAt_cons]
    dsimp only
    split
    · split
      · refine (sites_compound follow n more).bind fun r hr => .ok ?_
        rw [sitesAt, otherSitesAt, listSitesAt, listSitesAt]
        dsimp only
        omega
      · cases hopened : if n.isOp "\x7b" = true then Token.closeGroup more else none with
        | none => exact .error trivial
        | some g =>
          obtain ⟨-, hg⟩ := Option.ite_none_right_eq_some.mp hopened
          refine (sites_readList (some g.closer) none g.inner).bind fun other hother => .ok ?_
          have hmore := congrArg (Token.countAt p) (Token.splitGroup_eq_append hg)
          rw [Token.countAt_append, Token.countAt_cons] at hmore
          rw [sitesAt, otherSitesAt]
          dsimp only
          omega
    · refine .ok ?_
      rw [sitesAt, otherSitesAt]
      dsimp only
      omega
termination_by (ts.length, 0)
decreasing_by
  all_goals simp only [Prod.lex_def, List.length_cons]
  all_goals try have := Token.closeGroup_length hg
  all_goals omega

/-- The sites of the clauses of a switch or select. -/
theorem sites_readClauses (follow : Token) (ts : List Token) :
    Reads (fun cs => clauseSitesAt layer p cs ≤ Token.countAt p ts) (readClauses follow ts) := by
  rw [readClauses_eq]
  have hts := congrArg (Token.countAt p) (Token.spanTop_append startsClause ts)
  rw [Token.countAt_append] at hts
  cases hclause : (Token.spanTop startsClause ts).2 with
  | nil => exact .ok (Nat.zero_le _)
  | cons keyword rest =>
    have hrest := congrArg (Token.countAt p) (Token.spanTop_append startsClause rest)
    have hparts := congrArg (Token.countAt p)
      (Token.spanTop_append (·.isOp ":") (Token.spanTop startsClause rest).1)
    rw [Token.countAt_append] at hrest hparts
    rw [hclause, Token.countAt_cons] at hts
    dsimp only
    match hbody : Token.spanTop (·.isOp ":") (Token.spanTop startsClause rest).1 with
    | (header, []) => exact .error trivial
    | (header, colon :: bodyTokens) =>
      rw [hbody, Token.countAt_cons] at hparts
      dsimp only at hparts ⊢
      refine (sites_readList (some ((Token.spanTop startsClause rest).2.headD follow)) none bodyTokens).bind
        fun body hread => ?_
      refine (sites_readClauses follow (Token.spanTop startsClause rest).2).bind fun more hmore => .ok ?_
      rw [clauseSitesAt]
      omega
termination_by (ts.length, 0)
decreasing_by
  all_goals have := clause_lengths hclause rfl hbody
  all_goals simp only [Prod.lex_def]
  all_goals omega

/-- The sites of the function literals in tokens, and what is left of the tokens. -/
theorem sites_cutLiterals (ts : List Token) : Reads (CutSites layer p ts) (cutLiterals ts) := by
  match ts with
  | [] =>
    rw [cutLiterals]
    exact .ok ⟨Nat.le_refl _, rfl, fun l hl => absurd hl List.not_mem_nil⟩
  | t :: rest =>
    rw [cutLiterals_cons]
    cases hc : LiteralCut.ofKeyword? t rest with
    | none =>
      refine (sites_cutLiterals rest).bind fun cut hcut => .ok ⟨?_, rfl, fun l hl => (hcut.params l hl).cons _⟩
      have hcount := hcut.count
      rw [Token.countAt_cons, Token.countAt_cons]
      dsimp only
      omega
    | some c =>
      have hts := congrArg (Token.countAt p) (LiteralCut.all_append_rest hc)
      obtain ⟨rfl, -⟩ := LiteralCut.run_ofKeyword? hc
      dsimp only
      refine (sites_readList (some c.body.closer) none c.body.inner).bind fun body hbody => ?_
      refine (sites_cutLiterals c.body.rest).bind fun cut hcut => .ok ⟨?_, rfl, ?_⟩
      · have hcount := hcut.count
        simp only [LiteralCut.all, Token.countAt_append, Token.countAt_cons, Token.countAt_nil] at hts
        simp only [literalSitesAt, LiteralCut.shell, Token.countAt_append, Token.countAt_cons, Token.countAt_nil]
        omega
      · refine List.forall_mem_cons.mpr ⟨?_, fun l hl => ?_⟩
        · have hparams : c.params.Sublist (c.shell ++ cut.2) := by
            have hsignature : c.params.Sublist c.signature := ((List.sublist_append_left ..).cons _).cons _
            exact (hsignature.trans (List.sublist_append_left ..)).trans (List.sublist_append_left ..)
          exact (Signature.pos_params_sublist c.params).trans (hparams.map _)
        · refine (hcut.params l hl).trans ?_
          rw [List.map_append]
          exact List.sublist_append_right ..
termination_by (ts.length, 0)
decreasing_by
  all_goals simp only [Prod.lex_def, List.length_cons]
  all_goals try
    have := LiteralCut.rest_length hc
    have := LiteralCut.inner_length hc
    omega
  all_goals omega

end

end Statement

end GoIdiom
