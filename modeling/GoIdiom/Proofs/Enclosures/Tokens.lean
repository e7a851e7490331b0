import GoIdiom.Proofs.Enclosures.Paths
import GoIdiom.Proofs.Forest.Statements

/-!
# Own tokens in source order

The own tokens of the statements of a body, function literals left out, are in the order of the source: header,
body, other branch and clauses are read one after the other. This holds of the body of every function literal
inside a body too. A plain statement begins with the token that tells its kind.
-/

namespace GoIdiom.Statement

/-- The own tokens of the statements of a body, function literals left out. -/
def ownTokens (body : List Statement) : List Token := (flattenList body).flatMap (·.tokens)

/-- A plain statement begins with the token that tells its kind. -/
def IsHeaded : Statement → Prop
  | plain _ kind tokens _ => ∃ t rest, tokens = t :: rest ∧ kind = plainKind t
  | _ => True

/-- The own tokens of statements are in the order of a token list, and plain ones begin with what tells their kind.
-/
structure OfTokens (ts : List Token) (body : List Statement) : Prop where
  own : (ownTokens body).Sublist ts
  headed : ∀ s ∈ body, s.IsHeaded

/-- A body and every statement list inside it are in the order of a token list. -/
def InOrder (ts : List Token) (body : List Statement) : Prop :=
  ∀ path found, Inside body path found → OfTokens ts found

/-- The own tokens of enclosed bodies are in the order of a token list. -/
def AllInOrder (ts : List Token) (parts : List (Enclosure × List Statement)) : Prop :=
  ∀ part ∈ parts, InOrder ts part.2

variable {ts us : List Token} {body : List Statement} {parts more : List (Enclosure × List Statement)}

/-- A body is in order when its own statements are and what each of them encloses is. -/
theorem inOrder_iff : InOrder ts body ↔ OfTokens ts body ∧ ∀ s ∈ body, AllInOrder ts s.enclosed := by
  constructor
  · intro h
    exact ⟨h [] body (.here body), fun s hs part hpart path found hfound => h _ found (.deeper hs hpart hfound)⟩
  · rintro ⟨hown, henclosed⟩ path found (_ | ⟨hs, he, hfound⟩)
    · exact hown
    · exact henclosed _ hs _ he _ found hfound

/-- A longer token list. -/
theorem InOrder.mono (h : InOrder ts body) (hsub : ts.Sublist us) : InOrder us body :=
  fun path found hfound => ⟨(h path found hfound).own.trans hsub, (h path found hfound).headed⟩

/-- The own tokens of a body in order stand in the list in order. -/
theorem InOrder.sublist (h : InOrder ts body) : (ownTokens body).Sublist ts := (inOrder_iff.mp h).1.own

/-- Enclosed bodies are in the order of a longer list too. -/
theorem AllInOrder.mono (h : AllInOrder ts parts) (hsub : ts.Sublist us) : AllInOrder us parts :=
  fun part hpart => (h part hpart).mono hsub

/-- A body without statements is in order. -/
theorem inOrder_nil : InOrder ts [] :=
  inOrder_iff.mpr ⟨⟨List.nil_sublist _, fun _ hs => absurd hs List.not_mem_nil⟩,
    fun _ hs => absurd hs List.not_mem_nil⟩

/-- Without enclosed bodies there is nothing to be in order. -/
theorem allInOrder_nil : AllInOrder ts [] := fun _ hpart => absurd hpart List.not_mem_nil

/-- Enclosed bodies of two kinds are in order when those of each kind are. -/
theorem AllInOrder.append (h : AllInOrder ts parts) (hmore : AllInOrder ts more) : AllInOrder ts (parts ++ more) :=
  List.forall_mem_append.mpr ⟨h, hmore⟩

/-- One more enclosed body is in order with the others. -/
theorem AllInOrder.cons {e : Enclosure} (h : InOrder ts body) (hmore : AllInOrder ts more) :
    AllInOrder ts ((e, body) :: more) := List.forall_mem_cons.mpr ⟨h, hmore⟩

/-- A label is no token of a statement. -/
theorem own_withLabel (label : Option String) (s : Statement) :
    (s.withLabel label).flatten.flatMap (·.tokens) = s.flatten.flatMap (·.tokens) := by
  cases s <;> simp only [withLabel, withPlace, flatten, List.flatMap_cons, tokens, List.cons_append]

/-- A labelled statement begins with the token that tells its kind. -/
theorem isHeaded_withLabel {label : Option String} {s : Statement} (h : s.IsHeaded) :
    (s.withLabel label).IsHeaded := by
  cases s <;> exact h

/-- A compound statement is begun by its keyword, whatever the tokens. -/
theorem isHeaded_of_derivesCompound {keyword : Token} {rest : List Token} {s : Statement}
    (h : DerivesCompound keyword ts s rest) : s.IsHeaded := by
  cases h <;> trivial

/-- The first token is kept when function literals are cut out. -/
theorem eq_cons_of_derivesCut {t : Token} {own : List Token} {literals : List FuncLiteral}
    (h : DerivesCut (t :: ts) literals own) : ∃ rest, own = t :: rest := by
  cases h with
  | keep => exact ⟨_, rfl⟩
  | @literal _ _ own c _ _ hc =>
    obtain rfl : c.keyword = t := (List.cons.inj (LiteralCut.all_append_rest hc)).1
    exact ⟨_, rfl⟩

/-- A label encloses nothing. -/
theorem enclosed_withLabel (label : Option String) (s : Statement) : (s.withLabel label).enclosed = s.enclosed := by
  cases s <;> rfl

/-- The own tokens of a body are those of its first statement and of the others. -/
theorem ownTokens_cons (s : Statement) (rest : List Statement) :
    ownTokens (s :: rest) = s.flatten.flatMap (·.tokens) ++ ownTokens rest := by
  rw [ownTokens, flattenList, List.flatMap_append, ownTokens]

/-- A statement and the statements after it. -/
theorem InOrder.cons {s : Statement} {run rest : List Token} {ss : List Statement} (hhead : s.IsHeaded)
    (hown : (s.flatten.flatMap (·.tokens)).Sublist run) (henclosed : AllInOrder ts s.enclosed)
    (hrest : InOrder rest ss) (hts : (run ++ rest).Sublist ts) : InOrder ts (s :: ss) := by
  obtain ⟨hmore, hothers⟩ := inOrder_iff.mp hrest
  refine inOrder_iff.mpr ⟨⟨?_, List.forall_mem_cons.mpr ⟨hhead, hmore.headed⟩⟩,
    List.forall_mem_cons.mpr ⟨henclosed, fun s' hs' => ?_⟩⟩
  · rw [ownTokens_cons]
    exact (hown.append hmore.own).trans hts
  · exact (hothers s' hs').mono ((List.sublist_append_right ..).trans hts)

/-- A block after a header, with what is read behind it, is a run of the tokens. -/
theorem exists_run_of_afterHeader? {keyword : Token} {b : Block} (hb : Block.afterHeader? keyword ts = some b)
    {behind rest : List Token} (hbehind : behind ++ rest = b.rest) :
    ∃ run, run ++ rest = ts ∧ (b.before ++ (b.inner ++ behind)).Sublist run := by
  refine ⟨b.before ++ b.opener :: (b.inner ++ b.closer :: behind), ?_, ?_⟩
  · rw [← Block.run_afterHeader? hb, Block.run, ← hbehind]
    simp only [List.append_assoc, List.cons_append]
  · refine (List.Sublist.refl _).append (List.Sublist.trans ?_ (List.sublist_cons_self ..))
    exact (List.Sublist.refl _).append (List.sublist_cons_self ..)

/-- The groups of clauses in the tokens that they are read from. -/
theorem sublist_of_clause {ts rest header bodyTokens : List Token} {keyword colon : Token}
    (hkeyword : (Token.spanTop startsClause ts).2 = keyword :: rest)
    (hheader : Token.spanTop (·.isOp ":") (Token.spanTop startsClause rest).1 = (header, colon :: bodyTokens)) :
    (bodyTokens ++ (Token.spanTop startsClause rest).2).Sublist ts := by
  have hclause : (keyword :: rest).Sublist ts := by
    rw [← hkeyword]
    conv => rhs; rw [← Token.spanTop_append startsClause ts]
    exact List.sublist_append_right ..
  have hsplit := Token.spanTop_append (·.isOp ":") (Token.spanTop startsClause rest).1
  rw [hheader] at hsplit
  have hbody : bodyTokens.Sublist (Token.spanTop startsClause rest).1 := by
    rw [← hsplit]
    exact (List.sublist_cons_self ..).trans (List.sublist_append_right ..)
  refine List.Sublist.trans ?_ ((List.sublist_cons_self ..).trans hclause)
  conv => rhs; rw [← Token.spanTop_append startsClause rest]
  exact hbody.append (List.Sublist.refl _)

mutual

/-- The own tokens of the statements that are read from tokens are in the order of these. -/
theorem inOrder_list {ts : List Token} {ss : List Statement} : DerivesList ts ss → InOrder ts ss
  | .nil => inOrder_nil
  | .semi _ hrest => (inOrder_list hrest).mono (List.sublist_cons_self ..)
  | .label _ _ hrest => (inOrder_list hrest).mono ((List.sublist_cons_self ..).trans (List.sublist_cons_self ..))
  | .compound label _ hs hrest => by
    obtain ⟨run, rfl, hown, henclosed⟩ := inOrder_compound hs
    refine .cons (isHeaded_withLabel (isHeaded_of_derivesCompound hs)) (by rwa [own_withLabel]) ?_
      (inOrder_list hrest) (List.sublist_cons_self ..)
    rw [enclosed_withLabel]
    exact henclosed.mono (List.sublist_cons_self ..)
  | .block (g := g) label _ hg hbody hrest => by
    have hinside := inOrder_list hbody
    obtain ⟨hinner, -⟩ := sublist_of_closeGroup hg
    refine .cons trivial hinside.sublist ?_ (inOrder_list hrest) ?_
    · exact .cons (hinside.mono (hinner.trans (List.sublist_cons_self ..))) allInOrder_nil
    · rw [← Token.splitGroup_eq_append hg]
      refine List.Sublist.trans ?_ (List.sublist_cons_self ..)
      exact (List.Sublist.refl _).append (List.sublist_cons_self ..)
  | @DerivesList.plain t ts own literals _ label _ hcut hrest => by
    obtain ⟨hown, hbodies⟩ := inOrder_cut _ hcut
    have happend := takeRun_append t ts
    have hplain :
        ((plain ⟨label, t.pos, (lastOr t (takeRun t ts).1).line⟩ (plainKind t) own literals).flatten.flatMap
        (·.tokens)).Sublist (takeRun t ts).1 := by
      rw [flatten, List.flatMap_singleton]
      exact hown
    have hhead :
        (plain ⟨label, t.pos, (lastOr t (takeRun t ts).1).line⟩ (plainKind t) own literals).IsHeaded := by
      obtain ⟨more, hpiece⟩ := Token.takePiece_eq_cons t ts
      have hrun : (takeRun t ts).1 = t :: (more ++ (Token.spanTop (·.isSemi) (Token.takePiece t ts).2).1) := by
        rw [takeRun, hpiece]
        rfl
      obtain ⟨rest, rfl⟩ := eq_cons_of_derivesCut (hrun ▸ hcut)
      exact ⟨t, rest, rfl, rfl⟩
    refine .cons hhead hplain (hbodies.mono ?_) (inOrder_list hrest) ?_
    · conv => rhs; rw [← happend]
      exact List.sublist_append_left ..
    · rw [happend]

/-- A compound statement takes a run of tokens, and what is inside it is in their order. -/
theorem inOrder_compound {keyword : Token} {ts rest : List Token} {s : Statement} :
    DerivesCompound keyword ts s rest →
      ∃ run, run ++ rest = ts ∧ (s.flatten.flatMap (·.tokens)).Sublist run ∧
      AllInOrder (run ++ rest) s.enclosed
  | .loop _ hb hcut hbody => by
    obtain ⟨hbefore, hinner, -⟩ := sublist_of_afterHeader? hb
    obtain ⟨hown, hliterals⟩ := inOrder_cut false hcut
    have hinside := inOrder_list hbody
    obtain ⟨run, rfl, hrun⟩ := exists_run_of_afterHeader? hb (List.nil_append _)
    refine ⟨run, rfl, ?_, (hliterals.mono hbefore).append (.cons (hinside.mono hinner) allInOrder_nil)⟩
    rw [List.append_nil] at hrun
    exact (hown.append hinside.sublist).trans hrun
  | .switch _ hb hcut hclauses => by
    obtain ⟨hbefore, hinner, -⟩ := sublist_of_afterHeader? hb
    obtain ⟨hown, hliterals⟩ := inOrder_cut false hcut
    obtain ⟨hinside, hbodies⟩ := inOrder_clauses _ hclauses
    obtain ⟨run, rfl, hrun⟩ := exists_run_of_afterHeader? hb (List.nil_append _)
    refine ⟨run, rfl, ?_, (hliterals.mono hbefore).append (hbodies.mono hinner)⟩
    rw [List.append_nil] at hrun
    exact (hown.append hinside).trans hrun
  | .select _ hb hcut hclauses => by
    obtain ⟨hbefore, hinner, -⟩ := sublist_of_afterHeader? hb
    obtain ⟨hown, hliterals⟩ := inOrder_cut false hcut
    obtain ⟨hinside, hbodies⟩ := inOrder_clauses _ hclauses
    obtain ⟨run, rfl, hrun⟩ := exists_run_of_afterHeader? hb (List.nil_append _)
    refine ⟨run, rfl, ?_, (hliterals.mono hbefore).append (hbodies.mono hinner)⟩
    rw [List.append_nil] at hrun
    exact (hown.append hinside).trans hrun
  | .branch _ hb hcut hbody hother => by
    obtain ⟨hbefore, hinner, hafter⟩ := sublist_of_afterHeader? hb
    obtain ⟨hown, hliterals⟩ := inOrder_cut false hcut
    have hinside := inOrder_list hbody
    obtain ⟨behind, hbehind, hmore, hothers⟩ := inOrder_other hother
    obtain ⟨run, rfl, hrun⟩ := exists_run_of_afterHeader? hb hbehind
    have hrest := (List.sublist_cons_self ..).trans hafter
    rw [← hbehind] at hrest
    refine ⟨run, rfl, ?_, (hliterals.mono hbefore).append (.cons (hinside.mono hinner) (hothers.mono hrest))⟩
    refine List.Sublist.trans ?_ hrun
    rw [flatten, List.cons_append, List.flatMap_cons, List.flatMap_append]
    exact hown.append (hinside.sublist.append hmore)

/-- The other branch takes a run of tokens. -/
theorem inOrder_other {line endLine : Nat} {ts rest : List Token} {other : Option (List Statement)} :
    DerivesOther line ts other endLine rest → ∃ run, run ++ rest = ts ∧
      ((flattenOption other).flatMap (·.tokens)).Sublist run ∧ AllInOrder (run ++ rest) (otherBodies other)
  | .none => ⟨[], rfl, List.Sublist.refl _, allInOrder_nil⟩
  | @DerivesOther.block _ word brace _ g body _ _ hg hbody => by
    have hinside := inOrder_list hbody
    have hinner : g.inner.Sublist (word :: brace :: (g.inner ++ [g.closer])) :=
      ((List.sublist_append_left ..).trans (List.sublist_cons_self ..)).trans (List.sublist_cons_self ..)
    refine ⟨word :: brace :: (g.inner ++ [g.closer]), ?_, hinside.sublist.trans hinner,
      .cons (hinside.mono (hinner.trans (List.sublist_append_left ..))) allInOrder_nil⟩
    rw [← Token.splitGroup_eq_append hg]
    simp only [List.cons_append, List.append_assoc, List.nil_append]
  | @DerivesOther.branch _ word keyword _ rest s _ _ hs => by
    obtain ⟨run, rfl, hown, henclosed⟩ := inOrder_compound hs
    have hrun : run.Sublist (word :: keyword :: run) :=
      (List.sublist_cons_self ..).trans (List.sublist_cons_self ..)
    have hlonger := hrun.append (List.Sublist.refl rest)
    refine ⟨word :: keyword :: run, rfl, ?_, .cons (inOrder_iff.mpr ⟨⟨?_, ?_⟩, ?_⟩) allInOrder_nil⟩
    · rw [flattenOption, flattenList, flattenList, List.append_nil]
      exact hown.trans hrun
    · rw [ownTokens_cons]
      exact List.Sublist.append (hown.trans hrun) (List.nil_sublist _)
    · exact List.forall_mem_singleton.mpr (isHeaded_of_derivesCompound hs)
    · exact List.forall_mem_singleton.mpr (henclosed.mono hlonger)

/-- The statements of clauses. -/
theorem inOrder_clauses {ts : List Token} {cs : List Clause} (enclosure : Bool → List Token → Enclosure) :
    DerivesClauses ts cs → ((flattenClauses cs).flatMap (·.tokens)).Sublist ts ∧
      AllInOrder ts (clauseBodies enclosure cs)
  | .nil _ => ⟨List.nil_sublist _, allInOrder_nil⟩
  | .cons hkeyword hheader hbody hmore => by
    have hinside := inOrder_list hbody
    obtain ⟨hothers, hbodies⟩ := inOrder_clauses enclosure hmore
    have hparts := sublist_of_clause hkeyword hheader
    refine ⟨?_, .cons (hinside.mono ((List.sublist_append_left ..).trans hparts))
      (hbodies.mono ((List.sublist_append_right ..).trans hparts))⟩
    rw [flattenClauses, List.flatMap_append]
    exact (hinside.sublist.append hothers).trans hparts

/-- The tokens that are left when function literals are cut out, and the bodies of the literals. -/
theorem inOrder_cut {ts own : List Token} {literals : List FuncLiteral} (launchesFirst : Bool) :
    DerivesCut ts literals own → own.Sublist ts ∧ AllInOrder ts (literalBodies launchesFirst literals)
  | .nil => ⟨List.Sublist.refl _, allInOrder_nil⟩
  | .keep _ hrest => by
    obtain ⟨hown, hbodies⟩ := inOrder_cut launchesFirst hrest
    exact ⟨hown.cons_cons _, hbodies.mono (List.sublist_cons_self ..)⟩
  | .literal (c := c) hc hbody hrest => by
    obtain ⟨hown, hbodies⟩ := inOrder_cut false hrest
    have hall := LiteralCut.all_append_rest hc
    have hinner : c.body.inner.Sublist c.all :=
      ((List.sublist_append_left ..).trans (List.sublist_cons_self ..)).trans (List.sublist_append_right ..)
    rw [← hall]
    refine ⟨List.Sublist.append ?_ hown,
      .cons ((inOrder_list hbody).mono (hinner.trans (List.sublist_append_left ..)))
      (hbodies.mono (List.sublist_append_right ..))⟩
    refine (List.Sublist.refl _).append (List.Sublist.cons_cons _ ?_)
    exact List.sublist_append_right ..

end

end GoIdiom.Statement
