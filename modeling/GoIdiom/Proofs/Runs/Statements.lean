import GoIdiom.Proofs.Reading
import GoIdiom.Proofs.Runs

/-!
# The runs of statements

Every token run in a statement tree that is read from a well bracketed token list is a run of that list,
at every depth and in function literals; a fault is placed at a token of the list.
-/

namespace GoIdiom

open Token

/-- Whether a fault is placed at a token of a list. -/
def SourceFault.PlacedIn (all : List Token) (f : SourceFault) : Prop := ∃ t ∈ all, f.pos = t.pos

namespace Statement

mutual

/-- The token runs of a statement: its own, and those of nested statements and function literals. -/
def runs : Statement → List (List Token)
  | .plain _ _ tokens literals => tokens :: literalRuns literals
  | .block _ body => listRuns body
  | .branch _ header literals body otherwise =>
    header :: (literalRuns literals ++ (listRuns body ++ otherRuns otherwise))
  | .loop _ header literals body => header :: (literalRuns literals ++ listRuns body)
  | .switch _ header literals clauses => header :: (literalRuns literals ++ clauseRuns clauses)
  | .select _ header literals clauses => header :: (literalRuns literals ++ clauseRuns clauses)

/-- The token runs of a statement list. -/
def listRuns : List Statement → List (List Token)
  | [] => []
  | s :: rest => runs s ++ listRuns rest

/-- The token runs of the other branch. -/
def otherRuns : Option (List Statement) → List (List Token)
  | none => []
  | some body => listRuns body

/-- The token runs of clauses: headers and bodies. -/
def clauseRuns : List Clause → List (List Token)
  | [] => []
  | .mk _ _ header body :: rest => header :: (listRuns body ++ clauseRuns rest)

/-- The token runs of the bodies of function literals. -/
def literalRuns : List FuncLiteral → List (List Token)
  | [] => []
  | .mk _ _ _ _ body :: rest => listRuns body ++ literalRuns rest

end

/-- A label adds no run. -/
theorem runs_withLabel (label : Option String) (s : Statement) : (s.withLabel label).runs = s.runs := by
  cases s <;> simp only [withLabel, withPlace, runs]

variable {all : List Token}

/-- What is known of the function literals that are cut out of tokens, and of what is left of those. -/
structure CutRuns (all ts : List Token) (cut : List FuncLiteral × List Token) : Prop where
  literals : ∀ r ∈ literalRuns cut.1, Run all r
  sublist : cut.2.Sublist ts
  balanced : ∀ before, Balanced (before ++ ts) → Balanced (before ++ cut.2)

/-- What is left of a run when function literals are cut out of it. -/
theorem CutRuns.own {all ts : List Token} {cut : List FuncLiteral × List Token} (h : CutRuns all ts cut)
    (hts : Run all ts) : Run all cut.2 := hts.part h.sublist (h.balanced [] hts.balanced)

/-- What is known of a compound statement and the tokens after it. -/
structure CompoundRuns (all : List Token) (read : Statement × List Token) : Prop where
  statement : ∀ r ∈ read.1.runs, Run all r
  rest : Run all read.2

/-- The clauses of a run, the first keyword of which is outside brackets. -/
theorem isPlain_of_startsClause {t : Token} (h : startsClause t = true) : t.isPlain = true :=
  isPlain_of_isKeywordIn h

mutual

/-- The runs of a statement list. -/
theorem runs_readList (follow : Option Token) (hfollow : ∀ t ∈ follow, t ∈ all) (label : Option String)
    (ts : List Token) (h : Run all ts) :
    Outcome (fun ss => ∀ r ∈ listRuns ss, Run all r) (SourceFault.PlacedIn all) (readList follow label ts) := by
  match ts with
  | [] =>
    rw [readList]
    exact .ok fun r hr => absurd hr List.not_mem_nil
  | t :: rest =>
    rw [readList_cons]
    split
    · next hsemi => exact runs_readList follow hfollow label rest (h.tail (isPlain_of_isSemi hsemi))
    · split
      · next hlabel =>
        obtain ⟨hident, hcolon⟩ := Bool.and_eq_true_iff.mp hlabel
        have hrest := h.tail (isPlain_of_isIdent hident)
        match rest with
        | [] => cases hcolon
        | colon :: after =>
          have hplain : colon.isPlain = true := isPlain_of_isOp hcolon (by decide)
          exact runs_readList follow hfollow (some t.text) after (hrest.tail hplain)
      · split
        · next hkeyword =>
          have hrest := h.tail (isPlain_of_isKeywordIn hkeyword)
          have hat : t ∈ all := h.mem List.mem_cons_self
          refine (runs_compound follow hfollow t hat rest hrest).bind fun r hr => ?_
          obtain ⟨⟨hstatement, hafter⟩, hlength⟩ := hr
          refine (runs_readList follow hfollow none r.2 hafter).bind fun more hmore => .ok ?_
          rw [listRuns, runs_withLabel]
          exact List.forall_mem_append.mpr ⟨hstatement, hmore⟩
        · cases hopened : if t.isOp "\x7b" = true then closeGroup rest else none with
          | some g =>
            obtain ⟨hbrace, hg⟩ := Option.ite_none_right_eq_some.mp hopened
            obtain ⟨hinner, hcloser, hafter⟩ := h.group (isOpener_of_isOp hbrace (by decide)) hg
            have hbody : ∀ t ∈ some g.closer, t ∈ all := by
              intro t ht
              obtain rfl := Option.some.inj ht
              exact hcloser
            refine (runs_readList (some g.closer) hbody none g.inner hinner).bind fun body hbody => ?_
            refine (runs_readList follow hfollow none g.rest hafter).bind fun more hmore => .ok ?_
            rw [listRuns, runs]
            exact List.forall_mem_append.mpr ⟨hbody, hmore⟩
          | none =>
            obtain ⟨hrun, hafter⟩ : Run all (takeRun t rest).1 ∧ Run all (takeRun t rest).2 := by
              have happend := takeRun_append t rest
              obtain ⟨hpiece, hrest⟩ := h.balanced.takePiece
              obtain ⟨hmore, hafter⟩ := hrest.spanTop (·.isSemi)
              refine ⟨h.part ?_ (hpiece.append hmore), h.part ?_ hafter⟩
              · conv => rhs; rw [← happend]
                exact List.sublist_append_left ..
              · conv => rhs; rw [← happend]
                exact List.sublist_append_right ..
            refine (runs_cutLiterals (takeRun t rest).1 hrun.sublist ⟨[], hrun.balanced⟩).bind
              fun cut hcut => ?_
            refine (runs_readList follow hfollow none (takeRun t rest).2 hafter).bind fun more hmore => .ok ?_
            rw [listRuns, runs, List.cons_append]
            have hown : Run all cut.2 := hcut.own hrun
            exact List.forall_mem_cons.mpr ⟨hown, List.forall_mem_append.mpr ⟨hcut.literals, hmore⟩⟩
termination_by (ts.length, 1)
decreasing_by
  all_goals simp only [Prod.lex_def, List.length_cons]
  all_goals try
    have := Token.closeGroup_length hg
    omega
  all_goals
    have := takeRun_length t rest
    have := takeRun_run_length t rest
    omega

/-- The runs of a compound statement. -/
theorem runs_compound (follow : Option Token) (hfollow : ∀ t ∈ follow, t ∈ all) (keyword : Token)
    (hkeyword : keyword ∈ all) (ts : List Token) (h : Run all ts) :
    Outcome (fun r => CompoundRuns all r ∧ r.2.length < ts.length) (SourceFault.PlacedIn all)
      (compound follow keyword ts) := by
  rw [compound_eq]
  cases hb : Block.afterHeader? keyword ts with
  | none => exact .error ⟨keyword, hkeyword, rfl⟩
  | some b =>
    have hsize : b.before.length + b.inner.length + b.rest.length + 2 = ts.length := Block.size_afterHeader? hb
    have hwithin := Block.within_afterHeader? h hb
    have hcloser : ∀ t ∈ some b.closer, t ∈ all := by
      intro t ht
      obtain rfl := Option.some.inj ht
      exact hwithin.closer
    dsimp only
    refine (runs_cutLiterals b.before hwithin.before.sublist ⟨[], hwithin.before.balanced⟩).bind
      fun cut hcut => ?_
    have hheader : Run all cut.2 := hcut.own hwithin.before
    split
    · refine (runs_readClauses b.closer hwithin.closer b.inner hwithin.inner).bind fun clauses hclauses => ?_
      have hruns : ∀ r ∈ cut.2 :: (literalRuns cut.1 ++ clauseRuns clauses), Run all r :=
        List.forall_mem_cons.mpr ⟨hheader, List.forall_mem_append.mpr ⟨hcut.literals, hclauses⟩⟩
      have hlength : b.rest.length < ts.length := by omega
      split
      · exact .ok ⟨⟨by rwa [runs], hwithin.rest⟩, hlength⟩
      · exact .ok ⟨⟨by rwa [runs], hwithin.rest⟩, hlength⟩
    · refine (runs_readList (some b.closer) hcloser none b.inner hwithin.inner).bind fun body hbody => ?_
      split
      · refine .ok ⟨⟨?_, hwithin.rest⟩, by dsimp only; omega⟩
        rw [runs]
        exact List.forall_mem_cons.mpr ⟨hheader, List.forall_mem_append.mpr ⟨hcut.literals, hbody⟩⟩
      · refine (runs_afterBranch follow hfollow keyword.pos b.closer.line cut.2 hheader cut.1
          hcut.literals body hbody
          b.rest hwithin.rest).mono fun r hr => ⟨hr.1, ?_⟩
        have := hr.2
        omega
termination_by (ts.length, 0)
decreasing_by
  all_goals simp only [Prod.lex_def]
  all_goals omega

/-- The runs of a branch with its other branch. -/
theorem runs_afterBranch (follow : Option Token) (hfollow : ∀ t ∈ follow, t ∈ all)
    (pos : Position) (line : Nat) (header : List Token) (hheader : Run all header) (literals : List FuncLiteral)
    (hliterals : ∀ r ∈ literalRuns literals, Run all r) (body : List Statement)
    (hbody : ∀ r ∈ listRuns body, Run all r) (ts : List Token) (h : Run all ts) :
    Outcome (fun r => CompoundRuns all r ∧ r.2.length ≤ ts.length) (SourceFault.PlacedIn all)
      (afterBranch follow pos line header literals body ts) := by
  have hruns {other : Option (List Statement)} (hother : ∀ r ∈ otherRuns other, Run all r) :
      ∀ r ∈ header :: (literalRuns literals ++ (listRuns body ++ otherRuns other)), Run all r :=
    List.forall_mem_cons.mpr ⟨hheader, List.forall_mem_append.mpr
      ⟨hliterals, List.forall_mem_append.mpr ⟨hbody, hother⟩⟩⟩
  have hbranch {place : Place} : ∀ r ∈ (branch place header literals body none).runs, Run all r := by
    rw [runs]
    exact hruns fun r hr => absurd hr List.not_mem_nil
  rw [afterBranch.eq_def]
  match ts with
  | [] => exact .ok ⟨⟨hbranch, h⟩, Nat.le_refl _⟩
  | [e] =>
    dsimp only
    split
    · cases follow with
      | none => exact .error ⟨e, h.mem List.mem_cons_self, rfl⟩
      | some f => exact .error ⟨f, hfollow f rfl, rfl⟩
    · exact .ok ⟨⟨hbranch, h⟩, Nat.le_refl _⟩
  | e :: n :: more =>
    dsimp only
    split
    · next helse =>
      have hafter := h.tail (isPlain_of_isKeyword helse)
      have hat : n ∈ all := hafter.mem List.mem_cons_self
      split
      · next hif =>
        refine (runs_compound follow hfollow n hat more (hafter.tail (isPlain_of_isKeyword hif))).bind
          fun r hr => ?_
        obtain ⟨⟨hstatement, hrest⟩, hlength⟩ := hr
        have hother : ∀ r' ∈ otherRuns (some [r.1]), Run all r' := by
          rw [otherRuns, listRuns, listRuns, List.append_nil]
          exact hstatement
        refine .ok ⟨⟨?_, hrest⟩, ?_⟩
        · rw [runs]
          exact hruns hother
        · simp only [List.length_cons]
          omega
      · cases hopened : if n.isOp "\x7b" = true then closeGroup more else none with
        | none => exact .error ⟨n, hat, rfl⟩
        | some g =>
          obtain ⟨hbrace, hg⟩ := Option.ite_none_right_eq_some.mp hopened
          obtain ⟨hinner, hcloser, hrest⟩ := hafter.group (isOpener_of_isOp hbrace (by decide)) hg
          have hblock : ∀ t ∈ some g.closer, t ∈ all := by
            intro t ht
            obtain rfl := Option.some.inj ht
            exact hcloser
          refine (runs_readList (some g.closer) hblock none g.inner hinner).bind fun other hother => ?_
          have hlength := Token.closeGroup_length hg
          refine .ok ⟨⟨?_, hrest⟩, ?_⟩
          · rw [runs]
            exact hruns hother
          · simp only [List.length_cons]
            omega
    · exact .ok ⟨⟨hbranch, h⟩, Nat.le_refl _⟩
termination_by (ts.length, 0)
decreasing_by
  all_goals simp only [Prod.lex_def, List.length_cons]
  all_goals try have := Token.closeGroup_length hg
  all_goals omega

/-- The runs of the clauses of a switch or select. -/
theorem runs_readClauses (follow : Token) (hfollow : follow ∈ all) (ts : List Token) (h : Run all ts) :
    Outcome (fun cs => ∀ r ∈ clauseRuns cs, Run all r) (SourceFault.PlacedIn all) (readClauses follow ts) := by
  rw [readClauses_eq]
  cases hclause : (Token.spanTop startsClause ts).2 with
  | nil => exact .ok fun r hr => absurd hr List.not_mem_nil
  | cons keyword rest =>
    have hstart : Run all (keyword :: rest) := hclause ▸ (h.spanTop startsClause).2
    have hplain : keyword.isPlain = true := isPlain_of_startsClause (Token.spanTop_stops hclause)
    obtain ⟨hown, hnext⟩ := (hstart.tail hplain).spanTop startsClause
    have hparts := hown.spanTop (·.isOp ":")
    dsimp only
    match hbody : Token.spanTop (·.isOp ":") (Token.spanTop startsClause rest).1 with
    | (header, []) => exact .error ⟨keyword, hstart.mem List.mem_cons_self, rfl⟩
    | (header, colon :: bodyTokens) =>
      rw [hbody] at hparts
      have hcolon : colon.isPlain = true :=
        isPlain_of_isOp (Token.spanTop_stops (congrArg Prod.snd hbody)) (by decide)
      have hfollowing : ∀ t ∈ some ((Token.spanTop startsClause rest).2.headD follow), t ∈ all := by
        intro t ht
        obtain rfl := Option.some.inj ht
        cases hafter : (Token.spanTop startsClause rest).2 with
        | nil => exact hfollow
        | cons u us =>
          rw [hafter] at hnext
          exact hnext.mem List.mem_cons_self
      dsimp only
      refine (runs_readList (some ((Token.spanTop startsClause rest).2.headD follow)) hfollowing none bodyTokens
        (hparts.2.tail hcolon)).bind fun body hread => ?_
      refine (runs_readClauses follow hfollow (Token.spanTop startsClause rest).2 hnext).bind fun more hmore =>
        .ok ?_
      rw [clauseRuns]
      exact List.forall_mem_cons.mpr ⟨hparts.1, List.forall_mem_append.mpr ⟨hread, hmore⟩⟩
termination_by (ts.length, 0)
decreasing_by
  all_goals have := clause_lengths hclause rfl hbody
  all_goals simp only [Prod.lex_def]
  all_goals omega

/-- The runs of the function literals in tokens that end a well bracketed run, and what is left of the tokens. -/
theorem runs_cutLiterals (ts : List Token) (hsub : ts.Sublist all) (h : ∃ before, Balanced (before ++ ts)) :
    Outcome (CutRuns all ts) (SourceFault.PlacedIn all) (cutLiterals ts) := by
  match ts with
  | [] =>
    rw [cutLiterals]
    exact .ok ⟨fun r hr => absurd hr List.not_mem_nil, List.Sublist.refl _, fun _ hbefore => hbefore⟩
  | t :: rest =>
    obtain ⟨before, hbefore⟩ := h
    rw [cutLiterals_cons]
    cases hc : LiteralCut.ofKeyword? t rest with
    | none =>
      have hrest : ∃ before, Balanced (before ++ rest) := ⟨before ++ [t], by simpa using hbefore⟩
      refine (runs_cutLiterals rest ((List.sublist_cons_self t rest).trans hsub) hrest).bind fun cut hcut => ?_
      refine .ok ⟨hcut.literals, hcut.sublist.cons_cons t, fun before hbefore => ?_⟩
      have hown := hcut.balanced (before ++ [t]) (by simpa using hbefore)
      simpa using hown
    | some c =>
      obtain ⟨-, hinner, hemptied⟩ := LiteralCut.balanced_body hc hbefore
      have hsplit := LiteralCut.all_append_rest hc
      have hparts :
          (c.signature ++ c.body.opener :: (c.body.inner ++ c.body.closer :: c.body.rest)).Sublist all := by
        rw [← hsplit] at hsub
        simpa only [LiteralCut.all, List.append_assoc, List.cons_append, List.nil_append] using hsub
      have hinside : (c.body.inner ++ c.body.closer :: c.body.rest).Sublist all :=
        (List.sublist_cons_self ..).trans ((List.sublist_append_right ..).trans hparts)
      have hafter : (c.body.closer :: c.body.rest).Sublist all := (List.sublist_append_right ..).trans hinside
      have hcloser : ∀ t ∈ some c.body.closer, t ∈ all := by
        intro t ht
        obtain rfl := Option.some.inj ht
        exact hafter.subset List.mem_cons_self
      have hbody : Run all c.body.inner := ⟨(List.sublist_append_left ..).trans hinside, hinner⟩
      have hrest : ∃ before, Balanced (before ++ c.body.rest) :=
        ⟨before ++ c.shell, by rwa [List.append_assoc]⟩
      dsimp only
      refine (runs_readList (some c.body.closer) hcloser none c.body.inner hbody).bind fun body hread => ?_
      refine (runs_cutLiterals c.body.rest ((List.sublist_cons_self ..).trans hafter) hrest).bind fun cut hcut => ?_
      refine .ok ⟨?_, ?_, fun before hbefore => ?_⟩
      · rw [literalRuns]
        exact List.forall_mem_append.mpr ⟨hread, hcut.literals⟩
      · have hshell : (c.shell ++ cut.2).Sublist (c.all ++ c.body.rest) := by
          refine List.Sublist.append ?_ hcut.sublist
          refine List.Sublist.append (List.Sublist.refl _) (List.Sublist.cons_cons _ ?_)
          exact List.sublist_append_right ..
        rwa [hsplit] at hshell
      · have hown := hcut.balanced (before ++ c.shell) (by
          rw [List.append_assoc]
          exact (LiteralCut.balanced_body hc hbefore).2.2)
        rwa [List.append_assoc] at hown
termination_by (ts.length, 0)
decreasing_by
  all_goals simp only [Prod.lex_def, List.length_cons]
  all_goals try
    have := LiteralCut.rest_length hc
    have := LiteralCut.inner_length hc
    omega
  all_goals omega

end

end Statement

end GoIdiom
