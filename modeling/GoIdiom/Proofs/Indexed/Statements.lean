import GoIdiom.Proofs.Indexed.Checks

/-!
# Reading by indices and reading lists

Over a well bracketed run the readers that work on indices read the statements that the list readers read, and fail
where those fail. So none of their checks ever fails: every look-up is inside the list, every opener has its pair,
every loop goes on with a later index, and every range that is read inside another one is closed and smaller.
-/

namespace GoIdiom.Pairing

open Token
open Stop (advance advance_eq)
open Statement (plainKind lastOr takeRun startsClause)

variable {p : Pairing}

/-- Below a length, statements are read by indices as they are read from lists. The token behind a run is where the
list readers place a fault at its end. -/
def ReadsBelow (p : Pairing) (bound : Nat) : Prop :=
  ∀ {index stop : Nat} {run : List Token} (label : Option String), p.Spans index run → Balanced run →
    index + run.length = stop → run.length < bound →
    p.statements label index stop = (Statement.readList p.tokens[stop]? label run).mapError .fault

/-- What holds below a length holds below a smaller one. -/
theorem ReadsBelow.mono {bound smaller : Nat} (h : ReadsBelow p bound) (hle : smaller ≤ bound) :
    ReadsBelow p smaller :=
  fun label hspans hrun hstop hlt => h label hspans hrun hstop (Nat.lt_of_lt_of_le hlt hle)

namespace Spans

/-! ## Function literals -/

/-- A function literal that begins a run. -/
theorem literalAt_eq {index stop : Nat} {t : Token} {rest : List Token} {c : LiteralCut}
    (h : p.Spans index (t :: rest)) (hstop : index + (t :: rest).length = stop)
    (hc : LiteralCut.ofKeyword? t rest = some c) (hread : ReadsBelow p rest.length) :
    p.literalAt index stop ⟨index + c.signature.length, index + c.signature.length + 1 + c.body.inner.length⟩ =
      ((Statement.readList (some c.body.closer) none c.body.inner).map fun body =>
        FuncLiteral.mk t.pos c.body.closer.line (Signature.params c.params) (Signature.results c.body.before)
          body).mapError .fault := by
  have hbrace := h.literal_braceAt hc
  have hall := LiteralCut.length_all_add_rest hc
  simp only [LiteralCut.all, List.length_append, List.length_cons, List.length_nil] at hall hstop
  obtain ⟨u, us, g, rfl, hg, hbody, hcut⟩ := h.exists_literal_groupAt hc
  have hsignature : index + c.signature.length = index + 1 + 1 + g.inner.length + 1 + c.body.before.length := by
    rw [hcut]
    simp only [LiteralCut.signature, List.length_cons, List.length_append]
    omega
  have hresults := hg.rest.results_eq hbody
  rw [← hsignature] at hresults
  obtain ⟨hlt, hnarrow⟩ := hbrace.inner.narrow_eq ⟨index, stop⟩ hbrace.balanced rfl (by dsimp only; omega)
    (by dsimp only; omega) (by dsimp only; omega)
  rw [literalAt, hg.closer, Except.ok_bind, hg.params_eq, Except.ok_bind, hresults, Except.ok_bind, hnarrow,
    Except.ok_bind]
  dsimp only
  rw [hread none hbrace.inner hbrace.balanced rfl (LiteralCut.inner_length hc), getElem?_of_token hbrace.token]
  cases Statement.readList (some c.body.closer) none c.body.inner with
  | error f => rfl
  | ok body =>
    rw [Except.mapError_ok, Except.ok_bind, h.token_head, Except.ok_bind, hbrace.token, hcut]
    rfl

/-- The function literals of a run, and its tokens without the contents of their bodies. -/
theorem cutLiterals_eq {index stop : Nat} {run : List Token} (h : p.Spans index run)
    (hstop : index + run.length = stop) (hread : ReadsBelow p run.length) :
    p.cutLiterals index stop = (Statement.cutLiterals run).mapError .fault := by
  match run with
  | [] =>
    rw [cutLiterals, if_neg (by simp at hstop; omega), Statement.cutLiterals]
    rfl
  | t :: rest =>
    have hlength : index + 1 + rest.length = stop := by
      rw [List.length_cons] at hstop
      omega
    rw [cutLiterals, if_pos (lt_stop hstop), h.token_head, Except.ok_bind, h.literalBraces_eq hstop, Except.ok_bind,
      Statement.cutLiterals_cons]
    cases hc : LiteralCut.ofKeyword? t rest with
    | none =>
      dsimp only [Option.map_none]
      rw [advance_eq (Nat.lt_succ_self _), Except.ok_bind, Except.mapError_bind]
      dsimp only
      rw [cutLiterals_eq h.tail hlength (hread.mono (Nat.le_succ _))]
      rfl
    | some c =>
      have hbrace := h.literal_braceAt hc
      have hall := LiteralCut.length_all_add_rest hc
      simp only [LiteralCut.all, List.length_append, List.length_cons, List.length_nil] at hall
      have hslice : p.slice index (index + c.signature.length + 1) = c.signature ++ [c.body.opener] := by
        have hopened : p.Spans index
            ((c.signature ++ [c.body.opener]) ++ (c.body.inner ++ [c.body.closer] ++ c.body.rest)) := by
          have hwhole := h
          rw [← LiteralCut.all_append_rest hc, LiteralCut.all] at hwhole
          simpa using hwhole
        apply hopened.slice_eq
        simp only [List.length_append, List.length_cons, List.length_nil]
        omega
      dsimp only [Option.map_some]
      rw [literalAt_eq h hstop hc (hread.mono (Nat.le_succ _))]
      cases Statement.readList (some c.body.closer) none c.body.inner with
      | error f => rfl
      | ok body =>
        simp only [Except.map, Except.mapError_ok, Except.ok_bind]
        rw [hbrace.token, Except.ok_bind, advance_eq (by omega), Except.ok_bind, Except.mapError_bind]
        dsimp only
        rw [cutLiterals_eq hbrace.rest (by omega) (hread.mono (by rw [List.length_cons]; omega)), hslice]
        cases Statement.cutLiterals c.body.rest with
        | error f => rfl
        | ok cut =>
          simp only [Except.mapError_ok, Except.ok_bind, LiteralCut.shell]
          rw [List.append_assoc, List.append_assoc]
          rfl
termination_by run.length
decreasing_by
  · simp
  · have := LiteralCut.rest_length hc
    simp only [List.length_cons]
    omega

/-- A statement without a block of its own, which is all of a run. -/
theorem simple_eq {index stop : Nat} {t : Token} {run : List Token} (h : p.Spans index run)
    (hstop : index + run.length = stop) (hfirst : p.token index = .ok t) (hpos : 0 < run.length)
    (hread : ReadsBelow p run.length) :
    p.simple index stop = (Statement.cutLiterals run).mapError .fault >>= fun cut =>
      pure (.plain ⟨none, t.pos, (lastOr t run).line⟩ (plainKind t) cut.2 cut.1) := by
  have hlast : p.token (stop - 1) = .ok (lastOr t run) := by
    have hindex : stop - 1 = index + (run.length - 1) := by omega
    rw [hindex]
    apply h.token_eq
    rw [lastOr, List.getLastD_eq_getLast?, List.getLast?_eq_getElem?, List.getElem?_eq_getElem (by omega)]
    rfl
  rw [simple, hfirst, Except.ok_bind, cutLiterals_eq h hstop hread, placeOf_eq hfirst hlast]
  rfl

/-! ## Clauses -/

/-- A clause that goes on to the next one, or to the end if it is the last. -/
theorem clausesAt_cons {lower first stop : Nat} {keyword : Token} {clause : List Token} {begins : List Nat}
    (h : p.Spans first (keyword :: clause)) (hclause : Balanced clause)
    (hnext : begins.headD stop = first + 1 + clause.length) (hlower : lower ≤ first)
    (hstop : first + 1 + clause.length ≤ stop) (hread : ReadsBelow p clause.length) :
    p.clausesAt (first :: begins) lower stop =
      (match spanTop (·.isOp ":") clause with
      | (_, []) => .error (.fault ⟨.missingCaseColon, keyword.pos⟩)
      | (header, _ :: bodyTokens) => do
        let body ← (Statement.readList p.tokens[begins.headD stop]? none bodyTokens).mapError .fault
        let more ← p.clausesAt begins lower stop
        pure (.mk keyword.pos (keyword.text == "default") header body :: more)) := by
  have hclauseSpans := h.tail
  have hparts := hclause.spanTop (·.isOp ":")
  have happend := spanTop_append (·.isOp ":") clause
  have hlengths := congrArg List.length happend
  rw [List.length_append] at hlengths
  rw [clausesAt, hclauseSpans.scan_eq hnext.symm, Except.ok_bind]
  cases hcolon : spanTop (·.isOp ":") clause with
  | mk header tail =>
    rw [hcolon] at hparts happend hlengths
    dsimp only at hparts happend hlengths ⊢
    cases tail with
    | nil =>
      rw [List.length_nil] at hlengths
      rw [if_neg (by omega), faultAt_eq h.token_head]
    | cons colon bodyTokens =>
      rw [List.length_cons] at hlengths
      have hbalanced := hparts.2.of_plain (isPlain_of_isOp (spanTop_stops (congrArg Prod.snd hcolon)) (by decide))
      rw [← happend] at hclauseSpans
      have hslice := hclauseSpans.slice_eq rfl
      have hbody := hclauseSpans.right.tail
      have hbodyStop : first + 1 + header.length + 1 + bodyTokens.length = begins.headD stop := by omega
      obtain ⟨hlt, hnarrow⟩ := hbody.narrow_eq ⟨lower, stop⟩ hbalanced hbodyStop (by dsimp only; omega)
        (by dsimp only; omega) (by dsimp only; omega)
      rw [if_pos (by omega), h.token_head, Except.ok_bind, hnarrow, Except.ok_bind]
      dsimp only
      rw [hread none hbody hbalanced hbodyStop (by omega), hslice]

/-- The clauses that begin in a run. -/
theorem clausesAt_eq {lower index stop : Nat} {closer : Token} {run : List Token} (h : p.Spans index run)
    (hrun : Balanced run) (hstop : index + run.length = stop) (hlower : lower ≤ index)
    (hcloser : p.token stop = .ok closer) (hread : ReadsBelow p run.length) :
    p.clausesAt (startsOf startsClause index run) lower stop =
      (Statement.readClauses closer run).mapError .fault := by
  have hclauses := (hrun.spanTop startsClause).2
  have happend := spanTop_append startsClause run
  have hlengths := congrArg List.length happend
  rw [List.length_append] at hlengths
  rw [← happend] at h
  rw [startsOf_spanTop, Statement.readClauses_eq]
  match hfound : (spanTop startsClause run).2 with
  | [] =>
    rw [startsOf, clausesAt]
    rfl
  | keyword :: rest =>
    have hstarts : startsClause keyword = true := spanTop_stops hfound
    have hplain : keyword.isPlain = true := isPlain_of_isKeywordIn hstarts
    rw [hfound] at h hclauses hlengths
    rw [List.length_cons] at hlengths
    have hkeyword := h.right
    generalize hfirst : index + (spanTop startsClause run).1.length = first at hkeyword ⊢
    obtain ⟨hclause, hafter⟩ := (hclauses.of_plain hplain).spanTop startsClause
    have hsplit := spanTop_append startsClause rest
    have hsplitLengths := congrArg List.length hsplit
    rw [List.length_append] at hsplitLengths
    have hnext : (startsOf startsClause (first + 1) rest).headD stop =
        first + 1 + (spanTop startsClause rest).1.length := headD_startsOf startsClause (by omega)
    rw [← hsplit, ← List.cons_append] at hkeyword
    have hfollowing : p.Spans (first + 1 + (spanTop startsClause rest).1.length) (spanTop startsClause rest).2 := by
      rw [List.cons_append] at hkeyword
      exact hkeyword.tail.right
    have hfollow : p.tokens[first + 1 + (spanTop startsClause rest).1.length]? =
        some ((spanTop startsClause rest).2.headD closer) := by
      cases hnone : (spanTop startsClause rest).2 with
      | nil =>
        rw [hnone, List.length_nil] at hsplitLengths
        have hend : first + 1 + (spanTop startsClause rest).1.length = stop := by omega
        rw [hend]
        exact getElem?_of_token hcloser
      | cons u us =>
        rw [hnone] at hfollowing
        exact getElem?_of_token hfollowing.token_head
    have hmore : p.clausesAt (startsOf startsClause (first + 1) rest) lower stop =
        (Statement.readClauses closer (spanTop startsClause rest).2).mapError .fault := by
      rw [startsOf_spanTop]
      exact clausesAt_eq hfollowing hafter (by omega) (by omega) hcloser (hread.mono (by omega))
    rw [startsOf, if_pos hstarts,
      clausesAt_cons (hkeyword.left ⟨[], .plain hplain hclause⟩) hclause hnext (by omega)
      (by omega) (hread.mono (by omega)), hnext, hfollow, hmore]
    dsimp only
    cases spanTop (·.isOp ":") (spanTop startsClause rest).1 with
    | mk header tail =>
      cases tail with
      | nil => rfl
      | cons colon bodyTokens =>
        dsimp only
        rw [Except.mapError_bind]
        congr 1
        funext body
        rw [Except.mapError_bind]
        rfl
termination_by run.length
decreasing_by
  have hkeyword := congrArg List.length hfound
  rw [List.length_append] at hlengths hsplitLengths
  rw [List.length_cons] at hkeyword
  omega

/-! ## Compound statements -/

/-- An `else` at the end of a run lacks its block. -/
theorem otherBranch_end {index next stop : Nat} {e : Token} (h : p.Spans next [e]) (hstop : next + 1 = stop)
    (helse : e.isKeyword "else" = true) : p.otherBranch index next stop =
      .error (.fault ⟨.missingElseBlock, (p.tokens[stop]?.getD e).pos⟩) := by
  have hholds (condition : Token → Bool) : p.holdsAt condition (next + 1) stop = .ok false :=
    h.tail.holdsAt_eq hstop condition
  have hfollows : p.Follows (next + 1) e := h.follows (k := 0) rfl
  rw [otherBranch, h.holdsAt_eq hstop, Except.ok_bind, List.head?_cons, Option.any_some, if_pos helse, hholds,
    Except.ok_bind, if_neg Bool.false_ne_true, hholds, Except.ok_bind, if_neg Bool.false_ne_true,
    faultAt_stop hfollows, hstop]

/-- The block after an `else`. -/
theorem otherBranch_block {index next stop : Nat} {e n : Token} {more : List Token} {g : Group}
    (h : p.Spans next (e :: n :: more)) (hstop : next + (e :: n :: more).length = stop) (hindex : index < next)
    (helse : e.isKeyword "else" = true) (hif : ¬n.isKeyword "if" = true) (hbrace : n.isOp "\x7b" = true)
    (hg : GroupAt p (next + 1) n more g) (hread : ReadsBelow p more.length) : p.otherBranch index next stop =
      ((Statement.readList (some g.closer) none g.inner).map fun body =>
        (some body, next + 1 + 1 + g.inner.length + 1)).mapError .fault := by
  have hgroup := hg.length_eq
  have hend : next + 1 + (n :: more).length = stop := by
    rw [← hstop]
    simp only [List.length_cons]
    omega
  have hlength : (n :: more).length = more.length + 1 := List.length_cons
  have hholds (condition : Token → Bool) : p.holdsAt condition (next + 1) stop = .ok (condition n) :=
    h.tail.holdsAt_eq hend condition
  obtain ⟨hlt, hnarrow⟩ := hg.inner.narrow_eq ⟨index, stop⟩ hg.balanced rfl (by dsimp only; omega)
    (by dsimp only; omega) (by dsimp only; omega)
  rw [otherBranch, h.holdsAt_eq hstop, Except.ok_bind, List.head?_cons, Option.any_some, if_pos helse, hholds,
    Except.ok_bind, if_neg hif, hholds, Except.ok_bind, if_pos hbrace, hg.closer, Except.ok_bind, hnarrow,
    Except.ok_bind]
  dsimp only
  rw [hread none hg.inner hg.balanced rfl (by omega), getElem?_of_token hg.token]
  cases Statement.readList (some g.closer) none g.inner <;> rfl

mutual

/-- A compound statement, and the index where what follows it begins. -/
theorem compound_eq {index stop : Nat} {t : Token} {rest : List Token} (h : p.Spans index (t :: rest))
    (hrest : Balanced rest) (hstop : index + (t :: rest).length = stop) (hread : ReadsBelow p rest.length) :
    p.compound index stop = ((Statement.compound p.tokens[stop]? t rest).map fun r =>
      (r.1, stop - r.2.length)).mapError .fault := by
  have hlength : index + 1 + rest.length = stop := by
    rw [List.length_cons] at hstop
    omega
  have hfollows : p.Follows (index + 1) t := h.follows (k := 0) rfl
  rw [compound, h.token_head, Except.ok_bind, h.tail.blockBrace_eq h.token_head hlength hfollows,
    Statement.compound_eq]
  cases hb : Block.afterHeader? t rest with
  | none => rfl
  | some b =>
    have hsize : b.before.length + b.inner.length + b.rest.length + 2 = rest.length := Block.size_afterHeader? hb
    have hbrace := h.tail.header_braceAt hrest hb
    obtain ⟨hheader, hinner, hafter, -⟩ := Block.balanced_afterHeader? hrest hb
    have hnext : index + 1 + b.before.length + 1 + b.inner.length + 1 = stop - b.rest.length := by omega
    have hbefore : p.Spans (index + 1) b.before := by
      have htail := h.tail
      rw [← Block.run_afterHeader? hb] at htail
      exact htail.left ⟨[], hheader⟩
    obtain ⟨hheaderLt, hnarrowHeader⟩ := hbefore.narrow_eq ⟨index, stop⟩ hheader rfl
      (Nat.le_succ _) (by dsimp only; omega) (by dsimp only; omega)
    obtain ⟨hinnerLt, hnarrowInner⟩ := hbrace.inner.narrow_eq ⟨index, stop⟩ hinner rfl
      (by dsimp only; omega) (by dsimp only; omega) (by dsimp only; omega)
    dsimp only [braceOf]
    rw [Except.ok_bind, hbrace.closer, Except.ok_bind, hnarrowHeader, Except.ok_bind]
    rw [cutLiterals_eq hbefore rfl (hread.mono (by omega)), placeOf_eq h.token_head hbrace.token]
    cases Statement.cutLiterals b.before with
    | error f => rfl
    | ok cut =>
      obtain ⟨literals, header⟩ := cut
      rw [Except.mapError_ok, Except.ok_bind]
      dsimp only
      rw [Except.ok_bind, hnarrowInner, Except.ok_bind, Except.ok_bind]
      dsimp only
      by_cases hclauses : t.isKeywordIn ["switch", "select"] = true
      · rw [if_pos hclauses, if_pos hclauses, hbrace.inner.starts_eq rfl, Except.ok_bind,
          clausesAt_eq hbrace.inner hinner rfl (Nat.le_refl _) hbrace.token (hread.mono (by omega))]
        cases Statement.readClauses b.closer b.inner with
        | error f => rfl
        | ok clauses =>
          rw [hnext]
          rfl
      rw [if_neg hclauses, if_neg hclauses, hread none hbrace.inner hinner rfl (by omega),
        getElem?_of_token hbrace.token]
      cases Statement.readList (some b.closer) none b.inner with
      | error f => rfl
      | ok body =>
        rw [Except.mapError_ok, Except.ok_bind, Except.ok_bind]
        by_cases hloop : t.isKeyword "for" = true
        · rw [if_pos hloop, if_pos hloop, hnext]
          rfl
        rw [if_neg hloop, if_neg hloop]
        exact otherBranch_eq hbrace.rest hafter (by omega) (by omega) h.token_head hbrace.follows rfl
          header literals
          body (hread.mono (by omega))
termination_by rest.length
decreasing_by
  have := Block.size_afterHeader? hb
  simp only [Block.size] at this
  omega

/-- The other branch of the branch that is read before a run. -/
theorem otherBranch_eq {index next stop : Nat} {t closer : Token} {line : Nat} {run : List Token}
    (h : p.Spans next run) (hrun : Balanced run) (hstop : next + run.length = stop) (hindex : index < next)
    (hfirst : p.token index = .ok t) (hprevious : p.Follows next closer) (hline : closer.line = line)
    (header : List Token) (literals : List FuncLiteral) (body : List Statement)
    (hread : ReadsBelow p run.length) :
    (p.otherBranch index next stop >>= fun other => p.placeOf index (other.2 - 1) >>= fun place =>
      pure (Statement.branch place header literals body other.1, other.2)) =
    ((Statement.afterBranch p.tokens[stop]? t.pos line header literals body run).map fun r =>
      (r.1, stop - r.2.length)).mapError .fault := by
  by_cases helse : run.head?.any (·.isKeyword "else") = true
  · match run with
    | [e] =>
      have helseToken : e.isKeyword "else" = true := helse
      rw [otherBranch_end h hstop helseToken, Statement.afterBranch.eq_def]
      dsimp only
      rw [if_pos helseToken]
      rfl
    | e :: n :: more =>
      have helseToken : e.isKeyword "else" = true := helse
      have hafter := hrun.of_plain (isPlain_of_isKeyword helseToken)
      have hend : next + 1 + (n :: more).length = stop := by
        rw [← hstop]
        simp only [List.length_cons]
        omega
      have hlength : (n :: more).length = more.length + 1 := List.length_cons
      rw [Statement.afterBranch.eq_def]
      dsimp only
      rw [if_pos helseToken]
      have hholds (condition : Token → Bool) : p.holdsAt condition (next + 1) stop = .ok (condition n) :=
        h.tail.holdsAt_eq hend condition
      by_cases hif : n.isKeyword "if" = true
      · have hmore := hafter.of_plain (isPlain_of_isKeyword hif)
        obtain ⟨hlt, hnarrow⟩ := h.tail.narrow_eq ⟨index, stop⟩ hafter hend (by dsimp only; omega)
          (Nat.le_refl _) (by dsimp only; omega)
        rw [otherBranch, h.holdsAt_eq hstop, Except.ok_bind, if_pos helse, hholds, Except.ok_bind, if_pos hif,
          if_pos hif, hnarrow, Except.ok_bind,
          compound_eq h.tail hmore hend (hread.mono (by simp only [List.length_cons]; omega))]
        cases hcompound : Statement.compound p.tokens[stop]? n more with
        | error f => rfl
        | ok read =>
          obtain ⟨s, after⟩ := read
          obtain ⟨last, hlast, hline⟩ := (h.tail.endsAt_compound hmore hend hcompound).last
          simp only [Except.map, Except.mapError_ok, Except.ok_bind, pure_bind]
          rw [placeOf_eq hfirst hlast, ← hline]
          rfl
      rw [if_neg hif]
      by_cases hbrace : n.isOp "\x7b" = true
      · obtain ⟨g, hg⟩ := h.tail.exists_groupAt (isOpener_of_isOp hbrace (by decide))
        have hgroup := hg.length_eq
        have hnext : next + 1 + 1 + g.inner.length + 1 = stop - g.rest.length := by omega
        rw [otherBranch_block h hstop hindex helseToken hif hbrace hg
          (hread.mono (by simp only [List.length_cons]; omega)), if_pos hbrace, hg.closeGroup]
        dsimp only
        cases Statement.readList (some g.closer) none g.inner with
        | error f => rfl
        | ok other =>
          simp only [Except.map, Except.mapError_ok, Except.ok_bind]
          rw [Nat.add_sub_cancel, placeOf_eq hfirst hg.token, hnext]
          rfl
      · rw [otherBranch, h.holdsAt_eq hstop, Except.ok_bind, if_pos helse, hholds, Except.ok_bind,
          if_neg hif, hholds, Except.ok_bind, if_neg hbrace, if_neg hbrace, faultAt_eq h.tail.token_head]
        rfl
  · rw [otherBranch, h.holdsAt_eq hstop, Except.ok_bind, if_neg helse, pure_bind,
      placeOf_eq hfirst hprevious.token_eq, hline, Except.ok_bind, Statement.afterBranch_eq_ok helse]
    have hnext : stop - run.length = next := by omega
    simp only [Except.map, hnext]
    rfl
termination_by run.length
decreasing_by simp only [List.length_cons]; omega

end

/-! ## Statement lists -/

/-- The statements of a run, when shorter runs are read as they are read from lists. -/
theorem statements_step {index stop : Nat} {run : List Token} (label : Option String) (h : p.Spans index run)
    (hrun : Balanced run) (hstop : index + run.length = stop) (hread : ReadsBelow p run.length) :
    p.statements label index stop = (Statement.readList p.tokens[stop]? label run).mapError .fault := by
  match run with
  | [] =>
    rw [statements, if_neg (by simp at hstop; omega), Statement.readList]
    rfl
  | t :: rest =>
    have hlength : index + 1 + rest.length = stop := by
      rw [List.length_cons] at hstop
      omega
    rw [statements, if_pos (lt_stop hstop), h.token_head, Except.ok_bind, Statement.readList_cons]
    by_cases hsemi : t.isSemi = true
    · rw [if_pos hsemi, if_pos hsemi, advance_eq (Nat.lt_succ_self _), Except.ok_bind]
      exact hread label h.tail (hrun.of_plain (isPlain_of_isSemi hsemi)) hlength (Nat.lt_succ_self _)
    rw [if_neg hsemi, if_neg hsemi, h.holdsTwice_eq hstop, Except.ok_bind]
    by_cases hlabel : (t.isIdent && rest.head?.any (·.isOp ":")) = true
    · obtain ⟨hident, hcolon⟩ := Bool.and_eq_true_iff.mp hlabel
      have hrest := hrun.of_plain (isPlain_of_isIdent hident)
      rw [if_pos hlabel, if_pos hlabel, advance_eq (by omega), Except.ok_bind]
      match rest with
      | [] => cases hcolon
      | colon :: after =>
        have hafter := hrest.of_plain (isPlain_of_isOp hcolon (by decide))
        rw [List.length_cons] at hlength
        rw [List.drop_succ_cons, List.drop_zero]
        exact hread (some t.text) h.tail.tail hafter (by omega) (by simp only [List.length_cons]; omega)
    rw [if_neg hlabel, if_neg hlabel]
    by_cases hkeyword : t.isKeywordIn ["if", "for", "switch", "select"] = true
    · have hrest := hrun.of_plain (isPlain_of_isKeywordIn hkeyword)
      obtain ⟨hle, hwithin⟩ := h.within_eq ⟨index, stop⟩ hrun hstop (Nat.le_refl _) (Nat.le_refl _)
      rw [if_pos hkeyword, if_pos hkeyword, hwithin, Except.ok_bind,
        compound_eq h hrest hstop (hread.mono (Nat.le_succ _))]
      cases hcompound : Statement.compound p.tokens[stop]? t rest with
      | error f => rfl
      | ok read =>
        obtain ⟨s, after⟩ := read
        have hend := h.endsAt_compound hrest hstop hcompound
        have hshorter : after.length < rest.length + 1 := by
          have hlt := hend.lt
          have heq := hend.stop_eq
          omega
        simp only [Except.map, Except.mapError_ok, Except.ok_bind]
        rw [advance_eq hend.lt, Except.ok_bind]
        dsimp only
        rw [hread none hend.spans hend.balanced hend.stop_eq (by rw [List.length_cons]; omega),
          Except.mapError_bind]
        rfl
    rw [if_neg hkeyword, if_neg hkeyword]
    by_cases hbrace : t.isOp "\x7b" = true
    · obtain ⟨g, hg⟩ := h.exists_groupAt (isOpener_of_isOp hbrace (by decide))
      have hgroup := hg.length_eq
      have hbalanced := (hrun.of_closeGroup (isOpener_of_isOp hbrace (by decide)) hg.closeGroup).2.2
      obtain ⟨hlt, hnarrow⟩ := hg.inner.narrow_eq ⟨index, stop⟩ hg.balanced rfl (by dsimp only; omega)
        (by dsimp only; omega) (by dsimp only; omega)
      rw [if_pos hbrace, if_pos hbrace, hg.closeGroup, hg.closer, Except.ok_bind, placeOf_eq h.token_head hg.token,
        Except.ok_bind, hnarrow, Except.ok_bind]
      dsimp only
      rw [hread none hg.inner hg.balanced rfl (by rw [List.length_cons]; omega), getElem?_of_token hg.token,
        Except.mapError_bind]
      congr 1
      funext body
      rw [advance_eq (by omega), Except.ok_bind, Except.mapError_bind]
      dsimp only
      rw [hread none hg.rest hbalanced (by omega) (by rw [List.length_cons]; omega)]
      rfl
    · -- A plain statement may be all of the run.
      have hplain := h.plainAt hrun hstop hsemi
      have hpos := hplain.length_pos
      have hends := hplain.stop_eq
      obtain ⟨hle, hwithin⟩ := hplain.run.within_eq ⟨index, stop⟩ hplain.balanced rfl (Nat.le_refl _)
        (by dsimp only; omega)
      rw [if_neg hbrace, if_neg hbrace, hplain.ends, Except.ok_bind, hwithin, Except.ok_bind]
      dsimp only
      rw [simple_eq hplain.run rfl h.token_head hpos (hread.mono (by omega)), bind_assoc, Except.mapError_bind]
      congr 1
      funext cut
      rw [pure_bind, advance_eq (by omega), Except.ok_bind, Except.mapError_bind]
      dsimp only
      rw [hread none hplain.after hplain.balancedAfter hends (by omega)]
      rfl

end Spans

/-- Statements are read by indices as they are read from lists, whatever their length. -/
theorem readsBelow (p : Pairing) (bound : Nat) : ReadsBelow p bound := by
  induction bound with
  | zero => exact fun _ _ _ _ hlt => absurd hlt (Nat.not_lt_zero _)
  | succ bound ih =>
    intro index stop run label h hrun hstop hlt
    exact h.statements_step label hrun hstop (ih.mono (Nat.le_of_lt_succ hlt))

/-- Reading a whole list by indices is reading it as a list. -/
theorem statements_eq_ofTokens (p : Pairing) :
    p.statements none 0 p.tokens.length = (Statement.ofTokens p.tokens).mapError .fault := by
  have hread :=
    p.readsBelow (p.tokens.length + 1) none p.spans_tokens p.balanced (Nat.zero_add _) (Nat.lt_succ_self _)
  rw [hread, List.getElem?_eq_none (Nat.le_refl _), Statement.ofTokens, p.matched]
  rfl

/-- Every list with matched brackets is read to its end: the statements of the list are given, or a fault of the
source that is placed at one of its tokens. Reading never stops at an index outside the list, at an opener without
its pair, at a loop that does not go on, or at a range that is not closed and smaller. -/
theorem statements_total (p : Pairing) :
    (∃ ss, p.statements none 0 p.tokens.length = .ok ss ∧ Statement.ofTokens p.tokens = .ok ss) ∨
      ∃ f, p.statements none 0 p.tokens.length = .error (.fault f) ∧ Statement.ofTokens p.tokens = .error f ∧
        f.PlacedIn p.tokens := by
  have hfollow : ∀ t ∈ (none : Option Token), t ∈ p.tokens := fun t ht => by cases ht
  have hruns := Statement.runs_readList none hfollow none p.tokens (p.spans_tokens.isRun p.balanced)
  have hlist : Statement.ofTokens p.tokens = Statement.readList none none p.tokens := by
    rw [Statement.ofTokens, p.matched]
    rfl
  rw [statements_eq_ofTokens, hlist]
  cases hread : Statement.readList none none p.tokens with
  | ok ss => exact .inl ⟨ss, rfl, rfl⟩
  | error f =>
    rw [hread] at hruns
    exact .inr ⟨f, rfl, rfl, hruns.of_error⟩

/-- The tokens of `if x { return }` are read as one statement, and those of `if x` have a fault at the keyword. -/
theorem statements_total_branch :
    let whole : Pairing :=
      ⟨[⟨.keyword, "if", ⟨1, 1⟩⟩, ⟨.ident, "x", ⟨1, 4⟩⟩, ⟨.op, "\x7b", ⟨1, 6⟩⟩,
          ⟨.keyword, "return", ⟨1, 8⟩⟩, ⟨.op, "\x7d", ⟨1, 15⟩⟩, ⟨.semi, "\n", ⟨1, 16⟩⟩],
        [(2, 4)], rfl⟩
    let cut : Pairing := ⟨[⟨.keyword, "if", ⟨1, 1⟩⟩, ⟨.ident, "x", ⟨1, 4⟩⟩], [], rfl⟩
    (∃ ss, whole.statements none 0 6 = .ok ss ∧ ss.length = 1) ∧
      ∃ f, cut.statements none 0 2 = .error (.fault f) ∧ f.pos = ⟨1, 1⟩ := by
  intro whole cut
  have hwhole : (Statement.ofTokens whole.tokens).toOption.map (·.length) = some 1 := by decide +kernel
  have hcut : (match Statement.ofTokens cut.tokens with
    | .ok _ => none
    | .error f => some f.pos) = some ⟨1, 1⟩ := by decide +kernel
  constructor
  · obtain ⟨ss, hread, hlist⟩ | ⟨f, -, hlist, -⟩ := whole.statements_total
    · rw [hlist] at hwhole
      exact ⟨ss, hread, Option.some.inj hwhole⟩
    · rw [hlist] at hwhole
      cases hwhole
  · obtain ⟨ss, -, hlist⟩ | ⟨f, hread, hlist, -⟩ := cut.statements_total
    · rw [hlist] at hcut
      cases hcut
    · rw [hlist] at hcut
      exact ⟨f, hread, Option.some.inj hcut⟩

end GoIdiom.Pairing
