import GoIdiom.Proofs.Indexed.Braces
import GoIdiom.Proofs.Runs.Statements

/-!
# Checks over well bracketed runs

Over a well bracketed run the checks of the readers that work on indices do not fail: a smaller run inside a range
is closed and smaller, a fault is placed at a token, and what follows a compound statement is a run at a later
index.
-/

namespace GoIdiom

namespace Statement

/-- A compound statement and what follows it split the run that they are read from, and the statement ends in the
line of its last token. -/
theorem exists_split_compound {follow : Option Token} {t : Token} {rest : List Token} {s : Statement}
    {after : List Token} (h : compound follow t rest = .ok (s, after)) :
    ∃ front last, t :: rest = front ++ last :: after ∧ s.endLine = last.line := by
  rw [compound_eq] at h
  cases hb : Block.afterHeader? t rest with
  | none =>
    rw [hb] at h
    cases h
  | some b =>
    have hrun := Block.run_afterHeader? hb
    have hsplit : t :: rest = (t :: (b.before ++ b.opener :: b.inner)) ++ b.closer :: b.rest := by
      rw [← hrun, Block.run]
      simp
    rw [hb] at h
    obtain ⟨⟨literals, header⟩, -, h⟩ := Except.bind_eq_ok.mp h
    dsimp only at h
    split at h
    · obtain ⟨clauses, -, h⟩ := Except.bind_eq_ok.mp h
      cases Except.ok.inj h
      refine ⟨_, _, hsplit, ?_⟩
      split <;> rfl
    · obtain ⟨body, -, h⟩ := Except.bind_eq_ok.mp h
      split at h
      · cases Except.ok.inj h
        exact ⟨_, _, hsplit, rfl⟩
      · rw [afterBranch.eq_def] at h
        split at h
        · next hrest =>
          cases Except.ok.inj h
          exact ⟨_, _, hrest ▸ hsplit, rfl⟩
        · next e afterElse hrest =>
          split at h
          · split at h
            · cases h
            · next n more =>
              rw [hrest] at hsplit
              split at h
              · obtain ⟨⟨inner, left⟩, hinner, h⟩ := Except.bind_eq_ok.mp h
                cases Except.ok.inj h
                have hsize : b.size = rest.length := Block.size_afterHeader? hb
                obtain ⟨front, last, hother, hline⟩ := exists_split_compound hinner
                refine ⟨(t :: (b.before ++ b.opener :: b.inner)) ++ b.closer :: e :: front, last, ?_, hline⟩
                rw [hsplit, hother]
                simp
              · split at h
                · next g hg =>
                  obtain ⟨otherwise, -, h⟩ := Except.bind_eq_ok.mp h
                  cases Except.ok.inj h
                  obtain ⟨-, hg⟩ := Option.ite_none_right_eq_some.mp hg
                  refine ⟨(t :: (b.before ++ b.opener :: b.inner)) ++ b.closer :: e :: n :: g.inner,
                    g.closer, ?_, rfl⟩
                  rw [hsplit, ← Token.splitGroup_eq_append hg]
                  simp
                · cases h
          · cases Except.ok.inj h
            exact ⟨_, _, hrest ▸ hsplit, rfl⟩
termination_by rest.length
decreasing_by
  have hlength := congrArg List.length hrest
  simp only [List.length_cons] at hlength
  simp only [Block.size] at hsize
  omega

/-- The tokens up to the end of a plain statement are those up to its semicolon. -/
theorem spanTop_eq_takeRun {t : Token} (ht : ¬t.isSemi = true) (rest : List Token) :
    Token.spanTop (·.isSemi) (t :: rest) = takeRun t rest := by
  rw [Token.spanTop, if_neg ht]
  rfl

/-- A plain statement has its first token. -/
theorem takeRun_eq_cons (t : Token) (rest : List Token) : ∃ more, (takeRun t rest).1 = t :: more := by
  obtain ⟨more, hpiece⟩ := Token.takePiece_eq_cons t rest
  rw [takeRun, hpiece]
  exact ⟨_, rfl⟩

/-- A branch without another one ends with its block. -/
theorem afterBranch_eq_ok {follow : Option Token} {pos : Position} {line : Nat} {header : List Token}
    {literals : List FuncLiteral} {body : List Statement} {ts : List Token}
    (h : ¬ts.head?.any (·.isKeyword "else") = true) : afterBranch follow pos line header literals body ts =
      .ok (.branch ⟨none, pos, line⟩ header literals body none, ts) := by
  rw [afterBranch.eq_def]
  cases ts with
  | nil => rfl
  | cons e afterElse =>
    dsimp only
    exact if_neg h

end Statement

open Token
open Stop (advance advance_eq)

namespace Pairing

variable {p : Pairing} {index stop : Nat} {t first last : Token} {run rest : List Token}

/-! ## Checks that do not fail -/

/-- A token that is looked up stands at its index. -/
theorem getElem?_of_token (h : p.token index = .ok t) : p.tokens[index]? = some t := by
  rw [token] at h
  split at h
  · next hfound =>
    rw [hfound]
    exact congrArg some (Except.ok.inj h)
  · cases h

/-- The token before an index is looked up. -/
theorem Follows.token_eq (h : p.Follows index t) : p.token (index - 1) = .ok t := by
  rw [token, h.2]

/-- The place of a statement is that of its first and its last token. -/
theorem placeOf_eq {final : Nat} (hfirst : p.token index = .ok first) (hlast : p.token final = .ok last) :
    p.placeOf index final = .ok ⟨none, first.pos, last.line⟩ := by
  rw [placeOf, hfirst, hlast]
  rfl

/-- A fault behind a token is placed at the token that follows it, or at itself at the end of the list. -/
theorem faultAt_stop {α : Type} (h : p.Follows stop t) (cause : SourceCause) :
    p.faultAt cause stop = (.error (.fault ⟨cause, (p.tokens[stop]?.getD t).pos⟩) : Except Stop α) := by
  obtain ⟨hpositive, hlast⟩ := h
  have hlength : stop - 1 < p.tokens.length := (List.getElem?_eq_some_iff.mp hlast).1
  by_cases hstop : stop < p.tokens.length
  · have hfound := List.getElem?_eq_getElem hstop
    have htoken : p.token stop = .ok p.tokens[stop] := by rw [token, hfound]
    rw [faultAt_eq htoken, hfound]
    rfl
  · have hindex : min stop (p.tokens.length - 1) = stop - 1 := by omega
    have hend : p.tokens[stop]? = none := List.getElem?_eq_none (Nat.not_lt.mp hstop)
    rw [faultAt, hindex, token, hlast, hend]
    rfl

namespace Spans

/-- The tokens of a run are tokens of the list, in their order. -/
theorem isRun (h : p.Spans index run) (hrun : Balanced run) : Run p.tokens run := by
  obtain ⟨front, beyond, htokens, -⟩ := h.stands
  refine ⟨?_, hrun⟩
  rw [htokens]
  exact (List.sublist_append_left run beyond).trans (List.sublist_append_right front _)

/-- A well bracketed run inside a range passes the check for that. -/
theorem within_eq (h : p.Spans index run) (outer : Range) (hrun : Balanced run) (hstop : index + run.length = stop)
    (hfirst : outer.first ≤ index) (hlast : stop ≤ outer.stop) :
    ∃ hle, p.within outer ⟨index, stop⟩ = .ok ⟨hle⟩ := by
  have hclosed : p.isClosed ⟨index, stop⟩ = true := by
    obtain ⟨pairs, hpairs⟩ := exists_matchBrackets_iff.mpr hrun
    rw [← List.append_nil run] at h
    rw [isClosed, h.slice_eq hstop, hpairs]
    rfl
  have hinside : outer.first ≤ index ∧ index ≤ stop ∧ stop ≤ outer.stop ∧
      p.isClosed ⟨index, stop⟩ = true :=
    ⟨hfirst, by omega, hlast, hclosed⟩
  exact ⟨_, dif_pos hinside⟩

/-- A well bracketed run that is a smaller part of a range passes the check for that. -/
theorem narrow_eq (h : p.Spans index run) (outer : Range) (hrun : Balanced run) (hstop : index + run.length = stop)
    (hfirst : outer.first ≤ index) (hlast : stop ≤ outer.stop)
    (hsmaller : run.length < outer.stop - outer.first) :
    ∃ hlt, p.narrow outer ⟨index, stop⟩ = .ok ⟨hlt⟩ := by
  obtain ⟨hle, hwithin⟩ := h.within_eq outer hrun hstop hfirst hlast
  have hsize : Range.size ⟨index, stop⟩ < outer.size := by
    simp only [Range.size]
    omega
  rw [narrow, hwithin]
  exact ⟨_, dif_pos hsize⟩

/-! ## Where statements end -/

/-- Where a plain statement ends: its tokens are a run up to its semicolon, and what follows is a run too. -/
structure PlainAt (p : Pairing) (index stop : Nat) (t : Token) (rest : List Token) : Prop where
  run : p.Spans index (Statement.takeRun t rest).1
  balanced : Balanced (Statement.takeRun t rest).1
  length_pos : 0 < (Statement.takeRun t rest).1.length
  ends : p.statementEnd index stop = .ok (index + (Statement.takeRun t rest).1.length)
  stop_eq : index + (Statement.takeRun t rest).1.length + (Statement.takeRun t rest).2.length = stop
  after : p.Spans (index + (Statement.takeRun t rest).1.length) (Statement.takeRun t rest).2
  balancedAfter : Balanced (Statement.takeRun t rest).2

/-- A plain statement ends at its semicolon, or where the run does. -/
theorem plainAt (h : p.Spans index (t :: rest)) (hrun : Balanced (t :: rest))
    (hstop : index + (t :: rest).length = stop) (ht : ¬t.isSemi = true) : PlainAt p index stop t rest := by
  obtain ⟨hown, hafter⟩ := hrun.spanTop (·.isSemi)
  obtain ⟨more, hmore⟩ := Statement.takeRun_eq_cons t rest
  have hends := h.statementEnd_eq hstop
  have happend := Statement.takeRun_append t rest
  have hlength := congrArg List.length happend
  rw [Statement.spanTop_eq_takeRun ht] at hown hafter hends
  rw [List.length_append] at hlength
  rw [← happend] at h
  refine ⟨h.left ⟨[], hown⟩, hown, ?_, hends, by omega, h.right, hafter⟩
  rw [hmore]
  exact Nat.succ_pos _

/-- Where a compound statement ends: what follows it is a run at a later index, and its last token is before that.
-/
structure EndsAt (p : Pairing) (index stop : Nat) (s : Statement) (after : List Token) : Prop where
  lt : index < stop - after.length
  stop_eq : stop - after.length + after.length = stop
  spans : p.Spans (stop - after.length) after
  balanced : Balanced after
  last : ∃ last, p.token (stop - after.length - 1) = .ok last ∧ s.endLine = last.line

/-- A compound statement ends where what follows it begins. -/
theorem endsAt_compound {s : Statement} {after : List Token} (h : p.Spans index (t :: rest)) (hrest : Balanced rest)
    (hstop : index + (t :: rest).length = stop)
    (hread : Statement.compound p.tokens[stop]? t rest = .ok (s, after)) : EndsAt p index stop s after := by
  obtain ⟨front, last, hsplit, hline⟩ := Statement.exists_split_compound hread
  have hlength := congrArg List.length hsplit
  simp only [List.length_append, List.length_cons] at hlength hstop
  have hnext : index + front.length + 1 = stop - after.length := by omega
  have hfollow : ∀ u ∈ p.tokens[stop]?, u ∈ p.tokens := fun u hu => List.mem_of_getElem? hu
  have hkeyword : t ∈ p.tokens := List.mem_of_getElem? (getElem?_of_token h.token_head)
  have hruns := Statement.runs_compound p.tokens[stop]? hfollow t hkeyword rest (h.tail.isRun hrest)
  rw [hread] at hruns
  rw [hsplit] at h
  have hlast := h.right
  refine ⟨by omega, by omega, hnext ▸ hlast.tail, hruns.of_ok.1.rest.balanced, last, ?_, hline⟩
  rw [← hnext, Nat.add_sub_cancel]
  exact hlast.token_head

end Spans

end Pairing

end GoIdiom
