import GoIdiom.Proofs.Blocks
import GoIdiom.Proofs.Reading
import GoIdiom.Proofs.Relocation.Statements

/-!
# Reading moved tokens

The statements that are read from moved tokens are those of the original tokens, moved; a run that
cannot be read cannot be read anywhere. In what is read, the tokens of every plain statement after its
first one are laid as if no statement ended before them.
-/

namespace GoIdiom

/-- The contents of a laid block and what follows it are laid. -/
theorem Block.laid_run {may : Bool} {b : Block} (h : Token.laid may b.run = true) :
    Token.laid true b.inner = true ∧ Token.laid true b.rest = true := by
  have hinside := (Token.laid_cons.mp (Token.laid_append.mp h).2).2
  exact ⟨Token.laid_mono (Token.laid_left hinside),
    Token.laid_mono (Token.laid_cons.mp (Token.laid_append.mp hinside).2).2⟩

namespace LiteralCut

variable {c : LiteralCut} {may : Bool} {own : List Token}

/-- The shell of a literal, and a run after it, by the first token. -/
theorem shell_append (c : LiteralCut) (own : List Token) : c.shell ++ own =
    c.keyword :: c.open' :: (c.params ++ c.close' :: (c.body.before ++ c.body.opener :: c.body.closer :: own)) := by
  simp [shell, signature]

/-- Cutting the contents of a body out of a laid run leaves a laid run. -/
theorem laid_shell (hcloser : c.body.closer.isCloser = true)
    (h : Token.laid may (c.params ++ c.close' :: c.body.run) = true)
    (hown : ∀ may, Token.laid may c.body.rest = true → Token.laid may own = true) :
    Token.laid may (c.params ++ c.close' :: (c.body.before ++ c.body.opener :: c.body.closer :: own)) = true := by
  rw [Block.run] at h
  rw [Token.laid_append, Token.laid_cons, Token.laid_append, Token.laid_cons] at h ⊢
  obtain ⟨hparams, hclose, hbefore, hopener, hinside⟩ := h
  rw [Token.laid_append, Token.laid_cons] at hinside
  exact ⟨hparams, hclose, hbefore, hopener,
    Token.laid_cons.mpr ⟨.inr (Token.isInserted_of_isCloser hcloser), hown _ hinside.2.2⟩⟩

end LiteralCut

namespace Statement

mutual

/-- Whether the runs of a statement are laid. -/
def laid : Statement → Bool
  | .plain _ _ tokens literals => Token.laid false (tokens.drop 1) && literalsLaid literals
  | .block _ body => listLaid body
  | .branch _ _ literals body otherwise => literalsLaid literals && listLaid body && otherLaid otherwise
  | .loop _ _ literals body => literalsLaid literals && listLaid body
  | .switch _ _ literals clauses => literalsLaid literals && clausesLaid clauses
  | .select _ _ literals clauses => literalsLaid literals && clausesLaid clauses

/-- Whether the runs of a statement list are laid. -/
def listLaid : List Statement → Bool
  | [] => true
  | s :: rest => laid s && listLaid rest

/-- Whether the runs of the other branch are laid. -/
def otherLaid : Option (List Statement) → Bool
  | none => true
  | some body => listLaid body

/-- Whether the runs of clauses are laid. -/
def clausesLaid : List Clause → Bool
  | [] => true
  | .mk _ _ _ body :: rest => listLaid body && clausesLaid rest

/-- Whether the runs of function literals are laid. -/
def literalsLaid : List FuncLiteral → Bool
  | [] => true
  | .mk _ _ _ _ body :: rest => listLaid body && literalsLaid rest

end

/-- A label lays no token. -/
@[simp] theorem laid_withLabel (label : Option String) (s : Statement) : (s.withLabel label).laid = s.laid := by
  cases s <;> simp only [withLabel, withPlace, laid]

/-- The run of a statement is laid after its first token. -/
theorem laid_takeRun {may : Bool} {t : Token} {rest : List Token} (h : Token.laid may (t :: rest) = true) :
    Token.laid false ((takeRun t rest).1.drop 1) = true := by
  have hrest := (Token.laid_cons.mp h).2
  have hafter {pieces : List Token × List Token} (hp : pieces = ([t], rest)) :
      Token.laid false ((pieces.1 ++ (Token.spanTop (·.isSemi) pieces.2).1).drop 1) = true := by
    rw [hp]
    exact Token.laid_spanTop hrest
  rw [takeRun, Token.takePiece]
  split
  · next hopener =>
    cases hg : Token.closeGroup rest with
    | none => exact hafter rfl
    | some g =>
      rw [Token.endsStatement_of_isOpener hopener, ← Token.splitGroup_eq_append hg,
        ← Token.spanTop_append (·.isSemi) g.rest, ← List.cons_append, ← List.append_assoc] at hrest
      simpa using Token.laid_left hrest
  · exact hafter rfl

end Statement

/-- Two readings of which the second gives what the first gives, moved; what the first gives is as
expected. -/
structure Moved {ε α β : Type} (expected : α → Prop) (f : α → β) (x : Except ε α) (y : Except ε β) :
    Prop where
  isExpected : ∀ a, x = .ok a → expected a
  toOption_eq : y.toOption = x.toOption.map f

namespace Moved

variable {ε α β γ δ : Type} {expected : α → Prop} {expected' : γ → Prop} {f : α → β} {g : γ → δ}

/-- A value and the value moved. -/
theorem ok {a : α} (h : expected a) : Moved expected f (.ok a : Except ε α) (.ok (f a)) :=
  ⟨fun _ hb => Except.ok.inj hb ▸ h, rfl⟩

/-- Two faults. -/
theorem error (e e' : ε) : Moved expected f (.error e) (.error e') := ⟨nofun, rfl⟩

/-- Two readings and what is read after them. -/
theorem bind {x : Except ε α} {y : Except ε β} {k : α → Except ε γ} {k' : β → Except ε δ}
    (h : Moved expected f x y) (hk : ∀ a, expected a → Moved expected' g (k a) (k' (f a))) :
    Moved expected' g (x >>= k) (y >>= k') := by
  obtain ⟨hexpected, heq⟩ := h
  cases x with
  | error e =>
    cases y with
    | error e' => exact .error e e'
    | ok b => cases heq
  | ok a =>
    cases y with
    | error e' => cases heq
    | ok b =>
      rw [show b = f a from Option.some.inj heq]
      exact hk a (hexpected a rfl)

/-- What is expected may be forgotten in part. -/
theorem mono {x : Except ε α} {y : Except ε β} {weaker : α → Prop} (h : Moved expected f x y)
    (hweaker : ∀ a, expected a → weaker a) : Moved weaker f x y :=
  ⟨fun a ha => hweaker a (h.isExpected a ha), h.toOption_eq⟩

end Moved

namespace Relocation

open Statement

variable (m : Relocation)

/-- What cutting the function literals out of a run gives: laid literals, and a run that is laid where the
whole run was, also after its first token. -/
structure LaidCut (ts : List Token) (r : List FuncLiteral × List Token) : Prop where
  literals : literalsLaid r.1 = true
  own : ∀ may, Token.laid may ts = true → Token.laid may r.2 = true
  tail : ∀ may, Token.laid may (ts.drop 1) = true → Token.laid may (r.2.drop 1) = true

/-- What reading a compound statement gives: a laid statement, and a laid run below a length. -/
structure LaidCompound (bound : Nat) (r : Statement × List Token) : Prop where
  statement : r.1.laid = true
  rest : Token.laid true r.2 = true
  length : r.2.length < bound

/-- A moved token begins the same kind of statement without blocks. -/
@[simp] theorem plainKind_token (t : Token) : plainKind (m.token t) = plainKind t := rfl

/-- A moved token starts a clause exactly when the token does. -/
@[simp] theorem startsClause_token (t : Token) : startsClause (m.token t) = startsClause t := rfl

/-- The run up to a semicolon moves with its tokens. -/
@[simp] theorem takeRun_map (t : Token) (rest : List Token) :
    takeRun (m.token t) (rest.map m.token) = m.cut (takeRun t rest) := by
  simp only [takeRun, takePiece_map, cut, m.spanTop_map m.isSemi_token, List.map_append]

/-- The tokens before the next clause move, and so do those from it on. -/
@[simp] theorem spanClause_map (ts : List Token) :
    Token.spanTop startsClause (ts.map m.token) = m.cut (Token.spanTop startsClause ts) :=
  m.spanTop_map m.startsClause_token ts

/-- The tokens before a colon move, and so do those from it on. -/
@[simp] theorem spanColon_map (ts : List Token) :
    Token.spanTop (·.isOp ":") (ts.map m.token) = m.cut (Token.spanTop (·.isOp ":") ts) :=
  m.spanTop_map (fun t => m.isOp_token t ":") ts

/-- A keyword moves as a written token. -/
theorem pos_token_of_isKeywordIn {t : Token} {texts : List String} (h : t.isKeywordIn texts = true) :
    (m.token t).pos = m.written t.pos := by
  rw [Token.isKeywordIn, Bool.and_eq_true, beq_iff_eq] at h
  exact m.pos_token_of_kind h.1 (by decide)

/-- A group behind a brace is found at its new place. -/
theorem group_if (p : Prop) [Decidable p] (g : Option Token.Group) :
    (if p then g.map m.group else none) = (if p then g else none).map m.group := by
  split <;> rfl

/-- A keyword moves to its written place. -/
theorem pos_token_of_isKeyword {t : Token} {text : String} (h : t.isKeyword text = true) :
    (m.token t).pos = m.written t.pos := by
  rw [Token.isKeyword, Bool.and_eq_true, beq_iff_eq] at h
  exact m.pos_token_of_kind h.1 (by decide)

-- By the number of tokens. That the tokens are laid goes along: an inserted semicolon begins no statement.
mutual

/-- A statement list is read from moved tokens. -/
theorem moved_readList (follow : Option Token) (label : Option String) (ts : List Token)
    (h : Token.laid true ts = true) :
    Moved (listLaid · = true) m.statements (readList follow label ts)
      (readList (follow.map m.token) label (ts.map m.token)) := by
  match ts with
  | [] =>
    rw [List.map_nil, readList, readList]
    exact .ok rfl
  | t :: rest =>
    have hrest : Token.laid true rest = true := Token.laid_mono (Token.laid_cons.mp h).2
    have hlabel : Token.laid true (rest.drop 1) = true := by
      rw [← List.take_append_drop 1 rest] at hrest
      exact Token.laid_right hrest
    rw [List.map_cons, readList_cons, readList_cons]
    simp only [isSemi_token, isIdent_token, isKeywordIn_token, isOp_token, text_token, List.head?_map,
      Option.any_map, closeGroup_map, takeRun_map, cut]
    split
    · exact moved_readList follow label rest hrest
    · next hsemi =>
      have hpos : (m.token t).pos = m.written t.pos :=
        m.pos_token (Token.isInserted_of_isSemi (Bool.eq_false_iff.mpr hsemi))
      split
      · rw [← List.map_drop]
        exact moved_readList follow (some t.text) (rest.drop 1) hlabel
      · split
        · next hkeyword =>
          refine (moved_compound follow t rest hpos hrest).bind fun r hr => ?_
          refine (moved_readList follow none r.2 hr.rest).bind fun more hmore => ?_
          simp only [withLabel_statement]
          exact .ok (by simp only [listLaid, laid_withLabel, hr.statement, hmore, Bool.and_self])
        · rw [group_if]
          cases hopened : if t.isOp "\x7b" = true then Token.closeGroup rest else none with
          | none =>
            have happend := takeRun_append t rest
            have hrun : Token.laid true (takeRun t rest).1 = true := Token.laid_left (happend ▸ h)
            have hmore : Token.laid true (takeRun t rest).2 = true := Token.laid_right (happend ▸ h)
            refine (moved_cutLiterals (takeRun t rest).1 hrun).bind fun r hr => ?_
            refine (moved_readList follow none (takeRun t rest).2 hmore).bind fun more hmore => ?_
            simp only [hpos, lastOr, List.getLastD_map, line_token, plainKind_token]
            refine .ok ?_
            simp only [listLaid, laid, hr.literals, hr.tail _ (laid_takeRun h), hmore, Bool.and_self]
          | some g =>
            obtain ⟨hbrace, hg⟩ := Option.ite_none_right_eq_some.mp hopened
            have hinner := Token.laid_inner h (Token.endsStatement_of_isOp hbrace (by decide)) hg
            have hafter := Token.laid_rest hrest hg
            refine (moved_readList (some g.closer) none g.inner (Token.laid_mono hinner)).bind fun body hbody => ?_
            refine (moved_readList follow none g.rest hafter).bind fun more hmore => ?_
            simp only [hpos, group, line_token]
            exact .ok (by simp only [listLaid, laid, hbody, hmore, Bool.and_self])
termination_by (ts.length, 1)
decreasing_by
  all_goals simp only [Prod.lex_def, List.length_cons, List.length_drop]
  all_goals try have := hr.length
  all_goals try have := Token.closeGroup_length hg
  all_goals
    have := takeRun_length t rest
    have := takeRun_run_length t rest
    omega

/-- A compound statement is read from moved tokens. -/
theorem moved_compound (follow : Option Token) (keyword : Token) (ts : List Token)
    (hpos : (m.token keyword).pos = m.written keyword.pos) (h : Token.laid true ts = true) :
    Moved (LaidCompound ts.length) (fun r => (m.statement r.1, r.2.map m.token)) (compound follow keyword ts)
      (compound (follow.map m.token) (m.token keyword) (ts.map m.token)) := by
  rw [compound_eq, compound_eq, afterHeader?_map]
  cases hb : Block.afterHeader? keyword ts with
  | none => exact .error _ _
  | some b =>
    have hsize : b.before.length + b.inner.length + b.rest.length + 2 = ts.length :=
      Block.size_afterHeader? hb
    have hrun : Token.laid true b.run = true := Block.run_afterHeader? hb ▸ h
    have hbefore : Token.laid true b.before = true := Token.laid_left hrun
    obtain ⟨hinner, hrest⟩ := Block.laid_run hrun
    simp only [Option.map_some, isKeywordIn_token, isKeyword_token, hpos, block, line_token]
    refine (moved_cutLiterals b.before hbefore).bind fun cut hcut => ?_
    dsimp only
    split
    · refine (moved_readClauses b.closer b.inner hinner).bind fun clauses hclauses => ?_
      have hlength : b.rest.length < ts.length := by omega
      split
      · exact .ok ⟨by simp only [laid, hcut.literals, hclauses, Bool.and_self], hrest, hlength⟩
      · exact .ok ⟨by simp only [laid, hcut.literals, hclauses, Bool.and_self], hrest, hlength⟩
    · refine (moved_readList (some b.closer) none b.inner hinner).bind fun body hbody => ?_
      split
      · exact .ok ⟨by simp only [laid, hcut.literals, hbody, Bool.and_self], hrest, by simp only; omega⟩
      · refine (moved_afterBranch follow keyword.pos b.closer.line cut.2 cut.1 body b.rest hrest hcut.literals
          hbody).mono fun r hr => ?_
        exact ⟨hr.statement, hr.rest, by have := hr.length; omega⟩
termination_by (ts.length, 0)
decreasing_by
  all_goals simp only [Prod.lex_def]
  all_goals omega

/-- The other branch is read from moved tokens. -/
theorem moved_afterBranch (follow : Option Token) (pos : Position) (line : Nat) (header : List Token)
    (literals : List FuncLiteral) (body : List Statement) (ts : List Token)
    (h : Token.laid true ts = true) (hliterals : literalsLaid literals = true) (hbody : listLaid body = true) :
    Moved (LaidCompound (ts.length + 1)) (fun r => (m.statement r.1, r.2.map m.token))
      (afterBranch follow pos line header literals body ts)
      (afterBranch (follow.map m.token) (m.written pos) (line + m.shift) (header.map m.token)
        (m.literals literals) (m.statements body) (ts.map m.token)) := by
  have hbranch {rest : List Token} (hrest : Token.laid true rest = true) (hlength : rest.length ≤ ts.length) :
      Moved (LaidCompound (ts.length + 1)) (fun r => (m.statement r.1, r.2.map m.token))
        (.ok (.branch ⟨none, pos, line⟩ header literals body none, rest) : Except SourceFault _)
        (.ok (m.statement (.branch ⟨none, pos, line⟩ header literals body none), rest.map m.token)) :=
    .ok ⟨by simp only [laid, otherLaid, hliterals, hbody, Bool.and_self], hrest, Nat.lt_succ_of_le hlength⟩
  rw [afterBranch.eq_def, afterBranch.eq_def]
  match ts with
  | [] => exact hbranch h (Nat.le_refl _)
  | [e] =>
    simp only [List.map_cons, List.map_nil, isKeyword_token]
    by_cases helse : e.isKeyword "else" = true
    · simp only [helse, ↓reduceIte]
      exact .error _ _
    · simp only [helse]
      exact hbranch h (Nat.le_refl _)
  | e :: n :: more =>
    have hmore : Token.laid true more = true := by
      exact Token.laid_mono (Token.laid_cons.mp (Token.laid_cons.mp h).2).2
    simp only [List.map_cons, isKeyword_token, isOp_token, closeGroup_map, group_if]
    split
    · split
      · next hif =>
        have hpos := m.pos_token_of_isKeyword hif
        refine (moved_compound follow n more hpos hmore).bind fun r hr => ?_
        simp only [endLine_statement]
        exact .ok ⟨by simp only [laid, otherLaid, listLaid, hliterals, hbody, hr.statement, Bool.and_self],
          hr.rest, by
          have := hr.length
          simp only [List.length_cons]
          omega⟩
      · cases hopened : if n.isOp "\x7b" = true then Token.closeGroup more else none with
        | none => exact .error _ _
        | some g =>
          obtain ⟨hbrace, hg⟩ := Option.ite_none_right_eq_some.mp hopened
          have hinner :=
            Token.laid_inner (Token.laid_cons.mp h).2 (Token.endsStatement_of_isOp hbrace (by decide)) hg
          refine (moved_readList (some g.closer) none g.inner (Token.laid_mono hinner)).bind fun other hother => ?_
          simp only [group, line_token]
          refine .ok ⟨?_, Token.laid_rest hmore hg, ?_⟩
          · simp only [laid, otherLaid, hliterals, hbody, hother, Bool.and_self]
          · have := Token.closeGroup_length hg
            simp only [List.length_cons]
            omega
    · exact hbranch h (Nat.le_refl _)
termination_by (ts.length, 0)
decreasing_by
  all_goals simp only [Prod.lex_def, List.length_cons]
  all_goals try have := Token.closeGroup_length hg
  all_goals omega

/-- The clauses of a switch or select are read from moved tokens. -/
theorem moved_readClauses (follow : Token) (ts : List Token) (h : Token.laid true ts = true) :
    Moved (clausesLaid · = true) m.clauses (readClauses follow ts)
      (readClauses (m.token follow) (ts.map m.token)) := by
  rw [readClauses_eq, readClauses_eq]
  simp only [spanClause_map, cut]
  have hafter : Token.laid true (Token.spanTop startsClause ts).2 = true := by
    rw [← Token.spanTop_append startsClause ts] at h
    exact Token.laid_right h
  cases hclause : (Token.spanTop startsClause ts).2 with
  | nil => exact .ok rfl
  | cons keyword rest =>
    have hpos : (m.token keyword).pos = m.written keyword.pos :=
      m.pos_token_of_isKeywordIn (Token.spanTop_stops hclause)
    rw [hclause] at hafter
    have hrest : Token.laid true rest = true := Token.laid_mono (Token.laid_cons.mp hafter).2
    have hclauses := Token.spanTop_append startsClause rest
    have hnext : Token.laid true (Token.spanTop startsClause rest).2 = true := Token.laid_right (hclauses ▸ hrest)
    have hown : Token.laid true (Token.spanTop startsClause rest).1 = true := Token.laid_left (hclauses ▸ hrest)
    simp only [List.map_cons, spanClause_map, spanColon_map, cut, List.headD_map, hpos, text_token]
    have hcolon := Token.spanTop_append (·.isOp ":") (Token.spanTop startsClause rest).1
    match hbody : Token.spanTop (·.isOp ":") (Token.spanTop startsClause rest).1 with
    | (header, []) => exact .error _ _
    | (header, colon :: bodyTokens) =>
      rw [hbody] at hcolon
      have hbodyTokens : Token.laid true bodyTokens = true := by
        have := (Token.laid_append.mp (hcolon ▸ hown)).2
        exact Token.laid_mono (Token.laid_cons.mp this).2
      simp only [List.map_cons]
      refine (moved_readList (some ((Token.spanTop startsClause rest).2.headD follow)) none bodyTokens
        hbodyTokens).bind fun body hread => ?_
      refine (moved_readClauses follow (Token.spanTop startsClause rest).2 hnext).bind fun more hmore => ?_
      exact .ok (by simp only [clausesLaid, hread, hmore, Bool.and_self])
termination_by (ts.length, 0)
decreasing_by
  all_goals have := clause_lengths hclause rfl hbody
  all_goals simp only [Prod.lex_def]
  all_goals omega

/-- The function literals of a run are cut out of moved tokens. -/
theorem moved_cutLiterals (ts : List Token) (h : Token.laid true ts = true) :
    Moved (LaidCut ts) (fun r => (m.literals r.1, r.2.map m.token)) (cutLiterals ts)
      (cutLiterals (ts.map m.token)) := by
  match ts with
  | [] =>
    rw [List.map_nil, cutLiterals]
    exact .ok ⟨rfl, fun _ h => h, fun _ h => h⟩
  | t :: rest =>
    have hrest : Token.laid true rest = true := Token.laid_mono (Token.laid_cons.mp h).2
    rw [List.map_cons, cutLiterals_cons, cutLiterals_cons, ofKeyword?_map]
    cases hc : LiteralCut.ofKeyword? t rest with
    | none =>
      refine (moved_cutLiterals rest hrest).bind fun r hr => .ok ⟨hr.literals, fun may hmay => ?_, hr.own⟩
      obtain ⟨hfirst, hmore⟩ := Token.laid_cons.mp hmay
      exact Token.laid_cons.mpr ⟨hfirst, hr.own _ hmore⟩
    | some c =>
      obtain ⟨hkey, hfunc, hopen, hrun, hbody⟩ := LiteralCut.run_ofKeyword? hc
      have hinside : Token.laid false (c.params ++ c.close' :: c.body.run) = true := by
        have := (Token.laid_cons.mp h).2
        rw [← hrun] at this
        exact Token.endsStatement_of_isOp hopen (by decide) ▸ (Token.laid_cons.mp this).2
      have hbodyRun : Token.laid true c.body.run = true :=
        Token.laid_mono (Token.laid_cons.mp (Token.laid_append.mp hinside).2).2
      have hbefore : Token.laid false c.body.before = true :=
        Token.laid_of_head (Token.laid_left hbodyRun) (Block.isSemi_before_body? hbody)
      obtain ⟨hinner, hafter⟩ := Block.laid_run hbodyRun
      simp only [Option.map_some, m.pos_token_of_isKeyword hfunc]
      refine (moved_readList (some c.body.closer) none c.body.inner hinner).bind fun body hread => ?_
      refine (moved_cutLiterals c.body.rest hafter).bind fun r hr => ?_
      have hparams := m.params_map (Token.laid_left hinside)
      have hresults := m.results_map hbefore
      have htail (may : Bool) (hmay : Token.laid may rest = true) :
          Token.laid may ((c.shell ++ r.2).drop 1) = true := by
        rw [← hrun] at hmay
        obtain ⟨hfirst, hmore⟩ := Token.laid_cons.mp hmay
        rw [LiteralCut.shell_append, List.drop_one, List.tail_cons]
        exact Token.laid_cons.mpr ⟨hfirst, LiteralCut.laid_shell (Block.isCloser_body? hbody) hmore hr.own⟩
      have hshell := m.shell_literalCut c
      simp only [literalCut, block, line_token] at hshell ⊢
      rw [hparams, hresults, hshell, ← List.map_append]
      refine .ok ⟨by simp only [literalsLaid, hread, hr.literals, Bool.and_self], fun may hmay => ?_, htail⟩
      obtain ⟨hfirst, hmore⟩ := Token.laid_cons.mp hmay
      have hcons := LiteralCut.shell_append c r.2
      have := htail _ hmore
      rw [hcons, hkey, List.drop_one, List.tail_cons] at this
      simp only [hcons, hkey]
      exact Token.laid_cons.mpr ⟨hfirst, this⟩
termination_by (ts.length, 0)
decreasing_by
  all_goals simp only [Prod.lex_def, List.length_cons]
  all_goals try
    have := LiteralCut.rest_length hc
    have := LiteralCut.inner_length hc
    omega
  all_goals omega

end

end Relocation

end GoIdiom
