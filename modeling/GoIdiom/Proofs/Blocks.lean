import GoIdiom.Statement.Block

/-!
# What a run is cut into around a block

A block that is found in a run splits the run: the tokens before it, its braces and contents, and the
tokens after it. So does a function literal.
-/

namespace GoIdiom

/-- A group ends with a token that closes it. -/
theorem Token.closes_of_splitGroup {deeper closes : Token → Bool} {depth : Nat} {ts : List Token}
    {g : Token.Group} (h : Token.splitGroup deeper closes depth ts = some g) : closes g.closer = true := by
  induction ts generalizing depth g with
  | nil => cases h
  | cons t rest ih =>
    unfold Token.splitGroup at h
    split at h
    · next ht =>
      cases depth with
      | zero => exact Option.some.inj h ▸ ht
      | succ d =>
        obtain ⟨g', hg, rfl⟩ := Option.map_eq_some_iff.mp h
        exact (ih hg :)
    · obtain ⟨g', hg, rfl⟩ := Option.map_eq_some_iff.mp h
      exact (ih hg :)

namespace Block

/-- All tokens of the run that the block was found in. -/
def run (b : Block) : List Token := b.before ++ b.opener :: (b.inner ++ b.closer :: b.rest)

/-- Tokens put before a block stand before its run. -/
theorem run_prepend (ts : List Token) (b : Block) : (b.prepend ts).run = ts ++ b.run := by
  simp only [run, prepend, List.append_assoc]

/-- The block at an opening brace has the tokens from there on. -/
theorem run_ofOpener? {opener : Token} {rest : List Token} {b : Block} (h : ofOpener? opener rest = some b) :
    b.run = opener :: rest := by
  obtain ⟨g, hg, rfl⟩ := Option.map_eq_some_iff.mp h
  rw [run, Token.splitGroup_eq_append hg]
  rfl

/-- The body after a signature splits the run. -/
theorem run_body? {previous : Token} {ts : List Token} {b : Block} (h : body? previous ts = some b) :
    b.run = ts := by
  fun_induction body? previous ts generalizing b with
  | case1 => cases h
  | case2 => cases h
  | case3 => exact run_ofOpener? h
  | case4 =>
    rename_i t rest _ _ piece ih
    obtain ⟨b', hb, rfl⟩ := Option.map_eq_some_iff.mp h
    rw [run_prepend, ih hb, Token.takePiece_append]

/-- A semicolon ends the search for a body. -/
theorem isSemi_before_body? {previous : Token} {ts : List Token} {b : Block} (h : body? previous ts = some b) :
    b.before.head?.any (·.isSemi) = false := by
  have hrun := run_body? h
  cases hbefore : b.before with
  | nil => rfl
  | cons t before =>
    rw [run, hbefore, List.cons_append] at hrun
    rw [← hrun, body?] at h
    rw [List.head?_cons, Option.any_some]
    cases hsemi : t.isSemi with
    | false => rfl
    | true =>
      rw [if_pos hsemi] at h
      cases h

/-- A body ends with a closing bracket. -/
theorem isCloser_body? {previous : Token} {ts : List Token} {b : Block} (h : body? previous ts = some b) :
    b.closer.isCloser = true := by
  fun_induction body? previous ts generalizing b with
  | case1 => cases h
  | case2 => cases h
  | case3 =>
    obtain ⟨g, hg, rfl⟩ := Option.map_eq_some_iff.mp h
    exact Token.closes_of_splitGroup hg
  | case4 =>
    rename_i t rest _ _ piece ih
    obtain ⟨b', hb, rfl⟩ := Option.map_eq_some_iff.mp h
    exact (ih hb :)

/-- A body is the group of the brace that opens it. -/
theorem closeGroup_body? {previous : Token} {ts : List Token} {b : Block} (h : body? previous ts = some b) :
    b.opener.isOp "\x7b" = true ∧
      Token.closeGroup (b.inner ++ b.closer :: b.rest) = some ⟨b.inner, b.closer, b.rest⟩ := by
  fun_induction body? previous ts generalizing b with
  | case1 => cases h
  | case2 => cases h
  | case3 previous t rest _ hbrace =>
    obtain ⟨g, hg, rfl⟩ := Option.map_eq_some_iff.mp h
    exact ⟨(Bool.and_eq_true_iff.mp hbrace).1, by rw [Token.splitGroup_eq_append hg, hg]⟩
  | case4 =>
    rename_i t rest _ _ piece ih
    obtain ⟨b', hb, rfl⟩ := Option.map_eq_some_iff.mp h
    exact (ih hb :)

end Block

namespace LiteralCut

/-- A function literal splits the run: signature, then body and the tokens after it. -/
theorem run_ofKeyword? {keyword : Token} {ts : List Token} {c : LiteralCut}
    (h : ofKeyword? keyword ts = some c) :
    c.keyword = keyword ∧ keyword.isKeyword "func" = true ∧ c.open'.isOp "(" = true ∧
      c.open' :: (c.params ++ c.close' :: c.body.run) = ts ∧ Block.body? c.close' c.body.run = some c.body := by
  cases ts with
  | nil => cases h
  | cons t rest =>
    rw [ofKeyword?] at h
    split at h
    · next hparts =>
      cases hg : Token.closeGroup rest with
      | none => rw [hg] at h; cases h
      | some g =>
        rw [hg] at h
        obtain ⟨b, hb, rfl⟩ := Option.map_eq_some_iff.mp h
        obtain ⟨hfunc, hopen⟩ := Bool.and_eq_true_iff.mp hparts
        rw [Block.run_body? hb]
        exact ⟨rfl, hfunc, hopen, by rw [Token.splitGroup_eq_append hg], hb⟩
    · cases h

/-- Only the keyword of function literals begins one. -/
theorem ofKeyword?_eq_none {t : Token} (h : t.isKeyword "func" = false) (rest : List Token) :
    ofKeyword? t rest = none := by
  cases rest with
  | nil => rfl
  | cons u us => rw [ofKeyword?, h, Bool.false_and, if_neg Bool.false_ne_true]

/-- A literal and what follows its body are the run. -/
theorem all_append_rest {keyword : Token} {ts : List Token} {c : LiteralCut}
    (h : ofKeyword? keyword ts = some c) : c.all ++ c.body.rest = keyword :: ts := by
  obtain ⟨rfl, -, -, hrun, -⟩ := run_ofKeyword? h
  rw [← hrun]
  simp [all, signature, Block.run]

end LiteralCut

/-- The search for the block after a header takes one step at a token that begins no function literal. -/
theorem Block.afterHeader?_step {t : Token} {rest : List Token} (h : LiteralCut.ofKeyword? t rest = none)
    (previous : Token) :
    afterHeader? previous (t :: rest) =
      if t.isOp "\x7b" && !opensType previous && (Token.closeGroup rest).any (endsStatement ·.rest) then
        ofOpener? t rest
      else
        (afterHeader? ((Token.takePiece t rest).1.getLastD t) (Token.takePiece t rest).2).map
          (prepend (Token.takePiece t rest).1) := by
  rw [afterHeader?.eq_def]
  dsimp only
  split
  · next c hc =>
    rw [h] at hc
    cases hc
  · rfl

/-- Where no literal begins, a brace is the block if a statement ends behind it, and is passed over if
not. -/
theorem Block.afterHeader?_cons {t : Token} (h : t.isKeyword "func" = false) (previous : Token)
    (rest : List Token) :
    afterHeader? previous (t :: rest) =
      if t.isOp "\x7b" && !opensType previous && (Token.closeGroup rest).any (endsStatement ·.rest) then
        ofOpener? t rest
      else
        (afterHeader? ((Token.takePiece t rest).1.getLastD t) (Token.takePiece t rest).2).map
          (prepend (Token.takePiece t rest).1) :=
  afterHeader?_step (LiteralCut.ofKeyword?_eq_none h rest) previous

/-- The block after the header of a compound statement splits the run. -/
theorem Block.run_afterHeader? {previous : Token} {ts : List Token} {b : Block}
    (h : afterHeader? previous ts = some b) : b.run = ts := by
  fun_induction afterHeader? previous ts generalizing b with
  | case1 => cases h
  | case2 previous t rest c hc ih =>
    obtain ⟨b', hb, rfl⟩ := Option.map_eq_some_iff.mp h
    rw [run_prepend, ih hb, LiteralCut.all_append_rest hc]
  | case3 => exact run_ofOpener? h
  | case4 =>
    rename_i t rest _ _ piece ih
    obtain ⟨b', hb, rfl⟩ := Option.map_eq_some_iff.mp h
    rw [run_prepend, ih hb, Token.takePiece_append]

end GoIdiom
