import GoIdiom.Proofs.Lexing.Concatenation

/-!
# Where a line is broken

The last token of the line is all that the lexer keeps while it goes over the pieces between two tokens: the first
line feed among them, or the end of the text, inserts a semicolon behind that token if it ends a statement, and
nothing inserts another one. A comment is trailing as long as no line feed has come.
-/

namespace GoIdiom

/-- An inserted semicolon ends no statement. -/
theorem Token.isInserted_of_endsStatement {t : Token} (h : t.endsStatement = true) : t.isInserted = false := by
  rw [isInserted]
  cases hkind : t.kind with
  | semi =>
    rw [endsStatement, hkind] at h
    cases h
  | _ => rfl

/-- The last token of a run decides what may stand behind it. -/
theorem Token.endsAfter_eq (may : Bool) (ts : List Token) :
    endsAfter may ts = ts.getLast?.elim may (·.endsStatement) := by
  induction ts generalizing may with
  | nil => rfl
  | cons t rest ih =>
    rw [endsAfter, ih, List.getLast?_cons]
    cases rest.getLast? <;> rfl

/-- The tokens that end a statement: operands, four keywords, and six operators. -/
theorem Token.endsStatement_iff (t : Token) : t.endsStatement = true ↔
    t.kind ∈ [.ident, .number, .string, .char] ∨
      t.kind = .keyword ∧ t.text ∈ ["break", "continue", "fallthrough", "return"] ∨
      t.kind = .op ∧ t.text ∈ ["++", "--", ")", "]", "\x7d"] := by
  rw [endsStatement]
  cases t.kind <;> simp

namespace Lexeme

/-- Whether a piece is a token. -/
def isToken (l : Lexeme) : Bool :=
  match l.kind with
  | .token _ => true
  | _ => false

/-- The kind of a piece that is a token. -/
theorem exists_kind_of_isToken {l : Lexeme} (h : l.isToken = true) : ∃ kind, l.kind = .token kind := by
  rw [isToken] at h
  cases hkind : l.kind with
  | token kind => exact ⟨kind, rfl⟩
  | _ => rw [hkind] at h; cases h

/-- Pieces have no token, or a last one. -/
theorem exists_last_token (ls : List Lexeme) : (∀ l ∈ ls, l.isToken = false) ∨
    ∃ before t gap, ls = before ++ t :: gap ∧ t.isToken = true ∧ ∀ l ∈ gap, l.isToken = false := by
  induction ls with
  | nil => exact .inl (List.forall_mem_nil _)
  | cons l rest ih =>
    rcases ih with hnone | ⟨before, t, gap, rfl, ht, hgap⟩
    · cases hl : l.isToken with
      | true => exact .inr ⟨[], l, rest, rfl, hl, hnone⟩
      | false => exact .inl (List.forall_mem_cons.mpr ⟨hl, hnone⟩)
    · exact .inr ⟨l :: before, t, gap, rfl, ht, hgap⟩

end Lexeme

namespace Lexed

open Lexeme

/-- A piece behind pieces is placed by what they leave. -/
theorem through_append (pos : Position) (last : Option Token) (front back : List Lexeme) :
    (through pos last (front ++ back)).last =
      (through (endOf pos front) (through pos last front).last back).last := by
  induction front generalizing pos last with
  | nil => rfl
  | cons l rest ih => exact ih _ _

/-- Every comment is added by a piece. -/
theorem exists_step_of_mem_comments {ls : List Lexeme} {pos : Position} {last : Option Token} {c : Comment}
    (h : c ∈ (place pos last ls).comments) : ∃ front l back, ls = front ++ l :: back ∧
      c ∈ (step (endOf pos front) (through pos last front).last l).comments := by
  induction ls generalizing pos last with
  | nil => cases h
  | cons l rest ih =>
    rw [place_cons] at h
    rcases List.mem_append.mp h with h | h
    · exact ⟨[], l, rest, rfl, h⟩
    · obtain ⟨front, m, back, rfl, hm⟩ := ih h
      exact ⟨l :: front, m, back, rfl, hm⟩

/-- A comment is trailing when the line has a token. -/
theorem of_mem_step_comments {last : Option Token} {front : List Lexeme} {l : Lexeme} {c : Comment}
    (h : c ∈ (step (endOf .start front) last l).comments) :
    Located.comment? ⟨front, l⟩ = some (c.text, c.pos) ∧ c.trailing = last.isSome := by
  rw [step] at h
  rw [Located.comment?]
  cases hkind : l.kind with
  | lineComment =>
    rw [hkind] at h
    rw [List.mem_singleton.mp h]
    exact ⟨rfl, rfl⟩
  | blockComment =>
    simp only [hkind] at h
    split at h <;> rw [List.mem_singleton.mp h] <;> exact ⟨rfl, rfl⟩
  | lineFeed | blank | token =>
    rw [hkind] at h
    cases h

/-- A piece that is a token adds it, and leaves it as the last one. -/
theorem step_of_token? {last : Option Token} {o : Located} {t : Token} (h : o.token? = some t) :
    step o.place last o.piece = ⟨[t], [], some t⟩ := by
  rw [Located.token?] at h
  rw [step]
  cases hkind : o.piece.kind with
  | token kind =>
    rw [hkind] at h
    obtain rfl := Option.some.inj h
    rfl
  | _ => rw [hkind] at h; cases h

section Gap

variable {cs : List Char} {all gap front back : List Lexeme} {cause : Option SourceCause} {l : Lexeme}

/-- A piece between tokens breaks the line when it holds a line feed. -/
theorem step_gap (h : scan cs = (all, cause)) (hl : l ∈ all) (hnone : l.isToken = false) (pos : Position)
    (last : Option Token) :
    (step pos last l).tokens = (if '\n' ∈ l.chars then lineBreak last pos else []) ∧
      (step pos last l).last = if '\n' ∈ l.chars then none else last := by
  rw [step]
  cases hkind : l.kind with
  | lineFeed =>
    rw [chars_of_lineFeed h hl hkind]
    exact ⟨rfl, rfl⟩
  | blank =>
    have hno := not_mem_of_inline h hl (.inl hkind)
    rw [if_neg hno, if_neg hno]
    exact ⟨rfl, rfl⟩
  | lineComment =>
    have hno := not_mem_of_inline h hl (.inr hkind)
    rw [if_neg hno, if_neg hno]
    exact ⟨rfl, rfl⟩
  | blockComment =>
    dsimp only
    by_cases hfeed : '\n' ∈ l.chars
    · rw [if_pos hfeed, if_pos hfeed, if_pos (List.contains_iff_mem.mpr hfeed)]
      exact ⟨rfl, rfl⟩
    · rw [if_neg hfeed, if_neg hfeed, if_neg (mt List.contains_iff_mem.mp hfeed)]
      exact ⟨rfl, rfl⟩
  | token kind =>
    rw [isToken, hkind] at hnone
    cases hnone

/-- Pieces between tokens break the line once when there is a line feed in them. -/
theorem through_gap (h : scan cs = (all, cause)) (hgap : gap ⊆ all) (hnone : ∀ l ∈ gap, l.isToken = false)
    (pos : Position) (last : Option Token) :
    (∃ p, (through pos last gap).tokens = if '\n' ∈ joined gap then lineBreak last p else []) ∧
      (through pos last gap).last = if '\n' ∈ joined gap then none else last := by
  -- On the pieces: behind the first line feed no token of the line is left, so no later one inserts anything.
  induction gap generalizing pos last with
  | nil => exact ⟨⟨pos, rfl⟩, rfl⟩
  | cons l rest ih =>
    obtain ⟨hl, hrest⟩ := List.cons_subset.mp hgap
    obtain ⟨hfirst, hmore⟩ := List.forall_mem_cons.mp hnone
    obtain ⟨htokens, hlast⟩ := step_gap h hl hfirst pos last
    obtain ⟨⟨p, hp⟩, hbehind⟩ := ih hrest hmore (l.endPos pos) (step pos last l).last
    simp only [through, joined_cons, List.mem_append]
    rw [hp, hbehind, htokens, hlast]
    have hnothing : lineBreak none p = [] := rfl
    by_cases hfeed : '\n' ∈ l.chars
    · exact ⟨⟨pos, by simp [hfeed, hnothing]⟩, by simp [hfeed]⟩
    · exact ⟨⟨p, by simp [hfeed]⟩, by simp [hfeed]⟩

/-- The line has a token when no line feed is behind the last one. -/
theorem last_through_iff (h : scan cs = (all, cause)) (hfront : front ⊆ all) (pos : Position) :
    (through pos none front).last.isSome = true ↔
      ∃ before t gap, front = before ++ t :: gap ∧ t.isToken = true ∧
      (∀ l ∈ gap, l.isToken = false) ∧ '\n' ∉ joined gap := by
  have hlast {before gap : List Lexeme} {t : Lexeme} (hsplit : front = before ++ t :: gap) (ht : t.isToken = true)
      (hgap : ∀ l ∈ gap, l.isToken = false) :
      (through pos none front).last.isSome = true ↔ '\n' ∉ joined gap := by
    have hsub : gap ⊆ all := fun l hl => hfront (hsplit ▸ List.mem_append_right _ (List.mem_cons_of_mem _ hl))
    obtain ⟨kind, hkind⟩ := exists_kind_of_isToken ht
    rw [hsplit, through_append, through, (through_gap h hsub hgap _ _).2, step, hkind]
    by_cases hfeed : '\n' ∈ joined gap
    · simp [hfeed]
    · simp [hfeed]
  constructor
  · intro hsome
    rcases exists_last_token front with hnone | ⟨before, t, gap, hsplit, ht, hgap⟩
    · rw [(through_gap h hfront hnone pos none).2, ite_self] at hsome
      cases hsome
    · exact ⟨before, t, gap, hsplit, ht, hgap, (hlast hsplit ht hgap).mp hsome⟩
  · rintro ⟨before, t, gap, hsplit, ht, hgap, hfeed⟩
    exact (hlast hsplit ht hgap).mpr hfeed

/-- A semicolon is inserted behind a token that ends a statement, when a line feed or no other token follows. -/
theorem place_inserts_iff (h : scan cs = (all, cause)) (hback : back ⊆ all) (pos : Position) (t : Token) :
    (place pos (some t) back).tokens.head?.any (·.isInserted) = true ↔ t.endsStatement = true ∧
      ((∀ u ∈ (place pos (some t) back).tokens, u.isInserted = true) ∨
        '\n' ∈ joined (back.takeWhile (!·.isToken))) := by
  have hsplit : back.takeWhile (!·.isToken) ++ back.dropWhile (!·.isToken) = back :=
    List.takeWhile_append_dropWhile
  have hgap : ∀ l ∈ back.takeWhile (!·.isToken), l.isToken = false := fun l hl => by
    simpa using List.mem_takeWhile_imp hl
  have hnext := List.head?_dropWhile_not (!·.isToken) back
  generalize back.takeWhile (!·.isToken) = gap at *
  generalize back.dropWhile (!·.isToken) = rest at *
  subst hsplit
  obtain ⟨hgapAll, hrestAll⟩ := List.append_subset.mp hback
  obtain ⟨⟨p, htokens⟩, hlast⟩ := through_gap h hgapAll hgap pos (some t)
  have hsemi (q : Position) : (⟨.semi, "\n", q⟩ : Token).isInserted = true := rfl
  rw [place_append, htokens, hlast]
  cases rest with
  | nil =>
    -- Nothing follows: a line feed in the gap or the end of the text breaks the line.
    by_cases hfeed : '\n' ∈ joined gap <;> cases hends : t.endsStatement <;>
      simp [hfeed, place, lineBreak, hends, hsemi]
  | cons l more =>
    obtain ⟨kind, hkind⟩ := exists_kind_of_isToken (by simpa using hnext)
    have hwritten : (⟨kind, l.text, endOf pos gap⟩ : Token).isInserted = false :=
      isInserted_of_head (head?_of_token h (hrestAll List.mem_cons_self) hkind)
    have hplace (last : Option Token) : ∃ ts, (place (endOf pos gap) last (l :: more)).tokens =
        ⟨kind, l.text, endOf pos gap⟩ :: ts := by
      rw [place_cons, step, hkind]
      exact ⟨_, rfl⟩
    obtain ⟨ts, hts⟩ := hplace (if '\n' ∈ joined gap then none else some t)
    rw [hts]
    -- A written token follows: only a line feed in the gap breaks the line in front of it.
    by_cases hfeed : '\n' ∈ joined gap <;> cases hends : t.endsStatement <;>
      simp [hfeed, lineBreak, hends, hwritten, hsemi]

end Gap

section Tokenize

variable {source : String} {pieces : List Lexeme} {before after : List Token} {t : Token}

/-- A written token is a piece, and the tokens behind it are those of the pieces behind that one. -/
theorem exists_place_of_token (hscan : scan source.toList = (pieces, none)) (ht : t.isInserted = false)
    (h : (place .start none pieces).tokens = before ++ t :: after) :
    ∃ front l back, pieces = front ++ l :: back ∧
      Located.token? ⟨front, l⟩ = some t ∧
      after = (place (l.endPos (endOf .start front)) (some t) back).tokens := by
  have hmem : t ∈ (locatedFrom [] pieces).filterMap (·.token?) := by
    rw [← written_place hscan (List.Subset.refl _) [] none]
    exact List.mem_filter.mpr ⟨h ▸ List.mem_append_right _ List.mem_cons_self, by rw [ht]; rfl⟩
  obtain ⟨o, ho, htoken⟩ := List.mem_filterMap.mp hmem
  obtain ⟨back, hpieces⟩ := exists_of_mem_locatedFrom ho
  rw [List.nil_append] at hpieces
  have hplace : (place .start none pieces).tokens = (through .start none o.front).tokens ++
      t :: (place (o.piece.endPos o.place) (some t) back).tokens := by
    have hstep : step (endOf .start o.front) (through .start none o.front).last o.piece = ⟨[t], [], some t⟩ :=
      step_of_token? htoken
    rw [hpieces, place_append, place_cons, hstep]
    rfl
  -- No token stands twice in the list, so `after` is what the pieces behind this one add.
  have htokens : tokenize source = .ok (place .start none pieces) := by rw [tokenize, hscan]
  have hnodup : (place .start none pieces).tokens.Nodup := (SourceFile.tokens_nodup htokens).of_map _
  rw [h] at hplace hnodup
  have hnot := (List.nodup_cons.mp (List.nodup_middle.mp hnodup)).1
  rw [List.mem_append, not_or] at hnot
  exact ⟨o.front, o.piece, back, hpieces, htoken,
    ((List.append_cons_inj_of_notMem hnot.1 hnot.2).mp hplace).2.2⟩

/-- An inserted semicolon directly follows a written token. -/
theorem exists_written_of_inserted (hscan : scan source.toList = (pieces, none)) (ht : t.isInserted = true)
    (h : (place .start none pieces).tokens = before ++ t :: after) :
    ∃ u, before.getLast? = some u ∧ u.isInserted = false := by
  have hlaid : Token.laid false (place .start none pieces).tokens = true :=
    laid_place .start none fun l hl kind => head?_of_token hscan hl
  rw [h, Token.laid_append, Token.laid_cons, ht, Token.endsAfter_eq] at hlaid
  have hends := hlaid.2.1.resolve_right (by decide)
  cases hlast : before.getLast? with
  | none =>
    rw [hlast] at hends
    cases hends
  | some u =>
    rw [hlast] at hends
    exact ⟨u, rfl, Token.isInserted_of_endsStatement hends⟩

end Tokenize

end Lexed

open Lexeme in
/-- A semicolon is inserted behind a written token exactly when the token ends a statement and the text up to the
next written token holds a line feed, or no such token follows. No other semicolon is inserted. A comment is
trailing exactly when a token precedes it and the text between that token and the comment holds no line feed. -/
theorem tokenize_lineEnds {source : String} {lexed : Lexed} (h : tokenize source = .ok lexed) :
    (∀ before t after, lexed.tokens = before ++ t :: after → t.isInserted = false →
      ∃ front l back, (scan source.toList).1 = front ++ l :: back ∧ Located.token? ⟨front, l⟩ = some t ∧
        (after.head?.any (·.isInserted) = true ↔
          (t.kind ∈ [.ident, .number, .string, .char] ∨
            t.kind = .keyword ∧ t.text ∈ ["break", "continue", "fallthrough", "return"] ∨
            t.kind = .op ∧ t.text ∈ ["++", "--", ")", "]", "\x7d"]) ∧
          ((∀ u ∈ after, u.isInserted = true) ∨ '\n' ∈ joined (back.takeWhile (!·.isToken))))) ∧
      (∀ before s after, lexed.tokens = before ++ s :: after → s.isInserted = true →
        ∃ t, before.getLast? = some t ∧ t.isInserted = false) ∧
      ∀ c ∈ lexed.comments, ∃ front l back, (scan source.toList).1 = front ++ l :: back ∧
        Located.comment? ⟨front, l⟩ = some (c.text, c.pos) ∧
        (c.trailing = true ↔ ∃ before t gap, front = before ++ t :: gap ∧ t.isToken = true ∧
          (∀ m ∈ gap, m.isToken = false) ∧ '\n' ∉ joined gap) := by
  obtain ⟨pieces, hscan, rfl⟩ := place_of_tokenize h
  rw [hscan]
  refine ⟨fun before t after htokens ht => ?_,
    fun before s after htokens hs => Lexed.exists_written_of_inserted hscan hs htokens, fun c hc => ?_⟩
  · obtain ⟨front, l, back, hpieces, htoken, rfl⟩ := Lexed.exists_place_of_token hscan ht htokens
    have hback : back ⊆ pieces :=
      hpieces ▸ List.subset_append_of_subset_right _ (List.subset_cons_self _ _)
    refine ⟨front, l, back, hpieces, htoken, ?_⟩
    rw [← Token.endsStatement_iff]
    exact Lexed.place_inserts_iff hscan hback _ t
  · obtain ⟨front, l, back, hpieces, hstep⟩ := Lexed.exists_step_of_mem_comments hc
    obtain ⟨hcomment, htrailing⟩ := Lexed.of_mem_step_comments hstep
    have hfront : front ⊆ pieces := hpieces ▸ List.subset_append_left _ _
    refine ⟨front, l, back, hpieces, hcomment, ?_⟩
    rw [htrailing]
    exact Lexed.last_through_iff hscan hfront .start

open Lexeme in
/-- A comment over two lines breaks the line behind `x`, and the comment behind it is not trailing. -/
theorem tokenize_lineEnds_longComment :
    let source := "x /* a\n */ /* b */ + y // c"
    let x : Token := ⟨.ident, "x", ⟨1, 1⟩⟩
    ∃ lexed, tokenize source = .ok lexed ∧
      lexed.tokens = [x, ⟨.semi, "\n", ⟨1, 3⟩⟩, ⟨.op, "+", ⟨2, 13⟩⟩, ⟨.ident, "y", ⟨2, 15⟩⟩,
        ⟨.semi, "\n", ⟨2, 21⟩⟩] ∧
      lexed.comments.map (·.trailing) = [true, false, true] ∧
      ∃ front l back, (scan source.toList).1 = front ++ l :: back ∧ Located.token? ⟨front, l⟩ = some x ∧
        '\n' ∈ joined (back.takeWhile (!·.isToken)) := by
  intro source x
  have htokens : tokenize source = .ok
      ⟨[x, ⟨.semi, "\n", ⟨1, 3⟩⟩, ⟨.op, "+", ⟨2, 13⟩⟩, ⟨.ident, "y", ⟨2, 15⟩⟩,
        ⟨.semi, "\n", ⟨2, 21⟩⟩],
        [⟨"/* a\n */", ⟨1, 3⟩, 2, true⟩, ⟨"/* b */", ⟨2, 5⟩, 2, false⟩,
        ⟨"// c", ⟨2, 17⟩, 2, true⟩]⟩ := by
    decide +kernel
  obtain ⟨front, l, back, hpieces, hx, hinserted⟩ := (tokenize_lineEnds htokens).1 [] x _ rfl rfl
  have hfeed := (hinserted.mp rfl).2.resolve_left (by decide)
  exact ⟨_, htokens, rfl, rfl, front, l, back, hpieces, hx, hfeed⟩

end GoIdiom
