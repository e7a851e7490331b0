import GoIdiom.Proofs.Lexing.Positions

/-!
# What a text consists of

A text is cut into pieces one after the other, each of at least one character, so the cutting ends. Blanks and
line feeds apart, the pieces are the written tokens and the comments, in the order of their places: none is lost,
and none stands in the text that is not one of them.
-/

namespace GoIdiom

/-- A token or a comment by its text and its place. -/
structure Mark where
  text : String
  pos : Position
deriving DecidableEq, Repr

namespace Mark

/-- Whether a mark does not stand behind another. -/
def le (a b : Mark) : Bool := !b.pos.before a.pos

/-- A mark that stands in front of all others of one list comes first. -/
theorem merge_cons_left {m : Mark} {ws cs : List Mark} (h : ∀ c ∈ cs, m.pos.before c.pos = true) :
    (m :: ws).merge cs le = m :: ws.merge cs le := by
  cases cs with
  | nil => rw [List.merge_right, List.merge_right]
  | cons c rest =>
    have hbefore := h c List.mem_cons_self
    have hle : le m c = true := by
      rw [le, Bool.not_eq_true', Bool.eq_false_iff, ne_eq, Position.before_iff]
      rw [Position.before_iff] at hbefore
      omega
    exact List.cons_merge_cons_pos le ws rest hle

/-- A mark that stands in front of all those of the other list comes first. -/
theorem merge_cons_right {m : Mark} {ws cs : List Mark} (h : ∀ w ∈ ws, m.pos.before w.pos = true) :
    ws.merge (m :: cs) le = m :: ws.merge cs le := by
  cases ws with
  | nil => rw [List.nil_merge, List.nil_merge]
  | cons w rest =>
    have hle : ¬ le w m = true := by rw [le, h w List.mem_cons_self, Bool.not_true]; exact Bool.false_ne_true
    exact List.cons_merge_cons_neg le rest cs hle

end Mark

/-- The written tokens and the comments in the order of their places. -/
def Lexed.marks (lexed : Lexed) : List Mark :=
  ((lexed.tokens.filter (!·.isInserted)).map fun t => ⟨t.text, t.pos⟩).merge
    (lexed.comments.map fun c => ⟨c.text, c.pos⟩) Mark.le

namespace Lexeme

/-- Whether a text has nothing but blanks and line feeds. -/
def isBlankText (s : String) : Bool := s.toList.all fun c => c == '\n' || isInlineBlank c

/-- The text behind the first piece of a text. -/
inductive Leaves : List Char → List Char → Prop where
  | piece {c : Char} {rest : List Char} {kind : LexemeKind} {n : Nat} (h : classify c rest = .ok (kind, n)) :
    Leaves (c :: rest) (rest.drop n)

/-- Every piece takes a character at least. -/
theorem Leaves.length_lt {cs more : List Char} (h : Leaves cs more) : more.length < cs.length := by
  cases h
  rw [List.length_drop, List.length_cons]
  omega

/-- No text can be cut into pieces forever. -/
theorem wellFounded_leaves : WellFounded fun more cs => Leaves cs more :=
  Subrelation.wf Leaves.length_lt (measure List.length).wf

/-- Only blanks and line feeds begin with such a character. -/
theorem not_blank_of_classify {c : Char} {rest : List Char} {kind : LexemeKind} {n : Nat}
    (h : classify c rest = .ok (kind, n)) (hfeed : kind ≠ .lineFeed) (hblank : kind ≠ .blank) :
    (c == '\n' || isInlineBlank c) = false := by
  by_cases hline : c = '\n'
  · rw [classify, if_pos hline] at h
    cases h
    exact absurd rfl hfeed
  · by_cases hinline : isInlineBlank c = true
    · rw [classify, if_neg hline, if_pos hinline] at h
      cases h
      exact absurd rfl hblank
    · rw [Bool.or_eq_false_iff, beq_eq_false_iff_ne]
      exact ⟨hline, Bool.eq_false_iff.mpr hinline⟩

/-- The mark that a piece is, unless it is blank or a line feed. -/
def Located.mark? (o : Located) : Option Mark :=
  match o.piece.kind with
  | .lineFeed | .blank => none
  | _ => some ⟨o.piece.text, o.place⟩

section Places

variable {o : Located}

/-- A token of a piece is where the piece is. -/
theorem pos_of_token? {t : Token} (h : o.token? = some t) : t.pos = o.place := by
  rw [Located.token?] at h
  split at h
  · rw [← Option.some.inj h]
  · cases h

/-- A comment of a piece is where the piece is. -/
theorem pos_of_comment? {c : String × Position} (h : o.comment? = some c) : c.2 = o.place := by
  rw [Located.comment?] at h
  split at h
  · rw [← Option.some.inj h]
  · rw [← Option.some.inj h]
  · cases h

/-- A mark of a piece is its text at its place. -/
theorem eq_of_mark? {m : Mark} (h : o.mark? = some m) : m = ⟨o.piece.text, o.place⟩ := by
  rw [Located.mark?] at h
  split at h
  · cases h
  · cases h
  · exact (Option.some.inj h).symm

end Places

section Pieces

variable {cs : List Char} {all ls : List Lexeme} {cause : Option SourceCause}

/-- The pieces that are no marks are those of blanks and line feeds. -/
theorem isBlankText_eq (h : scan cs = (all, cause)) {l : Lexeme} (hl : l ∈ all) (front : List Lexeme) :
    isBlankText l.text = (Located.mark? ⟨front, l⟩).isNone := by
  obtain ⟨c, rest, n, hclass, hchars⟩ := exists_classify_of_mem h hl
  have hmark (hfeed : l.kind ≠ .lineFeed) (hblank : l.kind ≠ .blank) : isBlankText l.text = false := by
    rw [isBlankText, text, String.toList_ofList, hchars, List.all_cons, not_blank_of_classify hclass hfeed hblank,
      Bool.false_and]
  rw [Located.mark?]
  cases hkind : l.kind with
  | lineFeed => rw [isBlankText, text, String.toList_ofList, chars_of_lineFeed h hl hkind]; rfl
  | blank =>
    rw [isBlankText, text, String.toList_ofList]
    refine List.all_eq_true.mpr fun c hc => ?_
    rw [isInlineBlank_of_mem h hl hkind c hc, Bool.or_true]
  | lineComment | blockComment | token => exact hmark (by simp [hkind]) (by simp [hkind])

/-- The pieces that are not blank are the texts of the marks. -/
theorem filter_text (h : scan cs = (all, cause)) (hls : ls ⊆ all) (front : List Lexeme) :
    (ls.map (·.text)).filter (!isBlankText ·) =
      ((locatedFrom front ls).filterMap (·.mark?)).map (·.text) := by
  induction ls generalizing front with
  | nil => rfl
  | cons l rest ih =>
    obtain ⟨hl, hrest⟩ := List.cons_subset.mp hls
    rw [List.map_cons, List.filter_cons, isBlankText_eq h hl front, locatedFrom, List.filterMap_cons, ih hrest]
    cases hmark : Located.mark? ⟨front, l⟩ with
    | none => rfl
    | some m => rw [Option.isNone_some, if_pos (Bool.not_false), List.map_cons, eq_of_mark? hmark]

/-- Pieces are placed one behind the other. -/
theorem pairwise_locatedFrom (h : scan cs = (all, cause)) (hls : ls ⊆ all) (front : List Lexeme) :
    (∀ o ∈ locatedFrom front ls, o.place = endOf .start front ∨
      (endOf .start front).before o.place = true) ∧
      (locatedFrom front ls).Pairwise fun o o' => o.place.before o'.place = true := by
  induction ls generalizing front with
  | nil => exact ⟨List.forall_mem_nil _, .nil⟩
  | cons l rest ih =>
    obtain ⟨hl, hrest⟩ := List.cons_subset.mp hls
    obtain ⟨hfrom, hpairwise⟩ := ih hrest (front ++ [l])
    have hbehind : ∀ o ∈ locatedFrom (front ++ [l]) rest, (endOf .start front).before o.place = true := by
      intro o ho
      have hend := before_endPos h hl (endOf .start front)
      rw [← endOf_concat] at hend
      rcases hfrom o ho with heq | hbefore
      · rwa [heq]
      · exact Position.before_trans hend hbefore
    exact ⟨List.forall_mem_cons.mpr ⟨.inl rfl, fun o ho => .inr (hbehind o ho)⟩, .cons hbehind hpairwise⟩

/-- Tokens and comments that are merged by their places stand as they do in the text. -/
theorem merge_marks {os : List Located} (h : os.Pairwise fun o o' => o.place.before o'.place = true) :
    ((os.filterMap (·.token?)).map fun t => (⟨t.text, t.pos⟩ : Mark)).merge
      ((os.filterMap (·.comment?)).map fun c => ⟨c.1, c.2⟩) Mark.le = os.filterMap (·.mark?) := by
  induction os with
  | nil => exact List.merge_right []
  | cons o rest ih =>
    obtain ⟨hfirst, hrest⟩ := List.pairwise_cons.mp h
    have htokens : ∀ m ∈ (rest.filterMap (·.token?)).map fun t => (⟨t.text, t.pos⟩ : Mark),
        o.place.before m.pos = true := by
      intro m hm
      obtain ⟨t, ht, rfl⟩ := List.mem_map.mp hm
      obtain ⟨o', ho', htoken⟩ := List.mem_filterMap.mp ht
      rw [pos_of_token? htoken]
      exact hfirst o' ho'
    have hcomments : ∀ m ∈ (rest.filterMap (·.comment?)).map fun c => (⟨c.1, c.2⟩ : Mark),
        o.place.before m.pos = true := by
      intro m hm
      obtain ⟨c, hc, rfl⟩ := List.mem_map.mp hm
      obtain ⟨o', ho', hcomment⟩ := List.mem_filterMap.mp hc
      rw [pos_of_comment? hcomment]
      exact hfirst o' ho'
    rw [List.filterMap_cons, List.filterMap_cons, List.filterMap_cons, ← ih hrest, Located.token?,
      Located.comment?, Located.mark?]
    cases o.piece.kind with
    | lineFeed | blank => rfl
    | lineComment | blockComment => exact Mark.merge_cons_right htokens
    | token kind => exact Mark.merge_cons_left hcomments

end Pieces

end Lexeme

open Lexeme in
/-- The lexer loses and invents nothing, and it ends. Every source is cut into pieces that leave less of it each
time; and where it is tokenized, the pieces make it up, those that are not blank are the written tokens and the
comments in the order of their places, and no two of these stand at one place. -/
theorem tokenize_lossless (source : String) :
    Acc (fun more cs => Leaves cs more) source.toList ∧ ∀ lexed, tokenize source = .ok lexed →
      ∃ pieces : List String, String.join pieces = source ∧ (∀ p ∈ pieces, p ≠ "") ∧
        pieces.filter (!isBlankText ·) = lexed.marks.map (·.text) ∧
        lexed.marks.Pairwise fun a b => a.pos.before b.pos = true := by
  refine ⟨wellFounded_leaves.apply _, fun lexed h => ?_⟩
  obtain ⟨pieces, hscan, rfl⟩ := place_of_tokenize h
  have hall : pieces ⊆ pieces := List.Subset.refl _
  have hplaces := (pairwise_locatedFrom hscan hall []).2
  have hmarks : (Lexed.place .start none pieces).marks = (locatedFrom [] pieces).filterMap (·.mark?) := by
    have hwritten := Lexed.written_place hscan hall [] none
    have hcomments := Lexed.comments_place [] pieces none
    rw [← merge_marks hplaces, ← hwritten, ← hcomments, List.map_map]
    rfl
  refine ⟨pieces.map (·.text), ?_, ?_, ?_, ?_⟩
  · rw [← String.toList_inj, String.toList_join, List.flatMap_map]
    simp only [text, String.toList_ofList]
    exact joined_of_scan hscan
  · intro p hp
    obtain ⟨l, hl, rfl⟩ := List.mem_map.mp hp
    intro hempty
    exact chars_ne_nil hscan hl
      (by rw [← String.toList_ofList (l := l.chars)]; exact congrArg String.toList hempty)
  · rw [hmarks]
    exact filter_text hscan hall []
  · rw [hmarks, List.pairwise_filterMap]
    refine hplaces.imp fun {o o'} hbefore m hm m' hm' => ?_
    rw [eq_of_mark? hm, eq_of_mark? hm']
    exact hbefore

open Lexeme in
/-- Comments that share their lines with tokens keep their places between them. -/
theorem tokenize_lossless_betweenTokens :
    let source := "x /* a\n */ := \x60b\n\x60 + .5e3i // c\n"
    ∃ lexed, tokenize source = .ok lexed ∧
      lexed.marks.map (·.text) = ["x", "/* a\n */", ":=", "\x60b\n\x60", "+", ".5e3i", "// c"] ∧
      ∃ pieces : List String, String.join pieces = source ∧ (∀ p ∈ pieces, p ≠ "") ∧
        pieces.filter (!isBlankText ·) = lexed.marks.map (·.text) ∧
        lexed.marks.Pairwise fun a b => a.pos.before b.pos = true := by
  intro source
  have htokens : tokenize source = .ok
      ⟨[⟨.ident, "x", ⟨1, 1⟩⟩, ⟨.semi, "\n", ⟨1, 3⟩⟩, ⟨.op, ":=", ⟨2, 5⟩⟩,
        ⟨.string, "\x60b\n\x60", ⟨2, 8⟩⟩,
          ⟨.op, "+", ⟨3, 3⟩⟩, ⟨.number, ".5e3i", ⟨3, 5⟩⟩, ⟨.semi, "\n", ⟨3, 15⟩⟩],
        [⟨"/* a\n */", ⟨1, 3⟩, 2, true⟩, ⟨"// c", ⟨3, 11⟩, 3, true⟩]⟩ := by
    decide +kernel
  exact ⟨_, htokens, by cbv, (tokenize_lossless source).2 _ htokens⟩

end GoIdiom
