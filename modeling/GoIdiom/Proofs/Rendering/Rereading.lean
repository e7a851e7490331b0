import GoIdiom.Proofs.Lexing.Strings
import GoIdiom.Proofs.Rendering.Seams

/-!
# Rendered texts read again

The text of a token run is read as the same tokens exactly when no token fuses with what is written behind it. The
tokens are compared one by one from the left; behind one that is read as it was written, the rest of the text is
read by itself.
-/

namespace GoIdiom

namespace Token

open Lexeme

variable {t : Token} {ts : List Token} {previous : Option Token}

/-! ## What stands behind a token -/

/-- A token that is not like a word is an operator or a semicolon. -/
theorem IsLexed.operator (h : t.IsLexed) (hlike : t.isWordLike = false) :
    t.text ∈ operators ∧ t.kind = if t.text == ";" then .semi else .op := by
  obtain ⟨c, w, behind, htext, hclass⟩ := h
  rcases quoted_or_isPlainHead hclass with hplain | ⟨hquoted, -⟩
  · obtain ⟨-, hpiece⟩ := (classify_eq_token_iff hplain).mp hclass
    generalize hkind : t.kind = kind at hpiece
    generalize hlength : w.length = n at hpiece
    cases hpiece with
    | number => rw [isWordLike, hkind] at hlike; cases hlike
    | word =>
      rw [isWordLike, hkind] at hlike
      rcases wordKind_cases _ with hword | hword <;> rw [hword] at hlike <;> cases hlike
    | operator _ _ hop =>
      obtain rfl := text_of_operatorAt htext hop hlength
      exact ⟨List.mem_of_find?_eq_some hop, rfl⟩
  · rw [isWordLike] at hlike
    rcases hquoted with hkind | hkind <;> rw [hkind] at hlike <;> cases hlike

/-- A semicolon of the text is written as one. -/
theorem IsLexed.text_of_isSemi (h : t.IsLexed) (hsemi : t.isSemi = true) : t.text = ";" := by
  rw [isSemi, beq_iff_eq] at hsemi
  have hkind := (h.operator (by rw [isWordLike, hsemi])).2
  rw [hsemi] at hkind
  split at hkind
  · next htext => exact beq_iff_eq.mp htext
  · cases hkind

/-- What begins with an equals sign stands between blanks. -/
theorem IsLexed.isSpaced_of_head (h : t.IsLexed) (hhead : t.text.toList.head? = some '=') : t.isSpaced = true := by
  have hlike : t.isWordLike = false := by
    obtain ⟨c, w, behind, htext, hclass⟩ := h
    rw [htext, List.head?_cons, Option.some.injEq] at hhead
    subst hhead
    obtain ⟨-, hpiece⟩ := (classify_eq_token_iff (by decide)).mp hclass
    rw [isWordLike]
    generalize t.kind = kind at hpiece
    generalize w.length = n at hpiece
    cases hpiece with
    | number hnumber => rcases isDigit_or_of_numberLength hnumber with h | h <;> exact absurd h (by decide)
    | word _ hc => exact absurd hc (by decide +kernel)
    | @operator op => rcases operatorKind_cases op with ⟨hkind, -⟩ | hkind <;> rw [hkind]
  obtain ⟨hop, hkind⟩ := h.operator hlike
  have hne : (t.text == ";") = false := by
    rw [beq_eq_false_iff_ne]
    intro htext
    rw [htext] at hhead
    exact absurd hhead (by decide)
  rw [hne, if_neg Bool.false_ne_true] at hkind
  rw [isSpaced, isOpIn, hkind, List.contains_iff_mem.mpr ((head_operators t.text hop).2 hhead)]
  rfl

/-- What is put in front of a token: a semicolon follows at once. -/
def lead (previous : Option Token) (t : Token) : List Char := if t.isSemi then [] else gap previous t

/-- There is one blank in front of a token, or none that would be needed. -/
theorem lead_cases (previous : Option Token) (t : Token) : lead previous t = [' '] ∨
    lead previous t = [] ∧ (t.isSemi = false → previous.any (needsBlank · t) = false) := by
  rw [lead, gap]
  split
  · next hsemi => exact .inr ⟨rfl, fun h => by rw [hsemi] at h; cases h⟩
  · split
    · exact .inl rfl
    · next hblank => exact .inr ⟨rfl, fun _ => Bool.eq_false_iff.mpr hblank⟩

/-- A token in the text of a run. -/
theorem IsLexed.chars_cons (h : t.IsLexed) (previous : Option Token) (ts : List Token) :
    chars previous (t :: ts) = lead previous t ++ (t.text.toList ++ chars (some t) ts) := by
  rw [lead]
  split
  · next hsemi =>
    rw [chars_semi hsemi, h.text_of_isSemi hsemi]
    rfl
  · next hsemi => exact Token.chars_cons (Bool.eq_false_iff.mpr hsemi)

/-- No equals sign stands behind a token, and no character of a word behind one that is like a word. -/
theorem head_chars (hts : ∀ u ∈ ts, u.IsLexed) (t : Token) : (chars (some t) ts).head? ≠ some '=' ∧
    (t.isWordLike = true → (chars (some t) ts).head?.any Text.isWord = false) := by
  cases ts with
  | nil => exact ⟨by simp [chars, renderPieces], fun _ => rfl⟩
  | cons u more =>
    have hu := (List.forall_mem_cons.mp hts).1
    obtain ⟨c, w, -, htext, -⟩ := id hu
    rw [hu.chars_cons]
    rcases lead_cases (some t) u with hlead | ⟨hlead, hnone⟩
    · rw [hlead]
      exact ⟨by simp, fun _ => (by decide +kernel : Text.isWord ' ' = false)⟩
    · rw [Option.any_some] at hnone
      rw [hlead, htext, List.nil_append, List.cons_append, List.head?_cons, Option.any_some]
      constructor
      · intro heq
        have hspaced := hu.isSpaced_of_head (by rw [htext, List.head?_cons, heq])
        have hsemi : u.isSemi = false := by
          rw [isSpaced, isOpIn, Bool.and_eq_true, beq_iff_eq] at hspaced
          rw [isSemi, hspaced.1]
          rfl
        rw [needsBlank, hspaced, Bool.or_true, Bool.true_or] at hnone
        cases hnone hsemi
      · intro hword
        cases hlike : u.isWordLike with
        | true =>
          have hsemi : u.isSemi = false := by
            rw [isSemi, beq_eq_false_iff_ne]
            intro hkind
            rw [isWordLike, hkind] at hlike
            cases hlike
          rw [needsBlank, hlike, hword, Bool.true_or, Bool.and_true, Bool.or_true] at hnone
          cases hnone hsemi
        | false =>
          have hhead := (head_operators u.text (hu.operator hlike).1).1
          rw [htext, List.head?_cons, Option.any_some, Bool.or_eq_false_iff, Bool.or_eq_false_iff] at hhead
          exact hhead.1.1

/-! ## Texts that are read as given tokens -/

/-- The kind and the text of a token. -/
def spelling (t : Token) : TokenKind × String := (t.kind, t.text)

end Token

namespace Lexeme

/-- The kind and the text of the token that a piece is. -/
def spelling? (l : Lexeme) : Option (TokenKind × String) :=
  match l.kind with
  | .token kind => some (kind, l.text)
  | _ => none

/-- A piece spells a token exactly by its kind and its text. -/
theorem spelling?_eq_some_iff {l : Lexeme} {spelled : TokenKind × String} :
    l.spelling? = some spelled ↔ l.kind = .token spelled.1 ∧ l.text = spelled.2 := by
  rw [spelling?]
  cases l.kind with
  | token kind => simp [Prod.ext_iff]
  | _ => simp

/-- The written tokens of a source are spelled as its pieces are. -/
theorem filterMap_locatedFrom (front ls : List Lexeme) :
    ((locatedFrom front ls).filterMap (·.token?)).map Token.spelling = ls.filterMap spelling? := by
  induction ls generalizing front with
  | nil => rfl
  | cons l rest ih =>
    rw [locatedFrom, List.filterMap_cons, List.filterMap_cons, ← ih (front ++ [l]), Located.token?, spelling?]
    cases l.kind <;> rfl

/-- A text that is read as tokens spelled in a given way, with nothing else but blanks between them. -/
def ReadsAs (cs : List Char) (spellings : List (TokenKind × String)) : Prop :=
  ∃ ls, scan cs = (ls, none) ∧ ls.filterMap spelling? = spellings ∧
    ∀ l ∈ ls, l.spelling? = none → ∀ c ∈ l.chars, c = ' '

variable {c : Char} {cs w u : List Char} {spellings : List (TokenKind × String)} {kind : TokenKind} {text : String}

/-- The empty text is read as no tokens. -/
theorem readsAs_nil : ReadsAs [] [] := ⟨[], by rw [scan], rfl, fun _ h => absurd h List.not_mem_nil⟩

/-- A single blank is a piece by itself. -/
theorem scan_blank (h : cs.head?.any isInlineBlank = false) :
    scan (' ' :: cs) = (⟨.blank, [' ']⟩ :: (scan cs).1, (scan cs).2) := by
  have hrun : runLength isInlineBlank cs = 0 := by
    cases cs with
    | nil => rfl
    | cons c rest =>
      rw [List.head?_cons, Option.any_some] at h
      rw [runLength, h, if_neg Bool.false_ne_true]
  have hclass : classify ' ' cs = .ok (.blank, 0) := by
    rw [classify, if_neg (by decide), if_pos (by decide), hrun]
  rw [scan_cons, hclass]
  rfl

/-- A blank before a text is nothing to what it is read as. -/
theorem readsAs_blank (h : cs.head?.any isInlineBlank = false) :
    ReadsAs (' ' :: cs) spellings ↔ ReadsAs cs spellings := by
  constructor
  · rintro ⟨ls, hscan, hspellings, hblank⟩
    rw [scan_blank h] at hscan
    obtain ⟨rfl, hcause⟩ := Prod.mk.inj hscan
    exact ⟨(scan cs).1, Prod.ext rfl hcause, hspellings, (List.forall_mem_cons.mp hblank).2⟩
  · rintro ⟨ls, hscan, hspellings, hblank⟩
    exact ⟨⟨.blank, [' ']⟩ :: ls, by rw [scan_blank h, hscan], hspellings,
      List.forall_mem_cons.mpr ⟨fun _ c hc => List.mem_singleton.mp hc, hblank⟩⟩

/-- The first token and the others. -/
theorem readsAs_token (htext : text.toList = c :: w) (hc : isInlineBlank c = false) :
    ReadsAs (c :: (w ++ u)) ((kind, text) :: spellings) ↔
      classify c (w ++ u) = .ok (.token kind, w.length) ∧ ReadsAs u spellings := by
  constructor
  · rintro ⟨ls, hscan, hspellings, hblank⟩
    cases ls with
    | nil => cases hspellings
    | cons l more =>
      obtain ⟨c', rest, n, hcs, hclass, hchars, hle, hmore⟩ := scan_eq_cons hscan
      obtain ⟨rfl, rfl⟩ := List.cons.inj hcs
      obtain ⟨hfirst, hblank⟩ := List.forall_mem_cons.mp hblank
      cases hspelled : l.spelling? with
      | none =>
        -- The piece is no blank, as its first character is none.
        have heq := hfirst hspelled c (by rw [hchars]; exact List.mem_cons_self)
        rw [heq] at hc
        cases hc
      | some spelled =>
        rw [List.filterMap_cons, hspelled] at hspellings
        obtain ⟨rfl, hrest⟩ := List.cons.inj hspellings
        obtain ⟨hkind, hsame⟩ := spelling?_eq_some_iff.mp hspelled
        have htake : (w ++ u).take n = w := by
          have := congrArg String.toList hsame
          rw [Lexeme.text, String.toList_ofList, hchars, htext] at this
          exact (List.cons.inj this).2
        have hn : n = w.length := by rw [← List.length_take_of_le hle, htake]
        subst hn
        rw [List.drop_left] at hmore
        exact ⟨hkind ▸ hclass, more, hmore, hrest, hblank⟩
  · rintro ⟨hclass, ls, hscan, hspellings, hblank⟩
    have hspelled : spelling? ⟨.token kind, c :: w⟩ = some (kind, text) :=
      spelling?_eq_some_iff.mpr ⟨rfl, by rw [Lexeme.text, ← htext, String.ofList_toList]⟩
    refine ⟨⟨.token kind, c :: w⟩ :: ls, ?_, ?_, List.forall_mem_cons.mpr ⟨fun hnone => ?_, hblank⟩⟩
    · rw [scan_cons, hclass]
      dsimp only
      rw [List.take_left, List.drop_left, hscan]
    · rw [List.filterMap_cons, hspelled, hspellings]
    · rw [hspelled] at hnone
      cases hnone

/-- The characters of a class in a text are those of the tokens and those of the other pieces. -/
theorem countP_joined (p : Char → Bool) (ls : List Lexeme) : (joined ls).countP p =
    ((ls.filterMap spelling?).flatMap (·.2.toList)).countP p +
      (joined (ls.filter (·.spelling?.isNone))).countP p := by
  induction ls with
  | nil => rfl
  | cons l rest ih =>
    rw [joined_cons, List.countP_append, ih, List.filterMap_cons, List.filter_cons]
    cases hspelled : l.spelling? with
    | none =>
      dsimp only
      rw [Option.isNone_none, if_pos rfl, joined_cons, List.countP_append]
      omega
    | some spelled =>
      rw [Option.isNone_some, if_neg Bool.false_ne_true, List.flatMap_cons, List.countP_append,
        ← (spelling?_eq_some_iff.mp hspelled).2, Lexeme.text, String.toList_ofList, Nat.add_assoc]

end Lexeme

namespace Token

open Lexeme

variable {t : Token} {ts : List Token} {source : String} {lexed : Lexed}

/-- Whether a token of a run fuses with what is written behind it. -/
def anyFuses : List Token → Bool
  | [] => false
  | t :: rest => t.fuses (chars (some t) rest) || anyFuses rest

/-- The text of a run is read as its tokens unless two of them fuse. -/
theorem readsAs_chars_iff (hts : ∀ t ∈ ts, t.IsLexed) (previous : Option Token) :
    ReadsAs (chars previous ts) (ts.map spelling) ↔ anyFuses ts = false := by
  induction ts generalizing previous with
  | nil => exact iff_of_true readsAs_nil rfl
  | cons t rest ih =>
    obtain ⟨ht, hrest⟩ := List.forall_mem_cons.mp hts
    obtain ⟨c, w, behind, htext, hclass⟩ := id ht
    have hblank := not_isInlineBlank_of_classify hclass
    obtain ⟨hequals, hword⟩ := head_chars hrest t
    have hfirst : ReadsAs (c :: (w ++ chars (some t) rest)) ((t :: rest).map spelling) ↔
        anyFuses (t :: rest) = false := by
      rw [List.map_cons, spelling, readsAs_token htext hblank, classify_seam_iff htext hclass hequals hword,
        ih hrest, anyFuses, Bool.or_eq_false_iff]
    rw [ht.chars_cons, htext, List.cons_append]
    rcases lead_cases previous t with hlead | ⟨hlead, -⟩
    · rw [hlead, List.singleton_append, readsAs_blank (by rw [List.head?_cons, Option.any_some, hblank]), hfirst]
    · rw [hlead, List.nil_append, hfirst]

/-- The text of a run has the characters of its tokens and blanks. -/
theorem countP_chars {p : Char → Bool} (hp : p ' ' = false) (hts : ∀ t ∈ ts, t.IsLexed)
    (previous : Option Token) :
    (chars previous ts).countP p = ((ts.map spelling).flatMap (·.2.toList)).countP p := by
  induction ts generalizing previous with
  | nil => rfl
  | cons t rest ih =>
    obtain ⟨ht, hrest⟩ := List.forall_mem_cons.mp hts
    have hlead : (lead previous t).countP p = 0 := by
      rcases lead_cases previous t with hlead | ⟨hlead, -⟩
      · rw [hlead, List.countP_singleton, hp, if_neg Bool.false_ne_true]
      · rw [hlead, List.countP_nil]
    rw [ht.chars_cons, List.countP_append, List.countP_append, hlead, ih hrest, List.map_cons, List.flatMap_cons,
      List.countP_append, Nat.zero_add]
    rfl

/-- A text of a run that is read as its tokens has only blanks between them. -/
theorem readsAs_chars_of_scan (hts : ∀ t ∈ ts, t.IsLexed) {ls : List Lexeme}
    (hscan : scan (chars none ts) = (ls, none)) (hspellings : ls.filterMap spelling? = ts.map spelling) :
    ReadsAs (chars none ts) (ts.map spelling) := by
  have hcount := countP_joined (· != ' ') ls
  rw [joined_of_scan hscan, hspellings, countP_chars rfl hts] at hcount
  have hnone : (joined (ls.filter (·.spelling?.isNone))).countP (· != ' ') = 0 := by omega
  rw [List.countP_eq_zero] at hnone
  refine ⟨ls, hscan, hspellings, fun l hl hspelled c hc => ?_⟩
  have hmem : c ∈ joined (ls.filter (·.spelling?.isNone)) :=
    List.mem_flatMap.mpr ⟨l, List.mem_filter.mpr ⟨hl, by rw [hspelled]; rfl⟩, hc⟩
  simpa using hnone c hmem

/-! ## Rendered sources -/

/-- The tokens of a run that stand in the source. -/
def written (ts : List Token) : List Token := ts.filter (!·.isInserted)

/-- The written tokens of a source are spelled as its pieces are. -/
theorem spellings_of_tokenize (h : tokenize source = .ok lexed) : ∃ ls, scan source.toList = (ls, none) ∧
    (written lexed.tokens).map spelling = ls.filterMap spelling? := by
  obtain ⟨ls, hscan, rfl⟩ := place_of_tokenize h
  exact ⟨ls, hscan, by
    rw [← filterMap_locatedFrom [] ls, ← Lexed.written_place hscan (List.Subset.refl _) [] none]
    rfl⟩

/-- The written tokens of a source are cut from it. -/
theorem isLexed_of_tokenize (h : tokenize source = .ok lexed) : ∀ t ∈ written lexed.tokens, t.IsLexed := by
  intro t ht
  obtain ⟨ls, hscan, rfl⟩ := place_of_tokenize h
  obtain ⟨hmem, hwritten⟩ := List.mem_filter.mp ht
  obtain ⟨l, hl, hkind, htext⟩ := Lexed.exists_of_mem_place hmem (Bool.not_eq_true' _ |>.mp hwritten)
  obtain ⟨c, rest, n, hclass, hchars⟩ := exists_classify_of_mem hscan hl
  have hle := (piece_of_classify hclass).length_le
  refine ⟨c, rest.take n, rest.drop n, ?_, ?_⟩
  · rw [htext, Lexeme.text, String.toList_ofList, hchars]
  · rw [List.take_append_drop, List.length_take_of_le hle, ← hkind, hclass]

/-- The text of the written tokens of a source is tokenized, and as tokens of the same kinds and texts, exactly when
no written token fuses with the text behind it. -/
theorem tokenize_render_iff (h : tokenize source = .ok lexed) :
    (∃ again, tokenize (render (written lexed.tokens)) = .ok again ∧
      (written again.tokens).map spelling = (written lexed.tokens).map spelling) ↔
        anyFuses (written lexed.tokens) = false := by
  have hts := isLexed_of_tokenize h
  rw [← readsAs_chars_iff hts none]
  constructor
  · rintro ⟨again, hagain, hsame⟩
    obtain ⟨ls, hscan, hspellings⟩ := spellings_of_tokenize hagain
    rw [toList_render] at hscan
    exact readsAs_chars_of_scan hts hscan (hspellings.symm.trans hsame)
  · rintro ⟨ls, hscan, hspellings, -⟩
    rw [← toList_render] at hscan
    have hagain : tokenize (render (written lexed.tokens)) = .ok (Lexed.place .start none ls) := by
      rw [tokenize, hscan]
    obtain ⟨ls', hscan', hspelled⟩ := spellings_of_tokenize hagain
    obtain rfl : ls = ls' := (Prod.mk.inj (hscan.symm.trans hscan')).1
    exact ⟨_, hagain, hspelled.trans hspellings⟩

/-- Neighbours that are written together and do not fuse. -/
theorem tokenize_render_neighbours :
    let source :=
      "for !ok && n < 1.5 \x7b\n\tx.y, z[0x1f] = *p*-1, <-in; f(xs...)\n\tch <- &t\x7b'a': \"b\"\x7d\n\x7d\n"
    ∃ lexed again, tokenize source = .ok lexed ∧
      render (written lexed.tokens) =
        "for!ok && n<1.5\x7bx.y, z[0x1f] = *p*-1, <-in; f(xs...) ch<-&t\x7b'a':\"b\"\x7d\x7d" ∧
      tokenize (render (written lexed.tokens)) = .ok again ∧
      (written again.tokens).map spelling = (written lexed.tokens).map spelling := by
  intro source
  have hread :
      (tokenize source).map (fun lexed => (render (written lexed.tokens), anyFuses (written lexed.tokens))) =
      .ok ("for!ok && n<1.5\x7bx.y, z[0x1f] = *p*-1, <-in; f(xs...) ch<-&t\x7b'a':\"b\"\x7d\x7d", false) := by
    decide +kernel
  cases hlexed : tokenize source with
  | error fault => rw [hlexed] at hread; cases hread
  | ok lexed =>
    rw [hlexed] at hread
    obtain ⟨hrender, hfuses⟩ := Prod.mk.inj (Except.ok.inj hread)
    obtain ⟨again, hagain, hsame⟩ := (tokenize_render_iff hlexed).mpr hfuses
    exact ⟨lexed, again, rfl, hrender, hagain, hsame⟩

/-- Two signs with a blank between them are read as one operator. -/
theorem tokenize_render_twoSigns :
    let source := "x - -y\n"
    ∃ lexed again, tokenize source = .ok lexed ∧ render (written lexed.tokens) = "x--y" ∧
      tokenize (render (written lexed.tokens)) = .ok again ∧
      (written lexed.tokens).map spelling = [(.ident, "x"), (.op, "-"), (.op, "-"), (.ident, "y")] ∧
      (written again.tokens).map spelling = [(.ident, "x"), (.op, "--"), (.ident, "y")] := by
  refine ⟨⟨[⟨.ident, "x", ⟨1, 1⟩⟩, ⟨.op, "-", ⟨1, 3⟩⟩, ⟨.op, "-", ⟨1, 5⟩⟩,
    ⟨.ident, "y", ⟨1, 6⟩⟩,
      ⟨.semi, "\n", ⟨1, 7⟩⟩], []⟩,
    ⟨[⟨.ident, "x", ⟨1, 1⟩⟩, ⟨.op, "--", ⟨1, 2⟩⟩, ⟨.ident, "y", ⟨1, 4⟩⟩,
      ⟨.semi, "\n", ⟨1, 5⟩⟩], []⟩, ?_⟩
  decide +kernel

end Token

end GoIdiom
