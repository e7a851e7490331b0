import GoIdiom.Proofs.Headers.Statements
import GoIdiom.Proofs.Nesting.Levels
import GoIdiom.Proofs.Nesting.Written

/-!
# Written bodies are read

A written body is read, and the levels of the statements are those of its braces that are entered. The proof goes
along the derivation of the body: a statement is read up to the semicolon behind it or to the end, whatever follows,
and an `if` behind `else` shares that semicolon with the whole branch.
-/

namespace GoIdiom.Nesting

open Token Statement Body

/-! ## Ends of statements -/

/-- What may stand behind a statement: nothing, or a semicolon and more. -/
structure Ends (after : List Token) : Prop where
  balanced : Balanced after
  isSemi : ∀ t ∈ after.head?, t.isSemi = true

namespace Ends

variable {after : List Token}

/-- The end of the text ends a statement. -/
theorem nil : Ends [] := ⟨.nil, fun _ ht => nomatch ht⟩

/-- A semicolon ends a statement. -/
theorem cons {t : Token} (ht : t.isSemi = true) (hafter : Balanced after) : Ends (t :: after) := by
  refine ⟨.plain (isPlain_of_isSemi ht) hafter, fun u hu => ?_⟩
  obtain rfl := Option.some.inj hu
  exact ht

/-- Up to the end of a statement there is nothing. -/
theorem spanTop_eq (h : Ends after) : spanTop (·.isSemi) after = ([], after) := by
  cases after with
  | nil => rw [spanTop]
  | cons t after => rw [spanTop, if_pos (h.isSemi t rfl)]

/-- What may stand behind a statement ends it. -/
theorem endsStatement (h : Ends after) : Block.endsStatement after = true := by
  cases after with
  | nil => rfl
  | cons t after => rw [Block.endsStatement, h.isSemi t rfl, Bool.true_or, Bool.true_or]

/-- No other branch stands there. -/
theorem afterBranch_eq (h : Ends after) (follow : Option Token) (pos : Position) (line : Nat) (header : List Token)
    (literals : List FuncLiteral) (body : List Statement) :
    afterBranch follow pos line header literals body after =
      .ok (.branch ⟨none, pos, line⟩ header literals body none, after) := by
  cases after with
  | nil => rfl
  | cons t after =>
    have hword : t.isKeyword "else" = false := by
      rw [isKeyword, beq_iff_eq.mp (h.isSemi t rfl)]
      rfl
    rw [afterBranch.eq_def]
    dsimp only
    rw [hword, if_neg Bool.false_ne_true]

end Ends

/-! ## Statements and their parts -/

section Parts

variable {follow : Option Token} {after : List Token} {ps : List Part} {found : List FuncLiteral}

/-- Whether a statement is an `if`. -/
def isIf : Statement → Bool
  | .branch .. => true
  | _ => false

/-- A body is an else-if exactly when it is one `if` and nothing more. -/
theorem isElseIf_eq (ss : List Statement) : Body.isElseIf ss = (ss.map isIf == [true]) := by
  cases ss with
  | nil => rfl
  | cons s rest => cases rest <;> cases s <;> rfl

/-- A run is read up to its end, with the literals that are cut out of it. -/
theorem exists_readList_run (hps : IsSimple ps) (hcut : cutLiterals (Part.run ps) = .ok (found, Part.shells ps))
    (hafter : Ends after) (follow : Option Token) (label : Option String) :
    ∃ place kind, readList follow label (Part.run ps ++ after) =
      (readList follow none after).map (.plain place kind (Part.shells ps) found :: ·) := by
  obtain ⟨t, rest, hrun, hbegins⟩ := hps.begins
  have hfree := hps.free
  rw [hrun] at hcut hfree ⊢
  have hsemi : t.isSemi = false := (Bool.or_eq_false_iff.mp hfree.head).1
  have htake : takeRun t (rest ++ after) = (t :: rest, after) := by
    have hsemis := (hfree.mono fun u hu => (Bool.or_eq_false_iff.mp hu).1 : Free (·.isSemi) (t :: rest))
    rw [takeRun_eq_spanTop hsemi, ← List.cons_append, hsemis.spanTop_append, hafter.spanTop_eq, List.append_nil]
  simp only [beginsPlain, Bool.and_eq_true, Bool.not_eq_true'] at hbegins
  obtain ⟨⟨hwords, hbrace⟩, hlabel⟩ := hbegins
  have hnolabel : (t.isIdent && (rest ++ after).head?.any (·.isOp ":")) = false := by
    cases rest with
    | cons => exact hlabel
    | nil =>
      cases after with
      | nil => exact Bool.and_false _
      | cons u after =>
        have hcolon : u.isOp ":" = false := by
          rw [isOp, beq_iff_eq.mp (hafter.isSemi u rfl)]
          rfl
        rw [List.nil_append, List.head?_cons, Option.any_some, hcolon, Bool.and_false]
  rw [compoundWords] at hwords
  refine ⟨⟨label, t.pos, (lastOr t (t :: rest)).line⟩, plainKind t, ?_⟩
  rw [List.cons_append, readList_cons, hsemi, if_neg Bool.false_ne_true, hnolabel,
    if_neg Bool.false_ne_true, hwords, if_neg Bool.false_ne_true, hbrace, if_neg Bool.false_ne_true, htake, hcut]
  dsimp only
  cases readList follow none after <;> rfl

/-- The block behind a header is found, with the literals that are cut out of the header. -/
theorem compound_headed_parts {keyword opener closer : Token} {inner : List Token} (hps : IsHeader keyword ps)
    (hcut : cutLiterals (Part.run ps) = .ok (found, Part.shells ps)) (hopen : opener.isOp "\x7b" = true)
    (hinner : Balanced inner) (hclose : closer.isOp "\x7d" = true) (hend : Block.endsStatement after = true)
    (hafter : Balanced after) :
    compound follow keyword (Part.run ps ++ opener :: (inner ++ closer :: after)) =
      (if keyword.isKeywordIn ["switch", "select"] then do
        let clauses ← readClauses closer inner
        let place : Place := ⟨none, keyword.pos, closer.line⟩
        pure (if keyword.isKeyword "switch" then .switch place (Part.shells ps) found clauses
          else .select place (Part.shells ps) found clauses, after)
      else do
        let body ← readList (some closer) none inner
        if keyword.isKeyword "for" then
          pure (.loop ⟨none, keyword.pos, closer.line⟩ (Part.shells ps) found body, after)
        else afterBranch follow keyword.pos closer.line (Part.shells ps) found body after) := by
  have hblock : Block.afterHeader? keyword (Part.run ps ++ opener :: (inner ++ closer :: after)) =
      some ⟨Part.run ps, opener, inner, closer, after⟩ :=
    Block.find?_of_passed hopen hinner (closes_of_isOp hopen hclose) hafter hend hps.passed
  rw [compound_eq, hblock]
  dsimp only
  rw [hcut]
  rfl

/-- A statement ends before its other branch. -/
theorem endsStatement_else {other : Marked} (hother : WrittenElse other) (hafter : Ends after) :
    Block.endsStatement (tokens other ++ after) = true := by
  cases hother with
  | none => exact hafter.endsStatement
  | block hword => exact Bool.or_eq_true_iff.mpr (Or.inl (Bool.or_eq_true_iff.mpr (Or.inr hword)))
  | branch hword => exact Bool.or_eq_true_iff.mpr (Or.inl (Bool.or_eq_true_iff.mpr (Or.inr hword)))

/-- Clauses begin at once. -/
theorem spanTop_clauses {clauses : Marked} (h : WrittenClauses clauses) :
    spanTop startsClause (tokens clauses) = ([], tokens clauses) := by
  cases h with
  | nil => rw [tokens_nil, spanTop]
  | cons hkeyword => rw [tokens_cons, spanTop, if_pos hkeyword]

/-- The literals of a run are found when they are read, and are as deep as the run. -/
theorem exists_cut {run : Marked} (hrun : Balanced (Part.run ps)) (hstay : Part.TypesStay ps)
    (hread : (∀ c ∈ Part.literals ps, c.Readable) ∧
      ∀ found, List.Forall₂ LiteralCut.Reads (Part.literals ps) found →
      Nests entered run (levelsLiterals found)) :
    ∃ found, cutLiterals (Part.run ps) = .ok (found, Part.shells ps) ∧
    Nests entered run (levelsLiterals found) := by
  obtain ⟨found, hcut, hreads⟩ :=
    Part.exists_cutLiterals (show Balanced ([] ++ Part.run ps) from hrun) hread.1 hstay
  exact ⟨found, hcut, hread.2 found hreads⟩

end Parts

/-! ## Bodies -/

mutual

/-- A written body is read. -/
theorem reads_list {ifs : List Bool} {ms : Marked} : WrittenList ifs ms → ∀ (follow : Option Token)
    (label : Option String), ∃ ss, readList follow label (tokens ms) = .ok ss ∧ ss.map isIf = ifs ∧
      Nests entered ms (levelsList ss)
  | .nil, follow, label => ⟨[], by rw [tokens_nil, readList], rfl, .nil⟩
  | .semi ht hrest, follow, label => by
    obtain ⟨ss, hread, hifs, hnests⟩ := reads_list hrest follow label
    refine ⟨ss, ?_, hifs, hnests.cons _⟩
    rw [tokens_cons, readList_semi ht, hread]
  | @WrittenList.label name colon _ _ hname hcolon hrest, follow, label => by
    obtain ⟨ss, hread, hifs, hnests⟩ := reads_list hrest follow (some name.text)
    refine ⟨ss, ?_, hifs, (hnests.cons _).cons _⟩
    have hsemi : name.isSemi = false := by
      rw [isSemi, beq_iff_eq.mp hname]
      rfl
    rw [tokens_cons, tokens_cons, readList_cons, hsemi, if_neg Bool.false_ne_true, hname, List.head?_cons,
      Option.any_some, hcolon, Bool.and_self, if_pos rfl]
    exact hread
  | .last hs, follow, label => by
    obtain ⟨found, hread, hif, hnests⟩ := reads_statement hs follow label .nil
    refine ⟨[found], ?_, ?_, ?_⟩
    · rw [List.append_nil] at hread
      rw [hread, readList]
      rfl
    · rw [List.map_singleton, hif]
    · exact hnests.congr (Nat.max_zero _).symm
  | .cons hs ht hrest, follow, label => by
    obtain ⟨ss, hmore, hifs, hafter⟩ := reads_list hrest follow none
    obtain ⟨found, hread, hif, hnests⟩ := reads_statement hs follow label (.cons ht (free_list hrest).balanced)
    refine ⟨found :: ss, ?_, ?_, hnests.append (hafter.cons _)⟩
    · rw [tokens_append, tokens_cons, hread, readList_semi ht, hmore]
      rfl
    · rw [List.map_cons, hif, hifs]

/-- A written statement is read up to its end. -/
theorem reads_statement {b : Bool} {ms : Marked} : WrittenStatement b ms → ∀ (follow : Option Token)
    (label : Option String) {after : List Token}, Ends after → ∃ s, readList follow label (tokens ms ++ after) =
      (readList follow none after).map (s :: ·) ∧ isIf s = b ∧ Nests entered ms (levels s)
  | .simple hps hrun, follow, label, after, hafter => by
    obtain ⟨found, hcut, hnests⟩ := exists_cut hps.free.balanced hps.typesStay (reads_run hrun)
    obtain ⟨place, kind, hread⟩ := exists_readList_run hps hcut hafter follow label
    rw [tokens_run hrun]
    exact ⟨_, hread, rfl, hnests⟩
  | @WrittenStatement.block opener closer _ _ hopen hbody hclose, follow, label, after, hafter => by
    obtain ⟨ss, hread, -, hnests⟩ := reads_list hbody (some closer) none
    refine ⟨.block ⟨label, opener.pos, closer.line⟩ ss, ?_, rfl,
      ((hnests.append (Nests.nil.cons _)).cons _).congr (Nat.max_zero _)⟩
    have hkind := (isOp_iff.mp hopen).1
    have hsemi : opener.isSemi = false := not_isSemi_of_isOp hopen
    have hident : opener.isIdent = false := by
      rw [isIdent, hkind]
      rfl
    have hwords : opener.isKeywordIn ["if", "for", "switch", "select"] = false := by
      rw [isKeywordIn, hkind]
      rfl
    have hgroup := (free_list hbody).balanced.closeGroup_append (closes_of_isOp hopen hclose).2.1 after
    simp only [tokens_cons, tokens_append, tokens_nil, List.cons_append, List.append_assoc, List.nil_append]
    rw [readList_cons, hsemi, if_neg Bool.false_ne_true, hident, Bool.false_and, if_neg Bool.false_ne_true, hwords,
      if_neg Bool.false_ne_true, if_pos hopen, hgroup]
    dsimp only
    rw [hread]
    cases readList follow none after <;> rfl
  | .compound hkeyword hrest, follow, label, after, hafter => by
    obtain ⟨s, hread, hif, hnests⟩ := reads_compound hrest follow hafter
    refine ⟨s.withLabel label, ?_, ?_, ?_⟩
    · rw [tokens_cons, List.cons_append, readList_keyword hkeyword, hread]
      dsimp only [bind, Except.bind]
      cases readList follow none after <;> rfl
    · rw [← hif]
      cases s <;> rfl
    · refine (hnests.cons _).congr ?_
      cases s <;> simp only [levels, withLabel, withPlace]

/-- What is written behind the keyword of a compound statement is read up to its end. -/
theorem reads_compound {keyword : Token} {ms : Marked} : WrittenCompound keyword ms → ∀ (follow : Option Token)
    {after : List Token}, Ends after → ∃ s, compound follow keyword (tokens ms ++ after) = .ok (s, after) ∧
      isIf s = keyword.isKeyword "if" ∧ Nests entered ms (levels s)
  | @WrittenCompound.branch _ _ closer ps _ _ _ _ hkeyword hps hheader hopen hbody hclose hother, follow, after,
      hafter => by
    obtain ⟨found, hcut, hfound⟩ := exists_cut hps.free.balanced hps.typesStay (reads_run hheader)
    obtain ⟨ss, hread, -, hnests⟩ := reads_list hbody (some closer) none
    obtain ⟨endLine, otherwise, helse, hmore⟩ := reads_else hother follow hafter keyword.pos closer.line
      (Part.shells ps) found ss
    refine ⟨.branch ⟨none, keyword.pos, endLine⟩ (Part.shells ps) found ss otherwise, ?_, hkeyword.symm, ?_⟩
    · have hnot : keyword.isKeywordIn ["switch", "select"] = false := isKeywordIn_of_isKeyword hkeyword
      have hfor : keyword.isKeyword "for" = false := isKeyword_of_isKeyword hkeyword "for"
      simp only [tokens_append, tokens_braced, tokens_run hheader, List.cons_append, List.append_assoc,
        List.nil_append]
      rw [compound_headed_parts hps hcut hopen (free_list hbody).balanced hclose (endsStatement_else hother hafter)
        ((free_else hother).balanced.append hafter.balanced), hnot, if_neg Bool.false_ne_true, hread]
      dsimp only [bind, Except.bind]
      rw [hfor, if_neg Bool.false_ne_true, helse]
    · exact hfound.append ((hnests.braced ..).append hmore)
  | @WrittenCompound.loop _ _ closer ps _ _ _ hkeyword hps hheader hopen hbody hclose, follow, after, hafter => by
    obtain ⟨found, hcut, hfound⟩ := exists_cut hps.free.balanced hps.typesStay (reads_run hheader)
    obtain ⟨ss, hread, -, hnests⟩ := reads_list hbody (some closer) none
    have hif : keyword.isKeyword "if" = false := isKeyword_of_isKeyword hkeyword "if"
    refine ⟨.loop ⟨none, keyword.pos, closer.line⟩ (Part.shells ps) found ss, ?_, hif.symm, ?_⟩
    · have hnot : keyword.isKeywordIn ["switch", "select"] = false := isKeywordIn_of_isKeyword hkeyword
      simp only [tokens_append, tokens_braced, tokens_run hheader, List.cons_append, List.append_assoc,
        List.nil_append]
      rw [compound_headed_parts hps hcut hopen (free_list hbody).balanced hclose hafter.endsStatement
        hafter.balanced, hnot, if_neg Bool.false_ne_true, hread]
      dsimp only [bind, Except.bind]
      rw [if_pos hkeyword]
      rfl
    · exact hfound.append (hnests.braced ..)
  | @WrittenCompound.choice _ _ closer ps _ _ hkeyword hps hheader hopen hclauses hsome hclose, follow, after,
      hafter => by
    obtain ⟨found, hcut, hfound⟩ := exists_cut hps.free.balanced hps.typesStay (reads_run hheader)
    obtain ⟨cs, n, hread, hlevels, hnonzero, hnests⟩ := reads_clauses hclauses closer
    -- without clauses the braces would be a level of the text and none of the tree
    have hdeeper : n + 1 = levelsClauses cs := by
      have hpos := hnonzero hsome
      omega
    have hif : keyword.isKeyword "if" = false := by
      obtain ⟨word, hmem, hword⟩ := isKeywordIn_iff.mp hkeyword
      rw [isKeyword_of_isKeyword hword]
      revert hmem
      simp only [List.mem_cons, List.not_mem_nil, or_false]
      rintro (rfl | rfl) <;> rfl
    refine ⟨if keyword.isKeyword "switch" then
      .switch ⟨none, keyword.pos, closer.line⟩ (Part.shells ps) found cs
      else .select ⟨none, keyword.pos, closer.line⟩ (Part.shells ps) found cs, ?_, ?_, ?_⟩
    · simp only [tokens_append, tokens_braced, tokens_run hheader, List.cons_append, List.append_assoc,
        List.nil_append]
      rw [compound_headed_parts hps hcut hopen (balanced_clauses hclauses) hclose hafter.endsStatement
        hafter.balanced, if_pos hkeyword, hread]
      rfl
    · rw [hif]
      split <;> rfl
    · refine (hfound.append (hnests.braced ..)).congr ?_
      rw [show n + (if entered true then 1 else 0) = levelsClauses cs from hdeeper]
      split <;> rw [levels]

/-- A written other branch is read up to its end. -/
theorem reads_else {ms : Marked} :
    WrittenElse ms → ∀ (follow : Option Token) {after : List Token}, Ends after →
    ∀ (start : Position) (line : Nat) (header : List Token) (literals : List FuncLiteral) (body : List Statement),
      ∃ endLine otherwise, afterBranch follow start line header literals body (tokens ms ++ after) =
        .ok (.branch ⟨none, start, endLine⟩ header literals body otherwise, after) ∧
          Nests entered ms (levelsOther otherwise)
  | .none, follow, _, hafter, start, line, header, literals, body =>
    ⟨line, none, hafter.afterBranch_eq follow start line header literals body, .nil⟩
  | @WrittenElse.block _ _ closer ifs _ hword hopen hbody hclose, follow, after, _, start, line, header, literals,
      body => by
    obtain ⟨ss, hread, hifs, hnests⟩ := reads_list hbody (some closer) none
    refine ⟨closer.line, some ss, ?_, ?_⟩
    · rw [tokens_cons, tokens_braced, afterBranch_braced hword hopen (free_list hbody).balanced hclose, hread]
      rfl
    · refine ((hnests.braced ..).cons _).congr ?_
      -- the tree keeps the statements of the block and not its braces, so a single `if` reads as `else if`
      rw [levelsOther, isElseIf_eq, hifs, bne]
      cases ifs == [true] <;> rfl
  | .branch hword hkeyword hrest, follow, _, hafter, start, line, header, literals, body => by
    obtain ⟨s, hread, hif, hnests⟩ := reads_compound hrest follow hafter
    refine ⟨s.endLine, some [s], ?_, ?_⟩
    · rw [tokens_cons, tokens_cons, List.cons_append, List.cons_append, afterBranch.eq_def]
      dsimp only
      rw [if_pos hword, if_pos hkeyword, hread]
      rfl
    · refine ((hnests.cons _).cons _).congr ?_
      have hsingle : Body.isElseIf [s] = true := by
        rw [isElseIf_eq, List.map_singleton, hif, hkeyword]
        rfl
      rw [levelsOther, if_pos hsingle]
      exact (Nat.max_zero _).symm

/-- Written clauses are read. They are one level deeper than what stands between them, if there are any. -/
theorem reads_clauses {ms : Marked} : WrittenClauses ms → ∀ next : Token, ∃ cs n,
    readClauses next (tokens ms) = .ok cs ∧ max 1 (levelsClauses cs) = n + 1 ∧
      (ms ≠ [] → 1 ≤ levelsClauses cs) ∧ Nests entered ms n
  | .nil, next => by
    refine ⟨[], 0, ?_, rfl, fun h => absurd rfl h, .nil⟩
    rw [tokens_nil, readClauses_eq, spanTop]
  | @WrittenClauses.cons keyword _ ps _ header _ rest hkeyword hps hheader hcolon hbody hrest, next => by
    obtain ⟨ss, hread, -, hnests⟩ := reads_list hbody (some ((tokens rest).headD next)) none
    obtain ⟨cs, n, hmore, hlevels, -, hafter⟩ := reads_clauses hrest next
    have hheader_nests : Nests entered (hidden header) 0 := Nests.hidden (.of_none header)
    refine ⟨.mk keyword.pos (keyword.text == "default") (Part.run ps) ss :: cs, max (levelsList ss) n, ?_,
      ?_, ?_, ?_⟩
    · simp only [tokens_cons, tokens_append, tokens_hidden, tokens_run hheader]
      rw [readClauses_free hkeyword hps.free hps.colonless hcolon (free_list hbody) (spanTop_clauses hrest), hread,
        hmore]
      rfl
    · rw [levelsClauses]
      omega
    · intro _
      rw [levelsClauses]
      omega
    · exact ((hheader_nests.append ((hnests.append hafter).cons _)).cons _).congr (Nat.zero_max _)

/-- The literals of a written run are read, and are as deep as the run. -/
theorem reads_run {ps : List Part} {run : Marked} :
    WrittenRun ps run → (∀ c ∈ Part.literals ps, c.Readable) ∧
    ∀ found, List.Forall₂ LiteralCut.Reads (Part.literals ps) found → Nests entered run (levelsLiterals found)
  | .nil => by
    refine ⟨fun c hc => absurd hc List.not_mem_nil, fun found hfound => ?_⟩
    obtain rfl := List.forall₂_nil_left_iff.mp hfound
    exact .nil
  | .plain hrest => by
    obtain ⟨hread, hnests⟩ := reads_run hrest
    exact ⟨hread, fun found hfound => (hnests found hfound).cons _⟩
  | .functionType hrest => by
    obtain ⟨hread, hnests⟩ := reads_run hrest
    exact ⟨hread, fun found hfound => ((hnests found hfound).cons _).cons _⟩
  | @WrittenRun.literal c _ ps _ _ _ hinner hbody hrest => by
    obtain ⟨hread, hnests⟩ := reads_run hrest
    obtain ⟨ss, hss, -, hdeep⟩ := reads_list hbody (some c.body.closer) none
    rw [← hinner] at hss
    refine ⟨List.forall_mem_cons.mpr ⟨⟨ss, hss⟩, hread⟩, fun found hfound => ?_⟩
    obtain ⟨f, more, hf, hmore, rfl⟩ := List.forall₂_cons_left_iff.mp hfound
    obtain ⟨start, endLine, params, results, body⟩ := f
    obtain rfl : body = ss := Except.ok.inj (hf.body.symm.trans hss)
    refine ((Nests.plainly _).append ((hdeep.braced ..).append (hnests more hmore))).congr ?_
    rw [levelsLiterals, Nat.zero_max]
    rfl

end

end GoIdiom.Nesting
