import GoIdiom.Proofs.Derivation

/-!
# The statements of a tree at every depth

The statements that are nested in a statement list, those of function literals included, are its forest. Every
statement of the forest begins at a token of the list that was read and ends in the line of a later one, and a
go, defer, for or select statement begins at its keyword.
-/

namespace GoIdiom.Statement

mutual

/-- The statements inside a statement, at every depth and in function literals too. -/
def nested : Statement → List Statement
  | .plain _ _ _ literals => literalForest literals
  | .block _ body => forest body
  | .branch _ _ literals body otherwise => literalForest literals ++ (forest body ++ otherForest otherwise)
  | .loop _ _ literals body => literalForest literals ++ forest body
  | .switch _ _ literals clauses => literalForest literals ++ clauseForest clauses
  | .select _ _ literals clauses => literalForest literals ++ clauseForest clauses

/-- The statements of a list and those inside them. -/
def forest : List Statement → List Statement
  | [] => []
  | s :: rest => s :: (nested s ++ forest rest)

/-- The statements of the other branch and those inside them. -/
def otherForest : Option (List Statement) → List Statement
  | none => []
  | some body => forest body

/-- The statements of clauses and those inside them. -/
def clauseForest : List Clause → List Statement
  | [] => []
  | .mk _ _ _ body :: rest => forest body ++ clauseForest rest

/-- The statements of function literals and those inside them. -/
def literalForest : List FuncLiteral → List Statement
  | [] => []
  | .mk _ _ _ _ body :: rest => forest body ++ literalForest rest

end

/-- The keyword that a go, defer, for or select statement begins with. -/
def keyword? : Statement → Option String
  | .plain _ .go _ _ => some "go"
  | .plain _ .defer _ _ => some "defer"
  | .loop .. => some "for"
  | .select .. => some "select"
  | _ => none

/-- A label changes nothing inside a statement. -/
theorem nested_withLabel (label : Option String) (s : Statement) : (s.withLabel label).nested = s.nested := by
  cases s <;> simp only [withLabel, withPlace, nested]

/-- A label is no part of the keyword. -/
theorem keyword?_withLabel (label : Option String) (s : Statement) : (s.withLabel label).keyword? = s.keyword? := by
  cases s with
  | plain _ kind => cases kind <;> rfl
  | _ => rfl

/-- A label changes neither the first position nor the last line. -/
theorem place_withLabel (label : Option String) (s : Statement) :
    (s.withLabel label).pos = s.pos ∧ (s.withLabel label).endLine = s.endLine := by
  cases s <;> exact ⟨rfl, rfl⟩

/-- A statement stands in a token list: it begins at a token, with its keyword if it has one, and ends in the line
of that token or of a later one. -/
structure StandsFrom (first : Token) (more : List Token) (s : Statement) : Prop where
  pos : s.pos = first.pos
  keyword : ∀ word ∈ s.keyword?, first.isKeyword word = true
  ends : ∃ last ∈ first :: more, s.endLine = last.line

/-- A statement stands somewhere in a token list. -/
def StandsIn (ts : List Token) (s : Statement) : Prop :=
  ∃ first more, (first :: more).Sublist ts ∧ StandsFrom first more s

/-- A longer list. -/
theorem StandsIn.mono {ts us : List Token} {s : Statement} (h : StandsIn ts s) (hsub : ts.Sublist us) :
    StandsIn us s := by
  obtain ⟨first, more, hmore, hs⟩ := h
  exact ⟨first, more, hmore.trans hsub, hs⟩

/-- A statement that has got a label. -/
theorem StandsFrom.withLabel {first : Token} {more : List Token} {s : Statement} (h : StandsFrom first more s)
    (label : Option String) : StandsFrom first more (s.withLabel label) := by
  obtain ⟨hpos, hends⟩ := place_withLabel label s
  exact ⟨hpos.trans h.pos, keyword?_withLabel label s ▸ h.keyword, hends ▸ h.ends⟩

/-- A plain statement has the keyword of its kind. -/
theorem isKeyword_of_plain {t : Token} {word : String} {place : Place} {own : List Token}
    {literals : List FuncLiteral} (h : word ∈ (plain place (plainKind t) own literals).keyword?) :
    t.isKeyword word = true := by
  unfold plainKind at h
  split at h
  · cases h
  · next hkind =>
    have hkeyword : t.kind = .keyword := by simpa using hkind
    have hnamed {text : String} (htext : t.text = text) : t.isKeyword text = true := by
      rw [Token.isKeyword, hkeyword, htext]
      exact beq_self_eq_true text
    split at h
    · next htext => exact Option.some.inj h ▸ hnamed htext
    · next htext => exact Option.some.inj h ▸ hnamed htext
    all_goals cases h

/-- The last token of a run, or the one in front of it. -/
theorem lastOr_mem (t : Token) (run : List Token) : lastOr t run ∈ t :: run := by
  rw [lastOr, List.getLastD_eq_getLast?]
  cases hlast : run.getLast? with
  | none => exact List.mem_cons_self
  | some u => exact List.mem_cons_of_mem _ (List.mem_of_getLast? hlast)

/-- A statement that begins at a keyword and ends with the brace of a block. -/
theorem standsFrom_block {keyword : Token} {ts : List Token} {b : Block} {s : Statement}
    (hb : Block.afterHeader? keyword ts = some b) (hpos : s.pos = keyword.pos) (hends : s.endLine = b.closer.line)
    (hkeyword : ∀ word ∈ s.keyword?, keyword.isKeyword word = true) : StandsFrom keyword ts s := by
  refine ⟨hpos, hkeyword, b.closer, List.mem_cons_of_mem _ ?_, hends⟩
  rw [← Block.run_afterHeader? hb]
  simp [Block.run]

/-- The parts of a block in the tokens that it was found in. -/
theorem sublist_of_afterHeader? {keyword : Token} {ts : List Token} {b : Block}
    (hb : Block.afterHeader? keyword ts = some b) :
    b.before.Sublist ts ∧ b.inner.Sublist ts ∧ (b.closer :: b.rest).Sublist ts := by
  have hinside : (b.inner ++ b.closer :: b.rest).Sublist ts := by
    rw [← Block.run_afterHeader? hb]
    exact (List.sublist_cons_self ..).trans (List.sublist_append_right ..)
  refine ⟨?_, (List.sublist_append_left ..).trans hinside, (List.sublist_append_right ..).trans hinside⟩
  rw [← Block.run_afterHeader? hb]
  exact List.sublist_append_left ..

/-- The parts of a group in the tokens that it was found in. -/
theorem sublist_of_closeGroup {ts : List Token} {g : Token.Group} (hg : Token.closeGroup ts = some g) :
    g.inner.Sublist ts ∧ (g.closer :: g.rest).Sublist ts := by
  rw [← Token.splitGroup_eq_append hg]
  exact ⟨List.sublist_append_left .., List.sublist_append_right ..⟩

/-- Statements that stand in a longer list. -/
theorem standsIn_mono {ts us : List Token} {ss : List Statement} (h : ∀ s ∈ ss, StandsIn ts s)
    (hsub : ts.Sublist us) : ∀ s ∈ ss, StandsIn us s := fun s hs => (h s hs).mono hsub

mutual

/-- The statements of a list stand in its tokens. -/
theorem stands_list {ts : List Token} {ss : List Statement} :
    DerivesList ts ss → ∀ s ∈ forest ss, StandsIn ts s
  | .nil => fun _ hs => absurd hs List.not_mem_nil
  | .semi _ hrest => standsIn_mono (stands_list hrest) (List.sublist_cons_self ..)
  | .label _ _ hrest =>
    standsIn_mono (stands_list hrest) ((List.sublist_cons_self ..).trans (List.sublist_cons_self ..))
  | .compound label _ hs hrest => by
    obtain ⟨hown, hnested, hsub⟩ := stands_compound hs
    rw [forest, nested_withLabel]
    refine List.forall_mem_cons.mpr ⟨⟨_, _, List.Sublist.refl _, hown.withLabel label⟩, ?_⟩
    refine List.forall_mem_append.mpr ⟨standsIn_mono hnested (List.sublist_cons_self ..), ?_⟩
    exact standsIn_mono (stands_list hrest) (hsub.trans (List.sublist_cons_self ..))
  | .block (g := g) label _ hg hbody hrest => by
    obtain ⟨hinner, hafter⟩ := sublist_of_closeGroup hg
    rw [forest, nested]
    refine List.forall_mem_cons.mpr ⟨⟨_, _, List.Sublist.refl _, rfl, ?_, g.closer, ?_, rfl⟩,
      List.forall_mem_append.mpr ⟨?_, ?_⟩⟩
    · intro word hword
      cases hword
    · exact List.mem_cons_of_mem _ (hafter.subset List.mem_cons_self)
    · exact standsIn_mono (stands_list hbody) (hinner.trans (List.sublist_cons_self ..))
    · refine standsIn_mono (stands_list hrest) ?_
      exact ((List.sublist_cons_self ..).trans hafter).trans (List.sublist_cons_self ..)
  | @DerivesList.plain t ts _ _ _ label _ hcut hrest => by
    have happend := takeRun_append t ts
    obtain ⟨run, hrun⟩ := Token.takePiece_eq_cons t ts
    have hfirst : (takeRun t ts).1 = t :: (run ++ (Token.spanTop (·.isSemi) (Token.takePiece t ts).2).1) := by
      rw [takeRun, hrun]
      rfl
    have hown : (takeRun t ts).1.Sublist (t :: ts) := by
      conv => rhs; rw [← happend]
      exact List.sublist_append_left ..
    have hafter : (takeRun t ts).2.Sublist (t :: ts) := by
      conv => rhs; rw [← happend]
      exact List.sublist_append_right ..
    rw [forest, nested]
    refine List.forall_mem_cons.mpr ⟨?_,
      List.forall_mem_append.mpr ⟨?_, standsIn_mono (stands_list hrest) hafter⟩⟩
    · refine ⟨t, _, hfirst ▸ hown, rfl, fun word hword => isKeyword_of_plain hword, _, ?_, rfl⟩
      have hlast := lastOr_mem t (takeRun t ts).1
      rw [hfirst] at hlast
      rcases List.mem_cons.mp hlast with hlast | hlast
      · rw [hfirst, hlast]
        exact List.mem_cons_self
      · rwa [hfirst]
    · exact standsIn_mono (stands_cut hcut) hown

/-- A compound statement stands at its keyword, and the statements inside it stand in the tokens after that. -/
theorem stands_compound {keyword : Token} {ts rest : List Token} {s : Statement} :
    DerivesCompound keyword ts s rest →
      StandsFrom keyword ts s ∧ (∀ s' ∈ s.nested, StandsIn ts s') ∧ rest.Sublist ts
  | .loop hkeyword hb hcut hbody => by
    obtain ⟨hbefore, hinner, hafter⟩ := sublist_of_afterHeader? hb
    refine ⟨standsFrom_block hb rfl rfl fun word hword => ?_, ?_, (List.sublist_cons_self ..).trans hafter⟩
    · obtain rfl := Option.some.inj hword
      exact hkeyword
    · rw [nested]
      exact List.forall_mem_append.mpr ⟨standsIn_mono (stands_cut hcut) hbefore,
        standsIn_mono (stands_list hbody) hinner⟩
  | .switch hkeyword hb hcut hclauses => by
    obtain ⟨hbefore, hinner, hafter⟩ := sublist_of_afterHeader? hb
    refine ⟨standsFrom_block hb rfl rfl fun word hword => ?_, ?_, (List.sublist_cons_self ..).trans hafter⟩
    · cases hword
    · rw [nested]
      exact List.forall_mem_append.mpr
        ⟨standsIn_mono (stands_cut hcut) hbefore, standsIn_mono (stands_clauses hclauses) hinner⟩
  | .select hkeyword hb hcut hclauses => by
    obtain ⟨hbefore, hinner, hafter⟩ := sublist_of_afterHeader? hb
    refine ⟨standsFrom_block hb rfl rfl fun word hword => ?_, ?_, (List.sublist_cons_self ..).trans hafter⟩
    · obtain rfl := Option.some.inj hword
      exact hkeyword
    · rw [nested]
      exact List.forall_mem_append.mpr
        ⟨standsIn_mono (stands_cut hcut) hbefore, standsIn_mono (stands_clauses hclauses) hinner⟩
  | .branch hkeyword hb hcut hbody hother => by
    obtain ⟨hbefore, hinner, hafter⟩ := sublist_of_afterHeader? hb
    have hrest := (List.sublist_cons_self ..).trans hafter
    obtain ⟨hstands, hsub, hends⟩ := stands_other hother
    refine ⟨⟨rfl, ?_, ?_⟩, ?_, hsub.trans hrest⟩
    · intro word hword
      cases hword
    · rcases hends with hends | ⟨last, hlast, hends⟩
      · exact ⟨_, List.mem_cons_of_mem _ (hafter.subset List.mem_cons_self), hends⟩
      · exact ⟨last, List.mem_cons_of_mem _ (hrest.subset hlast), hends⟩
    · rw [nested]
      exact List.forall_mem_append.mpr ⟨standsIn_mono (stands_cut hcut) hbefore,
        List.forall_mem_append.mpr ⟨standsIn_mono (stands_list hbody) hinner, standsIn_mono hstands hrest⟩⟩

/-- The statements of the other branch stand in its tokens, and it ends there, if it is not missing. -/
theorem stands_other {line endLine : Nat} {ts rest : List Token} {other : Option (List Statement)} :
    DerivesOther line ts other endLine rest →
      (∀ s ∈ otherForest other, StandsIn ts s) ∧ rest.Sublist ts ∧
        (endLine = line ∨ ∃ last ∈ ts, endLine = last.line)
  | .none => ⟨fun _ hs => absurd hs List.not_mem_nil, List.Sublist.refl _, Or.inl rfl⟩
  | .block (g := g) _ _ hg hbody => by
    obtain ⟨hinner, hafter⟩ := sublist_of_closeGroup hg
    refine ⟨?_, ?_, Or.inr ⟨g.closer, ?_, rfl⟩⟩
    · exact standsIn_mono (stands_list hbody)
        ((hinner.trans (List.sublist_cons_self ..)).trans (List.sublist_cons_self ..))
    · exact (((List.sublist_cons_self ..).trans hafter).trans (List.sublist_cons_self ..)).trans
        (List.sublist_cons_self ..)
    · exact List.mem_cons_of_mem _ (List.mem_cons_of_mem _ (hafter.subset List.mem_cons_self))
  | .branch _ _ hs => by
    obtain ⟨hown, hnested, hsub⟩ := stands_compound hs
    obtain ⟨last, hlast, hends⟩ := hown.ends
    refine ⟨?_, (hsub.trans (List.sublist_cons_self ..)).trans (List.sublist_cons_self ..),
      Or.inr ⟨last, List.mem_cons_of_mem _ hlast, hends⟩⟩
    rw [otherForest, forest, forest, List.append_nil]
    refine List.forall_mem_cons.mpr ⟨⟨_, _, List.sublist_cons_self .., hown⟩, ?_⟩
    exact standsIn_mono hnested ((List.sublist_cons_self ..).trans (List.sublist_cons_self ..))

/-- The statements of clauses stand in their tokens. -/
theorem stands_clauses {ts : List Token} {cs : List Clause} :
    DerivesClauses ts cs → ∀ s ∈ clauseForest cs, StandsIn ts s
  | .nil _ => fun _ hs => absurd hs List.not_mem_nil
  | @DerivesClauses.cons ts rest header _ keyword colon _ _ hkeyword hheader hbody hmore => by
    have hclause : (keyword :: rest).Sublist ts := by
      rw [← hkeyword]
      conv => rhs; rw [← Token.spanTop_append startsClause ts]
      exact List.sublist_append_right ..
    have hrest := (List.sublist_cons_self ..).trans hclause
    have hparts := Token.spanTop_append startsClause rest
    have hown : (Token.spanTop startsClause rest).1.Sublist rest := by
      conv => rhs; rw [← hparts]
      exact List.sublist_append_left ..
    have hnext : (Token.spanTop startsClause rest).2.Sublist rest := by
      conv => rhs; rw [← hparts]
      exact List.sublist_append_right ..
    rw [clauseForest]
    refine List.forall_mem_append.mpr ⟨standsIn_mono (stands_list hbody) ?_,
      standsIn_mono (stands_clauses hmore) (hnext.trans hrest)⟩
    have hsplit := Token.spanTop_append (·.isOp ":") (Token.spanTop startsClause rest).1
    rw [hheader] at hsplit
    refine List.Sublist.trans ?_ (hown.trans hrest)
    rw [← hsplit]
    exact (List.sublist_cons_self ..).trans (List.sublist_append_right ..)

/-- The statements of function literals stand in the tokens that these were cut out of. -/
theorem stands_cut {ts own : List Token} {literals : List FuncLiteral} :
    DerivesCut ts literals own → ∀ s ∈ literalForest literals, StandsIn ts s
  | .nil => fun _ hs => absurd hs List.not_mem_nil
  | .keep _ hrest => standsIn_mono (stands_cut hrest) (List.sublist_cons_self ..)
  | .literal (c := c) hc hbody hrest => by
    have hall := LiteralCut.all_append_rest hc
    rw [literalForest, ← hall]
    refine List.forall_mem_append.mpr ⟨standsIn_mono (stands_list hbody) ?_,
      standsIn_mono (stands_cut hrest) (List.sublist_append_right ..)⟩
    refine List.Sublist.trans ?_ (List.sublist_append_left ..)
    exact ((List.sublist_append_left ..).trans (List.sublist_cons_self ..)).trans (List.sublist_append_right ..)

end

end GoIdiom.Statement
