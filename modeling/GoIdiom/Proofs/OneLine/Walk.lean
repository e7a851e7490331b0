import GoIdiom.Proofs.Enclosures.Functions
import GoIdiom.Proofs.Enclosures.Tokens
import GoIdiom.Proofs.OneLine.Tokens

/-!
# Names of constructs in bodies

Messages show names of constructs: what is declared, called or checked, and the function around it. A walk through
statements finds constructs with names in one line when the names among the tokens are, and those of the context
that the walk begins in.
-/

namespace GoIdiom

open Text

/-- The names that messages show of a construct. -/
def Detail.names : Detail → List String
  | .package name _ => [name]
  | .function f => f.name :: ((f.receiver.bind (·.name)).toList ++ f.params.filterMap (·.name))
  | .testFunction t => [t.name, t.head]
  | .interface i => i.name :: i.methods.map (·.name)
  | .struct s => s.name :: s.fields.flatMap (·.names)
  | .type t => [t.name]
  | .global g => g.names.map (·.1)
  | .go g => g.capturedLoopVars ++ g.params.filterMap (·.name)
  | .defer d => [d.function]
  | .call c => [c.callee, c.function, c.package]
  | .errorCheck e => [e.errorName]
  | .errorReturn e => e.errorName.toList ++ [e.function]
  | .errorConstruct e => e.errorArguments
  | _ => []

/-- Whether the names that messages show of a construct are in one line. -/
def Construct.NamesInLine (c : Construct) : Prop := ∀ name ∈ c.detail.names, OneLine name

/-- A construct of which no name is shown. -/
theorem Construct.namesInLine_of_nil {c : Construct} (h : c.detail.names = []) : c.NamesInLine := by
  rw [NamesInLine, h]
  exact List.forall_mem_nil _

/-- Whether the names that a file and a context give to constructs are in one line. -/
structure Context.NamesInLine (file : FileInfo) (ctx : Context) : Prop where
  package : OneLine file.package
  function : OneLine ctx.function
  loopVars : ∀ name ∈ ctx.loopVars, OneLine name

namespace Context.NamesInLine

variable {file : FileInfo} {ctx : Context} (h : NamesInLine file ctx)
include h

/-- Names stay in line in a block. -/
theorem enter : NamesInLine file ctx.enter := ⟨h.package, h.function, h.loopVars⟩

/-- Names stay in line in a guarded block. -/
theorem enterGuarded (guard : Option Guard) : NamesInLine file (ctx.enterGuarded guard) :=
  ⟨h.package, h.function, h.loopVars⟩

/-- Names stay in line in a loop whose own names are. -/
theorem enterLoop {names : List String} (hnames : ∀ name ∈ names, OneLine name) :
    NamesInLine file (ctx.enterLoop names) :=
  ⟨h.package, h.function, List.forall_mem_append.mpr ⟨h.loopVars, hnames⟩⟩

/-- Names stay in line in a function literal. -/
theorem enterLiteral (frame : Frame) (launched : Bool) : NamesInLine file (ctx.enterLiteral frame launched) :=
  ⟨h.package, h.function, h.loopVars⟩

end Context.NamesInLine

variable {file : FileInfo} {ctx : Context} {ts : List Token}

/-! ## Expressions -/

namespace Expression

/-- The errors that a new error is made of are names. -/
theorem oneLine_errorArguments {c : Call} {function : String}
    (h : ∀ argument ∈ c.arguments, ∀ t ∈ argument, t.NamesInLine) :
    ∀ name ∈ (errorOf c function).errorArguments, OneLine name := by
  intro name hname
  obtain ⟨argument, hargument, hname⟩ := List.mem_filterMap.mp hname
  have htokens := h argument (List.mem_of_mem_drop hargument)
  split at hname
  · next t =>
    obtain ⟨herror, hsome⟩ := Option.ite_none_right_eq_some.mp hname
    obtain rfl := Option.some.inj hsome
    have htext : OneLine t.text := htokens t (List.mem_singleton_self t) (.inr herror)
    exact Token.oneLine_render (List.forall_mem_singleton.mpr (.inr htext))
  · cases hname

/-- What a call is besides a call shows no name, but for the new errors. -/
theorem names_special {c : Call} {d : Detail} (h : special ctx c = .ok (some d)) :
    d.names ⊆ (errorOf c ctx.function).errorArguments := by
  have hfound {d' : Detail} (h : (pure (some d') : Except SizeFault (Option Detail)) = .ok (some d))
      (hd' : d'.names ⊆ (errorOf c ctx.function).errorArguments) :
      d.names ⊆ (errorOf c ctx.function).errorArguments := by
    cases h
    exact hd'
  unfold special at h
  cases harguments : c.arguments with
  | nil =>
    simp only [harguments] at h
    repeat' split at h
    all_goals first | exact hfound h (List.nil_subset _) | exact hfound h (List.Subset.refl _) | cases h
  | cons type sizes =>
    simp only [harguments] at h
    split at h
    · obtain ⟨channel, -, h⟩ := Except.bind_eq_ok.mp h
      exact hfound h (List.nil_subset _)
    · repeat' split at h
      all_goals first | exact hfound h (List.nil_subset _) | exact hfound h (List.Subset.refl _) | cases h

end Expression

namespace Body

open Statement

/-- A walk whose constructs have their names in one line. -/
abbrev FindsNames : Walk → Prop := Walk.Finds Construct.NamesInLine fun _ => True

/-- The names of the constructs in a token run. -/
theorem findsNames_expression (hctx : ctx.NamesInLine file) (isStatement : Bool)
    (hts : ∀ t ∈ ts, t.NamesInLine) : FindsNames (Expression.walk file ctx isStatement ts) := by
  cases hwalk : Expression.walk file ctx isStatement ts with
  | error f => exact .error trivial
  | ok trace =>
    refine .ok fun c hc => ?_
    rcases (ofExpression_iff hwalk c).mp hc with ⟨call, hcall, rfl | ⟨detail, hdetail, rfl⟩⟩ | hc
    · refine List.forall_mem_cons.mpr ⟨Call.oneLine_name hts hcall,
        List.forall_mem_cons.mpr ⟨hctx.function, ?_⟩⟩
      exact List.forall_mem_singleton.mpr hctx.package
    · intro name hname
      refine Expression.oneLine_errorArguments (fun argument hargument t ht => ?_) name
        (Expression.names_special hdetail hname)
      exact hts t (Call.mem_of_mem_listFrom hcall hargument ht)
    · obtain ⟨comparison, -, hinfo⟩ := List.mem_filterMap.mp hc
      obtain ⟨info, -, rfl⟩ := Option.map_eq_some_iff.mp hinfo
      exact Construct.namesInLine_of_nil rfl

/-! ## Statements by themselves -/

/-- The names that a loop header declares. -/
theorem oneLine_declaredNames (hts : ∀ t ∈ ts, t.NamesInLine) :
    ∀ name ∈ declaredNames ts, OneLine name := by
  rw [declaredNames]
  cases ha : Token.cutAssignment ts with
  | none => exact List.forall_mem_nil _
  | some a =>
    dsimp only
    split
    · intro name hname
      obtain ⟨group, hgroup, hname⟩ := List.mem_filterMap.mp hname
      split at hname
      · next t =>
        obtain ⟨hident, hsome⟩ := Option.ite_none_right_eq_some.mp hname
        obtain rfl := Option.some.inj hsome
        have hleft : t ∈ a.left := Token.mem_of_mem_splitTopFrom hgroup (List.mem_singleton_self t)
        refine (hts t ?_).ident (Bool.and_eq_true_iff.mp hident).1
        rw [← (Token.append_of_cutAssignmentFrom ha).1]
        exact List.mem_append_left _ hleft
      · cases hname
    · exact List.forall_mem_nil _

/-- The names that a loop declares. -/
theorem oneLine_loopForm (hts : ∀ t ∈ ts, t.NamesInLine) : ∀ name ∈ (loopForm ts).2, OneLine name := by
  rw [loopForm]
  split
  · exact oneLine_declaredNames hts
  · split
    · next init condition post hparts =>
      refine oneLine_declaredNames fun t ht => hts t ?_
      exact Token.mem_of_mem_splitTopFrom (hparts ▸ List.mem_cons_self) ht
    · split
      · exact List.forall_mem_nil _
      · exact List.forall_mem_nil _

/-- The names that statements use are among those wanted, or were found before. -/
theorem mem_of_mem_namesFrom {wanted found : List String} {previous : Option Token} {name : String}
    (h : name ∈ Cancellation.namesFrom wanted previous found ts) : name ∈ found ∨ name ∈ wanted := by
  induction ts generalizing previous found with
  | nil => exact .inl h
  | cons t rest ih =>
    rw [Cancellation.namesFrom] at h
    split at h
    · next hcond =>
      rcases ih h with hfound | hwanted
      · refine (List.mem_append.mp hfound).imp_right fun hname => ?_
        rw [List.mem_singleton.mp hname]
        exact List.contains_iff_mem.mp (Bool.and_eq_true_iff.mp (Bool.and_eq_true_iff.mp hcond).1).2
      · exact .inr hwanted
    · exact ih h

/-- The error variable that a condition finds set is a name of it. -/
theorem oneLine_of_checkedFrom {before : List Token} (hbefore : ∀ t ∈ before, t.NamesInLine)
    (hts : ∀ t ∈ ts, t.NamesInLine) {name : String} (h : checkedFrom before ts = some name) : OneLine name := by
  induction ts generalizing before with
  | nil => cases h
  | cons t rest ih =>
    obtain ⟨ht, hrest⟩ := List.forall_mem_cons.mp hts
    unfold checkedFrom at h
    dsimp only at h
    split at h
    · next found hhere =>
      obtain rfl := Option.some.inj h
      split at hhere
      · next left outer right more =>
        obtain ⟨hcond, hsome⟩ := Option.ite_none_right_eq_some.mp hhere
        obtain rfl := Option.some.inj hsome
        simp only [Bool.and_eq_true] at hcond
        exact (hbefore left List.mem_cons_self).ident hcond.1.1.2
      · cases hhere
    · exact ih (List.forall_mem_cons.mpr ⟨ht, hbefore⟩) hrest h

/-- Whether the names among the tokens of a statement are in one line, and those of the parameters of its function
literals. -/
structure NamedStatement (s : Statement) : Prop where
  tokens : ∀ t ∈ s.tokens, t.NamesInLine
  params : ∀ l ∈ s.literals, ∀ p ∈ l.params, p.NameInLine

/-- The names of the construct that a statement is by itself. -/
theorem namesInLine_of_forms (hctx : ctx.NamesInLine file) {s : Statement} (hs : NamedStatement s) {c : Construct}
    (h : Forms file ctx s c) : c.NamesInLine := by
  cases h with
  | go place tokens literals =>
    refine List.forall_mem_append.mpr ⟨fun name hname => ?_, fun name hname => ?_⟩
    · dsimp only [goInfo] at hname
      cases hlaunched : launched tokens literals with
      | none =>
        rw [hlaunched] at hname
        cases hname
      | some l =>
        rw [hlaunched] at hname
        exact hctx.loopVars name ((mem_of_mem_namesFrom (List.mem_filter.mp hname).1).resolve_left List.not_mem_nil)
    · dsimp only [goInfo] at hname
      cases hlaunched : launched tokens literals with
      | none =>
        rw [hlaunched] at hname
        cases hname
      | some l =>
        rw [hlaunched] at hname
        obtain ⟨p, hp, hname⟩ := List.mem_filterMap.mp hname
        have hl : l ∈ literals := List.mem_of_mem_head? (Option.ite_none_right_eq_some.mp hlaunched).2
        exact hs.params l hl p hp name hname
  | defer place tokens literals => exact List.forall_mem_singleton.mpr hctx.function
  | @«return» place tokens literals c hvalues h =>
    rw [errorReturn?_eq] at h
    obtain ⟨chosen, hchosen, h⟩ := Option.bind_eq_some_iff.mp h
    obtain ⟨index, -, hvalue⟩ := Option.bind_eq_some_iff.mp hchosen
    obtain ⟨first, hfirst, rfl⟩ := Option.map_eq_some_iff.mp h
    refine List.forall_mem_append.mpr ⟨fun name hname => ?_, List.forall_mem_singleton.mpr hctx.function⟩
    obtain ⟨hsingle, hsome⟩ := Option.ite_none_right_eq_some.mp (Option.mem_toList.mp hname)
    obtain rfl := Option.some.inj hsome
    have hmem : first ∈ tokens.drop 1 :=
      Token.mem_of_mem_commaItems (mem_of_errorValue? hvalue) (List.mem_of_mem_head? hfirst)
    exact (hs.tokens first (List.mem_of_mem_drop hmem)).ident (Bool.and_eq_true_iff.mp hsingle).2
  | ignored h =>
    obtain ⟨_, _, _, _, _, -, -, -, rfl⟩ := of_ignored? h
    exact Construct.namesInLine_of_nil rfl
  | @check place header literals body otherwise info h =>
    obtain ⟨name, hname, rfl⟩ := Option.map_eq_some_iff.mp h
    refine List.forall_mem_singleton.mpr
      (oneLine_of_checkedFrom (List.forall_mem_nil _) (fun t ht => hs.tokens t ?_) hname)
    rcases List.mem_cons.mp (List.getLastD_mem_cons) with hnil | hlast
    · rw [hnil] at ht
      cases ht
    · exact Token.mem_of_mem_splitTopFrom hlast ht
  | loop => exact Construct.namesInLine_of_nil rfl
  | switch => exact Construct.namesInLine_of_nil rfl
  | select => exact Construct.namesInLine_of_nil rfl

/-! ## Walks -/

/-- A label is nothing to a walk. -/
theorem walkStatement_withLabel (file : FileInfo) (ctx : Context) (label : Option String) (s : Statement) :
    walkStatement file ctx (s.withLabel label) = walkStatement file ctx s := by
  cases s <;> simp only [withLabel, withPlace, place, walkStatement, plainTrace]

/-- What is left behind a compound statement is part of the tokens that it is read from. -/
theorem subset_of_derivesCompound {keyword : Token} {rest : List Token} {s : Statement}
    (h : DerivesCompound keyword ts s rest) : rest ⊆ ts := by
  obtain ⟨run, rfl, -⟩ := inOrder_compound h
  exact List.subset_append_right run rest

/-- Function literals whose parameters have names in one line, as has everything that a walk through them finds. -/
structure NamedLiterals (file : FileInfo) (literals : List FuncLiteral) : Prop where
  params : ∀ l ∈ literals, ∀ p ∈ l.params, p.NameInLine
  walk : ∀ (launchesFirst : Bool) (ctx : Context), ctx.NamesInLine file →
    FindsNames (walkLiterals file ctx launchesFirst literals)

/-- The tokens of a clause are among those that it is read from. -/
theorem subset_of_clause {rest header bodyTokens : List Token} {keyword colon : Token}
    (hkeyword : (Token.spanTop startsClause ts).2 = keyword :: rest)
    (hheader : Token.spanTop (·.isOp ":") (Token.spanTop startsClause rest).1 = (header, colon :: bodyTokens)) :
    header ⊆ ts ∧ bodyTokens ⊆ ts ∧ (Token.spanTop startsClause rest).2 ⊆ ts := by
  have hrest : rest ⊆ ts := by
    rw [← Token.spanTop_append startsClause ts, hkeyword]
    exact List.Subset.trans (List.subset_cons_self ..) (List.subset_append_right ..)
  have hclause : (Token.spanTop startsClause rest).1 ⊆ rest := by
    conv => rhs; rw [← Token.spanTop_append startsClause rest]
    exact List.subset_append_left ..
  have hparts := List.Subset.trans hclause hrest
  rw [← Token.spanTop_append (·.isOp ":") (Token.spanTop startsClause rest).1, hheader] at hparts
  obtain ⟨hmore, hbody⟩ := sublist_of_clause hkeyword hheader |>.subset |> List.append_subset.mp |>.symm
  exact ⟨(List.append_subset.mp hparts).1, hbody, hmore⟩

/-- The tokens that are left when function literals are cut out. -/
theorem named_of_derivesCut {own : List Token} {literals : List FuncLiteral} (hcut : DerivesCut ts literals own)
    (hts : ∀ t ∈ ts, t.NamesInLine) : ∀ t ∈ own, t.NamesInLine :=
  fun t ht => hts t ((inOrder_cut false hcut).1.subset ht)

/-- What a statement is by itself, the expressions in its tokens and the function literals among them. -/
theorem findsNames_own (s : Statement) {isStatement launchesFirst : Bool}
    (htokens : ∀ t ∈ s.tokens, t.NamesInLine) (hliterals : NamedLiterals file s.literals)
    (hctx : ctx.NamesInLine file) :
    FindsNames (Expression.walk file ctx isStatement s.tokens) ∧
      FindsNames (walkLiterals file ctx launchesFirst s.literals) ∧ FindsNames (.ok (ownTrace file ctx s)) :=
  ⟨findsNames_expression hctx isStatement htokens, hliterals.walk launchesFirst ctx hctx,
    .ok fun _ hc => namesInLine_of_forms hctx ⟨htokens, hliterals.params⟩ (forms_iff.mp hc)⟩

mutual

/-- The names of the constructs in a statement list. -/
theorem findsNames_list {ts : List Token} {ss : List Statement} :
    DerivesList ts ss → (∀ t ∈ ts, t.NamesInLine) →
    ∀ ctx : Context, ctx.NamesInLine file → FindsNames (walkList file ctx ss)
  | .nil, _, _, _ => .empty
  | .semi _ hrest, hts, ctx, hctx => findsNames_list hrest (List.forall_mem_cons.mp hts).2 ctx hctx
  | .label _ _ hrest, hts, ctx, hctx =>
    findsNames_list hrest (List.forall_mem_cons.mp (List.forall_mem_cons.mp hts).2).2 ctx hctx
  | .compound label _ hs hrest, hts, ctx, hctx => by
    have hts := (List.forall_mem_cons.mp hts).2
    rw [walkList, walkStatement_withLabel]
    exact (findsNames_compound hs hts ctx hctx).andThen
      (findsNames_list hrest (fun t ht => hts t (subset_of_derivesCompound hs ht)) ctx hctx)
  | .block label _ hg hbody hrest, hts, ctx, hctx => by
    have hts := (List.forall_mem_cons.mp hts).2
    obtain ⟨hinner, hafter⟩ := sublist_of_closeGroup hg
    rw [walkList, walkStatement]
    exact (findsNames_list hbody (fun t ht => hts t (hinner.subset ht)) ctx hctx).andThen
      (findsNames_list hrest (fun t ht => hts t (hafter.subset (List.mem_cons_of_mem _ ht))) ctx hctx)
  | @DerivesList.plain t ts own literals _ label _ hcut hrest, hts, ctx, hctx => by
    rw [← takeRun_append t ts] at hts
    obtain ⟨hrun, hafter⟩ := List.forall_mem_append.mp hts
    obtain ⟨hexpression, hliterals, hself⟩ :=
      findsNames_own (.plain ⟨label, t.pos, (lastOr t (takeRun t ts).1).line⟩ (plainKind t) own literals)
        (named_of_derivesCut hcut hrun) (namedLiterals_cut hcut hrun) hctx
    rw [walkList, walkStatement]
    refine (Walk.Finds.all ?_).andThen (findsNames_list hrest hafter ctx hctx)
    exact List.forall_mem_cons.mpr
      ⟨hself, List.forall_mem_cons.mpr ⟨hexpression, List.forall_mem_singleton.mpr hliterals⟩⟩

/-- The names of the constructs in a compound statement. -/
theorem findsNames_compound {keyword : Token} {ts rest : List Token} {s : Statement} :
    DerivesCompound keyword ts s rest → (∀ t ∈ ts, t.NamesInLine) →
    ∀ ctx : Context, ctx.NamesInLine file → FindsNames (walkStatement file ctx s)
  | @DerivesCompound.loop keyword _ b literals header body _ hb hcut hbody, hts, ctx, hctx => by
    obtain ⟨hbefore, hinner, -⟩ := sublist_of_afterHeader? hb
    have hheader := fun t ht => hts t (hbefore.subset ht)
    obtain ⟨hexpression, hliterals, hself⟩ :=
      findsNames_own (.loop ⟨none, keyword.pos, b.closer.line⟩ header literals body)
        (named_of_derivesCut hcut hheader) (namedLiterals_cut hcut hheader) hctx
    rw [walkStatement]
    refine Walk.Finds.all (List.forall_mem_cons.mpr ⟨hexpression, List.forall_mem_cons.mpr ⟨hliterals,
      List.forall_mem_cons.mpr ⟨hself, ?_⟩⟩⟩)
    refine List.forall_mem_singleton.mpr (.map ?_ fun t => rfl)
    refine findsNames_list hbody (fun t ht => hts t (hinner.subset ht)) _ (hctx.enterLoop (oneLine_loopForm ?_))
    exact named_of_derivesCut hcut hheader
  | @DerivesCompound.switch keyword _ b literals header clauses _ hb hcut hclauses, hts, ctx, hctx => by
    obtain ⟨hbefore, hinner, -⟩ := sublist_of_afterHeader? hb
    have hheader := fun t ht => hts t (hbefore.subset ht)
    obtain ⟨hexpression, hliterals, hself⟩ :=
      findsNames_own (.switch ⟨none, keyword.pos, b.closer.line⟩ header literals clauses)
        (named_of_derivesCut hcut hheader) (namedLiterals_cut hcut hheader) hctx
    rw [walkStatement]
    refine Walk.Finds.all (List.forall_mem_cons.mpr ⟨hexpression, List.forall_mem_cons.mpr ⟨hliterals,
      List.forall_mem_cons.mpr ⟨hself, ?_⟩⟩⟩)
    exact List.forall_mem_singleton.mpr
      (findsNames_clauses hclauses (fun t ht => hts t (hinner.subset ht)) ctx hctx _)
  | @DerivesCompound.select keyword _ b literals header clauses _ hb hcut hclauses, hts, ctx, hctx => by
    obtain ⟨hbefore, hinner, -⟩ := sublist_of_afterHeader? hb
    have hheader := fun t ht => hts t (hbefore.subset ht)
    obtain ⟨hexpression, hliterals, hself⟩ :=
      findsNames_own (.select ⟨none, keyword.pos, b.closer.line⟩ header literals clauses)
        (named_of_derivesCut hcut hheader) (namedLiterals_cut hcut hheader) hctx
    rw [walkStatement]
    refine Walk.Finds.all (List.forall_mem_cons.mpr ⟨hexpression, List.forall_mem_cons.mpr ⟨hliterals,
      List.forall_mem_cons.mpr ⟨hself, ?_⟩⟩⟩)
    exact List.forall_mem_singleton.mpr
      (findsNames_clauses hclauses (fun t ht => hts t (hinner.subset ht)) ctx hctx _)
  | @DerivesCompound.branch keyword _ _ b literals header body other endLine _ hb hcut hbody hother, hts, ctx,
      hctx => by
    obtain ⟨hbefore, hinner, hafter⟩ := sublist_of_afterHeader? hb
    have hheader := fun t ht => hts t (hbefore.subset ht)
    obtain ⟨hexpression, hliterals, hself⟩ :=
      findsNames_own (.branch ⟨none, keyword.pos, endLine⟩ header literals body other)
        (named_of_derivesCut hcut hheader) (namedLiterals_cut hcut hheader) hctx
    rw [walkStatement]
    refine Walk.Finds.all (List.forall_mem_cons.mpr ⟨hexpression, List.forall_mem_cons.mpr ⟨hliterals,
      List.forall_mem_cons.mpr ⟨hself, ?_⟩⟩⟩)
    refine List.forall_mem_cons.mpr ⟨.map ?_ fun t => rfl, List.forall_mem_singleton.mpr ?_⟩
    · exact findsNames_list hbody (fun t ht => hts t (hinner.subset ht)) _ (hctx.enterGuarded _)
    · exact findsNames_other hother (fun t ht => hts t (hafter.subset (List.mem_cons_of_mem _ ht))) ctx hctx

/-- The names of the constructs in the other branch. -/
theorem findsNames_other {line endLine : Nat} {ts rest : List Token} {other : Option (List Statement)} :
    DerivesOther line ts other endLine rest → (∀ t ∈ ts, t.NamesInLine) →
    ∀ ctx : Context, ctx.NamesInLine file → FindsNames (walkOther file ctx other)
  | .none, _, _, _ => by
    rw [walkOther]
    exact .empty
  | .block _ _ hg hbody, hts, ctx, hctx => by
    have hinner := (sublist_of_closeGroup hg).1
    have hwalk := findsNames_list hbody fun t ht =>
      hts t (List.mem_cons_of_mem _ (List.mem_cons_of_mem _ (hinner.subset ht)))
    rw [walkOther]
    split
    · exact hwalk ctx hctx
    · exact (hwalk ctx.enter hctx.enter).map fun t => rfl
  | .branch _ _ hs, hts, ctx, hctx => by
    have hwalk (ctx : Context) (hctx : ctx.NamesInLine file) :=
      (findsNames_compound hs (fun t ht => hts t (List.mem_cons_of_mem _ (List.mem_cons_of_mem _ ht))) ctx
        hctx).andThen
        Walk.Finds.empty
    rw [walkOther]
    split
    · rw [walkList, walkList]
      exact hwalk ctx hctx
    · rw [walkList, walkList]
      exact (hwalk ctx.enter hctx.enter).map fun t => rfl

/-- The names of the constructs in clauses. -/
theorem findsNames_clauses {ts : List Token} {cs : List Clause} :
    DerivesClauses ts cs → (∀ t ∈ ts, t.NamesInLine) →
    ∀ ctx : Context, ctx.NamesInLine file → ∀ guard : Bool → List Token → Option Guard,
      FindsNames (walkClauses file ctx guard cs)
  | .nil _, _, _, _, _ => .empty
  | .cons hkeyword hheader hbody hmore, hts, ctx, hctx, guard => by
    obtain ⟨hown, hinner, hafter⟩ := subset_of_clause hkeyword hheader
    rw [walkClauses]
    refine Walk.Finds.all (List.forall_mem_cons.mpr ⟨?_, List.forall_mem_cons.mpr
      ⟨.map ?_ fun t => rfl, List.forall_mem_singleton.mpr ?_⟩⟩)
    · exact findsNames_expression hctx false fun t ht => hts t (hown ht)
    · exact findsNames_list hbody (fun t ht => hts t (hinner ht)) _ (hctx.enterGuarded _)
    · exact findsNames_clauses hmore (fun t ht => hts t (hafter ht)) ctx hctx guard

/-- The names of the constructs in function literals, and of their parameters. -/
theorem namedLiterals_cut {ts own : List Token} {literals : List FuncLiteral} : DerivesCut ts literals own →
    (∀ t ∈ ts, t.NamesInLine) → NamedLiterals file literals
  | .nil, _ => ⟨List.forall_mem_nil _, fun _ _ _ => .empty⟩
  | .keep _ hrest, hts => namedLiterals_cut hrest (List.forall_mem_cons.mp hts).2
  | .literal (c := c) hc hbody hrest, hts => by
    rw [← LiteralCut.all_append_rest hc] at hts
    obtain ⟨hall, hafter⟩ := List.forall_mem_append.mp hts
    obtain ⟨hsignature, hbraces⟩ := List.forall_mem_append.mp hall
    have hinner := (List.forall_mem_append.mp (List.forall_mem_cons.mp hbraces).2).1
    have hparams := (List.forall_mem_append.mp (List.forall_mem_cons.mp (List.forall_mem_cons.mp hsignature).2).2).1
    have hmore := namedLiterals_cut hrest hafter
    refine ⟨List.forall_mem_cons.mpr ⟨Signature.nameInLine_of_mem_params hparams, hmore.params⟩,
      fun launchesFirst ctx hctx => ?_⟩
    rw [walkLiterals]
    refine Walk.Finds.andThen (.map ?_ fun t => rfl) (hmore.walk false ctx hctx)
    exact findsNames_list hbody hinner _ (hctx.enterLiteral _ launchesFirst)

end

end Body

end GoIdiom
