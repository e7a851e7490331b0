import GoIdiom.Proofs.InternalErrors
import GoIdiom.Proofs.OneLine.Walk
import GoIdiom.Proofs.Runs.Declarations
import GoIdiom.Proofs.Sites.Declarations

/-!
# Names of constructs of files

What a file declares has names in one line: every one of them is an identifier among the tokens. With the names that
are found in bodies, all names that messages show of the constructs of a file are in one line, as are those that are
looked up among them.
-/

namespace GoIdiom

open Text Token

namespace Declaration

variable {file : FileInfo} {all ts : List Token}

/-- A reading whose constructs have their names in one line. -/
abbrev FindsNames : Reading (List Construct) → Prop :=
  Outcome (fun cs => ∀ c ∈ cs, c.NamesInLine) fun _ => True

/-- What a walk finds. -/
theorem findsNames_ofWalk {x : Walk} (h : Body.FindsNames x) :
    Outcome (fun t => ∀ c ∈ t.constructs, c.NamesInLine) (fun _ => True) (ofWalk x) :=
  h.mapError fun _ _ => trivial

/-! ## Types -/

/-- The tokens of a group are tokens of the list it is found in. -/
theorem subset_of_groupAfter? {keyword : String} {inner : List Token} (h : groupAfter? keyword ts = some inner) :
    inner ⊆ ts := by
  unfold groupAfter? at h
  split at h
  · obtain ⟨-, h⟩ := Option.ite_none_right_eq_some.mp h
    obtain ⟨g, hg, rfl⟩ := Option.map_eq_some_iff.mp h
    have hinner := (Statement.sublist_of_closeGroup hg).1.subset
    exact List.Subset.trans hinner (List.Subset.trans (List.subset_cons_self ..) (List.subset_cons_self ..))
  · cases h

/-- The parts between separators consist of the tokens of the run. -/
theorem mem_of_mem_splitParts {separates : Token → Bool} {part : List Token}
    (hpart : part ∈ splitParts separates ts) {t : Token} (ht : t ∈ part) : t ∈ ts :=
  (flatten_splitParts_sublist separates ts).subset (List.mem_flatten.mpr ⟨part, hpart, ht⟩)

/-- The names of the methods of an interface. -/
theorem oneLine_of_methodOf {element : List Token} (helement : ∀ t ∈ element, t.NamesInLine)
    (hmethod : isMethod element = true) {m : Method} (h : methodOf element = some m) : OneLine m.name := by
  unfold isMethod at hmethod
  split at hmethod
  · next first second rest =>
    obtain rfl := Option.some.inj h
    exact (helement first List.mem_cons_self).ident (Bool.and_eq_true_iff.mp hmethod).1
  · cases hmethod

/-- The names that share a field line. -/
theorem oneLine_moreNames (hts : ∀ t ∈ ts, t.NamesInLine) : ∀ name ∈ (moreNames ts).1, OneLine name := by
  fun_induction moreNames ts with
  | case1 comma name rest hname names type hmore ih =>
    obtain ⟨hfirst, hrest⟩ := List.forall_mem_cons.mp (List.forall_mem_cons.mp hts).2
    rw [hmore] at ih
    exact List.forall_mem_cons.mpr ⟨hfirst.ident (Bool.and_eq_true_iff.mp hname).2, ih hrest⟩
  | case2 => exact List.forall_mem_nil _
  | case3 => exact List.forall_mem_nil _

/-- The names of a field. -/
theorem oneLine_of_fieldOf {element : List Token} (helement : ∀ t ∈ element, t.NamesInLine) {f : Field}
    (h : fieldOf element = some f) : ∀ name ∈ f.names, OneLine name := by
  have htokens : ∀ t ∈ untagged element, t.NamesInLine := by
    rw [untagged]
    split
    · exact fun t ht => helement t ((List.dropLast_sublist element).subset ht)
    · exact helement
  rw [fieldOf_eq] at h
  cases hfield : untagged element with
  | nil =>
    rw [hfield] at h
    cases h
  | cons first rest =>
    rw [hfield] at h htokens
    obtain ⟨hfirst, hrest⟩ := List.forall_mem_cons.mp htokens
    rw [fieldIn] at h
    split at h
    · next hdeclares =>
      obtain rfl := Option.some.inj h
      exact List.forall_mem_cons.mpr
        ⟨hfirst.ident (Signature.isIdent_of_declaresName hdeclares), oneLine_moreNames hrest⟩
    · obtain rfl := Option.some.inj h
      exact List.forall_mem_nil _

/-- The names of a type. -/
theorem oneLine_typeDetail {name : String} (hname : OneLine name) {typeParams : List Param} {isAlias : Bool}
    (hts : ∀ t ∈ ts, t.NamesInLine) : ∀ n ∈ (typeDetail name typeParams isAlias ts).names, OneLine n := by
  have hparts {keyword : String} {inner part : List Token} (hinner : groupAfter? keyword ts = some inner)
      (hpart : part ∈ splitParts (·.isSemi) inner) : ∀ t ∈ part, t.NamesInLine :=
    fun t ht => hts t (subset_of_groupAfter? hinner (mem_of_mem_splitParts hpart ht))
  unfold typeDetail
  split
  · next inner _ hinner =>
    refine List.forall_mem_cons.mpr ⟨hname, fun n hn => ?_⟩
    obtain ⟨m, hm, rfl⟩ := List.mem_map.mp hn
    rw [interfaceInfo_eq] at hm
    obtain ⟨element, helement, hm⟩ := List.mem_filterMap.mp hm
    obtain ⟨helement, hmethod⟩ := List.mem_filter.mp helement
    exact oneLine_of_methodOf (hparts hinner helement) hmethod hm
  · next inner _ hinner =>
    refine List.forall_mem_cons.mpr ⟨hname, fun n hn => ?_⟩
    obtain ⟨f, hf, hn⟩ := List.mem_flatMap.mp hn
    obtain ⟨element, helement, hf⟩ := List.mem_filterMap.mp hf
    exact oneLine_of_fieldOf (hparts hinner helement) hf n hn
  · exact List.forall_mem_singleton.mpr hname

/-- The tokens of a type are among those behind its name. -/
theorem subset_aliasOf (rest : List Token) : (aliasOf (typeParamsAt rest).2).2 ⊆ rest := by
  have hparams : (typeParamsAt rest).2 ⊆ rest := by
    unfold typeParamsAt
    split
    · next g hg =>
      split
      · cases rest with
        | nil => cases hg
        | cons t inside =>
          have hafter := (Statement.sublist_of_closeGroup (Option.ite_none_right_eq_some.mp hg).2).2.subset
          exact List.Subset.trans (List.Subset.trans (List.subset_cons_self ..) hafter) (List.subset_cons_self ..)
      · exact List.Subset.refl _
    · exact List.Subset.refl _
  refine List.Subset.trans ?_ hparams
  rw [aliasOf]
  dsimp only
  split
  · exact List.drop_subset 1 _
  · exact List.Subset.refl _

variable (hall : ∀ t ∈ all, t.NamesInLine)
include hall

/-- A type specification finds constructs with names of one line. -/
theorem findsNames_typeSpec {follow : Option Token} {first : Token} {rest : List Token}
    (h : Token.Run all (first :: rest)) :
    FindsNames (typeSpec file follow first rest) := by
  rw [typeSpec_eq]
  dsimp only
  split
  · exact .error trivial
  · next hident =>
    rw [Bool.not_eq_true', Bool.not_eq_false] at hident
    split
    · exact .error trivial
    · refine .ok (List.forall_mem_singleton.mpr (oneLine_typeDetail ?_ fun t ht => ?_))
      · exact (hall first (h.mem List.mem_cons_self)).ident hident
      · exact hall t (h.mem (List.mem_cons_of_mem _ (subset_aliasOf rest ht)))

/-! ## Variables -/

/-- A variable specification finds constructs with names of one line. -/
theorem findsNames_variableSpec (hpackage : OneLine file.package) {keyword first : Token} {rest : List Token}
    (h : Token.Run all (first :: rest)) : FindsNames (variableSpec file keyword first rest) := by
  obtain ⟨hnames, hafter⟩ := run_variableNames h
  have hctx : (Context.ofScope ⟨"", none, [⟨[], [], []⟩]⟩).NamesInLine file :=
    ⟨hpackage, oneLine_empty, List.forall_mem_nil _⟩
  have hvalue : ∀ t ∈ (Token.spanTop (·.isOp "=") (variableNames (first :: rest)).2).2.drop 1, t.NamesInLine :=
    fun t ht => hall t ((hafter.spanTop (·.isOp "=")).2.mem (List.mem_of_mem_drop ht))
  rw [variableSpec_eq]
  dsimp only
  split
  · exact .error trivial
  · refine (reads_ofSource (Statement.derives_cutLiterals _)).bind fun cut hcut => ?_
    refine (findsNames_ofWalk (Walk.Finds.andThen ?_ ?_)).bind fun trace htrace =>
      .ok (List.forall_mem_cons.mpr ⟨fun name hname => ?_, htrace⟩)
    · exact Body.findsNames_expression hctx false (Body.named_of_derivesCut hcut hvalue)
    · exact (Body.namedLiterals_cut hcut hvalue).walk false _ hctx
    · simp only [Detail.names, List.map_map, List.mem_map, Function.comp_apply] at hname
      obtain ⟨t, ht, rfl⟩ := hname
      exact (hall t (hnames t ht).1).ident (hnames t ht).2

/-- A specification under any keyword finds constructs with names of one line. -/
theorem findsNames_spec (hpackage : OneLine file.package) {keyword : Token} {follow : Option Token}
    (h : Token.Run all ts) :
    FindsNames (spec file keyword follow ts) := by
  unfold spec
  cases ts with
  | nil => exact .ok (List.forall_mem_nil _)
  | cons first rest =>
    dsimp only
    split
    · unfold importSpec
      dsimp only
      split
      · exact .ok (List.forall_mem_singleton.mpr (Construct.namesInLine_of_nil rfl))
      · exact .error trivial
    · exact findsNames_typeSpec hall h
    · exact findsNames_variableSpec hall hpackage h

/-- The specifications of a group find constructs with names of one line. -/
theorem findsNames_specs (hpackage : OneLine file.package) {keyword follow : Token}
    {parts : List (List Token × Option Token)} (h : ∀ part ∈ parts, Token.Run all part.1) :
    FindsNames (specs file keyword follow parts) := by
  induction parts with
  | nil => exact .ok (List.forall_mem_nil _)
  | cons part rest ih =>
    obtain ⟨hrun, hrest⟩ := List.forall_mem_cons.mp h
    refine (findsNames_spec hall hpackage hrun).bind fun found hfound => ?_
    refine (ih hrest).bind fun more hmore => .ok ?_
    exact List.forall_mem_append.mpr ⟨hfound, hmore⟩

/-- A declaration finds constructs with names of one line and goes on in the same tokens. -/
theorem findsNames_declared (hpackage : OneLine file.package) (keyword : Token) (h : Token.Run all ts) :
    Outcome (fun r => (∀ c ∈ r.1, c.NamesInLine) ∧ Token.Run all r.2) (fun _ => True)
      (declared file keyword ts) := by
  rw [declared_eq]
  cases hg : groupAt? "(" ts with
  | some g =>
    obtain ⟨hinner, -, hrest⟩ := run_groupAt? (by decide) h hg
    refine (findsNames_specs hall hpackage fun part hpart => ?_).bind fun found hfound => .ok ⟨hfound, hrest⟩
    exact (hinner.endedParts (fun t ht => isPlain_of_isSemi ht) hpart).1
  | none =>
    obtain ⟨hrun, hrest⟩ := h.spanTop (·.isSemi)
    dsimp only
    split
    · exact .error trivial
    · exact (findsNames_spec hall hpackage hrun).bind fun found hfound => .ok ⟨hfound, hrest⟩

/-! ## Functions -/

omit hall in
/-- What is known of the head of a function: its names are in one line, and a run follows. -/
structure FunctionHead.NamesInLine (all : List Token) (head : FunctionHead) : Prop where
  receiver : ∀ r ∈ head.receiver, ∀ name ∈ r.name, OneLine name
  name : OneLine head.name.text
  params : ∀ p ∈ head.params, p.NameInLine
  rest : Token.Run all head.rest

/-- The head of a function whose name is reached has names of one line. -/
theorem namesInLine_namedHead {receiver : Option Receiver}
    (hreceiver : ∀ r ∈ receiver, ∀ name ∈ r.name, OneLine name) {previous : Token} (h : Token.Run all ts) :
    Outcome (FunctionHead.NamesInLine all) (fun _ => True) (namedHead receiver previous ts) := by
  have hparams {us : List Token} (hus : Token.Run all us) : ∀ p ∈ Signature.params us, p.NameInLine :=
    Signature.nameInLine_of_mem_params fun t ht => hall t (hus.mem ht)
  rw [namedHead_eq]
  cases ts with
  | nil => exact .error trivial
  | cons name rest =>
    dsimp only
    split
    · next hident =>
      have hname := (hall name (h.mem List.mem_cons_self)).ident hident
      have hrest := h.tail (isPlain_of_isIdent hident)
      rw [paramsOf_eq]
      cases htypes : groupAt? "[" rest with
      | some types =>
        obtain ⟨-, -, hafter⟩ := run_groupAt? (by decide) hrest htypes
        dsimp only
        cases hg : groupAt? "(" types.rest with
        | some g =>
          obtain ⟨hinner, -, hmore⟩ := run_groupAt? (by decide) hafter hg
          exact .ok ⟨hreceiver, hname, hparams hinner, hmore⟩
        | none => exact .error trivial
      | none =>
        dsimp only
        cases hg : groupAt? "(" rest with
        | some g =>
          obtain ⟨hinner, -, hmore⟩ := run_groupAt? (by decide) hrest hg
          exact .ok ⟨hreceiver, hname, hparams hinner, hmore⟩
        | none => exact .error trivial
    · exact .error trivial

/-- The head of a function or method has names of one line. -/
theorem namesInLine_headOf {keyword : Token} (h : Token.Run all ts) :
    Outcome (FunctionHead.NamesInLine all) (fun _ => True) (headOf keyword ts) := by
  rw [headOf_eq]
  cases hg : groupAt? "(" ts with
  | none => exact namesInLine_namedHead hall (fun r hr => by cases hr) h
  | some g =>
    obtain ⟨hinner, -, hrest⟩ := run_groupAt? (by decide) h hg
    dsimp only
    split
    · next p hp =>
      have hparam : p.NameInLine :=
        Signature.nameInLine_of_mem_params (fun t ht => hall t (hinner.mem ht)) p (hp ▸ List.mem_singleton_self p)
      refine namesInLine_namedHead hall (fun r hr => ?_) hrest
      obtain rfl := Option.some.inj hr
      exact hparam
    · exact .error trivial

omit hall in
/-- The constructs of a function have names of one line. -/
theorem findsNames_functionConstructs (hpackage : OneLine file.package) {keyword : Token} {head : FunctionHead}
    (hhead : FunctionHead.NamesInLine all head) {signature : List Token} {body : Option Block}
    {statements : List Statement} (hbody : Statement.DerivesList ts statements)
    (hts : ∀ t ∈ ts, t.NamesInLine) :
    FindsNames (functionConstructs file keyword head signature body statements) := by
  have hctx (results : List Param) : (Context.ofScope (scopeOf head results statements)).NamesInLine file :=
    ⟨hpackage, hhead.name, List.forall_mem_nil _⟩
  rw [functionConstructs_eq]
  refine (findsNames_ofWalk (Body.findsNames_list hbody hts _ (hctx _))).bind
    fun trace htrace =>
      .ok (List.forall_mem_append.mpr ⟨htrace, List.forall_mem_cons.mpr ⟨?_, fun c hc => ?_⟩⟩)
  · refine List.forall_mem_cons.mpr
      ⟨hhead.name, List.forall_mem_append.mpr ⟨fun name hname => ?_, fun name hname => ?_⟩⟩
    · obtain ⟨r, hr, hname⟩ := Option.bind_eq_some_iff.mp (Option.mem_toList.mp hname)
      exact hhead.receiver r hr name hname
    · obtain ⟨p, hp, hname⟩ := List.mem_filterMap.mp hname
      exact hhead.params p hp name hname
  · obtain ⟨test, htest, rfl⟩ := List.mem_map.mp hc
    obtain ⟨-, htest⟩ := Option.ite_none_right_eq_some.mp (Option.mem_toList.mp htest)
    obtain ⟨word, hword, rfl⟩ := Option.map_eq_some_iff.mp htest
    have hheads : Name.testHeads.all (fun word => decide (OneLine word)) = true := by decide
    refine List.forall_mem_cons.mpr ⟨hhead.name, List.forall_mem_singleton.mpr ?_⟩
    exact of_decide_eq_true (List.all_eq_true.mp hheads word (List.mem_of_find?_eq_some hword))

/-- A declared function finds constructs with names of one line and goes on in the same tokens. -/
theorem findsNames_declaredFunction (hpackage : OneLine file.package) (keyword : Token) (h : Token.Run all ts) :
    Outcome (fun r => (∀ c ∈ r.1, c.NamesInLine) ∧ Token.Run all r.2) (fun _ => True)
      (declaredFunction file keyword ts) := by
  rw [declaredFunction_eq]
  refine (namesInLine_headOf hall h).bind fun head hhead => ?_
  obtain ⟨hrun, hrest⟩ := hhead.rest.spanTop (·.isSemi)
  dsimp only
  cases hbody : Block.body? head.close (Token.spanTop (·.isSemi) head.rest).1 with
  | none =>
    simp only [pure_bind]
    exact (findsNames_functionConstructs hpackage hhead .nil (List.forall_mem_nil _)).bind
      fun found hfound => .ok ⟨hfound, hrest⟩
  | some b =>
    have hinner := (Block.within_body? hrun hbody).inner
    refine (reads_ofSource (Statement.derives_readList _ none b.inner)).bind fun statements hstatements => ?_
    exact (findsNames_functionConstructs hpackage hhead hstatements fun t ht => hall t (hinner.mem ht)).bind
      fun found hfound => .ok ⟨hfound, hrest⟩

/-! ## Files -/

/-- The names of the constructs of declarations one after the other. -/
theorem findsNames_list (hpackage : OneLine file.package) (ts : List Token) (h : Token.Run all ts) :
    FindsNames (list file ts) := by
  cases hts : ts with
  | nil =>
    rw [list]
    exact .ok (List.forall_mem_nil _)
  | cons t rest =>
    rw [hts] at h
    rw [list_cons]
    split
    · next hsemi => exact findsNames_list hpackage rest (h.tail (isPlain_of_isSemi hsemi))
    · split
      · next hkeyword =>
        have hdeclared := findsNames_declared hall hpackage t (h.tail (isPlain_of_isKeywordIn hkeyword))
        cases hr : declared file t rest with
        | error f => exact .error trivial
        | ok r =>
          obtain ⟨hfound, hafter⟩ := (hr ▸ hdeclared).of_ok
          have hlength := length_of_declared hr
          refine (findsNames_list hpackage r.2 hafter).bind fun more hmore => .ok ?_
          exact List.forall_mem_append.mpr ⟨hfound, hmore⟩
      · split
        · next hkeyword =>
          have hfunction := findsNames_declaredFunction hall hpackage t (h.tail (isPlain_of_isKeyword hkeyword))
          cases hr : declaredFunction file t rest with
          | error f => exact .error trivial
          | ok r =>
            obtain ⟨hfound, hafter⟩ := (hr ▸ hfunction).of_ok
            have hlength := length_of_declaredFunction hr
            refine (findsNames_list hpackage r.2 hafter).bind fun more hmore => .ok ?_
            exact List.forall_mem_append.mpr ⟨hfound, hmore⟩
        · exact .error trivial
termination_by ts.length
decreasing_by
  all_goals rw [hts, List.length_cons]
  all_goals omega

end Declaration

namespace SourceFile

/-- The names of the constructs of a file. -/
theorem namesInLine_of_read {source path : String} {file : SourceFile} (h : read source path = .ok file) :
    ∀ c ∈ file.constructs, c.NamesInLine := by
  obtain ⟨lexed, hlexed, h⟩ := Except.bind_eq_ok.mp h
  obtain ⟨⟨package, constructs⟩, hpackage, h⟩ := Except.bind_eq_ok.mp h
  obtain rfl := Except.ok.inj h
  have hall := namesInLine_of_tokenize (Declaration.ofSource_eq_ok hlexed)
  refine List.forall_mem_cons.mpr ⟨Construct.namesInLine_of_nil rfl, ?_⟩
  obtain ⟨pairs, hbrackets, hpackage⟩ := Except.bind_eq_ok.mp hpackage
  have hbalanced := exists_matchBrackets_iff.mp ⟨pairs, Declaration.ofSource_eq_ok hbrackets⟩
  have hstart := Token.Run.dropWhile_isSemi ⟨List.Sublist.refl _, hbalanced⟩
  dsimp only at hpackage
  split at hpackage
  · cases hpackage
  · next keyword rest hkeyword =>
    rw [hkeyword] at hstart
    split at hpackage
    · cases hpackage
    · next hword =>
      rw [Bool.not_eq_true', Bool.not_eq_false] at hword
      have hafter := hstart.tail (isPlain_of_isKeyword hword)
      split at hpackage
      · cases hpackage
      · next name rest =>
        split at hpackage
        · cases hpackage
        · next hident =>
          rw [Bool.not_eq_true', Bool.not_eq_false] at hident
          have hname : OneLine (FileInfo.mk path (isTestPath path) name.text).package :=
            (hall name (hafter.mem List.mem_cons_self)).ident hident
          obtain ⟨found, hfound, hpackage⟩ := Except.bind_eq_ok.mp hpackage
          obtain ⟨-, rfl⟩ := Prod.mk.inj (Except.ok.inj hpackage)
          have hlist := Declaration.findsNames_list hall hname rest (hafter.tail (isPlain_of_isIdent hident))
          exact List.forall_mem_cons.mpr ⟨List.forall_mem_singleton.mpr hname, (hfound ▸ hlist).of_ok⟩

end SourceFile

namespace ConstructIndex

/-- Whether the names that can be looked up are in one line. -/
structure NamesInLine (index : ConstructIndex) : Prop where
  package : ∀ name ∈ index.package, OneLine name
  interfaces : ∀ i ∈ index.interfaces, OneLine i.name
  structs : ∀ s ∈ index.structs, OneLine s.name
  methods : ∀ m ∈ index.methods, OneLine m.2.info.name ∧
    ∀ r ∈ m.2.info.receiver, ∀ name ∈ r.name, OneLine name

/-- What is looked up among constructs with names in one line. -/
theorem namesInLine_ofConstructs {constructs : List Construct} (h : ∀ c ∈ constructs, c.NamesInLine) :
    (ofConstructs constructs).NamesInLine where
  package name hname := by
    obtain ⟨c, hc, hpackage⟩ := List.exists_of_findSome?_eq_some hname
    have hnames := h c hc
    rw [Construct.NamesInLine] at hnames
    unfold packageOf at hpackage
    split at hpackage
    · next hdetail =>
      obtain rfl := Option.some.inj hpackage
      rw [hdetail] at hnames
      exact hnames _ List.mem_cons_self
    · cases hpackage
  interfaces i hi := by
    obtain ⟨c, hc, hinterface⟩ := List.mem_filterMap.mp hi
    have hnames := h c hc
    rw [Construct.NamesInLine] at hnames
    unfold interfaceOf at hinterface
    split at hinterface
    · next hdetail =>
      obtain rfl := Option.some.inj hinterface
      rw [hdetail] at hnames
      exact hnames _ List.mem_cons_self
    · cases hinterface
  structs s hs := by
    obtain ⟨c, hc, hstruct⟩ := List.mem_filterMap.mp hs
    have hnames := h c hc
    rw [Construct.NamesInLine] at hnames
    unfold structOf at hstruct
    split at hstruct
    · next hdetail =>
      obtain rfl := Option.some.inj hstruct
      rw [hdetail] at hnames
      exact hnames _ List.mem_cons_self
    · cases hstruct
  methods m hm := by
    obtain ⟨d, hd, hm⟩ := List.mem_filterMap.mp (List.mem_of_mem_eraseDupsBy hm)
    obtain ⟨receiver, -, rfl⟩ := Option.map_eq_some_iff.mp hm
    obtain ⟨c, hc, hfunction⟩ := List.mem_filterMap.mp hd
    have hnames := h c hc
    rw [Construct.NamesInLine] at hnames
    unfold functionOf at hfunction
    split at hfunction
    · next hdetail =>
      obtain rfl := Option.some.inj hfunction
      rw [hdetail] at hnames
      obtain ⟨hname, hmore⟩ := List.forall_mem_cons.mp hnames
      refine ⟨hname, fun r hr name hrname => hmore name (List.mem_append_left _ ?_)⟩
      exact Option.mem_toList.mpr (Option.mem_def.mpr (Option.bind_eq_some_iff.mpr ⟨r, hr, hrname⟩))
    · cases hfunction

end ConstructIndex

end GoIdiom
