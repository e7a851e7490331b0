import GoIdiom.Proofs.Sites.Walk

/-!
# Sites of constructs of declarations

Declarations are read from different tokens, and the parts of a declaration too: names, receiver, parameters,
results, fields and statements. So within a layer the constructs of declarations have no more sites than the
declarations have tokens.
-/

namespace GoIdiom

namespace Declaration

variable {file : FileInfo} {layer : Layer} {p : Position} {n : Nat}

/-- A reading of constructs that have at most so many sites at a place. -/
abbrev Takes (layer : Layer) (p : Position) (n : Nat) : Reading (List Construct) → Prop :=
  Outcome (fun cs => layer.countAt p cs ≤ n) fun _ => True

/-- What is read from the source. -/
theorem reads_ofSource {α : Type} {P : α → Prop} {x : Except SourceFault α} (h : Statement.Reads P x) :
    Outcome P (fun _ => True) (ofSource x) := h.mapError fun _ _ => trivial

/-- What a walk finds. -/
theorem reads_ofWalk {w : Walk} (h : Walk.Takes layer p n w) :
    Outcome (fun t => layer.traceAt p t ≤ n) (fun _ => True) (ofWalk w) := h.mapError fun _ _ => trivial

/-! ## Imports, types and variables -/

/-- The site of an import. -/
theorem takes_importSpec (first : Token) (rest : List Token) :
    Takes layer p (Token.countAt p (first :: rest)) (importSpec file first rest) := by
  unfold importSpec
  dsimp only
  split
  · refine .ok ?_
    rw [Layer.countAt_cons, Layer.countAt_nil, Token.countAt_cons]
    exact Nat.add_le_add (Layer.count_sites_le (List.contains_iff_mem.mp rfl)) (Nat.zero_le _)
  · exact .error trivial

/-- A field begins with the first token of its line. -/
theorem pos_fieldOf (element : List Token) : (fieldOf element).map (·.pos) = element.head?.map (·.pos) := by
  have hhead : (untagged element).head? = element.head? := by
    rw [untagged]
    split
    · next h =>
      cases element with
      | nil => rfl
      | cons first rest =>
        cases rest with
        | nil => exact absurd (of_decide_eq_true (Bool.and_eq_true_iff.mp h).1) (Nat.lt_irrefl 1)
        | cons => rfl
    · rfl
  rw [fieldOf_eq, ← hhead]
  cases untagged element with
  | nil => rfl
  | cons first rest =>
    rw [fieldIn]
    split <;> rfl

/-- Fields stand at different tokens of the braces around them. -/
theorem pos_fields_sublist (inner : List Token) :
    (((Token.splitParts (·.isSemi) inner).filterMap fieldOf).map (·.pos)).Sublist (inner.map (·.pos)) := by
  have hfields : ((Token.splitParts (·.isSemi) inner).filterMap fieldOf).map (·.pos) =
      ((Token.splitParts (·.isSemi) inner).filterMap (·.head?)).map (·.pos) := by
    rw [List.map_filterMap, List.map_filterMap]
    exact List.filterMap_congr fun element _ => pos_fieldOf element
  rw [hfields]
  exact ((Token.heads_sublist _).trans (Token.flatten_splitParts_sublist _ inner)).map _

/-- The contents of a group after a keyword. -/
theorem sublist_of_groupAfter? {keyword : String} {ts inner : List Token}
    (h : groupAfter? keyword ts = some inner) : inner.Sublist ts := by
  unfold groupAfter? at h
  split at h
  · obtain ⟨-, h⟩ := Option.ite_none_right_eq_some.mp h
    obtain ⟨g, hg, rfl⟩ := Option.map_eq_some_iff.mp h
    rw [← Token.splitGroup_eq_append hg]
    exact ((List.sublist_append_left ..).cons _).cons _
  · cases h

/-- The sites of a type: where it begins, and its fields. -/
theorem count_sites_type (path : String) (pos : Position) (endLine : Nat) (name : String) (typeParams : List Param)
    (isAlias : Bool) (type : List Token) :
    (layer.sites ⟨path, pos, endLine, typeDetail name typeParams isAlias type⟩).count p ≤
      [pos].count p + Token.countAt p type := by
  have hbegin {k k' : ConstructKind} :
      (if k = k' then [pos] else []).count p ≤ [pos].count p + Token.countAt p type := by
    split
    · exact Nat.le_add_right _ _
    · exact Nat.zero_le _
  rw [typeDetail]
  split
  · cases layer with
    | kind k => exact hbegin
    | name => exact Nat.le_add_right _ _
    | _ => exact Nat.zero_le _
  · next inner _ hstruct =>
    have hfields := ((pos_fields_sublist inner).trans ((sublist_of_groupAfter? hstruct).map _)).count_le p
    cases layer with
    | kind k => exact hbegin
    | name => exact Nat.le_add_right _ _
    | part => exact Nat.le_trans hfields (Nat.le_add_left _ _)
    | _ => exact Nat.zero_le _
  · cases layer with
    | kind k => exact hbegin
    | name => exact Nat.le_add_right _ _
    | _ => exact Nat.zero_le _

/-- A group at the head of a run, and what follows it. -/
theorem append_of_groupAt? {opener : String} {ts : List Token} {g : Token.Group} (h : groupAt? opener ts = some g) :
    ∃ t, ts = t :: (g.inner ++ g.closer :: g.rest) := by
  cases ts with
  | nil => cases h
  | cons t rest =>
    obtain ⟨-, hg⟩ := Option.ite_none_right_eq_some.mp h
    exact ⟨t, by rw [Token.splitGroup_eq_append hg]⟩

/-- A group and what follows it count no more than the run they are cut from. -/
theorem countAt_groupAt? {opener : String} {ts : List Token} {g : Token.Group} (h : groupAt? opener ts = some g) :
    Token.countAt p g.inner + Token.countAt p g.rest ≤ Token.countAt p ts := by
  obtain ⟨t, rfl⟩ := append_of_groupAt? h
  rw [Token.countAt_cons, Token.countAt_append, Token.countAt_cons]
  omega

/-- The tokens of a type after its name and type parameters. -/
theorem type_sublist (rest : List Token) : (aliasOf (typeParamsAt rest).2).2.Sublist rest := by
  have hparams : (typeParamsAt rest).2.Sublist rest := by
    rw [typeParamsAt]
    split
    · next g hg =>
      obtain ⟨t, hrest⟩ := append_of_groupAt? hg
      split
      · rw [hrest]
        exact ((List.sublist_cons_self ..).trans (List.sublist_append_right ..)).cons t
      · exact List.Sublist.refl _
    · exact List.Sublist.refl _
  refine List.Sublist.trans ?_ hparams
  rw [aliasOf]
  dsimp only
  split
  · exact List.drop_sublist 1 _
  · exact List.Sublist.refl _

/-- The sites of a type declaration. -/
theorem takes_typeSpec (follow : Option Token) (first : Token) (rest : List Token) :
    Takes layer p (Token.countAt p (first :: rest)) (typeSpec file follow first rest) := by
  rw [typeSpec_eq]
  dsimp only
  split
  · exact .error trivial
  · split
    · exact .error trivial
    · refine .ok ?_
      rw [Layer.countAt_cons, Layer.countAt_nil, Token.countAt_cons]
      have htype := Token.countAt_le_of_sublist (p := p) (type_sublist rest)
      refine Nat.le_trans (Nat.add_le_add_right (count_sites_type ..) 0) ?_
      omega

/-- The names at the head of a variable declaration, and what follows them. -/
theorem variableNames_sublist (ts : List Token) : ((variableNames ts).1 ++ (variableNames ts).2).Sublist ts := by
  fun_induction variableNames ts with
  | case1 name hname comma more hcomma names after hmore ih =>
    rw [hmore] at ih
    exact (ih.cons comma).cons_cons name
  | case2 => exact List.Sublist.refl _
  | case3 => exact List.Sublist.refl _
  | case4 => exact List.Sublist.refl _
  | case5 => exact List.Sublist.refl _

/-- A variable declaration that has names begins with the first of them. -/
theorem head_variableNames {first : Token} {rest : List Token}
    (h : (variableNames (first :: rest)).1.isEmpty = false) : first ∈ (variableNames (first :: rest)).1 := by
  cases hident : first.isIdent with
  | false =>
    rw [variableNames.eq_def] at h
    dsimp only at h
    rw [hident, if_neg Bool.false_ne_true] at h
    cases h
  | true =>
    rw [variableNames.eq_def]
    dsimp only
    rw [if_pos hident]
    split
    · split
      · exact List.mem_cons_self
      · exact List.mem_cons_self
    · exact List.mem_cons_self

variable (layer p) in
/-- The sites of a variable declaration: where it begins, and its names. -/
theorem count_sites_global (path : String) (endLine : Nat) {first : Token} {names : List Token}
    (h : first ∈ names) (isConst : Bool) (type value : String) :
    (layer.sites ⟨path, first.pos, endLine,
      .global ⟨names.map fun t => (t.text, t.pos), isConst, type, value⟩⟩).count p ≤
        Token.countAt p names := by
  cases layer with
  | kind k =>
    change (if k = .global then [first.pos] else []).count p ≤ _
    split
    · exact Token.count_pos_le h
    · exact Nat.zero_le _
  | name =>
    refine Nat.le_of_eq (congrArg (List.count p) ?_)
    exact List.map_map
  | _ => exact Nat.zero_le _

variable (layer p) in
/-- The sites of a variable declaration and of the constructs in its value. -/
theorem takes_variableSpec (keyword first : Token) (rest : List Token) :
    Takes layer p (Token.countAt p (first :: rest)) (variableSpec file keyword first rest) := by
  have hnames := Token.countAt_le_of_sublist (p := p) (variableNames_sublist (first :: rest))
  rw [Token.countAt_append] at hnames
  have hvalue : Token.countAt p ((Token.spanTop (·.isOp "=") (variableNames (first :: rest)).2).2.drop 1) ≤
      Token.countAt p (variableNames (first :: rest)).2 := by
    have happend := Token.spanTop_append (·.isOp "=") (variableNames (first :: rest)).2
    refine Token.countAt_le_of_sublist ((List.drop_sublist 1 _).trans ?_)
    conv => rhs; rw [← happend]
    exact List.sublist_append_right ..
  rw [variableSpec_eq]
  dsimp only
  split
  · exact .error trivial
  · next hsome =>
    have hfirst := head_variableNames (Bool.eq_false_iff.mpr hsome)
    refine (reads_ofSource (Statement.sites_cutLiterals layer p _)).bind fun cut hcut => ?_
    have hcount := hcut.count
    have hexpression := layer.expressionAt_le p cut.2
    refine (reads_ofWalk ((Body.takes_expression layer p _ false cut.2).andThen
      (Body.takes_walkLiterals layer p _ false cut.1))).bind fun trace htrace => .ok ?_
    rw [Layer.traceAt] at htrace
    rw [Layer.countAt_cons]
    have hglobal := count_sites_global layer p file.path (rest.getLastD first).line hfirst
      (keyword.text == "const") (Token.render (Token.spanTop (·.isOp "=") (variableNames (first :: rest)).2).1)
      (Token.render cut.2)
    omega

variable (layer p) in
/-- The sites of one declaration under a keyword. -/
theorem takes_spec (keyword : Token) (follow : Option Token) (ts : List Token) :
    Takes layer p (Token.countAt p ts) (spec file keyword follow ts) := by
  unfold spec
  cases ts with
  | nil => exact .ok (Nat.le_refl _)
  | cons first rest =>
    dsimp only
    split
    · exact takes_importSpec first rest
    · exact takes_typeSpec follow first rest
    · exact takes_variableSpec layer p keyword first rest

variable (layer p) in
/-- The sites of declarations one after the other. -/
theorem takes_specs (keyword follow : Token) (parts : List (List Token × Option Token)) :
    Takes layer p (Token.countAt p (parts.flatMap (·.1))) (specs file keyword follow parts) := by
  induction parts with
  | nil => exact .ok (Nat.le_refl _)
  | cons part rest ih =>
    refine (takes_spec layer p keyword (some (part.2.getD follow)) part.1).bind fun found hfound => ?_
    refine ih.bind fun more hmore => .ok ?_
    rw [Layer.countAt_append, List.flatMap_cons, Token.countAt_append]
    exact Nat.add_le_add hfound hmore

/-- What is read of some tokens, and the tokens left, count no more than the tokens. -/
abbrev Leaves (layer : Layer) (p : Position) (n : Nat) : Reading (List Construct × List Token) → Prop :=
  Outcome (fun r => layer.countAt p r.1 + Token.countAt p r.2 ≤ n) fun _ => True

variable (file layer p) in
/-- The sites of a declaration, or of a group of them, after its keyword, and the tokens left. -/
theorem leaves_declared (keyword : Token) (ts : List Token) :
    Leaves layer p (Token.countAt p ts) (declared file keyword ts) := by
  rw [declared_eq]
  cases hg : groupAt? "(" ts with
  | some g =>
    have hgroup := countAt_groupAt? (p := p) hg
    have hparts := Token.countAt_le_of_sublist (p := p) (Token.flatMap_endedParts_sublist (·.isSemi) g.inner)
    refine (takes_specs layer p keyword g.closer _).bind fun found hfound => .ok ?_
    dsimp only
    omega
  | none =>
    have happend := congrArg (Token.countAt p) (Token.spanTop_append (·.isSemi) ts)
    rw [Token.countAt_append] at happend
    dsimp only
    split
    · exact .error trivial
    · refine (takes_spec layer p keyword _ _).bind fun found hfound => .ok ?_
      dsimp only
      omega

/-! ## Functions -/

/-- How many receivers and parameters in the head of a function stand at a place. -/
def partsAt (p : Position) (head : FunctionHead) : Nat :=
  (head.receiver.toList.map (·.pos)).count p + (head.params.map (·.pos)).count p

/-- A head of a function that a receiver and tokens are read as. -/
abbrev ReadsHead (p : Position) (n : Nat) : Reading FunctionHead → Prop :=
  Outcome (fun head => partsAt p head + Token.countAt p head.rest ≤ n) fun _ => True

variable (p) in
/-- Type parameters and parameters after the name of a function. -/
theorem parts_paramsOf (receiver : Option Receiver) (name : Token) (ts : List Token) :
    ReadsHead p ((receiver.toList.map (·.pos)).count p + Token.countAt p ts) (paramsOf receiver name ts) := by
  rw [paramsOf_eq]
  cases htypes : groupAt? "[" ts with
  | some types =>
    have hafter := countAt_groupAt? (p := p) htypes
    dsimp only
    cases hg : groupAt? "(" types.rest with
    | some g =>
      have hgroup := countAt_groupAt? (p := p) hg
      have hparams : ((Signature.params g.inner).map (·.pos)).count p ≤ Token.countAt p g.inner :=
        (Signature.pos_params_sublist g.inner).count_le p
      refine .ok ?_
      rw [partsAt]
      dsimp only
      omega
    | none => exact .error trivial
  | none =>
    dsimp only
    cases hg : groupAt? "(" ts with
    | some g =>
      have hgroup := countAt_groupAt? (p := p) hg
      have hparams : ((Signature.params g.inner).map (·.pos)).count p ≤ Token.countAt p g.inner :=
        (Signature.pos_params_sublist g.inner).count_le p
      refine .ok ?_
      rw [partsAt]
      dsimp only
      omega
    | none => exact .error trivial

variable (p) in
/-- Name and parameters of a function. -/
theorem parts_namedHead (receiver : Option Receiver) (previous : Token) (ts : List Token) :
    ReadsHead p ((receiver.toList.map (·.pos)).count p + Token.countAt p ts) (namedHead receiver previous ts) := by
  rw [namedHead_eq]
  cases ts with
  | nil => exact .error trivial
  | cons name rest =>
    dsimp only
    split
    · refine (parts_paramsOf p receiver name rest).mono fun head hhead => ?_
      rw [Token.countAt_cons]
      omega
    · exact .error trivial

variable (p) in
/-- The head of a function after its keyword. -/
theorem parts_headOf (keyword : Token) (ts : List Token) :
    ReadsHead p (Token.countAt p ts) (headOf keyword ts) := by
  rw [headOf_eq]
  cases hg : groupAt? "(" ts with
  | none =>
    refine (parts_namedHead p none keyword ts).mono fun head hhead => ?_
    rw [Option.toList_none, List.map_nil, List.count_nil] at hhead
    omega
  | some g =>
    have hgroup := countAt_groupAt? (p := p) hg
    have hparams : ((Signature.params g.inner).map (·.pos)).count p ≤ Token.countAt p g.inner :=
      (Signature.pos_params_sublist g.inner).count_le p
    dsimp only
    split
    · next receiver hreceiver =>
      refine (parts_namedHead p (some (receiverOf receiver)) g.closer g.rest).mono fun head hhead => ?_
      rw [hreceiver] at hparams
      change ([receiver.pos].count p + _) ≥ _ at hhead
      change [receiver.pos].count p ≤ _ at hparams
      omega
    · exact .error trivial

variable (layer p) in
/-- The sites of a function and of the test that it may be: where they begin, the parts of the function, and its
returns without values. -/
theorem countAt_function (path : String) (pos : Position) (endLine : Nat) (info : FunctionInfo)
    (test : Option TestInfo) :
    layer.countAt p (⟨path, pos, endLine, .function info⟩ ::
        test.toList.map fun t => ⟨path, pos, endLine, .testFunction t⟩) ≤
      [pos].count p + ((info.receiver.toList.map (·.pos)).count p + (info.params.map (·.pos)).count p +
        (info.results.map (·.pos)).count p) + (layer.leaves info.nakedReturns).count p := by
  have htest : layer.countAt p (test.toList.map fun t => ⟨path, pos, endLine, .testFunction t⟩) ≤
      if layer = .kind .testFunction then [pos].count p else 0 := by
    cases test with
    | none => exact Nat.zero_le _
    | some t =>
      have hsite : layer.sites ⟨path, pos, endLine, .testFunction t⟩ =
          if layer = .kind .testFunction then [pos] else [] :=
        Layer.sites_of_plain (by decide : ConstructKind.testFunction ∈ Layer.plainKinds)
      rw [Option.toList_some, List.map_singleton, Layer.countAt_cons, Layer.countAt_nil, hsite]
      split
      · exact Nat.le_refl _
      · exact Nat.le_refl _
  rw [Layer.countAt_cons]
  cases layer with
  | kind k =>
    change (if k = .function then [pos] else []).count p + _ ≤ _
    split
    · next hk =>
      subst hk
      rw [if_neg (by decide)] at htest
      omega
    · rw [List.count_nil]
      split at htest <;> omega
  | name =>
    rw [if_neg (by decide)] at htest
    change [pos].count p + _ ≤ _
    omega
  | part =>
    rw [if_neg (by decide)] at htest
    change (info.receiver.toList.map (·.pos) ++ (info.params.map (·.pos) ++ info.results.map (·.pos))).count p +
      _ ≤ _
    rw [List.count_append, List.count_append]
    omega
  | leave =>
    rw [if_neg (by decide)] at htest
    change info.nakedReturns.count p + _ ≤ _ + info.nakedReturns.count p
    omega
  | value =>
    rw [if_neg (by decide)] at htest
    change 0 + _ ≤ _
    omega

variable (layer p) in
/-- The sites of a function and of its statements. -/
theorem takes_functionConstructs (keyword : Token) (head : FunctionHead) (signature : List Token)
    (body : Option Block) (statements : List Statement) :
    Takes layer p ([keyword.pos].count p + partsAt p head + ((resultsOf signature body).map (·.pos)).count p +
        Statement.listSitesAt layer p statements)
      (functionConstructs file keyword head signature body statements) := by
  rw [functionConstructs_eq]
  refine (reads_ofWalk (Body.takes_walkList layer p _ statements)).bind fun trace htrace => .ok ?_
  have hfunction := countAt_function layer p file.path keyword.pos (signature.getLastD head.close).line
    (infoOf file head (resultsOf signature body) body statements trace)
    (testOf? file head statements (infoOf file head (resultsOf signature body) body statements trace))
  change _ ≤ [keyword.pos].count p + (partsAt p head + ((resultsOf signature body).map (·.pos)).count p) +
    (layer.leaves trace.nakedReturns).count p at hfunction
  rw [Layer.traceAt] at htrace
  rw [Layer.countAt_append]
  refine Nat.le_trans (Nat.add_le_add_left hfunction _) ?_
  omega

variable (file layer p) in
/-- The sites of a function after its keyword, and the tokens left. -/
theorem leaves_declaredFunction (keyword : Token) (ts : List Token) :
    Leaves layer p ([keyword.pos].count p + Token.countAt p ts) (declaredFunction file keyword ts) := by
  rw [declaredFunction_eq]
  refine (parts_headOf p keyword ts).bind fun head hhead => ?_
  have hrun := congrArg (Token.countAt p) (Token.spanTop_append (·.isSemi) head.rest)
  rw [Token.countAt_append] at hrun
  dsimp only
  cases hbody : Block.body? head.close (Token.spanTop (·.isSemi) head.rest).1 with
  | none =>
    have hresults : ((resultsOf (Token.spanTop (·.isSemi) head.rest).1 none).map (·.pos)).count p ≤
        Token.countAt p (Token.spanTop (·.isSemi) head.rest).1 :=
      (Signature.pos_results_sublist _).count_le p
    simp only [pure_bind]
    refine (takes_functionConstructs layer p keyword head _ none []).bind fun found hfound => .ok ?_
    rw [Statement.listSitesAt] at hfound
    dsimp only
    omega
  | some b =>
    have hresults : ((resultsOf (Token.spanTop (·.isSemi) head.rest).1 (some b)).map (·.pos)).count p ≤
        Token.countAt p b.before :=
      (Signature.pos_results_sublist b.before).count_le p
    have hparts := congrArg (Token.countAt p) (Block.run_body? hbody)
    rw [Block.run, Token.countAt_append, Token.countAt_cons, Token.countAt_append, Token.countAt_cons] at hparts
    refine (reads_ofSource (Statement.sites_readList layer p (some b.closer) none b.inner)).bind
      fun statements hstatements => ?_
    refine (takes_functionConstructs layer p keyword head _ (some b) statements).bind fun found hfound => .ok ?_
    dsimp only
    omega

variable (layer p) in
/-- The sites of declarations one after the other. -/
theorem takes_list (file : FileInfo) (ts : List Token) : Takes layer p (Token.countAt p ts) (list file ts) := by
  cases ts with
  | nil =>
    rw [list]
    exact .ok (Nat.le_refl _)
  | cons t rest =>
    rw [list_cons, Token.countAt_cons]
    split
    · exact (takes_list file rest).mono fun cs hcs => Nat.le_trans hcs (Nat.le_add_left _ _)
    · split
      · have hdeclared := leaves_declared file layer p t rest
        cases hr : declared file t rest with
        | error f => exact .error trivial
        | ok r =>
          have hfound := (hr ▸ hdeclared).of_ok
          have hlength := length_of_declared hr
          refine (takes_list file r.2).bind fun more hmore => .ok ?_
          rw [Layer.countAt_append]
          omega
      · split
        · have hfunction := leaves_declaredFunction file layer p t rest
          cases hr : declaredFunction file t rest with
          | error f => exact .error trivial
          | ok r =>
            have hfound := (hr ▸ hfunction).of_ok
            have hlength := length_of_declaredFunction hr
            refine (takes_list file r.2).bind fun more hmore => .ok ?_
            rw [Layer.countAt_append]
            omega
        · exact .error trivial
termination_by ts.length
decreasing_by
  all_goals rw [List.length_cons]
  all_goals omega

end Declaration

end GoIdiom
