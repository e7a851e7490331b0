import GoIdiom.Proofs.Declarations
import GoIdiom.Proofs.Relocation.Body

/-!
# Declarations in moved tokens

The constructs of the declarations of moved tokens are the constructs of the original declarations, moved.
-/

namespace GoIdiom

namespace Moved

variable {ε α β : Type} {expected : α → Prop} {f : α → β}

/-- A reading and the same reading with its value moved. -/
theorem of_map {x : Except ε α} (h : ∀ a, x = .ok a → expected a) : Moved expected f x (x.map f) :=
  ⟨h, by cases x <;> rfl⟩

/-- Readings of source remain so as parts of a file. -/
theorem ofSource {x : Except SourceFault α} {y : Except SourceFault β} (h : Moved expected f x y) :
    Moved expected f (Declaration.ofSource x) (Declaration.ofSource y) := by
  obtain ⟨hexpected, heq⟩ := h
  cases x with
  | error e =>
    cases y with
    | error e' => exact .error _ _
    | ok b => cases heq
  | ok a =>
    cases y with
    | error e' => cases heq
    | ok b =>
      rw [show b = f a from Option.some.inj heq]
      exact .ok (hexpected a rfl)

end Moved

namespace Relocation

open Declaration

variable (m : Relocation) {f : FileInfo}

section Groups

/-- The group at the start of moved tokens is the moved group. -/
@[simp] theorem groupAt?_map (opener : String) (ts : List Token) :
    groupAt? opener (ts.map m.token) = (groupAt? opener ts).map m.group := by
  cases ts with
  | nil => rfl
  | cons t rest => simp only [List.map_cons, groupAt?, isOp_token, closeGroup_map, group_if]

/-- Moved tokens hold type parameters exactly when the tokens do. -/
@[simp] theorem holdsTypeParams_map (ts : List Token) : holdsTypeParams (ts.map m.token) = holdsTypeParams ts := by
  match ts with
  | [] => rfl
  | [_] => rfl
  | _ :: _ :: _ => rfl

/-- The tokens of the group after a keyword move with it. -/
@[simp] theorem groupAfter?_map (keyword : String) (ts : List Token) :
    groupAfter? keyword (ts.map m.token) = (groupAfter? keyword ts).map (List.map m.token) := by
  match ts with
  | [] => rfl
  | [_] => rfl
  | t :: opener :: rest =>
    simp only [List.map_cons, groupAfter?, isKeyword_token, isOp_token, closeGroup_map, Option.map_map]
    split
    · simp only [Option.map_map]
      rfl
    · rfl

/-- A group in laid tokens begins with a written token, and what follows it is laid. -/
theorem laid_groupAt? {opener : String} {ts : List Token} {g : Token.Group}
    (hopener : ["++", "--", ")", "]", "\x7d"].contains opener = false) (h : Token.laid true ts = true)
    (hg : groupAt? opener ts = some g) : Token.laid false g.inner = true ∧ Token.laid true g.rest = true := by
  cases ts with
  | nil => cases hg
  | cons t rest =>
    obtain ⟨hop, hgroup⟩ := Option.ite_none_right_eq_some.mp hg
    exact ⟨Token.laid_inner h (Token.endsStatement_of_isOp hop hopener) hgroup,
      Token.laid_rest (Token.laid_mono (Token.laid_cons.mp h).2) hgroup⟩

end Groups

section Types

/-- A moved element is a method exactly when the element is. -/
@[simp] theorem isMethod_map (element : List Token) : isMethod (element.map m.token) = isMethod element := by
  match element with
  | [] => rfl
  | [_] => rfl
  | _ :: _ :: _ => rfl

/-- A moved element is a type's name exactly when the element is. -/
@[simp] theorem isTypeName_map (element : List Token) : isTypeName (element.map m.token) = isTypeName element := by
  rw [isTypeName, List.all_map, isTypeName]
  rfl

/-- A method of an interface moves with its element. -/
@[simp] theorem methodOf_map (element : List Token) :
    methodOf (element.map m.token) = (methodOf element).map m.method := by
  cases element with
  | nil => rfl
  | cons first rest =>
    simp only [List.map_cons, methodOf, text_token, render_map, line_token, Option.map_some, method]

/-- An interface moves with its elements. -/
theorem interfaceInfo_map (name : String) (typeParams : List Param) (elements : List (List Token)) :
    .interface (interfaceInfo name (typeParams.map m.param) (elements.map (List.map m.token))) =
      m.detail (.interface (interfaceInfo name typeParams elements)) := by
  simp only [interfaceInfo_eq, List.filter_map, List.filterMap_map, List.any_map, List.map_map, Function.comp_def,
    isMethod_map, isTypeName_map, methodOf_map, render_map, detail, List.map_filterMap]

/-- The further names of a field move with their tokens. -/
theorem moreNames_map (ts : List Token) :
    moreNames (ts.map m.token) = ((moreNames ts).1, (moreNames ts).2.map m.token) := by
  fun_induction moreNames ts with
  | case1 comma name rest h names type hmore ih =>
    simp only [hmore] at ih
    simp only [List.map_cons, moreNames, isOp_token, isIdent_token, h, ↓reduceIte, ih, text_token]
  | case2 comma name rest h =>
    simp only [List.map_cons, moreNames, isOp_token, isIdent_token, h]
    rfl
  | case3 ts h =>
    match ts with
    | [] => rfl
    | [_] => rfl
    | comma :: name :: rest => exact absurd rfl (h comma name rest)

/-- What a field is without its tag moves with it. -/
@[simp] theorem untagged_map (element : List Token) :
    untagged (element.map m.token) = (untagged element).map m.token := by
  simp only [untagged, List.length_map, List.getLast?_map, Option.any_map, kind_token, ← List.map_dropLast]
  split <;> rfl

/-- Dropping the tag of a field keeps its first token. -/
theorem head?_untagged (element : List Token) : (untagged element).head? = element.head? := by
  rw [untagged]
  split
  · next h =>
    cases element with
    | nil => rfl
    | cons first rest =>
      cases rest with
      | nil => exact absurd h (by simp)
      | cons => rfl
  · rfl

/-- A field moves with the tokens of its line, as no line begins with a semicolon. -/
theorem fieldOf_map {element : List Token} (h : element.head?.any (·.isSemi) = false) :
    fieldOf (element.map m.token) = (fieldOf element).map m.field := by
  rw [fieldOf_eq, fieldOf_eq, untagged_map]
  rw [← head?_untagged] at h
  cases huntagged : untagged element with
  | nil => rfl
  | cons first rest =>
    rw [huntagged] at h
    have hname := m.declaresName_map (first :: rest)
    have hrender := m.render_map (first :: rest)
    rw [List.map_cons] at hname hrender
    simp only [List.map_cons, fieldIn, hname, hrender, text_token, moreNames_map, render_map,
      m.pos_token (Token.isInserted_of_isSemi h)]
    split <;> rfl

/-- The fields of a struct move with its tokens. -/
theorem fields_map (inner : List Token) :
    (Token.splitParts (·.isSemi) (inner.map m.token)).filterMap fieldOf =
      ((Token.splitParts (·.isSemi) inner).filterMap fieldOf).map m.field := by
  rw [m.splitParts_map m.isSemi_token, List.filterMap_map, List.map_filterMap]
  exact List.filterMap_congr fun element helement => m.fieldOf_map (Token.head_splitParts helement)

/-- What a type specification declares moves with its tokens. -/
theorem typeDetail_map (name : String) (typeParams : List Param) (isAlias : Bool) (type : List Token) :
    typeDetail name (typeParams.map m.param) isAlias (type.map m.token) =
      m.detail (typeDetail name typeParams isAlias type) := by
  unfold typeDetail
  rw [groupAfter?_map, groupAfter?_map, render_map]
  cases groupAfter? "interface" type with
  | some inner =>
    simp only [Option.map_some, m.splitParts_map m.isSemi_token]
    exact m.interfaceInfo_map name typeParams _
  | none =>
    cases groupAfter? "struct" type with
    | some inner => simp only [Option.map_some, Option.map_none, fields_map, detail]
    | none => rfl

/-- The type parameters of a specification move with their tokens. -/
theorem typeParamsAt_map {ts : List Token} (h : Token.laid true ts = true) :
    typeParamsAt (ts.map m.token) = ((typeParamsAt ts).1.map m.param, (typeParamsAt ts).2.map m.token) := by
  rw [typeParamsAt, groupAt?_map, typeParamsAt]
  cases hg : groupAt? "[" ts with
  | none => rfl
  | some g =>
    have hinner := (laid_groupAt? (by decide) h hg).1
    simp only [Option.map_some, group, holdsTypeParams_map, m.params_map hinner]
    split <;> rfl

/-- Whether a specification declares an alias is the same after the move. -/
@[simp] theorem aliasOf_map (ts : List Token) :
    aliasOf (ts.map m.token) = ((aliasOf ts).1, (aliasOf ts).2.map m.token) := by
  simp only [aliasOf, List.head?_map, Option.any_map, isOp_token, ← List.map_drop]
  split <;> rfl

end Types

section Specs

/-- Two readings of the constructs of declarations, the second in moved tokens. -/
abbrev MovedConstructs (x y : Reading (List Construct)) : Prop := Moved (fun _ => True) (List.map m.construct) x y

/-- Constructs, and the constructs after them. -/
theorem moved_append {x x' y y' : Reading (List Construct)} (h : m.MovedConstructs x x')
    (hmore : m.MovedConstructs y y') :
    m.MovedConstructs (do let found ← x; let more ← y; pure (found ++ more))
      (do let found ← x'; let more ← y'; pure (found ++ more)) := by
  refine h.bind fun found _ => hmore.bind fun more _ => ?_
  rw [← List.map_append]
  exact .ok trivial

/-- An import moves with its tokens. -/
theorem moved_importSpec (first : Token) (rest : List Token) (h : first.isInserted = false) :
    m.MovedConstructs (importSpec f first rest) (importSpec (m.file f) (m.token first) (rest.map m.token)) := by
  simp only [importSpec, List.getLastD_map, kind_token, List.isEmpty_map, text_token, m.pos_token h, line_token]
  split
  · exact .ok trivial
  · exact .error _ _

/-- A type specification moves with its tokens. -/
theorem moved_typeSpec (follow : Option Token) (first : Token) (rest : List Token)
    (h : Token.laid true rest = true) :
    m.MovedConstructs (typeSpec f follow first rest)
      (typeSpec (m.file f) (follow.map m.token) (m.token first) (rest.map m.token)) := by
  simp only [typeSpec_eq, isIdent_token, List.getLastD_map, m.typeParamsAt_map h, aliasOf_map, List.isEmpty_map,
    text_token, line_token, typeDetail_map]
  split
  · exact .error _ _
  · next hname =>
    rw [Bool.not_eq_true', Bool.not_eq_false] at hname
    rw [m.pos_token_of_isIdent hname]
    split
    · exact .error _ _
    · exact .ok trivial

/-- The names of a variable specification move with their tokens. -/
theorem variableNames_map (ts : List Token) : variableNames (ts.map m.token) =
    ((variableNames ts).1.map m.token, (variableNames ts).2.map m.token) := by
  fun_induction variableNames ts with
  | case1 name hname comma more hcomma names after hmore ih =>
    simp only [hmore] at ih
    simp only [List.map_cons, variableNames, isIdent_token, isOp_token, hname, hcomma, ↓reduceIte, ih]
  | case2 name hname comma more hcomma =>
    simp only [List.map_cons, variableNames, isIdent_token, isOp_token, hname, hcomma, ↓reduceIte]
    rfl
  | case3 name hname =>
    simp only [List.map_cons, List.map_nil, variableNames, isIdent_token, hname, ↓reduceIte]
  | case4 name rest hname =>
    rw [List.map_cons, variableNames.eq_def]
    simp only [isIdent_token, hname]
    rfl
  | case5 => rfl

/-- The names of a variable declaration are identifiers. -/
theorem isIdent_of_mem_variableNames {t : Token} {ts : List Token} (h : t ∈ (variableNames ts).1) :
    t.isIdent = true := by
  fun_induction variableNames ts with
  | case1 name hname comma more hcomma names after hmore ih =>
    rw [hmore] at ih
    exact (List.mem_cons.mp h).elim (fun h => h ▸ hname) ih
  | case2 name hname => exact List.mem_singleton.mp h ▸ hname
  | case3 name hname => exact List.mem_singleton.mp h ▸ hname
  | case4 => exact absurd h List.not_mem_nil
  | case5 => exact absurd h List.not_mem_nil

/-- What follows the names of a variable declaration ends it. -/
theorem variableNames_suffix (ts : List Token) : (variableNames ts).2 <:+ ts := by
  fun_induction variableNames ts with
  | case1 name hname comma more hcomma names after hmore ih =>
    rw [hmore] at ih
    exact ih.trans ((List.suffix_cons comma more).trans (List.suffix_cons name _))
  | case2 name hname comma more => exact List.suffix_cons name _
  | case3 name => exact List.nil_suffix
  | case4 => exact List.suffix_rfl
  | case5 => exact List.suffix_rfl

/-- The end of a laid run is laid. -/
theorem laid_suffix {may : Bool} {ts us : List Token} (hsuffix : us <:+ ts) (h : Token.laid may ts = true) :
    Token.laid true us = true := by
  obtain ⟨front, rfl⟩ := hsuffix
  exact Token.laid_right h

/-- What a walk finds moves with its traces. -/
@[simp] theorem ofWalk_map (w : Walk) : ofWalk (w.map m.trace) = (ofWalk w).map m.trace := by cases w <;> rfl

/-- A variable specification moves with its tokens. -/
theorem moved_variableSpec (keyword first : Token) (rest : List Token)
    (h : Token.laid false (first :: rest) = true) :
    m.MovedConstructs (variableSpec f keyword first rest)
      (variableSpec (m.file f) (m.token keyword) (m.token first) (rest.map m.token)) := by
  have hmap := m.variableNames_map (first :: rest)
  rw [List.map_cons] at hmap
  have hvalue :
      Token.laid true ((Token.spanTop (·.isOp "=") (variableNames (first :: rest)).2).2.drop 1) = true := by
    have hspan := Token.spanTop_append (·.isOp "=") (variableNames (first :: rest)).2
    exact laid_suffix ((List.drop_suffix 1 _).trans (.trans ⟨_, hspan⟩ (variableNames_suffix (first :: rest))))
      h
  have hctx : Context.ofScope ⟨"", none, [⟨[], [], []⟩]⟩ =
      m.context (Context.ofScope ⟨"", none, [⟨[], [], []⟩]⟩) := rfl
  have hnames : ((variableNames (first :: rest)).1.map m.token).map (fun t => (t.text, t.pos)) =
      ((variableNames (first :: rest)).1.map fun t => (t.text, t.pos)).map fun found =>
        (found.1, m.written found.2) := by
    rw [List.map_map, List.map_map]
    refine List.map_congr_left fun t ht => ?_
    simp only [text_token, m.pos_token_of_isIdent (isIdent_of_mem_variableNames ht), Function.comp_apply]
  have hspan (ts : List Token) :
      Token.spanTop (·.isOp "=") (ts.map m.token) = m.cut (Token.spanTop (·.isOp "=") ts) :=
    m.spanTop_map (fun t => m.isOp_token t "=") ts
  have htrace {x : Reading Trace} : Moved (fun _ => True) m.trace x (x.map m.trace) := .of_map fun _ _ => trivial
  simp only [variableSpec_eq, hmap, List.isEmpty_map, hspan, cut, hnames, m.pos_token (Token.isInserted_of_laid h),
    text_token, ← List.map_drop, render_map, List.getLastD_map, line_token]
  split
  · exact .error _ _
  · refine (m.moved_cutLiterals _ hvalue).ofSource.bind fun value hvalue => ?_
    rw [hctx, walk_map, m.walkLiterals_literals _ _ _ hvalue.literals, andThen_map, ofWalk_map]
    refine htrace.bind fun trace _ => ?_
    simp only [render_map]
    exact ⟨fun _ _ => trivial, rfl⟩

/-- A specification under any keyword moves with its tokens. -/
theorem moved_spec (keyword : Token) (follow : Option Token) (ts : List Token) (h : Token.laid false ts = true) :
    m.MovedConstructs (spec f keyword follow ts)
      (spec (m.file f) (m.token keyword) (follow.map m.token) (ts.map m.token)) := by
  cases ts with
  | nil => exact .ok trivial
  | cons first rest =>
    have hrest : Token.laid true rest = true := Token.laid_mono (Token.laid_cons.mp h).2
    simp only [List.map_cons, spec, text_token]
    split
    · exact m.moved_importSpec first rest (Token.isInserted_of_laid h)
    · exact m.moved_typeSpec follow first rest hrest
    · exact m.moved_variableSpec keyword first rest h

/-- The specifications of a group move with their tokens. -/
theorem moved_specs (keyword follow : Token) (parts : List (List Token × Option Token))
    (h : ∀ part ∈ parts, Token.laid false part.1 = true) :
    m.MovedConstructs (specs f keyword follow parts)
      (specs (m.file f) (m.token keyword) (m.token follow)
        (parts.map fun (part, ended) => (part.map m.token, ended.map m.token))) := by
  induction parts with
  | nil => exact .ok trivial
  | cons part rest ih =>
    rw [List.forall_mem_cons] at h
    obtain ⟨tokens, ended⟩ := part
    have hfollow : (ended.map m.token).getD (m.token follow) = m.token (ended.getD follow) := by cases ended <;> rfl
    have hspec := m.moved_spec (f := f) keyword (some (ended.getD follow)) tokens h.1
    simp only [List.map_cons, specs, hfollow]
    exact m.moved_append hspec (ih h.2)

end Specs

section Functions

/-- The head of a function at its new place. -/
def head (h : FunctionHead) : FunctionHead :=
  ⟨h.receiver.map m.receiver, m.token h.name, h.typeParams.map m.param, h.params.map m.param, m.token h.close,
    h.rest.map m.token⟩

/-- What reading a declaration gives: what follows it is laid, and no more than follows its keyword. -/
structure LaidAfter (bound : Nat) (r : List Construct × List Token) : Prop where
  rest : Token.laid true r.2 = true
  length : r.2.length ≤ bound

/-- The head of a function moves with the tokens from its parameters on. -/
theorem moved_paramsOf (receiver : Option Receiver) (name : Token) {ts : List Token}
    (h : Token.laid true ts = true) :
    Moved (fun head => Token.laid true head.rest = true) m.head (paramsOf receiver name ts)
      (paramsOf (receiver.map m.receiver) (m.token name) (ts.map m.token)) := by
  rw [paramsOf_eq, paramsOf_eq]
  simp only [groupAt?_map]
  cases htypes : groupAt? "[" ts with
  | none =>
    cases hg : groupAt? "(" ts with
    | none => exact .error _ _
    | some g =>
      obtain ⟨hinner, hrest⟩ := laid_groupAt? (by decide) h hg
      simp only [Option.map_none, Option.map_some, group, m.params_map hinner]
      exact ⟨fun _ ha => Except.ok.inj ha ▸ hrest, rfl⟩
  | some types =>
    obtain ⟨htypes, hafter⟩ := laid_groupAt? (by decide) h htypes
    simp only [Option.map_some, group, groupAt?_map]
    cases hg : groupAt? "(" types.rest with
    | none => exact .error _ _
    | some g =>
      obtain ⟨hinner, hrest⟩ := laid_groupAt? (by decide) hafter hg
      simp only [Option.map_some, group, m.params_map hinner, m.params_map htypes]
      exact ⟨fun _ ha => Except.ok.inj ha ▸ hrest, rfl⟩

/-- The head of a function whose name is reached moves with its tokens. -/
theorem moved_namedHead (receiver : Option Receiver) (previous : Token) {ts : List Token}
    (h : Token.laid true ts = true) :
    Moved (fun head => Token.laid true head.rest = true) m.head (namedHead receiver previous ts)
      (namedHead (receiver.map m.receiver) (m.token previous) (ts.map m.token)) := by
  rw [namedHead_eq, namedHead_eq]
  cases ts with
  | nil => exact .error _ _
  | cons name rest =>
    simp only [List.map_cons, isIdent_token]
    split
    · exact m.moved_paramsOf receiver name (Token.laid_mono (Token.laid_cons.mp h).2)
    · exact .error _ _

/-- The head of a function or method moves with its tokens. -/
theorem moved_headOf (keyword : Token) {ts : List Token} (h : Token.laid true ts = true) :
    Moved (fun head => Token.laid true head.rest = true) m.head (headOf keyword ts)
      (headOf (m.token keyword) (ts.map m.token)) := by
  rw [headOf_eq, headOf_eq, groupAt?_map]
  cases hg : groupAt? "(" ts with
  | none => exact m.moved_namedHead none keyword h
  | some g =>
    obtain ⟨hinner, hrest⟩ := laid_groupAt? (by decide) h hg
    simp only [Option.map_some, group, m.params_map hinner]
    match Signature.params g.inner with
    | [] => exact .error _ _
    | [p] => exact m.moved_namedHead (some (receiverOf p)) g.closer hrest
    | _ :: _ :: _ => exact .error _ _

/-- The results of a function move with its signature and its body. -/
theorem resultsOf_map {signature : List Token} {body : Option Block}
    (hsignature : Token.laid false signature = true)
    (hbody : ∀ b, body = some b → Token.laid false b.before = true) :
    resultsOf (signature.map m.token) (body.map m.block) = (resultsOf signature body).map m.param := by
  cases body with
  | none => exact m.results_map hsignature
  | some b => exact m.results_map (hbody b rfl)

/-- The scope of a function moves with its head, its results and its statements. -/
theorem scopeOf_head (h : FunctionHead) (results : List Param) (statements : List Statement) :
    scopeOf (m.head h) (results.map m.param) (m.statements statements) =
      m.scope (scopeOf h results statements) := by
  simp only [scopeOf, head, ofBody_statements, scope, List.map_cons, List.map_nil, text_token]

/-- What is recorded of a function moves with all that it is recorded from. -/
theorem infoOf_head (h : FunctionHead) (results : List Param) (body : Option Block) (statements : List Statement)
    (t : Trace) : infoOf (m.file f) (m.head h) (results.map m.param) (body.map m.block) (m.statements statements)
      (m.trace t) = m.functionInfo (infoOf f h results body statements t) := by
  have hlines : ((body.map m.block).map fun b => b.closer.line - b.opener.line - 1).getD 0 =
      (body.map fun b => b.closer.line - b.opener.line - 1).getD 0 := by
    cases body with
    | none => rfl
    | some b =>
      simp only [Option.map_some, Option.getD_some, block, line_token]
      omega
  simp only [infoOf, hlines, waitsForCancellation_statements, Option.isSome_map]
  rfl

/-- A moved function has the same test parameter. -/
@[simp] theorem testParam_functionInfo (info : FunctionInfo) :
    (m.functionInfo info).testParam = info.testParam := by
  simp only [FunctionInfo.testParam, functionInfo, List.findSome?_map]
  rfl

/-- A moved function is a test exactly when the function is, and the same one. -/
theorem testOf?_head (h : FunctionHead) (statements : List Statement) (info : FunctionInfo) :
    (testOf? (m.file f) (m.head h) (m.statements statements) (m.functionInfo info)).map Detail.testFunction =
      (testOf? f h statements info).map (m.detail ∘ .testFunction) := by
  have hreceiver : (m.head h).receiver.isNone = h.receiver.isNone := Option.isNone_map
  simp only [testOf?, hreceiver, testParam_functionInfo, references_statements]
  by_cases htest : (f.isTest && h.receiver.isNone) = true
  · rw [if_pos htest, if_pos (show ((m.file f).isTest && h.receiver.isNone) = true from htest), Option.map_map,
      Option.map_map]
    rfl
  · rw [if_neg htest, if_neg (show ¬((m.file f).isTest && h.receiver.isNone) = true from htest)]
    rfl

/-- The constructs of a function move with its parts. -/
theorem moved_functionConstructs (keyword : Token) (head : FunctionHead) (signature : List Token)
    (body : Option Block) (statements : List Statement) (hkeyword : keyword.isKeyword "func" = true)
    (hsignature : Token.laid false signature = true)
    (hbody : ∀ b, body = some b → Token.laid false b.before = true)
    (hstatements : Statement.listLaid statements = true) :
    m.MovedConstructs (functionConstructs f keyword head signature body statements)
      (functionConstructs (m.file f) (m.token keyword) (m.head head) (signature.map m.token) (body.map m.block)
        (m.statements statements)) := by
  have htrace {x : Reading Trace} : Moved (fun _ => True) m.trace x (x.map m.trace) := .of_map fun _ _ => trivial
  have hline : ((signature.map m.token).getLastD (m.head head).close).line =
      (signature.getLastD head.close).line + m.shift := by
    rw [Relocation.head, List.getLastD_map, line_token]
  rw [functionConstructs_eq, functionConstructs_eq]
  simp only [m.resultsOf_map hsignature hbody, scopeOf_head, ofScope_scope, m.walkList_statements _ _ hstatements,
    ofWalk_map, hline, m.pos_token_of_isKeyword hkeyword]
  refine htrace.bind fun t _ => ?_
  simp only [infoOf_head]
  have htests := congrArg (fun tests => tests.toList.map fun d =>
      (⟨m.path, m.written keyword.pos, (signature.getLastD head.close).line + m.shift, d⟩ : Construct))
    (m.testOf?_head (f := f) head statements (infoOf f head (resultsOf signature body) body statements t))
  simp only [Option.toList_map, List.map_map] at htests
  refine ⟨fun _ _ => trivial, congrArg some ?_⟩
  rw [List.map_append, List.map_cons, List.map_map]
  exact congrArg (fun tests => t.constructs.map m.construct ++ _ :: tests) htests

/-- A declared function moves with its tokens. -/
theorem moved_declaredFunction (keyword : Token) {ts : List Token} (hkeyword : keyword.isKeyword "func" = true)
    (h : Token.laid true ts = true) :
    Moved (LaidAfter ts.length) (fun r => (r.1.map m.construct, r.2.map m.token))
      (declaredFunction f keyword ts) (declaredFunction (m.file f) (m.token keyword) (ts.map m.token)) := by
  have hmoved : Moved (fun r => Token.laid true r.2 = true) (fun r => (r.1.map m.construct, r.2.map m.token))
      (declaredFunction f keyword ts) (declaredFunction (m.file f) (m.token keyword) (ts.map m.token)) := by
    rw [declaredFunction_eq, declaredFunction_eq]
    refine (m.moved_headOf keyword h).bind fun head hrest => ?_
    have hspan : Token.spanTop (·.isSemi) (m.head head).rest = m.cut (Token.spanTop (·.isSemi) head.rest) :=
      m.spanTop_map m.isSemi_token head.rest
    have hsignature := Token.laid_spanTop hrest
    have hafter : Token.laid true (Token.spanTop (·.isSemi) head.rest).2 = true := by
      rw [← Token.spanTop_append (·.isSemi) head.rest] at hrest
      exact Token.laid_right hrest
    have hconstructs (body : Option Block) (statements : List Statement)
        (hbody : ∀ b, body = some b → Token.laid false b.before = true)
        (hstatements : Statement.listLaid statements = true) :
        Moved (fun r => Token.laid true r.2 = true) (fun r => (r.1.map m.construct, r.2.map m.token))
          (do
            let found ← functionConstructs f keyword head (Token.spanTop (·.isSemi) head.rest).1 body statements
            pure (found, (Token.spanTop (·.isSemi) head.rest).2))
          (do
            let found ← functionConstructs (m.file f) (m.token keyword) (m.head head)
              ((Token.spanTop (·.isSemi) head.rest).1.map m.token) (body.map m.block) (m.statements statements)
            pure (found, (Token.spanTop (·.isSemi) head.rest).2.map m.token)) :=
      (m.moved_functionConstructs keyword head _ body statements hkeyword hsignature hbody hstatements).bind
        fun found _ => .ok hafter
    have hclose : (m.head head).close = m.token head.close := rfl
    simp only [hspan, cut, hclose, body?_map]
    cases hb : Block.body? head.close (Token.spanTop (·.isSemi) head.rest).1 with
    | none => exact hconstructs none [] (fun b hb => by cases hb) rfl
    | some b =>
      rw [← Block.run_body? hb] at hsignature
      have hinner := (Block.laid_run hsignature).1
      refine (m.moved_readList (some b.closer) none b.inner hinner).ofSource.bind fun statements hstatements => ?_
      exact hconstructs (some b) statements (fun _ hb' => Option.some.inj hb' ▸ Token.laid_left hsignature)
        hstatements
  exact ⟨fun r hr => ⟨hmoved.isExpected r hr, length_of_declaredFunction hr⟩, hmoved.toOption_eq⟩

/-- A declaration moves with its tokens. -/
theorem moved_declared (keyword : Token) {ts : List Token} (h : Token.laid true ts = true) :
    Moved (LaidAfter ts.length) (fun r => (r.1.map m.construct, r.2.map m.token))
      (declared f keyword ts) (declared (m.file f) (m.token keyword) (ts.map m.token)) := by
  have hmoved : Moved (fun r => Token.laid true r.2 = true) (fun r => (r.1.map m.construct, r.2.map m.token))
      (declared f keyword ts) (declared (m.file f) (m.token keyword) (ts.map m.token)) := by
    rw [declared_eq, declared_eq, groupAt?_map]
    cases hg : groupAt? "(" ts with
    | some g =>
      obtain ⟨hinner, hrest⟩ := laid_groupAt? (by decide) h hg
      simp only [Option.map_some, group, m.endedParts_map m.isSemi_token]
      exact (m.moved_specs keyword g.closer _ (Token.laid_endedParts hinner)).bind fun found _ => .ok hrest
    | none =>
      have hafter : Token.laid true (Token.spanTop (·.isSemi) ts).2 = true := by
        rw [← Token.spanTop_append (·.isSemi) ts] at h
        exact Token.laid_right h
      simp only [Option.map_none, m.spanTop_map m.isSemi_token, cut, List.isEmpty_map, List.head?_map]
      split
      · exact .error _ _
      · exact (m.moved_spec keyword _ _ (Token.laid_spanTop h)).bind fun found _ => .ok hafter
  exact ⟨fun r hr => ⟨hmoved.isExpected r hr, length_of_declared hr⟩, hmoved.toOption_eq⟩

end Functions

/-- The declarations of moved tokens. -/
theorem moved_list (ts : List Token) (h : Token.laid true ts = true) :
    m.MovedConstructs (Declaration.list f ts) (Declaration.list (m.file f) (ts.map m.token)) := by
  cases ts with
  | nil =>
    rw [List.map_nil, Declaration.list, Declaration.list]
    exact .ok trivial
  | cons t rest =>
    have hrest : Token.laid true rest = true := Token.laid_mono (Token.laid_cons.mp h).2
    have hmore {x : Reading (List Construct × List Token)} {y : Reading (List Construct × List Token)}
        (hxy : Moved (LaidAfter rest.length) (fun r => (r.1.map m.construct, r.2.map m.token)) x y) :
        m.MovedConstructs (do let r ← x; let more ← Declaration.list f r.2; pure (r.1 ++ more))
          (do let r ← y; let more ← Declaration.list (m.file f) r.2; pure (r.1 ++ more)) := by
      refine hxy.bind fun r hr => ?_
      have hlength := hr.length
      refine (moved_list r.2 hr.rest).bind fun more _ => ?_
      simp only [← List.map_append]
      exact .ok trivial
    rw [List.map_cons, list_cons, list_cons]
    simp only [isSemi_token, isKeywordIn_token, isKeyword_token]
    split
    · exact moved_list rest hrest
    · split
      · exact hmore (m.moved_declared t hrest)
      · split
        · next hkeyword => exact hmore (m.moved_declaredFunction t hkeyword hrest)
        · exact .error _ _
termination_by ts.length
decreasing_by
  all_goals subst_vars
  all_goals simp only [List.length_cons]
  all_goals omega

section File

/-- Whether brackets match does not depend on where they stand. -/
theorem moved_matchBracketsFrom (index : Nat) (opened : List (Nat × Token)) (ts : List Token) :
    Moved (fun _ => True) id (Token.matchBracketsFrom index opened ts)
      (Token.matchBracketsFrom index (opened.map fun (i, t) => (i, m.token t)) (ts.map m.token)) := by
  induction ts generalizing index opened with
  | nil =>
    cases opened with
    | nil => exact .ok trivial
    | cons t outer => exact .error _ _
  | cons t rest ih =>
    simp only [List.map_cons, Token.matchBracketsFrom, isOpener_token, isCloser_token, text_token]
    split
    · exact ih (index + 1) ((index, t) :: opened)
    · split
      · cases opened with
        | nil => exact .error _ _
        | cons o outer =>
          simp only [List.map_cons, text_token]
          split
          · exact (ih (index + 1) outer).bind fun pairs _ => .ok trivial
          · exact .error _ _
      · exact ih (index + 1) opened

/-- A file of moved tokens: it can be read when the original one can be, and its constructs are moved. -/
theorem moved_readTokens {path : String} (ts : List Token) (h : Token.laid true ts = true)
    (htest : SourceFile.isTestPath m.path = SourceFile.isTestPath path) :
    Moved (fun _ => True) (fun (package, constructs) => (package, constructs.map m.construct))
      (SourceFile.readTokens path ts) (SourceFile.readTokens m.path (ts.map m.token)) := by
  have hstart : (ts.map m.token).dropWhile (·.isSemi) = (ts.dropWhile (·.isSemi)).map m.token :=
    List.dropWhile_map
  rw [SourceFile.readTokens, SourceFile.readTokens, hstart]
  refine (m.moved_matchBracketsFrom 0 [] ts).ofSource.bind fun _ _ => ?_
  have hlaid : Token.laid true (ts.dropWhile (·.isSemi)) = true := laid_suffix (List.dropWhile_suffix _) h
  dsimp only
  generalize ts.dropWhile (·.isSemi) = start at hlaid
  match start with
  | [] => exact .error _ _
  | [keyword] =>
    simp only [List.map_cons, List.map_nil, isKeyword_token]
    split <;> exact .error _ _
  | keyword :: name :: rest =>
    have hrest : Token.laid true rest = true :=
      Token.laid_mono (Token.laid_cons.mp (Token.laid_cons.mp hlaid).2).2
    simp only [List.map_cons, isKeyword_token, isIdent_token, text_token, line_token, htest]
    split
    · exact .error _ _
    · split
      · exact .error _ _
      · next hname =>
        rw [Bool.not_eq_true', Bool.not_eq_false] at hname
        rw [m.pos_token_of_isIdent hname]
        exact (m.moved_list (f := ⟨path, SourceFile.isTestPath path, name.text⟩) rest hrest).bind fun found _ =>
          ⟨fun _ _ => trivial, rfl⟩

end File

end Relocation

end GoIdiom
