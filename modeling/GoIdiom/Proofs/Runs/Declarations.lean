import GoIdiom.Proofs.Declarations
import GoIdiom.Proofs.Walk

/-!
# Where constructs of declarations come from

Every construct of a list of declarations is one of a few forms. A declaration that cannot be read has a
fault at a token of the list, or makes a channel of a size that cannot be read.
-/

namespace GoIdiom

open Token

/-- Whether a fault is placed at a token of a list, or lies in the size that a call in the list writes. -/
def FileFault.From (all : List Token) : FileFault → Prop
  | .source f => f.PlacedIn all
  | .size f => Body.Refuses all f

namespace Declaration

variable {file : FileInfo} {all : List Token}

/-- The constructs of declarations whose tokens are those of a list. -/
inductive Emits (file : FileInfo) (all : List Token) : Construct → Prop
  | imported (first : Token) (name : String) (localName : Option String) :
      Emits file all ⟨file.path, first.pos, first.line, .imported name localName⟩
  | type (first last : Token) (typeParams : List Param) (isAlias : Bool) (type : List Token) :
      Emits file all ⟨file.path, first.pos, last.line, typeDetail first.text typeParams isAlias type⟩
  | global (first last : Token) {names : List Token} (h : ∀ t ∈ names, t ∈ all ∧ t.isIdent = true)
      (isConst : Bool) (type value : String) :
      Emits file all ⟨file.path, first.pos, last.line,
        .global ⟨names.map fun t => (t.text, t.pos), isConst, type, value⟩⟩
  | body {c : Construct} (h : Body.Emits file all c) : Emits file all c
  | function (keyword : Token) (endLine : Nat) (info : FunctionInfo) :
      Emits file all ⟨file.path, keyword.pos, endLine, .function info⟩
  | test (keyword : Token) (endLine : Nat) {head : FunctionHead} {statements : List Statement} {info : FunctionInfo}
      {test : TestInfo} (h : testOf? file head statements info = some test) :
      Emits file all ⟨file.path, keyword.pos, endLine, .testFunction test⟩

/-- A reading all of whose constructs are those of declarations in a list. -/
abbrev Finds (file : FileInfo) (all : List Token) : Reading (List Construct) → Prop :=
  Outcome (fun cs => ∀ c ∈ cs, Emits file all c) (FileFault.From all)

/-- A fault at a token of the list. -/
theorem outcome_fail {α : Type} {P : α → Prop} {t : Token} (ht : t ∈ all) (cause : SourceCause) :
    Outcome P (FileFault.From all) (fail cause t.pos) := .error ⟨t, ht, rfl⟩

/-- What is read from the source. -/
theorem outcome_ofSource {α : Type} {P : α → Prop} {x : Except SourceFault α}
    (h : Outcome P (SourceFault.PlacedIn all) x) : Outcome P (FileFault.From all) (ofSource x) :=
  h.mapError fun _ hf => hf

/-- What a walk finds. -/
theorem outcome_ofWalk {P : Trace → Prop} {x : Walk} (h : Outcome P (Body.Refuses all) x) :
    Outcome P (FileFault.From all) (ofWalk x) := h.mapError fun _ hf => hf

/-- The last of some tokens is one of them. -/
theorem getLastD_mem (first : Token) (rest : List Token) : rest.getLastD first ∈ first :: rest := by
  rw [List.getLastD_eq_getLast?]
  cases hlast : rest.getLast? with
  | none => exact List.mem_cons_self
  | some t => exact List.mem_cons_of_mem _ (List.mem_of_getLast? hlast)

/-- The first of some tokens, or the one that stands for it. -/
theorem headD_mem {t : Token} (ht : t ∈ all) {ts : List Token} (h : Run all ts) : ts.headD t ∈ all := by
  cases ts with
  | nil => exact ht
  | cons u us => exact h.mem List.mem_cons_self

/-- The group that begins a run. -/
theorem run_groupAt? {opener : String} (hopener : opener ∈ ["(", "[", "\x7b"]) {ts : List Token} (h : Run all ts)
    {g : Group} (hg : groupAt? opener ts = some g) : Run all g.inner ∧ g.closer ∈ all ∧ Run all g.rest := by
  cases ts with
  | nil => cases hg
  | cons t rest =>
    obtain ⟨hopen, hclose⟩ := Option.ite_none_right_eq_some.mp hg
    exact h.group (isOpener_of_isOp hopen hopener) hclose

/-! ## Imports, types and variables -/

/-- The construct of an import. -/
theorem emits_importSpec {first : Token} {rest : List Token} (h : Run all (first :: rest)) :
    Finds file all (importSpec file first rest) := by
  unfold importSpec
  dsimp only
  split
  · exact .ok (List.forall_mem_singleton.mpr (.imported first _ _))
  · exact outcome_fail (h.mem (getLastD_mem first rest)) _

/-- The construct of a type declaration. -/
theorem emits_typeSpec {follow : Option Token} (hfollow : ∀ t ∈ follow, t ∈ all) {first : Token}
    {rest : List Token} (h : Run all (first :: rest)) : Finds file all (typeSpec file follow first rest) := by
  rw [typeSpec_eq]
  dsimp only
  split
  · exact outcome_fail (h.mem List.mem_cons_self) _
  · split
    · refine outcome_fail ?_ _
      cases follow with
      | none => exact h.mem (getLastD_mem first rest)
      | some t => exact hfollow t rfl
    · exact .ok (List.forall_mem_singleton.mpr (.type first _ _ _ _))

/-- The names at the head of a variable declaration are identifiers of it, and a run follows. -/
theorem run_variableNames {ts : List Token} (h : Run all ts) :
    (∀ t ∈ (variableNames ts).1, t ∈ all ∧ t.isIdent = true) ∧ Run all (variableNames ts).2 := by
  fun_induction variableNames ts with
  | case1 name hname comma more hcomma names after hmore ih =>
    have hcommas := h.tail (isPlain_of_isIdent hname)
    have hrest := ih (hcommas.tail (isPlain_of_isOp hcomma (by decide)))
    rw [hmore] at hrest
    exact ⟨List.forall_mem_cons.mpr ⟨⟨h.mem List.mem_cons_self, hname⟩, hrest.1⟩, hrest.2⟩
  | case2 name hname comma more =>
    exact ⟨List.forall_mem_singleton.mpr ⟨h.mem List.mem_cons_self, hname⟩,
      h.tail (isPlain_of_isIdent hname)⟩
  | case3 name hname =>
    exact ⟨List.forall_mem_singleton.mpr ⟨h.mem List.mem_cons_self, hname⟩,
      h.tail (isPlain_of_isIdent hname)⟩
  | case4 => exact ⟨fun t ht => absurd ht List.not_mem_nil, h⟩
  | case5 => exact ⟨fun t ht => absurd ht List.not_mem_nil, h⟩

/-- The constructs of a variable declaration. -/
theorem emits_variableSpec {keyword first : Token} {rest : List Token} (h : Run all (first :: rest)) :
    Finds file all (variableSpec file keyword first rest) := by
  obtain ⟨hnames, hafter⟩ := run_variableNames h
  have hvalue : Run all ((Token.spanTop (·.isOp "=") (variableNames (first :: rest)).2).2.drop 1) := by
    have hequals := (hafter.spanTop (·.isOp "=")).2
    cases heq : (Token.spanTop (·.isOp "=") (variableNames (first :: rest)).2).2 with
    | nil => exact ⟨List.nil_sublist _, .nil⟩
    | cons sign value =>
      rw [heq] at hequals
      exact hequals.tail (isPlain_of_isOp (Token.spanTop_stops heq) (by decide))
  rw [variableSpec_eq]
  dsimp only
  split
  · exact outcome_fail (h.mem List.mem_cons_self) _
  · refine (outcome_ofSource (Statement.runs_cutLiterals _ hvalue.sublist ⟨[], hvalue.balanced⟩)).bind
      fun cut hcut => ?_
    refine (outcome_ofWalk (Walk.Finds.andThen (Body.emits_expression _ false (hcut.own hvalue))
      (Body.emits_walkLiterals _ false cut.1 hcut.literals))).bind fun trace htrace => .ok ?_
    exact List.forall_mem_cons.mpr ⟨.global first _ hnames _ _ _, fun c hc => .body (htrace c hc)⟩

/-- The constructs of one declaration under a keyword. -/
theorem emits_spec {keyword : Token} {follow : Option Token} (hfollow : ∀ t ∈ follow, t ∈ all)
    {ts : List Token} (h : Run all ts) : Finds file all (spec file keyword follow ts) := by
  unfold spec
  cases ts with
  | nil => exact .ok fun c hc => absurd hc List.not_mem_nil
  | cons first rest =>
    dsimp only
    split
    · exact emits_importSpec h
    · exact emits_typeSpec hfollow h
    · exact emits_variableSpec h

/-- The constructs of declarations one after the other. -/
theorem emits_specs {keyword follow : Token} (hfollow : follow ∈ all) {parts : List (List Token × Option Token)}
    (h : ∀ part ∈ parts, Run all part.1 ∧ ∀ t ∈ part.2, t ∈ all) :
    Finds file all (specs file keyword follow parts) := by
  induction parts with
  | nil => exact .ok fun c hc => absurd hc List.not_mem_nil
  | cons part rest ih =>
    obtain ⟨⟨hrun, hended⟩, hrest⟩ := List.forall_mem_cons.mp h
    have hnext : ∀ t ∈ some (part.2.getD follow), t ∈ all := by
      intro t ht
      obtain rfl := Option.some.inj ht
      cases hpart : part.2 with
      | none => exact hfollow
      | some u => exact hended u hpart
    refine (emits_spec hnext hrun).bind fun found hfound => ?_
    refine (ih hrest).bind fun more hmore => .ok ?_
    exact List.forall_mem_append.mpr ⟨hfound, hmore⟩

/-- The constructs of a declaration, or of a group of them, after its keyword, and what follows. -/
theorem emits_declared (file : FileInfo) {keyword : Token} (hkeyword : keyword ∈ all) {ts : List Token}
    (h : Run all ts) :
    Outcome (fun r => (∀ c ∈ r.1, Emits file all c) ∧ Run all r.2) (FileFault.From all)
      (declared file keyword ts) := by
  rw [declared_eq]
  cases hg : groupAt? "(" ts with
  | some g =>
    obtain ⟨hinner, hcloser, hrest⟩ := run_groupAt? (by decide) h hg
    have hparts : ∀ part ∈ endedParts (·.isSemi) g.inner, Run all part.1 ∧ ∀ t ∈ part.2, t ∈ all :=
      fun part hpart => hinner.endedParts (fun t ht => isPlain_of_isSemi ht) hpart
    exact (emits_specs hcloser hparts).bind fun found hfound => .ok ⟨hfound, hrest⟩
  | none =>
    obtain ⟨hrun, hrest⟩ := h.spanTop (·.isSemi)
    dsimp only
    split
    · exact outcome_fail (headD_mem hkeyword hrest) _
    · refine (emits_spec (fun t ht => ?_) hrun).bind fun found hfound => .ok ⟨hfound, hrest⟩
      exact hrest.mem (List.mem_of_mem_head? ht)

/-! ## Functions -/

/-- What is known of the head of a function: its parts are tokens of the list, and a run follows. -/
structure FunctionHead.Within (all : List Token) (head : FunctionHead) : Prop where
  close : head.close ∈ all
  rest : Run all head.rest

/-- Type parameters and parameters after the name of a function. -/
theorem within_paramsOf (receiver : Option Receiver) {name : Token} (hname : name ∈ all) {ts : List Token}
    (h : Run all ts) : Outcome (FunctionHead.Within all) (FileFault.From all) (paramsOf receiver name ts) := by
  rw [paramsOf_eq]
  cases htypes : groupAt? "[" ts with
  | some types =>
    obtain ⟨-, hcloser, hafter⟩ := run_groupAt? (by decide) h htypes
    dsimp only
    cases hg : groupAt? "(" types.rest with
    | some g =>
      obtain ⟨-, hclose, hrest⟩ := run_groupAt? (by decide) hafter hg
      exact .ok ⟨hclose, hrest⟩
    | none => exact outcome_fail (headD_mem hcloser hafter) _
  | none =>
    dsimp only
    cases hg : groupAt? "(" ts with
    | some g =>
      obtain ⟨-, hclose, hrest⟩ := run_groupAt? (by decide) h hg
      exact .ok ⟨hclose, hrest⟩
    | none => exact outcome_fail (headD_mem hname h) _

/-- Name and parameters of a function. -/
theorem within_namedHead (receiver : Option Receiver) {previous : Token} (hprevious : previous ∈ all)
    {ts : List Token} (h : Run all ts) :
    Outcome (FunctionHead.Within all) (FileFault.From all) (namedHead receiver previous ts) := by
  rw [namedHead_eq]
  cases ts with
  | nil => exact outcome_fail hprevious _
  | cons name rest =>
    have hname : name ∈ all := h.mem List.mem_cons_self
    dsimp only
    split
    · next hident => exact within_paramsOf receiver hname (h.tail (isPlain_of_isIdent hident))
    · exact outcome_fail hname _

/-- The head of a function after its keyword. -/
theorem within_headOf {keyword : Token} (hkeyword : keyword ∈ all) {ts : List Token} (h : Run all ts) :
    Outcome (FunctionHead.Within all) (FileFault.From all) (headOf keyword ts) := by
  rw [headOf_eq]
  cases hg : groupAt? "(" ts with
  | none => exact within_namedHead none hkeyword h
  | some g =>
    obtain ⟨-, hcloser, hrest⟩ := run_groupAt? (by decide) h hg
    dsimp only
    split
    · exact within_namedHead _ hcloser hrest
    · exact outcome_fail (headD_mem hkeyword h) _

/-- The constructs of a function whose statements have been read. -/
theorem emits_functionConstructs (keyword : Token) (head : FunctionHead) (signature : List Token)
    (body : Option Block) {statements : List Statement} (h : ∀ r ∈ Statement.listRuns statements, Run all r) :
    Finds file all (functionConstructs file keyword head signature body statements) := by
  rw [functionConstructs_eq]
  refine (outcome_ofWalk (Body.emits_walkList _ statements h)).bind fun trace htrace => .ok ?_
  refine List.forall_mem_append.mpr ⟨fun c hc => .body (htrace c hc), ?_⟩
  refine List.forall_mem_cons.mpr ⟨.function keyword _ _, fun c hc => ?_⟩
  obtain ⟨test, htest, rfl⟩ := List.mem_map.mp hc
  exact .test keyword _ (Option.mem_toList.mp htest)

/-- The constructs of a function after its keyword, and what follows it. -/
theorem emits_declaredFunction (file : FileInfo) {keyword : Token} (hkeyword : keyword ∈ all) {ts : List Token}
    (h : Run all ts) :
    Outcome (fun r => (∀ c ∈ r.1, Emits file all c) ∧ Run all r.2) (FileFault.From all)
      (declaredFunction file keyword ts) := by
  rw [declaredFunction_eq]
  refine (within_headOf hkeyword h).bind fun head hhead => ?_
  obtain ⟨hrun, hrest⟩ := hhead.rest.spanTop (·.isSemi)
  dsimp only
  cases hbody : Block.body? head.close (Token.spanTop (·.isSemi) head.rest).1 with
  | none =>
    have hnone : ∀ r ∈ Statement.listRuns [], Run all r := fun r hr => absurd hr List.not_mem_nil
    simp only [pure_bind]
    refine (emits_functionConstructs keyword head _ none hnone).bind fun found hfound => ?_
    exact .ok ⟨hfound, hrest⟩
  | some b =>
    have hwithin := Block.within_body? hrun hbody
    have hcloser : ∀ t ∈ some b.closer, t ∈ all := by
      intro t ht
      obtain rfl := Option.some.inj ht
      exact hwithin.closer
    refine (outcome_ofSource (Statement.runs_readList (some b.closer) hcloser none b.inner hwithin.inner)).bind
      fun statements hstatements => ?_
    refine (emits_functionConstructs keyword head _ (some b) hstatements).bind fun found hfound => ?_
    exact .ok ⟨hfound, hrest⟩

/-! ## Files -/

/-- The constructs of declarations one after the other. -/
theorem emits_list (file : FileInfo) (ts : List Token) (h : Run all ts) : Finds file all (list file ts) := by
  cases hts : ts with
  | nil =>
    rw [list]
    exact .ok fun c hc => absurd hc List.not_mem_nil
  | cons t rest =>
    rw [hts] at h
    have ht : t ∈ all := h.mem List.mem_cons_self
    rw [list_cons]
    split
    · next hsemi => exact emits_list file rest (h.tail (isPlain_of_isSemi hsemi))
    · split
      · next hkeyword =>
        have hdeclared := emits_declared file ht (h.tail (isPlain_of_isKeywordIn hkeyword))
        cases hr : declared file t rest with
        | error f => exact .error (hr ▸ hdeclared).of_error
        | ok r =>
          obtain ⟨hfound, hafter⟩ := (hr ▸ hdeclared).of_ok
          have hlength := length_of_declared hr
          refine (emits_list file r.2 hafter).bind fun more hmore => .ok ?_
          exact List.forall_mem_append.mpr ⟨hfound, hmore⟩
      · split
        · next hkeyword =>
          have hfunction := emits_declaredFunction file ht (h.tail (isPlain_of_isKeyword hkeyword))
          cases hr : declaredFunction file t rest with
          | error f => exact .error (hr ▸ hfunction).of_error
          | ok r =>
            obtain ⟨hfound, hafter⟩ := (hr ▸ hfunction).of_ok
            have hlength := length_of_declaredFunction hr
            refine (emits_list file r.2 hafter).bind fun more hmore => .ok ?_
            exact List.forall_mem_append.mpr ⟨hfound, hmore⟩
        · exact outcome_fail ht _
termination_by ts.length
decreasing_by
  all_goals rw [hts, List.length_cons]
  all_goals omega

end Declaration

end GoIdiom
