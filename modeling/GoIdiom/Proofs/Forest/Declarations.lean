import GoIdiom.Proofs.Forest.Walk
import GoIdiom.Proofs.Runs.Declarations

/-!
# The statements of declarations

The forest of a list of declarations: the statements of the functions it declares and of the function literals
in the initial values of its variables. The constructs that are read from the declarations account for it.
-/

namespace GoIdiom.Declaration

open Token Statement

/-! ## The forest of declarations -/

/-- The statements of a block, as far as they can be read. -/
def bodyForest : Option Block → List Statement
  | none => []
  | some b =>
    match readList (some b.closer) none b.inner with
    | .ok statements => Statement.forest statements
    | .error _ => []

/-- The statements of a function after its keyword, and what follows it. -/
def functionForest (keyword : Token) (tokens : List Token) : List Statement × List Token :=
  match headOf keyword tokens with
  | .error _ => ([], [])
  | .ok head =>
    let run := Token.spanTop (·.isSemi) head.rest
    (bodyForest (Block.body? head.close run.1), run.2)

/-- The tokens of the initial value in a declaration of variables. -/
def initialValue (tokens : List Token) : List Token :=
  (Token.spanTop (·.isOp "=") (variableNames tokens).2).2.drop 1

/-- The statements in one declaration under a keyword. -/
def valueForest (keyword : Token) (tokens : List Token) : List Statement :=
  if keyword.text = "import" ∨ keyword.text = "type" then []
  else
    match cutLiterals (initialValue tokens) with
    | .ok (literals, _) => literalForest literals
    | .error _ => []

/-- The statements in a declaration, or in a group of them, after its keyword, and what follows it. -/
def declaredForest (keyword : Token) (tokens : List Token) : List Statement × List Token :=
  match groupAt? "(" tokens with
  | some g => ((Token.endedParts (·.isSemi) g.inner).flatMap fun part => valueForest keyword part.1, g.rest)
  | none =>
    let run := Token.spanTop (·.isSemi) tokens
    (valueForest keyword run.1, run.2)

/-- What is left behind a function is no longer than what it was read from. -/
theorem length_functionForest (keyword : Token) (tokens : List Token) :
    (functionForest keyword tokens).2.length ≤ tokens.length := by
  rw [functionForest, headOf]
  cases functionHead keyword tokens with
  | error f => exact Nat.zero_le _
  | ok head => exact (Token.spanTop_length _ _).trans (Nat.le_of_lt head.2)

/-- What is left behind a declaration is no longer than what it was read from. -/
theorem length_declaredForest (keyword : Token) (tokens : List Token) :
    (declaredForest keyword tokens).2.length ≤ tokens.length := by
  rw [declaredForest]
  cases hg : groupAt? "(" tokens with
  | none => exact Token.spanTop_length _ _
  | some g => exact Nat.le_of_lt (groupAt?_length hg)

/-- The statements of declarations one after the other. -/
def forest : List Token → List Statement
  | [] => []
  | t :: rest =>
    if t.isSemi then forest rest
    else if t.isKeywordIn ["import", "type", "var", "const"] then
      (declaredForest t rest).1 ++ forest (declaredForest t rest).2
    else (functionForest t rest).1 ++ forest (functionForest t rest).2
termination_by tokens => tokens.length
decreasing_by
  · simp
  · have := length_declaredForest t rest
    simp only [List.length_cons]
    omega
  · have := length_functionForest t rest
    simp only [List.length_cons]
    omega

/-! ## What the constructs account for -/

/-- A construct ends in the line it begins in, or begins at a token of a list and ends in the line of that token
or of a later one. -/
def SpansIn (all : List Token) (c : Construct) : Prop :=
  c.endLine = c.pos.line ∨
    ∃ first more, (first :: more).Sublist all ∧ c.pos = first.pos ∧
    ∃ last ∈ first :: more, c.endLine = last.line

/-- Constructs account for the statements of declarations that stand in a list. -/
structure Covers (all : List Token) (ss : List Statement) (cs : List Construct) : Prop where
  kept : Kept ss cs
  stands : ∀ s ∈ ss, StandsIn all s
  spans : ∀ c ∈ cs, SpansIn all c

namespace Covers

variable {all : List Token} {ss ts : List Statement} {cs ds : List Construct}

/-- Constructs that stand for no statement. -/
theorem none (hkind : ∀ c ∈ cs, c.kind.keyword? = .none) (hspans : ∀ c ∈ cs, SpansIn all c) :
    Covers all [] cs :=
  ⟨.none hkind, fun _ hs => absurd hs List.not_mem_nil, hspans⟩

/-- Nothing is found in no declarations. -/
theorem nil : Covers all [] [] :=
  none (fun _ hc => absurd hc List.not_mem_nil) fun _ hc => absurd hc List.not_mem_nil

/-- One more construct that stands for no statement. -/
theorem cons (h : Covers all ss cs) {c : Construct} (hkind : c.kind.keyword? = .none) (hspans : SpansIn all c) :
    Covers all ss (c :: cs) := by
  refine ⟨?_, h.stands, List.forall_mem_cons.mpr ⟨hspans, h.spans⟩⟩
  exact (Kept.none (List.forall_mem_singleton.mpr hkind)).append h.kept

/-- Declarations one after the other. -/
theorem append (h : Covers all ss cs) (hmore : Covers all ts ds) : Covers all (ss ++ ts) (cs ++ ds) :=
  ⟨h.kept.append hmore.kept, List.forall_mem_append.mpr ⟨h.stands, hmore.stands⟩,
    List.forall_mem_append.mpr ⟨h.spans, hmore.spans⟩⟩

/-- What a walk through statements of the list accounts for. -/
theorem of_accounts (h : Accounts ss cs) (hstands : ∀ s ∈ ss, StandsIn all s) : Covers all ss cs := by
  refine ⟨h.kept, hstands, fun c hc => ?_⟩
  rcases h.ends c hc with hline | ⟨s, hs, hpos, hends⟩
  · exact Or.inl hline
  · obtain ⟨first, more, hsub, hfirst⟩ := hstands s hs
    obtain ⟨last, hlast, hline⟩ := hfirst.ends
    exact Or.inr ⟨first, more, hsub, hpos.trans hfirst.pos, last, hlast, hends.trans hline⟩

end Covers

/-- A reading whose constructs account for statements, if it does not fail. -/
abbrev Reports (all : List Token) (ss : List Statement) : Reading (List Construct) → Prop :=
  Outcome (Covers all ss) fun _ => True

variable {file : FileInfo} {all : List Token}

/-- What a walk through statements reports. -/
theorem covers_ofWalk {ss : List Statement} {w : Walk} (h : Walk.Covers ss w) :
    Outcome (fun t => Accounts ss t.constructs) (fun _ => True) (ofWalk w) := h.mapError fun _ _ => trivial

/-- The constructs of one declaration, the last of whose tokens ends it. -/
theorem spansIn_declaration {first : Token} {rest : List Token} (h : Run all (first :: rest)) (path : String)
    (detail : Detail) : SpansIn all ⟨path, first.pos, (rest.getLastD first).line, detail⟩ :=
  Or.inr ⟨first, rest, h.sublist, rfl, _, getLastD_mem first rest, rfl⟩

/-- The construct of a type stands for no statement. -/
theorem keyword?_typeDetail (name : String) (typeParams : List Param) (isAlias : Bool) (type : List Token) :
    (typeDetail name typeParams isAlias type).kind.keyword? = none := by
  rw [typeDetail]
  split <;> rfl

/-- A type declaration. -/
theorem reports_typeSpec {follow : Option Token} {first : Token} {rest : List Token} (h : Run all (first :: rest)) :
    Reports all [] (typeSpec file follow first rest) := by
  rw [typeSpec_eq]
  dsimp only
  split
  · exact .error trivial
  · split
    · exact .error trivial
    · refine .ok (.none (List.forall_mem_singleton.mpr ?_) (List.forall_mem_singleton.mpr ?_))
      · exact keyword?_typeDetail _ _ _ _
      · exact spansIn_declaration h _ _

/-- An import. -/
theorem reports_importSpec {first : Token} {rest : List Token} : Reports all [] (importSpec file first rest) := by
  unfold importSpec
  dsimp only
  split
  · exact .ok (.none (List.forall_mem_singleton.mpr rfl) (List.forall_mem_singleton.mpr (Or.inl rfl)))
  · exact .error trivial

/-- The initial value of a declaration of variables is a run of it. -/
theorem run_initialValue {ts : List Token} (h : Run all ts) : Run all (initialValue ts) := by
  have hequals := ((run_variableNames h).2.spanTop (·.isOp "=")).2
  rw [initialValue]
  cases heq : (Token.spanTop (·.isOp "=") (variableNames ts).2).2 with
  | nil => exact ⟨List.nil_sublist _, .nil⟩
  | cons sign value =>
    rw [heq] at hequals
    exact hequals.tail (isPlain_of_isOp (Token.spanTop_stops heq) (by decide))

/-- A declaration of variables. -/
theorem reports_variableSpec {keyword first : Token} {rest : List Token}
    (hkeyword : ¬ (keyword.text = "import" ∨ keyword.text = "type")) (h : Run all (first :: rest)) :
    Reports all (valueForest keyword (first :: rest)) (variableSpec file keyword first rest) := by
  have hcut := derives_cutLiterals (initialValue (first :: rest))
  have hvalue : (Token.spanTop (·.isOp "=") (variableNames (first :: rest)).2).2.drop 1 =
      initialValue (first :: rest) :=
    rfl
  rw [variableSpec_eq, valueForest, if_neg hkeyword]
  dsimp only
  rw [hvalue]
  cases hread : cutLiterals (initialValue (first :: rest)) with
  | error f =>
    dsimp only
    split
    · exact .error trivial
    · exact .error trivial
  | ok cut =>
    have hstands := standsIn_mono (stands_cut (hread ▸ hcut).of_ok) (run_initialValue h).sublist
    dsimp only
    split
    · exact .error trivial
    · refine Outcome.bind (P := (cut = ·)) (.ok rfl) ?_
      rintro _ rfl
      refine (covers_ofWalk ((Body.covers_expression _ false _).andThen
        (Body.covers_walkLiterals _ false _))).bind fun trace htrace => .ok ?_
      exact (Covers.of_accounts htrace hstands).cons rfl (spansIn_declaration h _ _)

/-- One declaration under a keyword. -/
theorem reports_spec {keyword : Token} {follow : Option Token} {ts : List Token} (h : Run all ts) :
    Reports all (valueForest keyword ts) (spec file keyword follow ts) := by
  unfold spec
  cases ts with
  | nil =>
    refine .ok ?_
    rw [valueForest]
    split
    · exact .nil
    · have hnone : initialValue [] = [] := by
        rw [initialValue, variableNames, Token.spanTop]
        rfl
      rw [hnone, cutLiterals]
      exact .nil
  | cons first rest =>
    dsimp only
    split
    · next hkeyword =>
      rw [valueForest, if_pos (Or.inl hkeyword)]
      exact reports_importSpec
    · next hkeyword =>
      rw [valueForest, if_pos (Or.inr hkeyword)]
      exact reports_typeSpec h
    · next himport htype =>
      exact reports_variableSpec (fun hkeyword => hkeyword.elim himport htype) h

/-- Declarations one after the other. -/
theorem reports_specs {keyword follow : Token} {parts : List (List Token × Option Token)}
    (h : ∀ part ∈ parts, Run all part.1) :
    Reports all (parts.flatMap fun part => valueForest keyword part.1) (specs file keyword follow parts) := by
  induction parts with
  | nil => exact .ok .nil
  | cons part rest ih =>
    obtain ⟨hrun, hrest⟩ := List.forall_mem_cons.mp h
    rw [List.flatMap_cons]
    refine (reports_spec hrun).bind fun found hfound => ?_
    exact (ih hrest).bind fun more hmore => .ok (hfound.append hmore)

/-- A declaration, or a group of them, after its keyword. -/
theorem reports_declared (file : FileInfo) (keyword : Token) {ts : List Token} (h : Run all ts) :
    Outcome (fun r => Covers all (declaredForest keyword ts).1 r.1 ∧ r.2 = (declaredForest keyword ts).2)
      (fun _ => True) (declared file keyword ts) := by
  rw [declared_eq, declaredForest]
  cases hg : groupAt? "(" ts with
  | some g =>
    have hinner := (run_groupAt? (by decide) h hg).1
    refine (reports_specs fun part hpart => ?_).bind fun found hfound => .ok ⟨hfound, rfl⟩
    exact (hinner.endedParts (fun t ht => isPlain_of_isSemi ht) hpart).1
  | none =>
    dsimp only
    split
    · exact .error trivial
    · exact (reports_spec (h.spanTop (·.isSemi)).1).bind fun found hfound => .ok ⟨hfound, rfl⟩

/-- A function whose statements have been read. -/
theorem reports_functionConstructs {keyword : Token} {head : FunctionHead} {signature : List Token}
    (body : Option Block) {statements : List Statement}
    (hstands : ∀ s ∈ Statement.forest statements, StandsIn all s)
    (hspans : ∀ path detail, SpansIn all ⟨path, keyword.pos, (signature.getLastD head.close).line, detail⟩) :
    Reports all (Statement.forest statements) (functionConstructs file keyword head signature body statements) := by
  rw [functionConstructs_eq]
  refine (covers_ofWalk (Body.covers_walkList _ statements)).bind fun trace htrace => .ok ?_
  have htests : Covers all [] ((testOf? file head statements
      (infoOf file head (resultsOf signature body) body statements trace)).toList.map
        fun test => ⟨file.path, keyword.pos, (signature.getLastD head.close).line, .testFunction test⟩) := by
    refine .none (fun c hc => ?_) fun c hc => ?_
    · obtain ⟨test, -, rfl⟩ := List.mem_map.mp hc
      rfl
    · obtain ⟨test, -, rfl⟩ := List.mem_map.mp hc
      exact hspans _ _
  have hfunction := htests.cons (c := ⟨file.path, keyword.pos, (signature.getLastD head.close).line,
    .function (infoOf file head (resultsOf signature body) body statements trace)⟩) rfl (hspans _ _)
  have hall := (Covers.of_accounts htrace hstands).append hfunction
  rwa [List.append_nil] at hall

/-- A function after its keyword. -/
theorem reports_declaredFunction (file : FileInfo) {keyword : Token} {ts : List Token} (h : Run all (keyword :: ts))
    (hkeyword : keyword.isPlain = true) :
    Outcome (fun r => Covers all (functionForest keyword ts).1 r.1 ∧ r.2 = (functionForest keyword ts).2)
      (fun _ => True) (declaredFunction file keyword ts) := by
  have hself : Run (keyword :: ts) (keyword :: ts) := ⟨List.Sublist.refl _, h.balanced⟩
  have hhead := within_headOf (hself.mem List.mem_cons_self) (hself.tail hkeyword)
  rw [declaredFunction_eq, functionForest]
  cases hread : headOf keyword ts with
  | error f => exact .error trivial
  | ok head =>
    obtain ⟨hclose, hrest⟩ := (hread ▸ hhead).of_ok
    have hrun := (hrest.spanTop (·.isSemi)).1
    have hlast : (Token.spanTop (·.isSemi) head.rest).1.getLastD head.close ∈ keyword :: ts := by
      rcases List.mem_cons.mp (getLastD_mem head.close (Token.spanTop (·.isSemi) head.rest).1) with hlast | hlast
      · rw [hlast]
        exact hclose
      · exact hrun.mem hlast
    have hspans (path : String) (detail : Detail) : SpansIn all ⟨path, keyword.pos,
        ((Token.spanTop (·.isSemi) head.rest).1.getLastD head.close).line, detail⟩ :=
      Or.inr ⟨keyword, ts, h.sublist, rfl, _, hlast, rfl⟩
    refine Outcome.bind (P := (head = ·)) (.ok rfl) ?_
    rintro _ rfl
    dsimp only
    cases hbody : Block.body? head.close (Token.spanTop (·.isSemi) head.rest).1 with
    | none =>
      have hnone : ∀ s ∈ Statement.forest [], StandsIn all s := fun s hs => absurd hs List.not_mem_nil
      simp only [pure_bind]
      exact (reports_functionConstructs none hnone hspans).bind fun found hfound => .ok ⟨hfound, rfl⟩
    | some b =>
      have hinner : b.inner.Sublist all := (Block.within_body? hrun hbody).inner.sublist.trans h.sublist
      have hderives := derives_readList (some b.closer) none b.inner
      dsimp only [bodyForest]
      cases hstatements : readList (some b.closer) none b.inner with
      | error f => exact .error trivial
      | ok statements =>
        have hstands := standsIn_mono (stands_list (hstatements ▸ hderives).of_ok) hinner
        refine Outcome.bind (P := (statements = ·)) (.ok rfl) ?_
        rintro _ rfl
        exact (reports_functionConstructs (some b) hstands hspans).bind fun found hfound => .ok ⟨hfound, rfl⟩

/-- The constructs of declarations account for their forest. -/
theorem reports_list (file : FileInfo) (ts : List Token) (h : Run all ts) :
    Reports all (forest ts) (list file ts) := by
  cases hts : ts with
  | nil =>
    rw [list, forest]
    exact .ok .nil
  | cons t rest =>
    rw [hts] at h
    rw [list_cons, forest]
    split
    · next hsemi => exact reports_list file rest (h.tail (isPlain_of_isSemi hsemi))
    · split
      · next hkeyword =>
        have hrest := h.tail (isPlain_of_isKeywordIn hkeyword)
        have hdeclared := reports_declared file t hrest
        have hemits := emits_declared file (h.mem List.mem_cons_self) hrest
        cases hr : declared file t rest with
        | error f => exact .error trivial
        | ok r =>
          obtain ⟨hfound, hafter⟩ := (hr ▸ hdeclared).of_ok
          have hlength := length_of_declared hr
          rw [← hafter]
          refine (reports_list file r.2 (hr ▸ hemits).of_ok.2).bind fun more hmore => .ok ?_
          exact hfound.append hmore
      · split
        · next hkeyword =>
          have hplain := isPlain_of_isKeyword hkeyword
          have hfunction := reports_declaredFunction file h hplain
          have hemits := emits_declaredFunction file (h.mem List.mem_cons_self) (h.tail hplain)
          cases hr : declaredFunction file t rest with
          | error f => exact .error trivial
          | ok r =>
            obtain ⟨hfound, hafter⟩ := (hr ▸ hfunction).of_ok
            have hlength := length_of_declaredFunction hr
            rw [← hafter]
            refine (reports_list file r.2 (hr ▸ hemits).of_ok.2).bind fun more hmore => .ok ?_
            exact hfound.append hmore
        · exact .error trivial
termination_by ts.length
decreasing_by
  all_goals rw [hts, List.length_cons]
  all_goals omega

end GoIdiom.Declaration
