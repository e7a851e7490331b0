import GoIdiom.Proofs.Enclosures.Functions
import GoIdiom.Proofs.Enclosures.Tokens
import GoIdiom.Proofs.Forest.Declarations
import GoIdiom.Proofs.Lexing.File
import GoIdiom.Proofs.ReadingFaults

/-!
# The bodies of a file

A file holds the bodies of its functions and of the function literals in the initial values of its variables,
each with the context that its walk begins in. Where a file is accepted, every one of them has been read from
tokens of the file and walked through, and what was found is found in the file.
-/

namespace GoIdiom

/-- A frame whose assignments are those of a body whose own tokens are in the order of a token list. -/
def Frame.ReadFrom (ts : List Token) (f : Frame) : Prop :=
  ∃ body, f = Frame.ofBody f.params f.results body ∧ Statement.InOrder ts body

namespace Statement

variable {ts : List Token} {inner : List Statement} {frame : Frame} {launched : Bool}

/-- The frame of a literal's body is made from its parameters, its results and its statements. -/
theorem frame_of_literalBodies {launchesFirst : Bool} {literals : List FuncLiteral}
    (h : (.literal frame launched, inner) ∈ literalBodies launchesFirst literals) :
    frame = Frame.ofBody frame.params frame.results inner := by
  induction literals generalizing launchesFirst with
  | nil => cases h
  | cons l rest ih =>
    obtain ⟨_, _, params, results, body⟩ := l
    rcases List.mem_cons.mp h with h | h
    · cases h
      rfl
    · exact ih h

/-- The body of a function literal among others. -/
theorem inOrder_of_literalBodies {launchesFirst : Bool} {literals : List FuncLiteral}
    (h : AllInOrder ts (literalBodies launchesFirst literals)) :
    ∀ literal ∈ literals, InOrder ts literal.body := by
  induction literals generalizing launchesFirst with
  | nil => exact fun literal hliteral => absurd hliteral List.not_mem_nil
  | cons l rest ih =>
    obtain ⟨pos, endLine, params, results, body⟩ := l
    obtain ⟨hfirst, hothers⟩ := List.forall_mem_cons.mp h
    exact List.forall_mem_cons.mpr ⟨hfirst, ih hothers⟩

/-- The frame of a function literal is the one of its body. -/
theorem frame_of_enclosed {s : Statement} (h : (.literal frame launched, inner) ∈ s.enclosed) :
    frame = Frame.ofBody frame.params frame.results inner := by
  cases s with
  | plain => exact frame_of_literalBodies h
  | block => cases List.mem_singleton.mp h
  | branch _ _ _ _ otherwise =>
    rcases List.mem_append.mp h with h | h
    · exact frame_of_literalBodies h
    · rcases List.mem_cons.mp h with h | h
      · cases h
      · cases otherwise with
        | none => cases h
        | some => cases List.mem_singleton.mp h
  | loop =>
    rcases List.mem_append.mp h with h | h
    · exact frame_of_literalBodies h
    · cases List.mem_singleton.mp h
  | switch | select =>
    rcases List.mem_append.mp h with h | h
    · exact frame_of_literalBodies h
    · obtain ⟨_, -, hclause, -⟩ := exists_of_clauseBodies h
      cases hclause

/-- The function literals on a way come from bodies in the order of the tokens. -/
theorem Inside.readFrom {body found : List Statement} {path : List Enclosure} (hinside : Inside body path found)
    (h : InOrder ts body) : ∀ f ∈ Enclosure.frames path, f.ReadFrom ts := by
  induction hinside with
  | here => exact fun f hf => absurd hf List.not_mem_nil
  | @deeper body inner _ s e path hs he _ ih =>
    have hinner : InOrder ts inner := (inOrder_iff.mp h).2 s hs (e, inner) he
    intro f hf
    rw [Enclosure.frames, List.mem_reverse, List.mem_filterMap] at hf
    obtain ⟨e', he', hframe⟩ := hf
    rcases List.mem_cons.mp he' with rfl | he'
    · cases e' with
      | literal frame launched =>
        obtain rfl := Option.some.inj hframe
        exact ⟨inner, frame_of_enclosed he, hinner⟩
      | _ => cases hframe
    · refine ih hinner f ?_
      rw [Enclosure.frames, List.mem_reverse, List.mem_filterMap]
      exact ⟨e', he', hframe⟩

end Statement

namespace Declaration

open Token Statement

/-- The declarations after a keyword, one or a group of them, and what follows them. -/
def declarationsOf (tokens : List Token) : List (List Token) × List Token :=
  match groupAt? "(" tokens with
  | some g => ((Token.endedParts (·.isSemi) g.inner).map (·.1), g.rest)
  | none => ([(Token.spanTop (·.isSemi) tokens).1], (Token.spanTop (·.isSemi) tokens).2)

/-- The scope of function literals outside functions. -/
def packageScope : Scope := ⟨"", none, [⟨[], [], []⟩]⟩

/-- The bodies of declarations: those of functions, and those of the function literals in initial values. -/
inductive Holds : List Token → Context → List Statement → Prop
  | semi {t : Token} {rest : List Token} {ctx : Context} {body : List Statement} (hsemi : t.isSemi = true)
      (hrest : Holds rest ctx body) : Holds (t :: rest) ctx body
  | function {keyword : Token} {rest : List Token} {head : FunctionHead} {b : Block} {body : List Statement}
      (hkeyword : keyword.isKeyword "func" = true) (hhead : headOf keyword rest = .ok head)
      (hb : Block.body? head.close (Token.spanTop (·.isSemi) head.rest).1 = some b)
      (hread : readList (some b.closer) none b.inner = .ok body) :
      Holds (keyword :: rest) (.ofScope (scopeOf head (Signature.results b.before) body)) body
  | afterFunction {keyword : Token} {rest : List Token} {head : FunctionHead} {ctx : Context}
      {body : List Statement} (hkeyword : keyword.isKeyword "func" = true) (hhead : headOf keyword rest = .ok head)
      (hrest : Holds (Token.spanTop (·.isSemi) head.rest).2 ctx body) : Holds (keyword :: rest) ctx body
  | value {keyword : Token} {rest part own : List Token} {literals : List FuncLiteral} {literal : FuncLiteral}
      (hkeyword : keyword.isKeywordIn ["var", "const"] = true) (hpart : part ∈ (declarationsOf rest).1)
      (hcut : cutLiterals (initialValue part) = .ok (literals, own)) (hliteral : literal ∈ literals) :
      Holds (keyword :: rest)
        ((Context.ofScope packageScope).enterLiteral
          (Frame.ofBody literal.params literal.results literal.body) false)
        literal.body
  | afterDeclared {keyword : Token} {rest : List Token} {ctx : Context} {body : List Statement}
      (hkeyword : keyword.isKeywordIn ["import", "type", "var", "const"] = true)
      (hrest : Holds (declarationsOf rest).2 ctx body) : Holds (keyword :: rest) ctx body

/-- The body of the function that declarations begin with. -/
def firstBody? : List Token → Option (Context × List Statement)
  | [] => none
  | t :: rest =>
    if t.isSemi then firstBody? rest
    else if t.isKeyword "func" then
      (headOf t rest).toOption.bind fun head =>
        (Block.body? head.close (Token.spanTop (·.isSemi) head.rest).1).bind fun b =>
          (readList (some b.closer) none b.inner).toOption.map fun body =>
            (.ofScope (scopeOf head (Signature.results b.before) body), body)
    else none

variable {file : FileInfo} {all ts rest : List Token} {keyword : Token} {ctx : Context} {body : List Statement}
  {found more : List Construct}

/-- The body of the first function is one that the file holds. -/
theorem holds_of_firstBody? (h : firstBody? ts = some (ctx, body)) : Holds ts ctx body := by
  induction ts with
  | nil => cases h
  | cons t rest ih =>
    rw [firstBody?] at h
    split at h
    · next hsemi => exact .semi hsemi (ih h)
    · split at h
      · next hkeyword =>
        obtain ⟨head, hhead, h⟩ := Option.bind_eq_some_iff.mp h
        obtain ⟨b, hb, h⟩ := Option.bind_eq_some_iff.mp h
        obtain ⟨body, hbody, h⟩ := Option.map_eq_some_iff.mp h
        cases h
        exact .function hkeyword (Except.eq_ok_of_toOption_eq (y := .ok head) hhead rfl) hb
          (Except.eq_ok_of_toOption_eq (y := .ok body) hbody rfl)
      · cases h

/-! ## Walks -/

/-- A body was walked through from a context, and what was found is among some constructs. -/
def Walked (file : FileInfo) (found : List Construct) (ctx : Context) (body : List Statement) : Prop :=
  ∃ t, Body.walkList file ctx body = .ok t ∧ t.constructs ⊆ found

/-- More constructs. -/
theorem Walked.mono (h : Walked file found ctx body) (hsub : found ⊆ more) : Walked file more ctx body := by
  obtain ⟨t, ht, hfound⟩ := h
  exact ⟨t, ht, List.Subset.trans hfound hsub⟩

/-- A function is read as one, and the others behind it. -/
theorem list_function (hkeyword : keyword.isKeyword "func" = true) (h : list file (keyword :: rest) = .ok found) :
    ∃ first after more, declaredFunction file keyword rest = .ok (first, after) ∧ list file after = .ok more ∧
      found = first ++ more := by
  obtain ⟨hkind, htext⟩ := Bool.and_eq_true_iff.mp hkeyword
  have hsemi : keyword.isSemi = false := by rw [Token.isSemi, beq_iff_eq.mp hkind]; rfl
  have hother : keyword.isKeywordIn ["import", "type", "var", "const"] = false := by
    rw [Token.isKeywordIn, beq_iff_eq.mp htext]
    exact Bool.and_false _
  rw [list_cons, hsemi, hother, hkeyword] at h
  obtain ⟨⟨first, after⟩, hfirst, h⟩ := Except.bind_eq_ok.mp h
  obtain ⟨more, hmore, h⟩ := Except.bind_eq_ok.mp h
  exact ⟨first, after, more, hfirst, hmore, (Except.ok.inj h).symm⟩

/-- A declaration is read as one, and the others behind it. -/
theorem list_declared (hkeyword : keyword.isKeywordIn ["import", "type", "var", "const"] = true)
    (h : list file (keyword :: rest) = .ok found) :
    ∃ first after more, declared file keyword rest = .ok (first, after) ∧ list file after = .ok more ∧
      found = first ++ more := by
  have hsemi : keyword.isSemi = false := by
    rw [Token.isSemi, beq_iff_eq.mp (Bool.and_eq_true_iff.mp hkeyword).1]
    rfl
  rw [list_cons, hsemi, hkeyword] at h
  obtain ⟨⟨first, after⟩, hfirst, h⟩ := Except.bind_eq_ok.mp h
  obtain ⟨more, hmore, h⟩ := Except.bind_eq_ok.mp h
  exact ⟨first, after, more, hfirst, hmore, (Except.ok.inj h).symm⟩

/-- The declarations under a keyword are read one by one, and what follows them is left. -/
theorem declared_ok (h : declared file keyword rest = .ok (found, ts)) : ts = (declarationsOf rest).2 ∧
    ∀ part ∈ (declarationsOf rest).1, ∃ follow first, spec file keyword follow part = .ok first ∧
    first ⊆ found := by
  have hspecs {follow : Token} {parts : List (List Token × Option Token)} {found : List Construct}
      (h : specs file keyword follow parts = .ok found) :
      ∀ part ∈ parts.map (·.1), ∃ follow first, spec file keyword follow part = .ok first ∧
      first ⊆ found := by
    induction parts generalizing found with
    | nil => exact fun part hpart => absurd hpart List.not_mem_nil
    | cons part others ih =>
      obtain ⟨first, hfirst, h⟩ := Except.bind_eq_ok.mp h
      obtain ⟨more, hmore, h⟩ := Except.bind_eq_ok.mp h
      obtain rfl := Except.ok.inj h
      refine List.forall_mem_cons.mpr ⟨⟨_, first, hfirst, List.subset_append_left ..⟩,
        fun other hother => ?_⟩
      obtain ⟨follow, found, hfound, hsub⟩ := ih hmore other hother
      exact ⟨follow, found, hfound, List.Subset.trans hsub (List.subset_append_right ..)⟩
  rw [declared_eq] at h
  rw [declarationsOf]
  cases hg : groupAt? "(" rest with
  | some g =>
    rw [hg] at h
    obtain ⟨first, hfirst, h⟩ := Except.bind_eq_ok.mp h
    obtain ⟨rfl, rfl⟩ := Prod.mk.inj (Except.ok.inj h)
    exact ⟨rfl, hspecs hfirst⟩
  | none =>
    rw [hg] at h
    dsimp only at h
    split at h
    · cases h
    · obtain ⟨first, hfirst, h⟩ := Except.bind_eq_ok.mp h
      obtain ⟨rfl, rfl⟩ := Prod.mk.inj (Except.ok.inj h)
      exact ⟨rfl, List.forall_mem_singleton.mpr ⟨_, first, hfirst, List.Subset.refl _⟩⟩

/-- Function literals are walked through one by one. -/
theorem walked_literals {literals : List FuncLiteral} {t : Trace}
    (h : Body.walkLiterals file ctx false literals = .ok t) : ∀ literal ∈ literals,
      Walked file t.constructs (ctx.enterLiteral (Frame.ofBody literal.params literal.results literal.body) false)
        literal.body := by
  induction literals generalizing t with
  | nil => exact fun literal hliteral => absurd hliteral List.not_mem_nil
  | cons literal others ih =>
    obtain ⟨pos, endLine, params, results, body⟩ := literal
    rw [Body.walkLiterals] at h
    obtain ⟨first, hfirst, h⟩ := Except.bind_eq_ok.mp h
    obtain ⟨more, hmore, h⟩ := Except.bind_eq_ok.mp h
    obtain rfl := Except.ok.inj h
    refine List.forall_mem_cons.mpr ⟨?_,
      fun other hother => (ih hmore other hother).mono (List.subset_append_right ..)⟩
    cases hbody : Body.walkList file (ctx.enterLiteral (Frame.ofBody params results body) false) body with
    | error e =>
      rw [hbody] at hfirst
      cases hfirst
    | ok u =>
      rw [hbody] at hfirst
      obtain rfl := Except.ok.inj hfirst
      exact ⟨u, hbody, List.subset_append_left ..⟩

/-- The function literals of an initial value are walked through. -/
theorem walked_initialValue (hkeyword : keyword.isKeywordIn ["var", "const"] = true) {follow : Option Token}
    (h : spec file keyword follow ts = .ok found) {literals : List FuncLiteral} {own : List Token}
    (hcut : cutLiterals (initialValue ts) = .ok (literals, own)) : ∀ literal ∈ literals,
      Walked file found
        ((Context.ofScope packageScope).enterLiteral
          (Frame.ofBody literal.params literal.results literal.body) false)
        literal.body := by
  have hwritten := List.contains_iff_mem.mp (Bool.and_eq_true_iff.mp hkeyword).2
  cases ts with
  | nil =>
    have hnone : initialValue [] = [] := by
      rw [initialValue, variableNames, Token.spanTop]
      rfl
    rw [hnone, cutLiterals] at hcut
    obtain ⟨rfl, rfl⟩ := Prod.mk.inj (Except.ok.inj hcut)
    exact fun literal hliteral => absurd hliteral List.not_mem_nil
  | cons first rest =>
    unfold spec at h
    dsimp only at h
    split at h
    · next htext => exact absurd (htext ▸ hwritten) (by decide)
    · next htext => exact absurd (htext ▸ hwritten) (by decide)
    · rw [variableSpec_eq] at h
      dsimp only at h
      split at h
      · cases h
      · obtain ⟨value, hvalue, h⟩ := Except.bind_eq_ok.mp h
        obtain rfl := Except.ok.inj (hcut.symm.trans (ofSource_eq_ok hvalue))
        obtain ⟨t, ht, h⟩ := Except.bind_eq_ok.mp h
        obtain rfl := Except.ok.inj h
        obtain ⟨a, -, ht⟩ := Except.bind_eq_ok.mp (ofWalk_eq_ok ht)
        obtain ⟨b, hb, ht⟩ := Except.bind_eq_ok.mp ht
        obtain rfl := Except.ok.inj ht
        refine fun literal hliteral => (walked_literals hb literal hliteral).mono ?_
        exact List.Subset.trans (List.subset_append_right ..) (List.subset_cons_self ..)

/-- Every body of accepted declarations was walked through. -/
theorem walked_of_holds (h : Holds ts ctx body) (hread : list file ts = .ok found) :
    Walked file found ctx body := by
  induction h generalizing found with
  | @semi t rest _ _ hsemi _ ih =>
    rw [list_cons, if_pos hsemi] at hread
    exact ih hread
  | @function keyword rest head b body hkeyword hhead hb hbody =>
    obtain ⟨first, after, more, hfirst, -, rfl⟩ := list_function hkeyword hread
    obtain ⟨_, statements, t, info, hsame, hwalked, -⟩ := walkedFunction_of_declaredFunction hfirst
    obtain rfl := Except.ok.inj (hhead.symm.trans hsame)
    obtain ⟨endLine, tests, rfl, -⟩ := hwalked.found
    have hstatements := hwalked.body
    rw [HasStatements, hb] at hstatements
    obtain rfl := Except.ok.inj (hbody.symm.trans hstatements)
    have hresults : info.results = Signature.results b.before := by
      rw [hwalked.results, hb]
      rfl
    refine ⟨t, hresults ▸ hwalked.walk, ?_⟩
    exact List.Subset.trans (List.subset_append_left ..) (List.subset_append_left ..)
  | afterFunction hkeyword hhead _ ih =>
    obtain ⟨first, after, more, hfirst, hmore, rfl⟩ := list_function hkeyword hread
    obtain ⟨head, statements, t, info, hsame, -, rfl⟩ := walkedFunction_of_declaredFunction hfirst
    obtain rfl := Except.ok.inj (hhead.symm.trans hsame)
    exact (ih hmore).mono (List.subset_append_right ..)
  | @value keyword rest part own literals literal hkeyword hpart hcut hliteral =>
    have hlisted : keyword.isKeywordIn ["import", "type", "var", "const"] = true := by
      obtain ⟨word, hword, hkeyword⟩ := isKeywordIn_iff.mp hkeyword
      exact isKeywordIn_iff.mpr ⟨word, List.mem_cons_of_mem _ (List.mem_cons_of_mem _ hword), hkeyword⟩
    obtain ⟨first, after, more, hfirst, -, rfl⟩ := list_declared hlisted hread
    obtain ⟨-, hparts⟩ := declared_ok hfirst
    obtain ⟨follow, found, hspec, hsub⟩ := hparts part hpart
    exact (walked_initialValue hkeyword hspec hcut literal hliteral).mono
      (List.Subset.trans hsub (List.subset_append_left ..))
  | afterDeclared hkeyword _ ih =>
    obtain ⟨first, after, more, hfirst, hmore, rfl⟩ := list_declared hkeyword hread
    obtain ⟨rfl, -⟩ := declared_ok hfirst
    exact (ih hmore).mono (List.subset_append_right ..)

/-! ## Tokens -/

/-- The declarations under a keyword are runs of their tokens. -/
theorem run_declarationsOf (h : Run all ts) :
    (∀ part ∈ (declarationsOf ts).1, Run all part) ∧ Run all (declarationsOf ts).2 := by
  rw [declarationsOf]
  cases hg : groupAt? "(" ts with
  | some g =>
    obtain ⟨hinner, -, hrest⟩ := run_groupAt? (by decide) h hg
    refine ⟨fun part hpart => ?_, hrest⟩
    obtain ⟨ended, hended, rfl⟩ := List.mem_map.mp hpart
    exact (hinner.endedParts (fun t ht => isPlain_of_isSemi ht) hended).1
  | none => exact ⟨List.forall_mem_singleton.mpr (h.spanTop (·.isSemi)).1, (h.spanTop (·.isSemi)).2⟩

/-- The frame of a body that is read from a part of the tokens. -/
theorem readFrom_ofBody {params results : List Param} (h : InOrder all body) :
    (Frame.ofBody params results body).ReadFrom all := ⟨body, rfl, h⟩

/-- Every body of declarations is read from their tokens, and so are the frames around it. -/
theorem readFrom_of_holds (h : Holds ts ctx body) (hrun : Run all ts) :
    InOrder all body ∧ ∀ f ∈ ctx.scope.frames, f.ReadFrom all := by
  induction h with
  | semi hsemi _ ih => exact ih (hrun.tail (isPlain_of_isSemi hsemi))
  | @function keyword rest head b body hkeyword hhead hb hbody =>
    have htail := hrun.tail (isPlain_of_isKeyword hkeyword)
    obtain ⟨-, hrest⟩ := (hhead ▸ within_headOf (hrun.mem List.mem_cons_self) htail).of_ok
    have hinner := (Block.within_body? (hrest.spanTop (·.isSemi)).1 hb).inner.sublist
    have horder := (inOrder_list (hbody ▸ derives_readList (some b.closer) none b.inner).of_ok).mono hinner
    exact ⟨horder, List.forall_mem_singleton.mpr (readFrom_ofBody horder)⟩
  | afterFunction hkeyword hhead _ ih =>
    have htail := hrun.tail (isPlain_of_isKeyword hkeyword)
    obtain ⟨-, hrest⟩ := (hhead ▸ within_headOf (hrun.mem List.mem_cons_self) htail).of_ok
    exact ih (hrest.spanTop (·.isSemi)).2
  | @value keyword rest part own literals literal hkeyword hpart hcut hliteral =>
    have hinitial :=
      run_initialValue ((run_declarationsOf (hrun.tail (isPlain_of_isKeywordIn hkeyword))).1 part hpart)
    obtain ⟨-, hbodies⟩ := inOrder_cut false (hcut ▸ derives_cutLiterals (initialValue part)).of_ok
    have horder := (inOrder_of_literalBodies hbodies literal hliteral).mono hinitial.sublist
    refine ⟨horder, List.forall_mem_cons.mpr ⟨readFrom_ofBody horder, List.forall_mem_singleton.mpr ?_⟩⟩
    exact ⟨[], rfl, inOrder_nil⟩
  | afterDeclared hkeyword _ ih => exact ih (run_declarationsOf (hrun.tail (isPlain_of_isKeywordIn hkeyword))).2

end Declaration

namespace SourceFile

open Token Statement

variable {source path : String} {file : SourceFile} {lexed : Lexed} {ctx : Context} {body : List Statement}

/-- The bodies of a file: those of the declarations after its package clause. -/
def Holds (tokens : List Token) (ctx : Context) (body : List Statement) : Prop :=
  Declaration.Holds ((tokens.dropWhile (·.isSemi)).drop 2) ctx body

/-- An accepted package consists of its clause and of declarations. -/
theorem list_of_readTokens {ts : List Token} {package : String} {constructs : List Construct}
    (h : readTokens path ts = .ok (package, constructs)) : Run ts ((ts.dropWhile (·.isSemi)).drop 2) ∧
      ∃ found, Declaration.list ⟨path, isTestPath path, package⟩ ((ts.dropWhile (·.isSemi)).drop 2) =
        .ok found ∧ found ⊆ constructs := by
  unfold readTokens at h
  obtain ⟨pairs, hpairs, h⟩ := Except.bind_eq_ok.mp h
  have hrun : Run ts ts :=
    ⟨List.Sublist.refl _, exists_matchBrackets_iff.mp ⟨pairs, Declaration.ofSource_eq_ok hpairs⟩⟩
  have hstart := hrun.dropWhile_isSemi
  dsimp only at h
  split at h
  · cases h
  · next keyword rest hkeyword =>
    rw [hkeyword] at hstart ⊢
    split at h
    · cases h
    · next hpackage =>
      rw [Bool.not_eq_true', Bool.not_eq_false] at hpackage
      have hafter := hstart.tail (isPlain_of_isKeyword hpackage)
      split at h
      · cases h
      · next name rest =>
        split at h
        · cases h
        · next hname =>
          rw [Bool.not_eq_true', Bool.not_eq_false] at hname
          obtain ⟨found, hfound, h⟩ := Except.bind_eq_ok.mp h
          obtain ⟨rfl, rfl⟩ := Prod.mk.inj (Except.ok.inj h)
          exact ⟨hafter.tail (isPlain_of_isIdent hname), found, hfound, List.subset_cons_self ..⟩

/-- Every body of an accepted file is read from its tokens and was walked through, and what was found is found in
the file. -/
theorem walked_of_holds (hlexed : tokenize source = .ok lexed) (h : read source path = .ok file)
    (hbody : Holds lexed.tokens ctx body) :
    InOrder lexed.tokens body ∧ (∀ f ∈ ctx.scope.frames, f.ReadFrom lexed.tokens) ∧
      ∃ package, Declaration.Walked ⟨path, isTestPath path, package⟩ file.constructs ctx body := by
  obtain ⟨same, package, constructs, hsame, hread, rfl⟩ := read_eq_ok_iff.mp h
  obtain rfl := Except.ok.inj (hlexed.symm.trans hsame)
  obtain ⟨hrun, found, hfound, hsub⟩ := list_of_readTokens hread
  obtain ⟨horder, hframes⟩ := Declaration.readFrom_of_holds hbody hrun
  refine ⟨horder, hframes, package, (Declaration.walked_of_holds hbody hfound).mono (List.Subset.trans hsub ?_)⟩
  exact List.subset_cons_self ..

/-- Whether a file is accepted whose first declaration is a function with a context and a body that pass a test. -/
def beginsWith (source path : String) (test : Context → List Statement → Bool) : Bool :=
  (read source path).toOption.isSome && (tokenize source).toOption.any fun lexed =>
    (Declaration.firstBody? ((lexed.tokens.dropWhile (·.isSemi)).drop 2)).any fun (ctx, body) => test ctx body

/-- A source whose first function passes a test holds a body that passes it. -/
theorem exists_of_beginsWith {test : Context → List Statement → Bool} (h : beginsWith source path test = true) :
    ∃ lexed file ctx body, tokenize source = .ok lexed ∧ read source path = .ok file ∧
    Holds lexed.tokens ctx body ∧
      test ctx body = true := by
  obtain ⟨hread, htest⟩ := Bool.and_eq_true_iff.mp h
  obtain ⟨file, hread⟩ := Except.isSome_toOption_iff.mp hread
  obtain ⟨lexed, hlexed, htest⟩ := (Option.any_eq_true _ _).mp htest
  obtain ⟨⟨ctx, body⟩, hbody, htest⟩ := (Option.any_eq_true _ _).mp htest
  exact ⟨lexed, file, ctx, body, Except.eq_ok_of_toOption_eq (y := .ok lexed) hlexed rfl, hread,
    Declaration.holds_of_firstBody? hbody, htest⟩

end SourceFile

end GoIdiom
