import GoIdiom.Proofs.Enclosures.Functions
import GoIdiom.Proofs.Nesting.Reading

/-!
# The depth of a function

A function with a written body is read, and its depth is the largest number of entered levels around a point of the
body. So it is the nesting depth exactly when one of the deepest points is in entered levels only. An `else` block
with a single `if` is not entered: the statement trees do not tell it from `else if`.
-/

namespace GoIdiom

namespace Body

/-- No construct of a body is a function. -/
theorem kind_ne_function {file : FileInfo} {ctx : Context} {body : List Statement} {t : Trace}
    (h : walkList file ctx body = .ok t) : ∀ c ∈ t.constructs, c.kind ≠ .function := by
  intro c hc hkind
  obtain ⟨path, s, -, hown | ⟨run, -, hexpression⟩⟩ := (mem_constructs_iff h c).mp hc
  · cases forms_iff.mp hown with
    | «return» _ h => cases (place_errorReturn? h).1.symm.trans hkind
    | ignored h => cases (kind_ignored? h).symm.trans hkind
    | _ => cases hkind
  · exact absurd (hkind ▸ kind_ofExpression hexpression) (by decide)

end Body

namespace Block

open Token

variable {previous opener closer : Token} {results inner after : List Token}

/-- Result types hold no semicolons outside brackets. -/
theorem ResultTypes.free (h : ResultTypes previous results) : Free (·.isSemi) results := by
  induction h with
  | nil => exact .nil
  | plain ht hsemi _ ih => exact .plain ht hsemi ih
  | group hcloses hinner _ _ ih => exact .group hcloses (not_isSemi_of_isOpener hcloses.1) hinner ih

/-- A declaration ends behind its body. -/
theorem ResultTypes.spanTop_eq (h : ResultTypes previous results) (hcloses : Closes opener closer)
    (hinner : Balanced inner) (hafter : ∀ t ∈ after.head?, t.isSemi = true) :
    spanTop (·.isSemi) (results ++ opener :: (inner ++ closer :: after)) =
      (results ++ opener :: (inner ++ [closer]), after) := by
  have hfree : Free (·.isSemi) (results ++ opener :: (inner ++ [closer])) :=
    h.free.append (.group hcloses (not_isSemi_of_isOpener hcloses.1) hinner .nil)
  have hend : spanTop (·.isSemi) after = ([], after) := by
    cases after with
    | nil => rw [spanTop]
    | cons t after => rw [spanTop, if_pos (hafter t rfl)]
  have happend := hfree.spanTop_append after
  rw [hend, List.append_nil] at happend
  simpa only [List.append_assoc, List.cons_append, List.nil_append] using happend

end Block

namespace Declaration

open Token Nesting Body Statement

/-- A function as it is written behind its parameters: with result types, a body and the end of the declaration. -/
structure WrittenFunction (head : FunctionHead) where
  results : List Token
  opener : Token
  ifs : List Bool
  body : Marked
  closer : Token
  after : List Token
  rest_eq : head.rest = results ++ opener :: (tokens body ++ closer :: after)
  results_resultTypes : Block.ResultTypes head.close results
  opener_isOp : opener.isOp "\x7b" = true
  body_written : WrittenList ifs body
  closer_isOp : closer.isOp "\x7d" = true
  after_isSemi : ∀ t ∈ after.head?, t.isSemi = true

variable {keyword : Token} {ts : List Token} {head : FunctionHead}

/-- A written function is read: only the walk through its statements may fail. These are as deep as the levels of
the body that are entered. -/
theorem WrittenFunction.exists_statements (f : WrittenFunction head) (hhead : headOf keyword ts = .ok head)
    (file : FileInfo) : ∃ statements signature block, Nests entered f.body (levelsList statements) ∧
      declaredFunction file keyword ts = (do
        let found ← functionConstructs file keyword head signature block statements
        pure (found, f.after)) := by
  obtain ⟨statements, hread, -, hnests⟩ := reads_list f.body_written (some f.closer) none
  have hcloses := closes_of_isOp f.opener_isOp f.closer_isOp
  have hinner := (free_list f.body_written).balanced
  refine ⟨statements, f.results ++ f.opener :: (tokens f.body ++ [f.closer]),
    some ⟨f.results, f.opener, tokens f.body, f.closer, []⟩, hnests, ?_⟩
  rw [declaredFunction_eq, hhead]
  dsimp only [bind, Except.bind]
  rw [f.rest_eq, f.results_resultTypes.spanTop_eq hcloses hinner f.after_isSemi]
  dsimp only
  rw [f.results_resultTypes.body?_append f.opener_isOp hinner hcloses.2.1]
  dsimp only
  rw [hread]
  rfl

/-- The function of a declaration is found once, with the depth of its statements. -/
theorem filter_functionConstructs (file : FileInfo) (keyword : Token) (head : FunctionHead) (signature : List Token)
    (block : Option Block) (statements : List Statement) :
    Outcome (fun found => ∃ info endLine, found.filter (·.kind == .function) =
        [⟨file.path, keyword.pos, endLine, .function info⟩] ∧ info.maxDepth = levelsList statements)
      (fun fault => ∃ size, fault = .size size)
      (functionConstructs file keyword head signature block statements) := by
  rw [functionConstructs_eq]
  dsimp only
  cases hwalk : walkList file (.ofScope (scopeOf head (resultsOf signature block) statements)) statements with
  | error fault => exact .error ⟨fault, rfl⟩
  | ok trace =>
    have hinside : trace.constructs.filter (·.kind == .function) = [] :=
      List.filter_eq_nil_iff.mpr fun c hc hkind => kind_ne_function hwalk c hc (beq_iff_eq.mp hkind)
    refine .ok ⟨infoOf file head (resultsOf signature block) block statements trace,
      (signature.getLastD head.close).line, ?_, depth_of_walkList hwalk⟩
    rw [List.filter_append, hinside, List.nil_append]
    refine congrArg (_ :: ·) (List.filter_eq_nil_iff.mpr fun c hc => ?_)
    obtain ⟨test, -, rfl⟩ := List.mem_map.mp hc
    exact Bool.false_ne_true

/-- A written function is found once, with the depth of the entered levels of its body, unless the size of a channel
cannot be read. -/
theorem WrittenFunction.exists_info (f : WrittenFunction head) (hhead : headOf keyword ts = .ok head)
    (file : FileInfo) : (∃ size, declaredFunction file keyword ts = .error (.size size)) ∨
    ∃ found info endLine,
      declaredFunction file keyword ts = .ok (found, f.after) ∧
      found.filter (·.kind == .function) = [⟨file.path, keyword.pos, endLine, .function info⟩] ∧
      Nests entered f.body info.maxDepth := by
  obtain ⟨statements, signature, block, hnests, hdeclared⟩ := f.exists_statements hhead file
  have houtcome := filter_functionConstructs file keyword head signature block statements
  cases hfound : functionConstructs file keyword head signature block statements with
  | error fault =>
    rw [hfound] at houtcome hdeclared
    obtain ⟨size, rfl⟩ := houtcome.of_error
    exact Or.inl ⟨size, hdeclared⟩
  | ok found =>
    rw [hfound] at houtcome hdeclared
    obtain ⟨info, endLine, hfunction, hdepth⟩ := houtcome.of_ok
    exact Or.inr ⟨found, info, endLine, hdeclared, hfunction, hdepth ▸ hnests⟩

/-! ## A branch with an other branch -/

section Samples

/-- A token of the first line. -/
def tokenAt (kind : TokenKind) (text : String) (column : Nat) : Token := ⟨kind, text, ⟨1, column⟩⟩

/-- A call without arguments. -/
def callAt (name : String) (column : Nat) : Marked :=
  plainly [tokenAt .ident name column, tokenAt .op "(" (column + 1), tokenAt .op ")" (column + 2)]

/-- An `if` with a name for its condition, with braces at the given columns and what stands behind its block. -/
def ifAt (column : Nat) (name : String) (opener : Nat) (body : Marked) (closer : Nat) (other : Marked) : Marked :=
  (tokenAt .keyword "if" column, .none) :: ([(tokenAt .ident name (column + 3), .none)] ++
    (braced true (tokenAt .op "\x7b" opener) body (tokenAt .op "\x7d" closer) ++ other))

/-- A call is a statement as written. -/
theorem written_callAt (name : String) (column : Nat) : WrittenStatement false (callAt name column) := by
  have hgroup : Free (fun t => t.isSemi || startsClause t)
      (tokenAt .op "(" (column + 1) :: ([] ++ [tokenAt .op ")" (column + 2)])) :=
    .group ⟨rfl, rfl, rfl⟩ rfl .nil .nil
  have hsimple : IsSimple [.plain (tokenAt .ident name column) rfl, .plain (tokenAt .op "(" (column + 1)) rfl,
      .plain (tokenAt .op ")" (column + 2)) rfl] :=
    ⟨⟨_, _, rfl, rfl⟩, .plain rfl rfl hgroup, id, id, id, trivial⟩
  exact .simple hsimple (.plain (.plain (.plain .nil)))

/-- An `if` with a body and another branch is a statement as written. -/
theorem written_ifAt (column : Nat) (name : String) (opener closer : Nat) {ifs : List Bool} {body other : Marked}
    (hbody : WrittenList ifs body) (hother : WrittenElse other) :
    WrittenStatement true (ifAt column name opener body closer other) := by
  have hpassed : Block.Passed false (tokenAt .keyword "if" column) [tokenAt .ident name (column + 3)] :=
    .plain rfl rfl (show Block.Passed false _ [] from .nil rfl)
  have hheader : IsHeader (tokenAt .keyword "if" column) [.plain (tokenAt .ident name (column + 3)) rfl] :=
    ⟨hpassed, .plain rfl rfl .nil, id, trivial⟩
  exact .compound rfl (.branch rfl hheader (.plain .nil) rfl hbody rfl hother)

/-- `if b { g() }` and more. -/
def nestedIf (more : Marked) : Marked := ifAt 32 "b" 37 (callAt "g" 39) 43 [] ++ more

/-- `if a { f() } else { if b { g() } … }`, with more behind the second `if`. -/
def elseBlock (more : Marked) (level : Bool) (closer : Nat) : Marked :=
  ifAt 12 "a" 17 (callAt "f" 19) 23
    ((tokenAt .keyword "else" 25, .none) ::
      braced level (tokenAt .op "\x7b" 30) (nestedIf more) (tokenAt .op "\x7d" closer))

/-- The head of a function without parameters, with what stands behind it up to the end of the line. -/
def headBefore (body : Marked) (closer : Nat) : FunctionHead :=
  ⟨none, tokenAt .ident "f" 6, [], [], tokenAt .op ")" 8, tokenAt .op "\x7b" 10 ::
    (tokens body ++ [tokenAt .op "\x7d" closer, tokenAt .semi "\n" (closer + 1)])⟩

/-- The tokens of this function behind its keyword. -/
def functionAt (body : Marked) (closer : Nat) : List Token :=
  tokenAt .ident "f" 6 :: tokenAt .op "(" 7 :: tokenAt .op ")" 8 :: (headBefore body closer).rest

/-- The head of the sample function is read as far as its body. -/
theorem headOf_functionAt (body : Marked) (closer : Nat) :
    headOf (tokenAt .keyword "func" 1) (functionAt body closer) = .ok (headBefore body closer) := by
  have hnone : groupAt? "(" (functionAt body closer) = none := rfl
  have hparams : groupAt? "(" (functionAt body closer).tail =
      some ⟨[], tokenAt .op ")" 8, (headBefore body closer).rest⟩ := rfl
  have hempty : Signature.params [] = [] := by decide +kernel
  rw [headOf_eq, hnone, namedHead_eq]
  change paramsOf none (tokenAt .ident "f" 6) (functionAt body closer).tail = _
  rw [paramsOf_eq, hparams]
  change Except.ok (FunctionHead.mk none _ [] (Signature.params []) _ _) = _
  rw [hempty]
  rfl

/-- The function with a branch whose `else` block is written with the second `if` and more. -/
def elseFunction {ifs : List Bool} {more : Marked} (hmore : WrittenList ifs (nestedIf more)) (closer : Nat) :
    WrittenFunction (headBefore (elseBlock more (ifs != [true]) closer) (closer + 2)) where
  results := []
  opener := tokenAt .op "\x7b" 10
  ifs := [true]
  body := elseBlock more (ifs != [true]) closer
  closer := tokenAt .op "\x7d" (closer + 2)
  after := [tokenAt .semi "\n" (closer + 3)]
  rest_eq := rfl
  results_resultTypes := .nil rfl
  opener_isOp := rfl
  body_written := .last (written_ifAt _ _ _ _ (.last (written_callAt _ _)) (.block rfl rfl hmore rfl))
  closer_isOp := rfl
  after_isSemi := fun _ ht => Option.some.inj ht ▸ rfl

/-- `if b { g() }` by itself. -/
theorem written_nestedIf : WrittenList [true] (nestedIf []) :=
  .last (written_ifAt _ _ _ _ (.last (written_callAt _ _)) .none)

/-- `; h()` behind the second `if`. -/
def callBehind : Marked := (tokenAt .semi ";" 44, .none) :: callAt "h" 46

/-- A call behind the inner `if` leaves it an `if` among others. -/
theorem written_callBehind : WrittenList [true, false] (nestedIf callBehind) :=
  .cons (written_ifAt _ _ _ _ (.last (written_callAt _ _)) .none) rfl (.last (written_callAt _ _))

end Samples

/-! ## The depth -/

/-- A written function is found with the largest number of entered levels around a point of its body for its depth,
unless the size of a channel cannot be read. That is the largest number of all levels exactly when one of the
deepest points is in no level that is passed: no `else` block with a single `if`, and nothing in the header of a
clause. -/
theorem maxDepth_greatest (f : WrittenFunction head) (hhead : headOf keyword ts = .ok head) (file : FileInfo) :
    (∃ size, declaredFunction file keyword ts = .error (.size size)) ∨ ∃ found info endLine,
      declaredFunction file keyword ts = .ok (found, f.after) ∧
      found.filter (·.kind == .function) = [⟨file.path, keyword.pos, endLine, .function info⟩] ∧
      IsGreatest (depths entered f.body) info.maxDepth ∧
      (IsGreatest (depths every f.body) info.maxDepth ↔ ∃ front, front <+: f.body ∧
        (∀ other, other <+: f.body → around every other ≤ around every front) ∧
        around passed front = 0) := by
  obtain ⟨n, hpassed⟩ : ∃ n, Nests passed f.body n := nests_list f.body_written
  rcases f.exists_info hhead file with hsize | ⟨found, info, endLine, hdeclared, hfunction, hnests⟩
  · exact Or.inl hsize
  · exact Or.inr ⟨found, info, endLine, hdeclared, hfunction, hnests.isGreatest,
      hnests.isGreatest_every_iff hpassed⟩

/-- In `else { if b { g() }; h() }` the `else` block is entered. -/
theorem maxDepth_greatest_callBehind : ∃ found info endLine,
    headOf (tokenAt .keyword "func" 1) (functionAt (elseBlock callBehind true 50) 52) =
      .ok (headBefore (elseBlock callBehind true 50) 52) ∧
    declaredFunction ⟨"p.go", false, "p"⟩ (tokenAt .keyword "func" 1)
      (functionAt (elseBlock callBehind true 50) 52) =
        .ok (found, [tokenAt .semi "\n" 53]) ∧
    found.filter (·.kind == .function) = [⟨"p.go", ⟨1, 1⟩, endLine, .function info⟩] ∧
    info.maxDepth = 2 ∧ IsGreatest (depths every (elseBlock callBehind true 50)) info.maxDepth := by
  have hhead := headOf_functionAt (elseBlock callBehind true 50) 52
  have hread : (declaredFunction ⟨"p.go", false, "p"⟩ (tokenAt .keyword "func" 1)
      (functionAt (elseBlock callBehind true 50) 52)).toOption.isSome = true := by decide +kernel
  have hall : ∀ front ∈ (elseBlock callBehind true 50).inits, around every front ≤ 2 := by decide +kernel
  have htwo : IsGreatest (depths every (elseBlock callBehind true 50)) 2 :=
    isGreatest_of_inits 12 (by decide +kernel) hall
  rcases maxDepth_greatest (elseFunction written_callBehind 50) hhead ⟨"p.go", false, "p"⟩ with
    ⟨size, hsize⟩ | ⟨found, info, endLine, hdeclared, hfunction, -, hevery⟩
  · rw [show declaredFunction _ _ (functionAt (elseBlock callBehind true 50) 52) = _ from hsize] at hread
    cases hread
  · have hgreatest : IsGreatest (depths every (elseBlock callBehind true 50)) info.maxDepth := by
      refine hevery.mpr ⟨(elseBlock callBehind true 50).take 12, List.take_prefix _ _, fun other hother => ?_,
        by decide +kernel⟩
      rw [show around every ((elseBlock callBehind true 50).take 12) = 2 by decide +kernel]
      exact hall other ((List.mem_inits _ _).mpr hother)
    exact ⟨found, info, endLine, hhead, hdeclared, hfunction,
      Int.ofNat_inj.mp (hgreatest.unique htwo), hgreatest⟩

/-- `func f() { if a { f() } else { if b { g() } } }`: two blocks are around `g()`, and the depth is one. -/
theorem maxDepth_loneIf : ∃ lexed found info endLine,
    tokenize "func f() \x7b if a \x7b f() \x7d else \x7b if b \x7b g() \x7d \x7d \x7d\n" = .ok lexed ∧
    lexed.tokens = tokenAt .keyword "func" 1 :: functionAt (elseBlock [] false 45) 47 ∧
    (elseFunction written_nestedIf 45).body = elseBlock [] false 45 ∧
    declaredFunction ⟨"p.go", false, "p"⟩ (tokenAt .keyword "func" 1) (functionAt (elseBlock [] false 45) 47) =
      .ok (found, [tokenAt .semi "\n" 48]) ∧
    found.filter (·.kind == .function) = [⟨"p.go", ⟨1, 1⟩, endLine, .function info⟩] ∧
    info.maxDepth = 1 ∧ IsGreatest (depths every (elseBlock [] false 45)) 2 := by
  have hhead := headOf_functionAt (elseBlock [] false 45) 47
  have htokens : (tokenize "func f() \x7b if a \x7b f() \x7d else \x7b if b \x7b g() \x7d \x7d \x7d\n").toOption.map
      (·.tokens) = some (tokenAt .keyword "func" 1 :: functionAt (elseBlock [] false 45) 47) := by decide +kernel
  have hread : (declaredFunction ⟨"p.go", false, "p"⟩ (tokenAt .keyword "func" 1)
      (functionAt (elseBlock [] false 45) 47)).toOption.isSome = true := by decide +kernel
  have hone : IsGreatest (depths entered (elseBlock [] false 45)) 1 :=
    isGreatest_of_inits 3 (by decide +kernel) (by decide +kernel)
  have htwo : IsGreatest (depths every (elseBlock [] false 45)) 2 :=
    isGreatest_of_inits 12 (by decide +kernel) (by decide +kernel)
  cases hlexed : tokenize "func f() \x7b if a \x7b f() \x7d else \x7b if b \x7b g() \x7d \x7d \x7d\n" with
  | error fault =>
    rw [hlexed] at htokens
    cases htokens
  | ok lexed =>
    rw [hlexed] at htokens
    rcases (elseFunction written_nestedIf 45).exists_info hhead ⟨"p.go", false, "p"⟩ with
      ⟨size, hsize⟩ | ⟨found, info, endLine, hdeclared, hfunction, hnests⟩
    · rw [show declaredFunction _ _ (functionAt (elseBlock [] false 45) 47) = _ from hsize] at hread
      cases hread
    · exact ⟨lexed, found, info, endLine, rfl, Option.some.inj htokens, rfl, hdeclared, hfunction,
        Int.ofNat_inj.mp (hnests.isGreatest.unique hone), htwo⟩

end Declaration

end GoIdiom
