import GoIdiom.Construct.Body
import GoIdiom.Proofs.Relocation.Expression
import GoIdiom.Proofs.Relocation.Reading

/-!
# Constructs of moved bodies

A walk through moved statements finds what a walk through the original statements finds, moved. Only the
values of a return are looked at by their first tokens, so the statements have to be laid.
-/

namespace GoIdiom

namespace Body

/-- The value in the error position of a return, and how it makes an error. -/
def errorValue? (ctx : Context) (index : Nat) (values : List (List Token)) : Option (List Token × Handling) :=
  if values.length = ctx.scope.results.length then
    (values[index]?).map fun v => (v, Handling.ofExpression ctx.scope.knows v)
  else
    match values with
    | [v] => some (v, if (Call.whole? v).isSome then .delegated else .other)
    | _ => none

/-- The construct that a return of a value in the error position is. -/
def returnOf (file : FileInfo) (ctx : Context) (pos : Position) (value : List Token) (handling : Handling) :
    Option Construct :=
  value.head?.map fun first =>
    let errorName := if value.length = 1 && first.isIdent then some first.text else none
    ⟨file.path, first.pos, first.line, .errorReturn
      { handling := handling
        errorName := errorName
        origin := if handling == .bare then errorName.map fun name => ctx.scope.origin name pos else none
        guard := ctx.guard
        expression := Token.render value
        function := ctx.function }⟩

/-- A return is looked at by its value in the error position. -/
theorem errorReturn?_eq (file : FileInfo) (ctx : Context) (pos : Position) (values : List (List Token)) :
    errorReturn? file ctx pos values = (ctx.scope.errorIndex.bind fun index => errorValue? ctx index values).bind
      fun (value, handling) => returnOf file ctx pos value handling := by
  unfold errorReturn?
  cases ctx.scope.errorIndex with
  | none => rfl
  | some index =>
    simp only [Option.bind_eq_bind, Option.bind_some, errorValue?]
    split
    · cases values[index]? with
      | none => rfl
      | some v => cases v <;> rfl
    · cases values with
      | nil => rfl
      | cons v rest =>
        cases rest with
        | nil => cases v <;> rfl
        | cons => rfl

/-- The value in the error position is one of the values. -/
theorem mem_of_errorValue? {ctx : Context} {index : Nat} {values : List (List Token)}
    {chosen : List Token × Handling} (h : errorValue? ctx index values = some chosen) : chosen.1 ∈ values := by
  unfold errorValue? at h
  split at h
  · obtain ⟨v, hv, rfl⟩ := Option.map_eq_some_iff.mp h
    exact List.mem_of_getElem? hv
  · split at h
    · rw [← Option.some.inj h]
      exact List.mem_singleton_self _
    · cases h

end Body

namespace Relocation

variable (m : Relocation)

section Plain

variable (ctx : Context) (f : FileInfo) (tokens : List Token) (literals : List FuncLiteral)

/-- Moved tokens fail a test exactly when the tokens do. -/
@[simp] theorem failsTest_map : Body.failsTest (tokens.map m.token) = Body.failsTest tokens := by
  rw [Body.failsTest, render_map, Body.failsTest]

/-- A loop declares the same names after the move. -/
@[simp] theorem loopNames_map : Body.declaredNames (tokens.map m.token) = Body.declaredNames tokens := by
  rw [Body.declaredNames, cutAssignment_map, Body.declaredNames]
  cases Token.cutAssignment tokens with
  | none => rfl
  | some a =>
    simp only [Option.map_some, assignment, isOp_token, splitCommas_map, List.filterMap_map]
    congr 2
    funext group
    cases group with
    | nil => rfl
    | cons first rest => cases rest <;> rfl

/-- A moved argument is a context exactly when the argument is. -/
@[simp] theorem isContextArgument_map :
    Body.isContextArgument (tokens.map m.token) = Body.isContextArgument tokens := by
  rw [Body.isContextArgument, render_map, isSignal_map, Body.isContextArgument]

/-- The literal that a statement starts or defers moves with its tokens. -/
@[simp] theorem launched_map : Body.launched (tokens.map m.token) (m.literals literals) =
    (Body.launched tokens literals).map m.literal := by
  rw [Body.launched, ← List.map_drop, List.head?_map, literals_eq_map, List.head?_map, Option.any_map,
    Body.launched]
  simp only [isKeyword_token]
  split <;> rfl

/-- The arguments of a whole call move with its tokens. -/
theorem wholeArguments_map (ts : List Token) :
    ((Call.whole? (ts.map m.token)).map fun (_, inner) => Token.commaItems inner).getD [] =
      (((Call.whole? ts).map fun (_, inner) => Token.commaItems inner).getD []).map (List.map m.token) := by
  rw [whole?_map]
  cases Call.whole? ts with
  | none => rfl
  | some parts => exact m.commaItems_map parts.2

/-- The callee of a whole call is the same text after the move. -/
theorem wholeCallee_map (ts : List Token) :
    ((Call.whole? (ts.map m.token)).map fun (callee, _) => Token.render callee) =
      (Call.whole? ts).map fun (callee, _) => Token.render callee := by
  rw [whole?_map]
  cases Call.whole? ts with
  | none => rfl
  | some parts => exact congrArg some (m.render_map parts.1)

/-- A go statement moves with the parameters of its literal. -/
theorem goInfo_map : Body.goInfo (m.context ctx) (tokens.map m.token) (m.literals literals) =
    { Body.goInfo ctx tokens literals with params := (Body.goInfo ctx tokens literals).params.map m.param } := by
  have hreceiver : (m.context ctx).scope.receiver = ctx.scope.receiver.map m.receiver := rfl
  unfold Body.goInfo
  simp only [launched_map, ← List.map_drop, wholeArguments_map, wholeCallee_map, Option.isSome_map, List.map_map,
    List.any_map, Option.map_map, hreceiver, GoInfo.mk.injEq, inLoop_context, function_context, true_and, and_true]
  simp only [Function.comp_def, render_map, isContextArgument_map, body_literal, params_literal, List.any_map,
    name_param, waitsForCancellation_statements, references_statements, loopVars_context, true_and]
  constructor
  · cases ctx.scope.receiver <;> rfl
  · cases Body.launched tokens literals <;> rfl

/-- A moved deferred call is described as before. -/
@[simp] theorem deferInfo_map :
    Body.deferInfo (m.context ctx) (tokens.map m.token) = Body.deferInfo ctx tokens := by
  simp only [Body.deferInfo, ← List.map_drop, List.head?_map, Option.any_map, isKeyword_token, wholeCallee_map,
    loopDepth_context, function_context]

/-- The error value among returned values moves, and is handled as before. -/
theorem errorValue?_map (index : Nat) (values : List (List Token)) :
    Body.errorValue? (m.context ctx) index (values.map (List.map m.token)) =
      (Body.errorValue? ctx index values).map fun (value, handling) => (value.map m.token, handling) := by
  simp only [Body.errorValue?, List.length_map, scope_context, results_scope, knows_scope_fun, List.getElem?_map]
  split
  · simp only [Option.map_map, Function.comp_def, ofExpression_map]
  · match values with
    | [] => rfl
    | [v] => simp only [List.map_cons, List.map_nil, whole?_map, Option.isSome_map, Option.map_some]
    | _ :: _ :: _ => rfl

/-- A returned value moves with what is recorded of it. -/
theorem returnOf_map (pos : Position) (handling : Handling) {value : List Token}
    (h : Token.laid false value = true) :
    Body.returnOf (m.file f) (m.context ctx) (m.written pos) (value.map m.token) handling =
      (Body.returnOf f ctx pos value handling).map m.construct := by
  cases value with
  | nil => rfl
  | cons first rest =>
    have hrender := m.render_map (first :: rest)
    rw [List.map_cons] at hrender
    have horigin (name : String) : (m.context ctx).scope.origin name (m.written pos) = ctx.scope.origin name pos :=
      m.origin_scope ctx.scope name pos
    simp only [Body.returnOf, List.map_cons, List.head?_cons, Option.map_some, List.length_cons, List.length_map,
      isIdent_token, text_token, m.pos_token (Token.isInserted_of_laid h), line_token, hrender, horigin,
      guard_context, function_context]
    rfl

/-- A returned error moves with the returned values. -/
theorem errorReturn?_map (pos : Position) {values : List (List Token)}
    (h : ∀ value ∈ values, Token.laid false value = true) :
    Body.errorReturn? (m.file f) (m.context ctx) (m.written pos) (values.map (List.map m.token)) =
      (Body.errorReturn? f ctx pos values).map m.construct := by
  rw [Body.errorReturn?_eq, Body.errorReturn?_eq, scope_context, errorIndex_scope]
  cases ctx.scope.errorIndex with
  | none => rfl
  | some index =>
    simp only [Option.bind_some, errorValue?_map]
    cases hvalue : Body.errorValue? ctx index values with
    | none => rfl
    | some chosen => exact m.returnOf_map ctx f pos chosen.2 (h _ (Body.mem_of_errorValue? hvalue))

/-- The trace of a return moves with its tokens. -/
theorem returnTrace_map (pos : Position) (h : Token.laid false (tokens.drop 1) = true) :
    Body.returnTrace (m.file f) (m.context ctx) (m.written pos) (tokens.map m.token) =
      m.trace (Body.returnTrace f ctx pos tokens) := by
  have hreturn := m.errorReturn?_map ctx f pos (Token.laid_commaItems h)
  simp only [Body.returnTrace, ← List.map_drop, commaItems_map, List.isEmpty_map, scope_context,
    hasNamedResults_scope, hreturn]
  split
  · split <;> rfl
  · rw [trace_ofConstructs]
    congr 1
    cases Body.errorReturn? f ctx pos (Token.commaItems (tokens.drop 1)) <;> rfl

/-- Moved tokens are the blank name exactly when the tokens are. -/
@[simp] theorem isBlankName_map : Body.isBlankName (tokens.map m.token) = Body.isBlankName tokens := by
  match tokens with
  | [] => rfl
  | [_] => rfl
  | _ :: _ :: _ => rfl

/-- Moved groups are blank names exactly when the groups are. -/
@[simp] theorem all_isBlankName_map (groups : List (List Token)) :
    (groups.map (List.map m.token)).all Body.isBlankName = groups.all Body.isBlankName := by
  simp only [List.all_map, Function.comp_def, isBlankName_map]

/-- The blank name moves as a written token. -/
theorem pos_token_of_isBlankName {t : Token} {rest : List Token} (h : Body.isBlankName (t :: rest) = true) :
    (m.token t).pos = m.written t.pos := by
  cases rest with
  | cons _ _ => cases h
  | nil =>
    refine m.pos_token ?_
    rw [Body.isBlankName, beq_iff_eq] at h
    rw [Token.isInserted, h]
    exact Bool.and_false _

/-- An ignored error moves with its statement. -/
theorem ignored?_map : Body.ignored? (m.file f) (tokens.map m.token) =
    (Body.ignored? f tokens).map m.construct := by
  unfold Body.ignored?
  rw [cutAssignment_map]
  cases Token.cutAssignment tokens with
  | none => rfl
  | some a =>
    simp only [Option.map_some, Option.bind_eq_bind, Option.bind_some, assignment, splitCommas_map, commaItems_map,
      List.getLast?_map, List.length_map, all_isBlankName_map]
    cases Token.commaItems a.right with
    | nil => rfl
    | cons value others =>
      cases others with
      | cons => rfl
      | nil =>
        cases (Token.splitCommas a.left).getLast? with
        | none => rfl
        | some last =>
          cases last with
          | nil => rfl
          | cons first rest =>
            simp only [List.map_cons, List.map_nil, whole?_map, Option.map_some, Option.bind_some, List.head?_cons]
            cases Call.whole? value with
            | none => rfl
            | some parts =>
              have hblank := m.isBlankName_map (first :: rest)
              rw [List.map_cons] at hblank
              simp only [Option.map_some, Option.bind_some, cut, render_map, hblank, line_token]
              split
              · next hname => rw [m.pos_token_of_isBlankName hname]; rfl
              · rfl

/-- The trace of a statement without blocks moves with its tokens and its literals. -/
theorem plainTrace_map (place : Place) (kind : PlainKind) (h : Token.laid false (tokens.drop 1) = true) :
    Body.plainTrace (m.file f) (m.context ctx) (m.place place) kind (tokens.map m.token) (m.literals literals) =
      m.trace (Body.plainTrace f ctx place kind tokens literals) := by
  cases kind with
  | go => simp only [Body.plainTrace, goInfo_map]; rfl
  | defer => simp only [Body.plainTrace, deferInfo_map]; rfl
  | «return» => exact m.returnTrace_map ctx f tokens place.pos h
  | simple =>
    simp only [Body.plainTrace, ignored?_map, trace_ofConstructs]
    congr 1
    cases Body.ignored? f tokens <;> rfl
  | declaration => rfl
  | «break» => rfl
  | «continue» => rfl
  | goto => rfl
  | fallthrough => rfl

end Plain

section Compound

variable (ctx : Context) (f : FileInfo)

/-- The error that a condition checks is the same name after the move. -/
theorem checkedFrom_map (before ts : List Token) :
    Body.checkedFrom (before.map m.token) (ts.map m.token) = Body.checkedFrom before ts := by
  induction ts generalizing before with
  | nil => rfl
  | cons t rest ih =>
    have ih := ih (t :: before)
    rw [List.map_cons] at ih
    unfold Body.checkedFrom
    rw [List.map_cons]
    simp only [ih]
    match before, rest with
    | [], _ => rfl
    | _ :: _, [] => rfl
    | left :: outer, right :: _ =>
      simp only [List.map_cons, isOp_token, isIdent_token, text_token, List.head?_map, Option.any_map]

/-- Moved tokens mention the same names. -/
@[simp] theorem mentions_map (ts : List Token) (name : String) :
    Body.mentions (ts.map m.token) name = Body.mentions ts name := by
  rw [Body.mentions, List.any_map, Body.mentions]
  rfl

/-- A moved condition and body check an error exactly when they do, and the same one. -/
@[simp] theorem errorCheck?_map (condition : List Token) (body : List Statement) (hasElse : Bool) :
    Body.errorCheck? (m.context ctx) (condition.map m.token) (m.statements body) hasElse =
      Body.errorCheck? ctx condition body hasElse := by
  have hchecked := m.checkedFrom_map [] condition
  rw [List.map_nil] at hchecked
  have hlength : (m.statements body).length = body.length := by rw [statements_eq_map, List.length_map]
  have hreturns : (m.statements (Statement.flattenList body)).filter (·.isPlain .return) =
      ((Statement.flattenList body).filter (·.isPlain .return)).map m.statement := by
    rw [statements_eq_map, List.filter_map]
    simp only [Function.comp_def, isPlain_statement]
  unfold Body.errorCheck?
  simp only [hchecked, hlength, flattenList_statements, hreturns, references_statements, function_context,
    List.isEmpty_map]
  simp only [statements_eq_map, List.any_map, Function.comp_def, tokens_statement, mentions_map, terminates_map,
    failsTest_map, isPlain_statement, calls_map, name_call]

/-- A moved header has the loop's form. -/
@[simp] theorem loopForm_map (header : List Token) : Body.loopForm (header.map m.token) = Body.loopForm header := by
  simp only [Body.loopForm, List.any_map, Function.comp_def, isKeyword_token, loopNames_map, splitSemis_map,
    List.isEmpty_map, render_map]
  match Token.splitSemis header with
  | [] => rfl
  | [_] => rfl
  | [_, _] => rfl
  | [init, _, _] => simp only [List.map_cons, List.map_nil, loopNames_map]
  | _ :: _ :: _ :: _ :: _ => rfl

/-- The last part of some moved parts is the moved last part. -/
theorem lastPart_map (parts : List (List Token)) :
    (parts.map (List.map m.token)).getLastD [] = (parts.getLastD []).map m.token :=
  List.getLastD_map (f := List.map m.token) (a := [])

/-- The subject of a switch at its new place. -/
def subject (s : Body.Subject) : Body.Subject := { s with tag := s.tag.map m.token }

/-- The subject of a switch moves with its header. -/
@[simp] theorem subject_map (header : List Token) :
    Body.subject (header.map m.token) = m.subject (Body.subject header) := by
  unfold Body.subject
  simp only [splitSemis_map, lastPart_map, render_map, cutAssignment_map]
  generalize (Token.splitSemis header).getLastD [] = tag
  split
  · cases Token.cutAssignment tag with
    | none => simp only [Option.map_none, Option.getD_none, List.head?_map, Option.map_map, subject]; rfl
    | some a =>
      simp only [Option.map_some, Option.getD_some, assignment, List.head?_map, Option.map_map, subject]
      rfl
  · cases tag with
    | nil => rfl
    | cons first rest => cases rest <;> rfl

/-- A moved clause is guarded as the clause is. -/
@[simp] theorem clauseGuard_subject (s : Body.Subject) (isDefault : Bool) (header : List Token) :
    Body.clauseGuard (m.subject s) isDefault (header.map m.token) = Body.clauseGuard s isDefault header := by
  simp only [Body.clauseGuard, subject, render_map, List.isEmpty_map, ofCondition_map]

/-- A moved select is described as before. -/
@[simp] theorem selectInfo_clauses (cs : List Clause) :
    Body.selectInfo (m.context ctx) (m.clauses cs) = Body.selectInfo ctx cs := by
  simp only [Body.selectInfo, clauses_eq_map, List.filter_map, List.length_map, List.any_map, Function.comp_def,
    isDefault_clause, header_clause, receives_map, inLoop_context, function_context]

/-- A moved branch is an else-if exactly when the branch is. -/
@[simp] theorem isElseIf_statements (body : List Statement) :
    Body.isElseIf (m.statements body) = Body.isElseIf body := by
  match body with
  | [] => rfl
  | [s] => cases s <;> rfl
  | s :: _ :: _ => cases s <;> rfl

end Compound

section Walks

open Body Statement

variable {f : FileInfo}

/-- The statements before a condition guard it as before. -/
theorem guard_init (parts : List (List Token)) (guard : Option Guard) :
    ((parts.map (List.map m.token)).map Guard.ofInit).foldl Guard.stronger guard =
      (parts.map Guard.ofInit).foldl Guard.stronger guard := by
  simp only [List.map_map, Function.comp_def, ofInit_map]

/-- A walk inside a block at a depth. -/
theorem atDepth_map (depth : Nat) (w : Walk) :
    (w.map m.trace).map (Trace.atDepth depth) = (w.map (Trace.atDepth depth)).map m.trace := by
  cases w <;> rfl

mutual

/-- A walk through a moved statement. -/
theorem walkStatement_statement (ctx : Context) : ∀ s : Statement, s.laid = true →
    walkStatement (m.file f) (m.context ctx) (m.statement s) = (walkStatement f ctx s).map m.trace
  | .plain place kind tokens literals, h => by
    rw [laid, Bool.and_eq_true] at h
    rw [statement, walkStatement, m.plainTrace_map ctx f tokens literals place kind h.1, walk_map, launched_map,
      Option.isSome_map, walkLiterals_literals ctx _ literals h.2, walkStatement, ← all_map]
    rfl
  | .block _ body, h => by
    rw [statement, walkStatement, walkList_statements ctx body h, walkStatement]
  | .branch place header literals body otherwise, h => by
    simp only [laid, Bool.and_eq_true] at h
    obtain ⟨⟨hliterals, hbody⟩, hother⟩ := h
    rw [statement, walkStatement]
    simp only [splitSemis_map, lastPart_map, ← List.map_dropLast, ofCondition_map, guard_init, walk_map,
      walkLiterals_literals ctx _ literals hliterals, enterGuarded_context, walkList_statements _ body hbody,
      walkOther_otherwise ctx otherwise hother, errorCheck?_map, atDepth_map, depth_context]
    rw [walkStatement, ← all_map, otherwise_eq_map, Option.isSome_map]
    cases errorCheck? ctx ((Token.splitSemis header).getLastD []) body otherwise.isSome <;> rfl
  | .loop place header literals body, h => by
    simp only [laid, Bool.and_eq_true] at h
    rw [statement, walkStatement]
    simp only [walk_map, loopForm_map, walkLiterals_literals ctx _ literals h.1, enterLoop_context,
      walkList_statements _ body h.2, atDepth_map, depth_context]
    rw [walkStatement, ← all_map]
    rfl
  | .switch place header literals clauses, h => by
    simp only [laid, Bool.and_eq_true] at h
    rw [statement, walkStatement, subject_map, walkClauses_clauses ctx (m.clauseGuard_subject _) clauses h.2,
      walk_map, walkLiterals_literals ctx _ literals h.1]
    simp only [subject, render_map]
    have hline : (m.place place).pos.line = place.pos.line + m.shift := m.written_line place.pos
    rw [walkStatement, ← all_map, hline]
    split <;> rfl
  | .select place header literals clauses, h => by
    simp only [laid, Bool.and_eq_true] at h
    rw [statement, walkStatement, walkClauses_clauses ctx (fun _ _ => rfl) clauses h.2, walk_map,
      walkLiterals_literals ctx _ literals h.1, selectInfo_clauses, walkStatement, ← all_map]
    rfl

/-- A walk through moved statements. -/
theorem walkList_statements (ctx : Context) : ∀ body : List Statement, listLaid body = true →
    walkList (m.file f) (m.context ctx) (m.statements body) = (walkList f ctx body).map m.trace
  | [], _ => rfl
  | s :: rest, h => by
    rw [listLaid, Bool.and_eq_true] at h
    rw [statements, walkList, walkStatement_statement ctx s h.1, walkList_statements ctx rest h.2, andThen_map,
      walkList]

/-- A walk through a moved other branch. -/
theorem walkOther_otherwise (ctx : Context) : ∀ body : Option (List Statement), otherLaid body = true →
    walkOther (m.file f) (m.context ctx) (m.otherwise body) = (walkOther f ctx body).map m.trace
  | none, _ => rfl
  | some body, h => by
    rw [otherwise, walkOther, isElseIf_statements, enter_context, walkList_statements ctx body h,
      walkList_statements ctx.enter body h, atDepth_map, depth_context, walkOther]
    split <;> rfl

/-- A walk through moved clauses, with guards that do not depend on places. -/
theorem walkClauses_clauses (ctx : Context) {guard guard' : Bool → List Token → Option Guard}
    (hguard : ∀ isDefault header, guard' isDefault (header.map m.token) = guard isDefault header) :
    ∀ cs : List Clause, clausesLaid cs = true →
      walkClauses (m.file f) (m.context ctx) guard' (m.clauses cs) = (walkClauses f ctx guard cs).map m.trace
  | [], _ => rfl
  | .mk _ isDefault header body :: rest, h => by
    rw [clausesLaid, Bool.and_eq_true] at h
    rw [clauses, walkClauses]
    simp only [walk_map, hguard, enterGuarded_context, walkList_statements _ body h.1, atDepth_map, depth_context,
      walkClauses_clauses ctx hguard rest h.2]
    rw [walkClauses, ← all_map]
    rfl

/-- A walk through moved function literals. -/
theorem walkLiterals_literals (ctx : Context) (launchesFirst : Bool) : ∀ ls : List FuncLiteral,
    literalsLaid ls = true → walkLiterals (m.file f) (m.context ctx) launchesFirst (m.literals ls) =
      (walkLiterals f ctx launchesFirst ls).map m.trace
  | [], _ => rfl
  | .mk _ _ params results body :: rest, h => by
    rw [literalsLaid, Bool.and_eq_true] at h
    rw [literals, walkLiterals, ofBody_statements]
    simp only [enterLiteral_context, walkList_statements _ body h.1, walkLiterals_literals ctx false rest h.2]
    rw [walkLiterals, ← andThen_map]
    congr 1
    cases walkList f (ctx.enterLiteral (Frame.ofBody params results body) launchesFirst) body <;> rfl

end

end Walks

end Relocation

end GoIdiom
