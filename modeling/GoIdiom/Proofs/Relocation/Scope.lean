import GoIdiom.Construct.Trace
import GoIdiom.Proofs.Relocation.Calls

/-!
# Moving constructs and scopes

A construct moves with its place and all places in its detail. The assignments that are known in a scope
move along, and the origin of a name at a moved place is the origin it has at the original place.
-/

namespace GoIdiom.Relocation

variable (m : Relocation)

/-- A receiver at its new place. -/
def receiver (r : Receiver) : Receiver := { r with pos := m.written r.pos }

/-- A field at its new place. -/
def field (f : Field) : Field := { f with pos := m.written f.pos }

/-- A method of an interface on its new line. -/
def method (f : Method) : Method := { f with line := f.line + m.shift }

/-- A function with the places in its signature and body moved. -/
def functionInfo (f : FunctionInfo) : FunctionInfo :=
  { f with
    receiver := f.receiver.map m.receiver
    params := f.params.map m.param
    results := f.results.map m.param
    typeParams := f.typeParams.map m.param
    nakedReturns := f.nakedReturns.map m.written }

/-- What is told of a construct, with all places in it moved. -/
def detail : Detail → Detail
  | .function f => .function (m.functionInfo f)
  | .testFunction t => .testFunction { t with params := t.params.map m.param, results := t.results.map m.param }
  | .interface i =>
    .interface { i with typeParams := i.typeParams.map m.param, methods := i.methods.map m.method }
  | .struct s => .struct { s with typeParams := s.typeParams.map m.param, fields := s.fields.map m.field }
  | .type t => .type { t with typeParams := t.typeParams.map m.param }
  | .global g => .global { g with names := g.names.map fun (name, pos) => (name, m.written pos) }
  | .go g => .go { g with params := g.params.map m.param }
  | d => d

/-- A construct at its new place in the file that it is moved to. -/
def construct (c : Construct) : Construct :=
  ⟨m.path, m.written c.pos, c.endLine + m.shift, m.detail c.detail⟩

/-- The file that constructs are moved to. -/
def file (f : FileInfo) : FileInfo := { f with path := m.path }

/-- An assignment at its new place. -/
def assigned (a : Assigned) : Assigned := { a with pos := m.written a.pos }

/-- A frame with its signature and assignments moved. -/
def frame (f : Frame) : Frame :=
  ⟨f.params.map m.param, f.results.map m.param, f.assignments.map m.assigned⟩

/-- A scope with its frames moved. -/
def scope (s : Scope) : Scope := ⟨s.function, s.receiver.map m.receiver, s.frames.map m.frame⟩

/-- A context with its scope moved. -/
def context (ctx : Context) : Context := { ctx with scope := m.scope ctx.scope }

/-- What a walk found, moved. -/
def trace (t : Trace) : Trace :=
  ⟨t.constructs.map m.construct, t.callees, t.depth, t.nakedReturns.map m.written⟩

section Assignments

/-- Where a value comes from does not depend on where it is written. -/
@[simp] theorem originOf_map (ts : List Token) : Origin.ofExpression (ts.map m.token) = Origin.ofExpression ts := by
  rw [Origin.ofExpression, ofExpression_map, Origin.ofExpression]

/-- The names that a declaration gives move with its tokens. -/
@[simp] theorem declaredNames_map (ts : List Token) :
    Assigned.declaredNames (ts.map m.token) = (Assigned.declaredNames ts).map m.token := by
  fun_induction Assigned.declaredNames ts with
  | case1 name comma rest hname hcomma ih =>
    simp only [List.map_cons, Assigned.declaredNames, isIdent_token, isOp_token, hname, hcomma, ↓reduceIte, ih]
  | case2 name comma rest hname hcomma =>
    simp only [List.map_cons, Assigned.declaredNames, isIdent_token, isOp_token, hname, hcomma, ↓reduceIte]
    rfl
  | case3 name comma rest hname =>
    simp only [List.map_cons, Assigned.declaredNames, isIdent_token, hname]
    rfl
  | case4 name hname =>
    simp only [List.map_cons, List.map_nil, Assigned.declaredNames, isIdent_token, hname, ↓reduceIte]
  | case5 name hname =>
    simp only [List.map_cons, List.map_nil, Assigned.declaredNames, isIdent_token, hname]
    rfl
  | case6 => rfl

/-- Targets and values are paired the same way after the move. -/
theorem pairs_map (targets values : List (List Token)) :
    Assigned.pairs (targets.map (List.map m.token)) (values.map (List.map m.token)) =
      (Assigned.pairs targets values).map m.cut := by
  simp only [Assigned.pairs, List.length_map]
  split
  · rw [List.zip_map]
    rfl
  · match values with
    | [] => rfl
    | [value] => simp only [List.map_cons, List.map_nil, List.map_map]; rfl
    | _ :: _ :: _ => rfl

/-- What some targets are assigned moves with them. -/
theorem ofTargets_map (targets values : List (List Token)) :
    Assigned.ofTargets (targets.map (List.map m.token)) (values.map (List.map m.token)) =
      (Assigned.ofTargets targets values).map m.assigned := by
  rw [Assigned.ofTargets, pairs_map, List.filterMap_map, Assigned.ofTargets, List.map_filterMap]
  congr 1
  funext ⟨target, value⟩
  match target with
  | [] => rfl
  | [t] =>
    simp only [Function.comp_apply, cut, List.map_cons, List.map_nil, isIdent_token, text_token, originOf_map]
    split
    · next h => simp only [m.pos_token_of_isIdent (Bool.and_eq_true_iff.mp h).1, Option.map_some, assigned]
    · rfl
  | _ :: _ :: _ => rfl

/-- The names of a declaration are identifiers. -/
theorem isIdent_of_mem_declaredNames {t : Token} {ts : List Token} (h : t ∈ Assigned.declaredNames ts) :
    t.isIdent = true := by
  fun_induction Assigned.declaredNames ts with
  | case1 name comma rest hname hcomma ih => exact (List.mem_cons.mp h).elim (fun h => h ▸ hname) ih
  | case2 name comma rest hname hcomma => exact List.mem_singleton.mp h ▸ hname
  | case3 => exact absurd h List.not_mem_nil
  | case4 name hname => exact List.mem_singleton.mp h ▸ hname
  | case5 => exact absurd h List.not_mem_nil
  | case6 => exact absurd h List.not_mem_nil

/-- The assignments in some tokens move with them. -/
@[simp] theorem assignedOfTokens_map (ts : List Token) :
    Assigned.ofTokens (ts.map m.token) = (Assigned.ofTokens ts).map m.assigned := by
  cases ts with
  | nil => rfl
  | cons first rest =>
    have hcut := m.cutAssignment_map (first :: rest)
    rw [List.map_cons] at hcut
    simp only [List.map_cons, Assigned.ofTokens, isKeyword_token, declaredNames_map, cutAssignment_map, hcut]
    split
    · cases Token.cutAssignment rest with
      | none =>
        simp only [Option.map_none, List.map_map]
        refine List.map_congr_left fun t ht => ?_
        simp only [Function.comp_apply, text_token, m.pos_token_of_isIdent (isIdent_of_mem_declaredNames ht),
          assigned]
      | some a =>
        simp only [Option.map_some, assignment, commaItems_map, List.map_map, ← ofTargets_map]
        rfl
    · cases Token.cutAssignment (first :: rest) with
      | none => rfl
      | some a => simp only [Option.map_some, assignment, commaItems_map, splitCommas_map, ofTargets_map]

/-- The assignments of a statement move with it. -/
theorem ofStatement_statement (s : Statement) :
    Assigned.ofStatement (m.statement s) = (Assigned.ofStatement s).map m.assigned := by
  cases s with
  | plain place kind tokens literals =>
    cases kind <;> first | exact m.assignedOfTokens_map tokens | rfl
  | block => rfl
  | select => rfl
  | branch place header literals body otherwise =>
    simp only [statement, Assigned.ofStatement, splitSemis_map]
    match Token.splitSemis header with
    | [] => rfl
    | [_] => rfl
    | [_, _] => simp only [List.map_cons, List.map_nil, assignedOfTokens_map]
    | _ :: _ :: _ :: _ => rfl
  | loop place header literals body =>
    simp only [statement, Assigned.ofStatement, splitSemis_map]
    match Token.splitSemis header with
    | [] => simp only [List.map_nil, assignedOfTokens_map]
    | [_] => simp only [List.map_cons, List.map_nil, assignedOfTokens_map]
    | [_, _] => simp only [List.map_cons, List.map_nil, assignedOfTokens_map]
    | [_, _, _] => simp only [List.map_cons, List.map_nil, assignedOfTokens_map]
    | _ :: _ :: _ :: _ :: _ => simp only [List.map_cons, assignedOfTokens_map]
  | switch place header literals clauses =>
    simp only [statement, Assigned.ofStatement, splitSemis_map]
    match Token.splitSemis header with
    | [] => simp only [List.map_nil, assignedOfTokens_map]
    | [_] => simp only [List.map_cons, List.map_nil, assignedOfTokens_map]
    | [_, _] => simp only [List.map_cons, List.map_nil, assignedOfTokens_map]
    | _ :: _ :: _ :: _ => simp only [List.map_cons, assignedOfTokens_map]

/-- The frame of a moved body. -/
@[simp] theorem ofBody_statements (params results : List Param) (body : List Statement) :
    Frame.ofBody (params.map m.param) (results.map m.param) (m.statements body) =
      m.frame (Frame.ofBody params results body) := by
  rw [Frame.ofBody, flattenList_statements, statements_eq_map, List.flatMap_map]
  simp only [ofStatement_statement, Frame.ofBody, frame, List.map_flatMap]

end Assignments

section Names

variable (f : Frame) (s : Scope) (name : String)

/-- A frame has the same parameters after the move. -/
@[simp] theorem hasParam_frame : (m.frame f).hasParam name = f.hasParam name := by
  simp only [Frame.hasParam, frame, List.any_map]
  rfl

/-- A frame has the same named results after the move. -/
@[simp] theorem hasResult_frame : (m.frame f).hasResult name = f.hasResult name := by
  simp only [Frame.hasResult, frame, List.any_map]
  rfl

/-- A frame knows the same names after the move. -/
@[simp] theorem knows_frame : (m.frame f).knows name = f.knows name := by
  simp only [Frame.knows, hasParam_frame, hasResult_frame]
  simp only [frame, List.any_map]
  rfl

/-- A frame has the same test parameter after the move. -/
@[simp] theorem testParam_frame : (m.frame f).testParam = f.testParam := by
  simp only [Frame.testParam, frame, List.findSome?_map]
  rfl

/-- A frame names its results after the move exactly when it does before. -/
@[simp] theorem hasNamedResults_frame : (m.frame f).hasNamedResults = f.hasNamedResults := by
  simp only [Frame.hasNamedResults, frame, List.any_map]
  rfl

/-- The error among a frame's results keeps its index. -/
@[simp] theorem errorIndex_frame : (m.frame f).errorIndex = f.errorIndex := by
  simp only [Frame.errorIndex, frame, List.zipIdx_map, List.filter_map, List.getLast?_map, Option.map_map]
  rfl

/-- The last assignment before a place moves along: the order of places is kept. -/
theorem lastBefore_frame (pos : Position) :
    (m.frame f).lastBefore name (m.written pos) = (f.lastBefore name pos).map m.assigned := by
  rw [Frame.lastBefore, frame, List.filter_map, List.getLast?_map, Frame.lastBefore]
  congr 2
  refine List.filter_congr fun a _ => ?_
  simp only [Function.comp_apply, assigned, m.before_written]

/-- The origin of a name in some frames is the same at the moved place. -/
theorem originIn_frames (pos : Position) (frames : List Frame) :
    Scope.originIn name (m.written pos) (frames.map m.frame) = Scope.originIn name pos frames := by
  induction frames with
  | nil => rfl
  | cons f outer ih =>
    simp only [List.map_cons, Scope.originIn, lastBefore_frame, hasParam_frame, hasResult_frame, ih]
    cases f.lastBefore name pos <;> rfl

/-- The origin of a name in a scope is the same at the moved place. -/
@[simp] theorem origin_scope (pos : Position) : (m.scope s).origin name (m.written pos) = s.origin name pos :=
  m.originIn_frames name pos s.frames

/-- A scope knows the same names after the move. -/
@[simp] theorem knows_scope : (m.scope s).knows name = s.knows name := by
  simp only [Scope.knows, scope, List.any_map]
  congr 1
  funext f
  exact m.knows_frame f name

/-- What a scope knows is the same test after the move. -/
theorem knows_scope_fun : (m.scope s).knows = s.knows := funext fun name => m.knows_scope s name

/-- A scope has the same test parameter after the move. -/
@[simp] theorem testParam_scope : (m.scope s).testParam = s.testParam := by
  simp only [Scope.testParam, scope, List.findSome?_map]
  congr 1
  funext f
  exact m.testParam_frame f

/-- The results of a scope move with it. -/
@[simp] theorem results_scope : (m.scope s).results = s.results.map m.param := by
  simp only [Scope.results, scope, List.head?_map]
  cases s.frames.head? <;> rfl

/-- A scope names its results after the move exactly when it does before. -/
@[simp] theorem hasNamedResults_scope : (m.scope s).hasNamedResults = s.hasNamedResults := by
  simp only [Scope.hasNamedResults, scope, List.head?_map, Option.any_map, hasNamedResults_frame]

/-- The error among a scope's results keeps its index. -/
@[simp] theorem errorIndex_scope : (m.scope s).errorIndex = s.errorIndex := by
  simp only [Scope.errorIndex, scope, List.head?_map]
  cases s.frames.head? with
  | none => rfl
  | some f => exact m.errorIndex_frame f

end Names

section Context

variable (ctx : Context)

/-- The function that a context stands in keeps its name. -/
@[simp] theorem function_context : (m.context ctx).function = ctx.function := rfl

/-- A context stands in a loop after the move exactly when it does before. -/
@[simp] theorem inLoop_context : (m.context ctx).inLoop = ctx.inLoop := rfl

/-- A context stands equally deep in loops after the move. -/
@[simp] theorem loopDepth_context : (m.context ctx).loopDepth = ctx.loopDepth := rfl

/-- The loop variables of a context stay. -/
@[simp] theorem loopVars_context : (m.context ctx).loopVars = ctx.loopVars := rfl

/-- The guard of a context stays. -/
@[simp] theorem guard_context : (m.context ctx).guard = ctx.guard := rfl

/-- A context is nested equally deep after the move. -/
@[simp] theorem depth_context : (m.context ctx).depth = ctx.depth := rfl

/-- The scope of a context moves with it. -/
@[simp] theorem scope_context : (m.context ctx).scope = m.scope ctx.scope := rfl

/-- Entering a block and moving are the same in either order. -/
@[simp] theorem enter_context : (m.context ctx).enter = m.context ctx.enter := rfl

/-- Entering a guarded block and moving are the same in either order. -/
@[simp] theorem enterGuarded_context (guard : Option Guard) :
    (m.context ctx).enterGuarded guard = m.context (ctx.enterGuarded guard) := rfl

/-- Entering a loop and moving are the same in either order. -/
@[simp] theorem enterLoop_context (names : List String) :
    (m.context ctx).enterLoop names = m.context (ctx.enterLoop names) := rfl

/-- Entering a function literal and moving are the same in either order. -/
@[simp] theorem enterLiteral_context (f : Frame) (launched : Bool) :
    (m.context ctx).enterLiteral (m.frame f) launched = m.context (ctx.enterLiteral f launched) := rfl

/-- The first context of a moved scope is the moved first context. -/
@[simp] theorem ofScope_scope (s : Scope) : Context.ofScope (m.scope s) = m.context (Context.ofScope s) := rfl

end Context

section Traces

/-- Traces move part by part. -/
theorem trace_append (s t : Trace) : m.trace (s ++ t) = m.trace s ++ m.trace t := by
  change m.trace (s.append t) = (m.trace s).append (m.trace t)
  simp only [trace, Trace.append, List.map_append]

/-- A trace of constructs moves construct by construct. -/
@[simp] theorem trace_ofConstructs (cs : List Construct) :
    m.trace (.ofConstructs cs) = .ofConstructs (cs.map m.construct) := rfl

/-- One moved walk after the other. -/
theorem andThen_map (a b : Walk) :
    Walk.andThen (a.map m.trace) (b.map m.trace) = (Walk.andThen a b).map m.trace := by
  cases a with
  | error e => rfl
  | ok s =>
    cases b with
    | error e => rfl
    | ok t => exact congrArg Except.ok (m.trace_append s t).symm

/-- Moved walks one after the other. -/
theorem all_map (ws : List Walk) : Walk.all (ws.map (Except.map m.trace)) = (Walk.all ws).map m.trace := by
  induction ws with
  | nil => rfl
  | cons w rest ih => rw [List.map_cons, Walk.all, Walk.all, ih, andThen_map]

/-- A walk that finds some constructs finds the moved ones after the move. -/
@[simp] theorem found_map (cs : List Construct) :
    Walk.found (cs.map m.construct) = (Walk.found cs).map m.trace := rfl

end Traces

end GoIdiom.Relocation
