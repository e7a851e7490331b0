import GoIdiom.Proofs.Declarations
import GoIdiom.Proofs.Enclosures.Walk
import GoIdiom.Proofs.Forest.Walk
import GoIdiom.SourceFile

/-!
# Attribution to the innermost function

Every defer, return, select and call that is found in a function is told by what stands around its statement: the
loops and guards of the innermost function literal or function only, the results of that function, and whether a
go statement runs one of the function literals around it. Function literals are those of the statement trees; in
the header of a clause none are cut out, so a call in such a literal belongs to the function of the switch.
-/

namespace GoIdiom

namespace Body

open Statement

variable {file : FileInfo} {ctx : Context} {s : Statement} {c : Construct} {isStatement : Bool} {run : List Token}

/-! ## What statements are -/

/-- The calls in expressions. -/
theorem ofExpression_call_iff : OfExpression file ctx isStatement run c ∧ c.kind = .call ↔
    ∃ call ∈ Call.list run,
      c = ⟨file.path, call.first.pos, call.first.line,
        .call (Expression.callInfo file ctx isStatement call)⟩ := by
  constructor
  · rintro ⟨⟨call, hcall, rfl | ⟨detail, hdetail, rfl⟩⟩ | h, hkind⟩
    · exact ⟨call, hcall, rfl⟩
    · have hspecial := kind_special hdetail
      rw [show detail.kind = .call from hkind] at hspecial
      exact absurd hspecial (by decide)
    · obtain ⟨comparison, -, hinfo⟩ := List.mem_filterMap.mp h
      obtain ⟨info, -, rfl⟩ := Option.map_eq_some_iff.mp hinfo
      cases hkind
  · rintro ⟨call, hcall, rfl⟩
    exact ⟨Or.inl ⟨call, hcall, Or.inl rfl⟩, rfl⟩

/-- The other kinds of constructs in expressions. -/
theorem kind_ofExpression (h : OfExpression file ctx isStatement run c) :
    c.kind ∈ [ConstructKind.call, .channelMake, .errorConstruct, .errorCompare] := by
  rcases h with ⟨call, -, rfl | ⟨detail, hdetail, rfl⟩⟩ | h
  · exact List.mem_cons_self
  · exact List.mem_cons_of_mem _ (kind_special hdetail)
  · obtain ⟨comparison, -, hinfo⟩ := List.mem_filterMap.mp h
    obtain ⟨info, -, rfl⟩ := Option.map_eq_some_iff.mp hinfo
    exact List.contains_iff_mem.mp rfl

/-- The construct that a statement is by itself. -/
inductive Forms (file : FileInfo) (ctx : Context) : Statement → Construct → Prop
  | go (place : Place) (tokens : List Token) (literals : List FuncLiteral) :
      Forms file ctx (.plain place .go tokens literals)
        ⟨file.path, place.pos, place.endLine, .go (goInfo ctx tokens literals)⟩
  | defer (place : Place) (tokens : List Token) (literals : List FuncLiteral) :
      Forms file ctx (.plain place .defer tokens literals)
        ⟨file.path, place.pos, place.endLine, .defer (deferInfo ctx tokens)⟩
  | return {place : Place} {tokens : List Token} {literals : List FuncLiteral} {c : Construct}
      (hvalues : Token.commaItems (tokens.drop 1) ≠ [])
      (h : errorReturn? file ctx place.pos (Token.commaItems (tokens.drop 1)) = some c) :
      Forms file ctx (.plain place .return tokens literals) c
  | ignored {place : Place} {tokens : List Token} {literals : List FuncLiteral} {c : Construct}
      (h : ignored? file tokens = some c) : Forms file ctx (.plain place .simple tokens literals) c
  | check {place : Place} {header : List Token} {literals : List FuncLiteral} {body : List Statement}
      {otherwise : Option (List Statement)} {info : ErrorCheckInfo}
      (h : errorCheck? ctx ((Token.splitSemis header).getLastD []) body otherwise.isSome = some info) :
      Forms file ctx (.branch place header literals body otherwise)
        ⟨file.path, place.pos, place.endLine, .errorCheck info⟩
  | loop (place : Place) (header : List Token) (literals : List FuncLiteral) (body : List Statement) :
      Forms file ctx (.loop place header literals body) ⟨file.path, place.pos, place.endLine,
        .loop ⟨(loopForm header).1, (loopForm header).2, ctx.loopDepth + 1, ctx.function⟩⟩
  | switch {place : Place} {header : List Token} {literals : List FuncLiteral} {clauses : List Clause}
      (h : Text.endsWith (Token.render (subject header).tag) ".Error()" = true) :
      Forms file ctx (.switch place header literals clauses) ⟨file.path, place.pos, place.pos.line,
        .errorCompare ⟨.string, "switch", Token.render (subject header).tag, ctx.function⟩⟩
  | select (place : Place) (header : List Token) (literals : List FuncLiteral) (clauses : List Clause) :
      Forms file ctx (.select place header literals clauses)
        ⟨file.path, place.pos, place.endLine, .select (selectInfo ctx clauses)⟩

/-- A return is recorded as a construct when it has values and one of them is an error. -/
theorem constructs_returnTrace (file : FileInfo) (ctx : Context) (pos : Position) (tokens : List Token) :
    (returnTrace file ctx pos tokens).constructs =
      if (Token.commaItems (tokens.drop 1)).isEmpty then []
      else (errorReturn? file ctx pos (Token.commaItems (tokens.drop 1))).toList := by
  rw [returnTrace]
  dsimp only
  split <;> rfl

/-- A return is naked when it has no values and the results are named. -/
theorem nakedReturns_returnTrace (file : FileInfo) (ctx : Context) (pos : Position) (tokens : List Token) :
    (returnTrace file ctx pos tokens).nakedReturns =
      if (Token.commaItems (tokens.drop 1)).isEmpty && ctx.scope.hasNamedResults then [pos] else [] := by
  rw [returnTrace]
  dsimp only
  cases (Token.commaItems (tokens.drop 1)).isEmpty <;> cases ctx.scope.hasNamedResults <;> rfl

/-- What a statement adds itself is what its form gives. -/
theorem forms_iff : c ∈ (ownTrace file ctx s).constructs ↔ Forms file ctx s c := by
  constructor
  · intro h
    cases s with
    | plain place kind tokens literals =>
      cases kind with
      | go =>
        obtain rfl := List.mem_singleton.mp h
        exact .go place tokens literals
      | defer =>
        obtain rfl := List.mem_singleton.mp h
        exact .defer place tokens literals
      | simple => exact .ignored (Option.mem_toList.mp h)
      | «return» =>
        change c ∈ (returnTrace file ctx place.pos tokens).constructs at h
        rw [constructs_returnTrace] at h
        split at h
        · cases h
        · next hvalues => exact .return (fun hnil => hvalues (List.isEmpty_iff.mpr hnil)) (Option.mem_toList.mp h)
      | _ => cases h
    | block => cases h
    | branch place header literals body otherwise =>
      obtain ⟨info, hinfo, rfl⟩ := List.mem_map.mp h
      exact .check (Option.mem_toList.mp hinfo)
    | loop place header literals body =>
      obtain rfl := List.mem_singleton.mp h
      exact .loop place header literals body
    | switch place header literals clauses =>
      rw [ownTrace, Trace.ofConstructs] at h
      dsimp only at h
      split at h
      · next htext =>
        obtain rfl := List.mem_singleton.mp h
        exact .switch htext
      · cases h
    | select place header literals clauses =>
      obtain rfl := List.mem_singleton.mp h
      exact .select place header literals clauses
  · intro h
    cases h with
    | @«return» place tokens literals c hvalues h =>
      change c ∈ (returnTrace file ctx place.pos tokens).constructs
      rw [constructs_returnTrace, if_neg fun hnil => hvalues (List.isEmpty_iff.mp hnil)]
      exact Option.mem_toList.mpr h
    | ignored h => exact Option.mem_toList.mpr h
    | check h => exact List.mem_map_of_mem (Option.mem_toList.mpr h)
    | switch h =>
      rw [ownTrace, if_pos h]
      exact List.mem_singleton_self _
    | _ => exact List.mem_singleton_self _

/-- The kind of a statement that drops the last result of a call. -/
theorem kind_ignored? {tokens : List Token} (h : ignored? file tokens = some c) : c.kind = .errorIgnored := by
  obtain ⟨_, _, _, _, _, -, -, -, rfl⟩ := of_ignored? h
  rfl

/-- No statement is a call by itself. -/
theorem kind_ne_call (h : Forms file ctx s c) : c.kind ≠ .call := by
  intro hkind
  cases h with
  | «return» _ h => cases (place_errorReturn? h).1.symm.trans hkind
  | ignored h => cases (kind_ignored? h).symm.trans hkind
  | _ => cases hkind

/-- A deferred call is recorded exactly at a `defer` statement. -/
theorem forms_defer_iff : Forms file ctx s c ∧ c.kind = .defer ↔ ∃ place tokens literals,
    s = .plain place .defer tokens literals ∧
      c = ⟨file.path, place.pos, place.endLine, .defer (deferInfo ctx tokens)⟩ := by
  constructor
  · rintro ⟨h, hkind⟩
    cases h with
    | defer place tokens literals => exact ⟨place, tokens, literals, rfl, rfl⟩
    | «return» _ h => cases (place_errorReturn? h).1.symm.trans hkind
    | ignored h => cases (kind_ignored? h).symm.trans hkind
    | _ => cases hkind
  · rintro ⟨place, tokens, literals, rfl, rfl⟩
    exact ⟨.defer place tokens literals, rfl⟩

/-- A select is recorded exactly at a `select` statement. -/
theorem forms_select_iff : Forms file ctx s c ∧ c.kind = .select ↔ ∃ place header literals clauses,
    s = .select place header literals clauses ∧
      c = ⟨file.path, place.pos, place.endLine, .select (selectInfo ctx clauses)⟩ := by
  constructor
  · rintro ⟨h, hkind⟩
    cases h with
    | select place header literals clauses => exact ⟨place, header, literals, clauses, rfl, rfl⟩
    | «return» _ h => cases (place_errorReturn? h).1.symm.trans hkind
    | ignored h => cases (kind_ignored? h).symm.trans hkind
    | _ => cases hkind
  · rintro ⟨place, header, literals, clauses, rfl, rfl⟩
    exact ⟨.select place header literals clauses, rfl⟩

/-- A returned error is recorded exactly at a `return` with a value that is one. -/
theorem forms_errorReturn_iff : Forms file ctx s c ∧ c.kind = .errorReturn ↔ ∃ place tokens literals,
    s = .plain place .return tokens literals ∧ Token.commaItems (tokens.drop 1) ≠ [] ∧
      errorReturn? file ctx place.pos (Token.commaItems (tokens.drop 1)) = some c := by
  constructor
  · rintro ⟨h, hkind⟩
    cases h with
    | @«return» place tokens literals _ hvalues h => exact ⟨place, tokens, literals, rfl, hvalues, h⟩
    | ignored h => cases (kind_ignored? h).symm.trans hkind
    | _ => cases hkind
  · rintro ⟨place, tokens, literals, rfl, hvalues, h⟩
    exact ⟨.return hvalues h, (place_errorReturn? h).1⟩

/-- The returns without values are those of a function with named results. -/
theorem mem_nakedReturns_ownTrace {p : Position} :
    p ∈ (ownTrace file ctx s).nakedReturns ↔ ∃ place tokens literals,
    s = .plain place .return tokens literals ∧ Token.commaItems (tokens.drop 1) = [] ∧
      ctx.scope.hasNamedResults = true ∧ p = place.pos := by
  constructor
  · intro h
    cases s with
    | plain place kind tokens literals =>
      cases kind with
      | «return» =>
        change p ∈ (returnTrace file ctx place.pos tokens).nakedReturns at h
        rw [nakedReturns_returnTrace] at h
        split at h
        · next hboth =>
          obtain ⟨hvalues, hnamed⟩ := Bool.and_eq_true_iff.mp hboth
          exact ⟨place, tokens, literals, rfl, List.isEmpty_iff.mp hvalues, hnamed, List.mem_singleton.mp h⟩
        · cases h
      | _ => cases h
    | _ => cases h
  · rintro ⟨place, tokens, literals, rfl, hvalues, hnamed, rfl⟩
    change place.pos ∈ (returnTrace file ctx place.pos tokens).nakedReturns
    rw [nakedReturns_returnTrace, hvalues, hnamed]
    exact List.mem_singleton_self _

/-! ## Returned errors -/

/-- The construct that a returned value is, of which `first` is the first token. -/
def returned (file : FileInfo) (scope : Scope) (guard : Option Guard) (pos : Position) (first : Token)
    (value : List Token) (handling : Handling) : Construct :=
  let errorName := if value.length = 1 && first.isIdent then some first.text else none
  ⟨file.path, first.pos, first.line, .errorReturn
    { handling := handling
      errorName := errorName
      origin := if handling == .bare then errorName.map fun name => scope.origin name pos else none
      guard := guard
      expression := Token.render value
      function := scope.function }⟩

/-- The error that values hand on when a function with a frame returns them: the value for the last result that is
an error, told by what it is, or a single value for all results. -/
inductive HandsOn (file : FileInfo) (scope : Scope) (frame : Frame) (guard : Option Guard) (pos : Position) :
    List (List Token) → Construct → Prop
  | value {values : List (List Token)} {index : Nat} {first : Token} {more : List Token}
      (hindex : frame.errorIndex = some index) (hcount : values.length = frame.results.length)
      (hvalue : values[index]? = some (first :: more)) :
      HandsOn file scope frame guard pos values
        (returned file scope guard pos first (first :: more) (Handling.ofExpression scope.knows (first :: more)))
  | all {index : Nat} {first : Token} {more : List Token}
      (hindex : frame.errorIndex = some index) (hcount : frame.results.length ≠ 1) :
      HandsOn file scope frame guard pos [first :: more]
        (returned file scope guard pos first (first :: more)
          (if (Call.whole? (first :: more)).isSome then .delegated else .other))

/-- The error of a return is handed on by exactly one of its values, as the innermost frame has its
results. -/
theorem handsOn_iff {frame : Frame} (hframe : ctx.scope.frames.head? = some frame) {pos : Position}
    {values : List (List Token)} :
    errorReturn? file ctx pos values = some c ↔ HandsOn file ctx.scope frame ctx.guard pos values c := by
  have hresults : ctx.scope.results = frame.results := by rw [Scope.results, hframe]; rfl
  have hindex : ctx.scope.errorIndex = frame.errorIndex := by rw [Scope.errorIndex, hframe]; rfl
  rw [errorReturn?_eq, hindex]
  constructor
  · intro h
    obtain ⟨⟨value, handling⟩, hchosen, h⟩ := Option.bind_eq_some_iff.mp h
    obtain ⟨index, hindex, hvalue⟩ := Option.bind_eq_some_iff.mp hchosen
    obtain ⟨first, hfirst, rfl⟩ := Option.map_eq_some_iff.mp h
    obtain ⟨more, rfl⟩ : ∃ more, value = first :: more := List.head?_eq_some_iff.mp hfirst
    unfold errorValue? at hvalue
    rw [hresults] at hvalue
    split at hvalue
    · next hcount =>
      obtain ⟨v, hv, hpair⟩ := Option.map_eq_some_iff.mp hvalue
      obtain ⟨rfl, rfl⟩ := Prod.mk.inj hpair
      exact .value hindex hcount hv
    · next hcount =>
      split at hvalue
      · obtain ⟨rfl, rfl⟩ := Prod.mk.inj (Option.some.inj hvalue)
        exact .all hindex (Ne.symm hcount)
      · cases hvalue
  · intro h
    cases h with
    | value hindex hcount hvalue =>
      unfold errorValue?
      rw [hindex, Option.bind_some, hresults, if_pos hcount, hvalue]
      rfl
    | @all index first more hindex hcount =>
      have hlength : ¬ [first :: more].length = frame.results.length := Ne.symm hcount
      unfold errorValue?
      rw [hindex, Option.bind_some, hresults, if_neg hlength]
      rfl

/-- Only values hand on an error. -/
theorem HandsOn.ne_nil {scope : Scope} {frame : Frame} {guard : Option Guard} {pos : Position}
    {values : List (List Token)} (h : HandsOn file scope frame guard pos values c) : values ≠ [] := by
  rintro rfl
  cases h with
  | value _ _ hvalue => cases hvalue

/-! ## Attribution -/

/-- Constructs and returns without values of a function are told by what stands around the statements. -/
structure Attributed (file : FileInfo) (name : String) (receiver : Option Receiver) (frame : Frame)
    (body : List Statement) (found : List Construct) (nakedReturns : List Position) : Prop where
  defers : ∀ c, c ∈ found ∧ c.kind = .defer ↔ ∃ path place tokens literals,
    Within body path (.plain place .defer tokens literals) ∧
      c = ⟨file.path, place.pos, place.endLine, .defer
        { deferInfo (.around ⟨name, receiver, [frame]⟩ path) tokens with loopDepth := Enclosure.loops path }⟩
  selects : ∀ c, c ∈ found ∧ c.kind = .select ↔ ∃ path place header literals clauses,
    Within body path (.select place header literals clauses) ∧
      c = ⟨file.path, place.pos, place.endLine, .select
        { selectInfo (.around ⟨name, receiver, [frame]⟩ path) clauses with
          inLoop := decide (0 < Enclosure.loops path) }⟩
  calls : ∀ c, c ∈ found ∧ c.kind = .call ↔ ∃ path s run call,
    Within body path s ∧ run ∈ s.ownRuns ∧ call ∈ Call.list run ∧
      c = ⟨file.path, call.first.pos, call.first.line, .call
        { Expression.callInfo file (.around ⟨name, receiver, [frame]⟩ path) (s.isPlain .simple) call with
          inLoop := decide (0 < Enclosure.loops path)
          inGoroutine := path.any (·.isLaunched) }⟩
  returns : ∀ c, c ∈ found ∧ c.kind = .errorReturn ↔ ∃ path place tokens literals guard,
    Within body path (.plain place .return tokens literals) ∧
      Guard.IsStrongest guard (Enclosure.guardsOf path) ∧
      HandsOn file (Scope.along ⟨name, receiver, [frame]⟩ path) (Scope.innermost frame path) guard place.pos
        (Token.commaItems (tokens.drop 1)) c
  naked : ∀ p, p ∈ nakedReturns ↔ frame.hasNamedResults = true ∧ ∃ path place tokens literals,
    Within body path (.plain place .return tokens literals) ∧ (∀ e ∈ path, e.isLiteral = false) ∧
      Token.commaItems (tokens.drop 1) = [] ∧ p = place.pos

variable {name : String} {receiver : Option Receiver} {frame : Frame} {body : List Statement} {t : Trace}

/-- The constructs of a kind that expressions do not have are those that statements are. -/
theorem formed_iff (h : walkList file (.ofScope ⟨name, receiver, [frame]⟩) body = .ok t) {kind : ConstructKind}
    (hkind : kind ∉ [ConstructKind.call, .channelMake, .errorConstruct, .errorCompare]) :
    c ∈ t.constructs ∧ c.kind = kind ↔ ∃ path s, Within body path s ∧
      Forms file (.around ⟨name, receiver, [frame]⟩ path) s c ∧ c.kind = kind := by
  rw [mem_constructs_iff h]
  constructor
  · rintro ⟨⟨path, s, hs, hc | ⟨run, -, hc⟩⟩, rfl⟩
    · rw [Context.along_ofScope] at hc
      exact ⟨path, s, hs, forms_iff.mp hc, rfl⟩
    · exact absurd (kind_ofExpression hc) hkind
  · rintro ⟨path, s, hs, hc, rfl⟩
    refine ⟨⟨path, s, hs, Or.inl ?_⟩, rfl⟩
    rw [Context.along_ofScope]
    exact forms_iff.mpr hc

/-- What a walk through the body of a function finds is attributed to the innermost function. -/
theorem attributed_walkList (h : walkList file (.ofScope ⟨name, receiver, [frame]⟩) body = .ok t) :
    Attributed file name receiver frame body t.constructs t.nakedReturns where
  defers c := by
    simp only [formed_iff h (by decide : ConstructKind.defer ∉ _), forms_defer_iff]
    constructor
    · rintro ⟨path, _, hs, place, tokens, literals, rfl, rfl⟩
      exact ⟨path, place, tokens, literals, hs, rfl⟩
    · rintro ⟨path, place, tokens, literals, hs, rfl⟩
      exact ⟨path, _, hs, place, tokens, literals, rfl, rfl⟩
  selects c := by
    simp only [formed_iff h (by decide : ConstructKind.select ∉ _), forms_select_iff]
    constructor
    · rintro ⟨path, _, hs, place, header, literals, clauses, rfl, rfl⟩
      exact ⟨path, place, header, literals, clauses, hs, rfl⟩
    · rintro ⟨path, place, header, literals, clauses, hs, rfl⟩
      exact ⟨path, _, hs, place, header, literals, clauses, rfl, rfl⟩
  calls c := by
    rw [mem_constructs_iff h]
    simp only [Context.along_ofScope]
    constructor
    · rintro ⟨⟨path, s, hs, hc | ⟨run, hrun, hc⟩⟩, hkind⟩
      · exact absurd hkind (kind_ne_call (forms_iff.mp hc))
      · obtain ⟨call, hcall, rfl⟩ := ofExpression_call_iff.mp ⟨hc, hkind⟩
        exact ⟨path, s, run, call, hs, hrun, hcall, rfl⟩
    · rintro ⟨path, s, run, call, hs, hrun, hcall, rfl⟩
      exact ⟨⟨path, s, hs, Or.inr ⟨run, hrun, Or.inl ⟨call, hcall, Or.inl rfl⟩⟩⟩, rfl⟩
  returns c := by
    have hframe (path : List Enclosure) : (Context.around ⟨name, receiver, [frame]⟩ path).scope.frames.head? =
        some (Scope.innermost frame path) := Scope.head?_frames_along name receiver frame path
    simp only [formed_iff h (by decide : ConstructKind.errorReturn ∉ _), forms_errorReturn_iff]
    constructor
    · rintro ⟨path, _, hs, place, tokens, literals, rfl, -, hc⟩
      exact ⟨path, place, tokens, literals, _, hs, Guard.isStrongest_strongest _,
        (handsOn_iff (hframe path)).mp hc⟩
    · rintro ⟨path, place, tokens, literals, guard, hs, hguard, hc⟩
      obtain rfl := hguard.eq_strongest
      exact ⟨path, _, hs, place, tokens, literals, rfl, hc.ne_nil, (handsOn_iff (hframe path)).mpr hc⟩
  naked p := by
    rw [mem_nakedReturns_iff h]
    simp only [Context.along_ofScope, mem_nakedReturns_ownTrace]
    constructor
    · rintro ⟨path, _, hs, hpath, place, tokens, literals, rfl, hvalues, hnamed, rfl⟩
      refine ⟨?_, path, place, tokens, literals, hs, hpath, hvalues, rfl⟩
      rwa [Scope.hasNamedResults, Context.around, Scope.along_of_open hpath] at hnamed
    · rintro ⟨hnamed, path, place, tokens, literals, hs, hpath, hvalues, rfl⟩
      refine ⟨path, _, hs, hpath, place, tokens, literals, rfl, hvalues, ?_, rfl⟩
      rwa [Scope.hasNamedResults, Context.around, Scope.along_of_open hpath]

end Body

/-- What more is found in a function, of kinds that are not attributed, changes nothing. -/
theorem Body.Attributed.append {file : FileInfo} {name : String} {receiver : Option Receiver} {frame : Frame}
    {body : List Statement} {found more : List Construct} {nakedReturns : List Position}
    (h : Attributed file name receiver frame body found nakedReturns)
    (hmore : ∀ c ∈ more, c.kind ∉ [ConstructKind.defer, .select, .call, .errorReturn]) :
    Attributed file name receiver frame body (found ++ more) nakedReturns := by
  have hmem {kind : ConstructKind} (hkind : kind ∈ [ConstructKind.defer, .select, .call, .errorReturn])
      (c : Construct) : c ∈ found ++ more ∧ c.kind = kind ↔ c ∈ found ∧ c.kind = kind := by
    rw [List.mem_append]
    refine and_congr_left fun hc => or_iff_left fun hin => ?_
    exact hmore c hin (hc ▸ hkind)
  exact
    { defers := fun c => (hmem (by decide) c).trans (h.defers c)
      selects := fun c => (hmem (by decide) c).trans (h.selects c)
      calls := fun c => (hmem (by decide) c).trans (h.calls c)
      returns := fun c => (hmem (by decide) c).trans (h.returns c)
      naked := h.naked }

namespace Declaration

open Statement

variable {file : FileInfo} {keyword : Token} {tokens rest : List Token} {found : List Construct}

/-- A walk that a construct could be made of has not failed. -/
theorem ofWalk_eq_ok {w : Walk} {t : Trace} (h : ofWalk w = .ok t) : w = .ok t := by
  cases w with
  | error e => cases h
  | ok u =>
    cases h
    rfl

/-- Source that a construct could be made of has not failed. -/
theorem ofSource_eq_ok {α : Type} {x : Except SourceFault α} {a : α} (h : ofSource x = .ok a) : x = .ok a := by
  cases x with
  | error e => cases h
  | ok b =>
    cases h
    rfl

/-- The statements of a function with the given head, of which there are none without a body. -/
def HasStatements (head : FunctionHead) (statements : List Statement) : Prop :=
  match Block.body? head.close (Token.spanTop (·.isSemi) head.rest).1 with
  | some b => readList (some b.closer) none b.inner = .ok statements
  | none => statements = []

/-- The statements of a function have been walked through, and what was found is told after them. -/
structure WalkedFunction (file : FileInfo) (keyword : Token) (head : FunctionHead) (statements : List Statement)
    (trace : Trace) (info : FunctionInfo) (found : List Construct) : Prop where
  body : HasStatements head statements
  results : info.results = resultsOf (Token.spanTop (·.isSemi) head.rest).1
    (Block.body? head.close (Token.spanTop (·.isSemi) head.rest).1)
  walk : Body.walkList file (.ofScope (scopeOf head info.results statements)) statements = .ok trace
  naked : info.nakedReturns = trace.nakedReturns
  found : ∃ endLine tests, found = trace.constructs ++
    ⟨file.path, keyword.pos, endLine, .function info⟩ :: tests ∧
    ∀ c ∈ tests, c.kind = .testFunction

/-- What is found in a function whose statements have been read. -/
theorem walkedFunction_of_functionConstructs {head : FunctionHead} {statements : List Statement}
    (hstatements : HasStatements head statements)
    (h : functionConstructs file keyword head (Token.spanTop (·.isSemi) head.rest).1
      (Block.body? head.close (Token.spanTop (·.isSemi) head.rest).1) statements = .ok found) :
    ∃ trace info, WalkedFunction file keyword head statements trace info found := by
  rw [functionConstructs_eq] at h
  obtain ⟨trace, htrace, h⟩ := Except.bind_eq_ok.mp h
  obtain rfl := Except.ok.inj h
  refine ⟨trace, _, hstatements, rfl, ofWalk_eq_ok htrace, rfl, _, _, rfl, fun c hc => ?_⟩
  obtain ⟨test, -, rfl⟩ := List.mem_map.mp hc
  rfl

/-- A declared function has been walked through, and the next declaration is behind its semicolon. -/
theorem walkedFunction_of_declaredFunction (h : declaredFunction file keyword tokens = .ok (found, rest)) :
    ∃ head statements trace info, headOf keyword tokens = .ok head ∧
      WalkedFunction file keyword head statements trace info found ∧
      rest = (Token.spanTop (·.isSemi) head.rest).2 := by
  rw [declaredFunction_eq] at h
  obtain ⟨head, hhead, h⟩ := Except.bind_eq_ok.mp h
  dsimp only at h
  have hconstructs : ∃ statements, HasStatements head statements ∧
      (do
        let found ← functionConstructs file keyword head (Token.spanTop (·.isSemi) head.rest).1
          (Block.body? head.close (Token.spanTop (·.isSemi) head.rest).1) statements
        pure (found, (Token.spanTop (·.isSemi) head.rest).2)) = .ok (found, rest) := by
    cases hb : Block.body? head.close (Token.spanTop (·.isSemi) head.rest).1 with
    | some b =>
      rw [hb] at h
      obtain ⟨statements, hstatements, h⟩ := Except.bind_eq_ok.mp h
      refine ⟨statements, ?_, h⟩
      rw [HasStatements, hb]
      exact ofSource_eq_ok hstatements
    | none =>
      rw [hb] at h
      obtain ⟨statements, hstatements, h⟩ := Except.bind_eq_ok.mp h
      refine ⟨statements, ?_, h⟩
      rw [HasStatements, hb]
      exact (Except.ok.inj hstatements).symm
  obtain ⟨statements, hstatements, h⟩ := hconstructs
  obtain ⟨constructs, hconstructs, h⟩ := Except.bind_eq_ok.mp h
  obtain ⟨rfl, rfl⟩ := Prod.mk.inj (Except.ok.inj h)
  obtain ⟨trace, info, hwalked⟩ := walkedFunction_of_functionConstructs hstatements hconstructs
  exact ⟨head, statements, trace, info, hhead, hwalked, rfl⟩

/-- Everything that is found in a declared function is attributed to the innermost function around it. -/
theorem attributed_declaredFunction (h : declaredFunction file keyword tokens = .ok (found, rest)) :
    ∃ head statements info endLine, headOf keyword tokens = .ok head ∧ HasStatements head statements ∧
      ⟨file.path, keyword.pos, endLine, .function info⟩ ∈ found ∧
      Body.Attributed file head.name.text head.receiver
        (Frame.ofBody head.params info.results statements) statements
        found info.nakedReturns := by
  obtain ⟨head, statements, trace, info, hhead, hwalked, -⟩ := walkedFunction_of_declaredFunction h
  obtain ⟨endLine, tests, rfl, htests⟩ := hwalked.found
  refine ⟨head, statements, info, endLine, hhead, hwalked.body, List.mem_append_right _ List.mem_cons_self, ?_⟩
  have hfunction : ConstructKind.function ∉ [ConstructKind.defer, .select, .call, .errorReturn] := by decide
  have htest : ConstructKind.testFunction ∉ [ConstructKind.defer, .select, .call, .errorReturn] := by decide
  rw [hwalked.naked]
  refine (Body.attributed_walkList hwalked.walk).append (List.forall_mem_cons.mpr ⟨hfunction, fun c hc => ?_⟩)
  rw [htests c hc]
  exact htest

/-- A function that defers calls in a loop and in a goroutine that the loop starts. -/
def deferring : String :=
  "func f() (n int, failure error) \x7b\n\tfor \x7b\n\t\tdefer a()\n\t\tgo func() \x7b\n\t\t\tdefer b()\n" ++
    "\t\t\x7d()\n\t\x7d\n\treturn\n\x7d\n"

/-- The depths of the deferred calls, and the flags of the calls. -/
def depthsAndFlags (found : List Construct) : List Nat × List (String × Bool × Bool) :=
  (found.filterMap fun c => match c.detail with
    | .defer info => some info.loopDepth
    | _ => none,
  found.filterMap fun c => match c.detail with
    | .call info => some (info.callee, info.inLoop, info.inGoroutine)
    | _ => none)

/-- Deferred calls in a function and in a literal of it are attributed to their own loops and
goroutines. -/
theorem attributed_deferring : ∃ keyword tokens found rest,
    declaredFunction ⟨"p.go", false, "p"⟩ keyword tokens = .ok (found, rest) ∧
      depthsAndFlags found = ([1, 0], [("a", true, false), ("b", false, true)]) ∧
      ∃ head statements info endLine, headOf keyword tokens = .ok head ∧ HasStatements head statements ∧
        ⟨"p.go", keyword.pos, endLine, .function info⟩ ∈ found ∧
        Body.Attributed ⟨"p.go", false, "p"⟩ head.name.text head.receiver
          (Frame.ofBody head.params info.results statements) statements found info.nakedReturns := by
  have hfound : (tokenize deferring).toOption.bind (fun lexed =>
      (declaredFunction ⟨"p.go", false, "p"⟩ (lexed.tokens.headD default) lexed.tokens.tail).toOption.map
        fun r => depthsAndFlags r.1) = some ([1, 0], [("a", true, false), ("b", false, true)]) := by
    decide +kernel
  obtain ⟨lexed, -, hfound⟩ := Option.bind_eq_some_iff.mp hfound
  cases hread : declaredFunction ⟨"p.go", false, "p"⟩ (lexed.tokens.headD default) lexed.tokens.tail with
  | error e =>
    rw [hread] at hfound
    cases hfound
  | ok r =>
    rw [hread] at hfound
    exact ⟨_, _, r.1, r.2, hread, Option.some.inj hfound, attributed_declaredFunction hread⟩

end Declaration

namespace SourceFile

/-- A loop around a switch, one of whose cases is a call of a function literal. -/
def caseLiteral : String :=
  "package p\n\nfunc f() \x7b\n\tfor \x7b\n\t\tswitch \x7b\n\t\tcase func() bool \x7b return g() \x7d():\n" ++
    "\t\t\x7d\n\t\x7d\n\x7d\n"

/-- The calls of a file that are in a loop. -/
def loopCalls (file : SourceFile) : List (Position × String) :=
  file.constructs.filterMap fun c => match c.detail with
    | .call info => if info.inLoop then some (c.pos, info.callee) else none
    | _ => none

/-- The function literals of a clause header are not cut out of it: the only call stands in the body of a function
literal without a loop, and is told to be in one. -/
theorem misattributed_caseLiteral : ∃ lexed file, tokenize caseLiteral = .ok lexed ∧
    read caseLiteral "p.go" = .ok file ∧
      (∃ keyword rest c g, keyword :: rest <:+ lexed.tokens ∧ LiteralCut.ofKeyword? keyword rest = some c ∧
        c.body.inner.any (·.isKeywordIn ["for", "func"]) = false ∧ g ∈ c.body.inner ∧ g.pos = ⟨6, 29⟩ ∧
        g.text = "g") ∧
      loopCalls file = [(⟨6, 29⟩, "g")] := by
  have hfound : (read caseLiteral "p.go").toOption.map loopCalls = some [(⟨6, 29⟩, "g")] := by decide +kernel
  have hliteral : (tokenize caseLiteral).toOption.map (fun lexed => (lexed.tokens[13]?.bind fun keyword =>
      LiteralCut.ofKeyword? keyword (lexed.tokens.drop 14)).any fun c =>
        !c.body.inner.any (·.isKeywordIn ["for", "func"]) &&
          c.body.inner.any fun g => g.pos = ⟨6, 29⟩ && g.text == "g") = some true := by decide +kernel
  cases hlexed : tokenize caseLiteral with
  | error f =>
    rw [hlexed] at hliteral
    cases hliteral
  | ok lexed =>
    cases hread : read caseLiteral "p.go" with
    | error f =>
      rw [hread] at hfound
      cases hfound
    | ok file =>
      rw [hlexed] at hliteral
      rw [hread] at hfound
      obtain ⟨c, hc, hboth⟩ := (Option.any_eq_true _ _).mp (Option.some.inj hliteral)
      obtain ⟨keyword, hkeyword, hcut⟩ := Option.bind_eq_some_iff.mp hc
      obtain ⟨hfree, hcall⟩ := Bool.and_eq_true_iff.mp hboth
      rw [Bool.not_eq_true'] at hfree
      obtain ⟨g, hg, hplace⟩ := List.any_eq_true.mp hcall
      obtain ⟨hpos, htext⟩ := Bool.and_eq_true_iff.mp hplace
      have hsuffix : keyword :: lexed.tokens.drop 14 <:+ lexed.tokens := by
        obtain ⟨hlength, rfl⟩ := List.getElem?_eq_some_iff.mp hkeyword
        rw [← List.drop_eq_getElem_cons hlength]
        exact List.drop_suffix 13 lexed.tokens
      exact ⟨lexed, file, rfl, rfl, ⟨keyword, _, c, g, hsuffix, hcut, hfree, hg,
        of_decide_eq_true hpos, beq_iff_eq.mp htext⟩, Option.some.inj hfound⟩

end SourceFile

end GoIdiom
