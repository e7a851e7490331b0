import GoIdiom.Proofs.Relocation.Body
import GoIdiom.Proofs.Sites.Statements

/-!
# Sites of constructs in bodies

A walk through statements uses every site that the statements offer at most once in a layer. In the tokens of a
statement the calls, the comparisons and the target that drops a result are told apart by what stands at them.
-/

namespace GoIdiom

namespace Layer

variable {layer : Layer} {p : Position}

/-- The places of returns without values, in the layer they belong to. -/
def leaves : Layer → List Position → List Position
  | .leave, places => places
  | _, _ => []

/-- The places of returns in a row are those of each. -/
theorem leaves_append (ps qs : List Position) : layer.leaves (ps ++ qs) = layer.leaves ps ++ layer.leaves qs := by
  cases layer <;> rfl

/-- Without returns there are no places of returns. -/
theorem leaves_nil : layer.leaves [] = [] := by
  cases layer <;> rfl

/-- How many sites at a place a walk found. -/
def traceAt (layer : Layer) (p : Position) (t : Trace) : Nat :=
  layer.countAt p t.constructs + (layer.leaves t.nakedReturns).count p

/-- The sites of two walks in a row are counted in each. -/
theorem traceAt_append (a b : Trace) : layer.traceAt p (a ++ b) = layer.traceAt p a + layer.traceAt p b := by
  have hconstructs : (a ++ b).constructs = a.constructs ++ b.constructs := rfl
  have hreturns : (a ++ b).nakedReturns = a.nakedReturns ++ b.nakedReturns := rfl
  rw [traceAt, hconstructs, hreturns, countAt_append, leaves_append, List.count_append, traceAt, traceAt]
  omega

/-- A walk that found nothing has no site. -/
theorem traceAt_empty : layer.traceAt p .empty = 0 := by
  rw [traceAt, Trace.empty, leaves_nil]
  rfl

/-- Constructs without returns. -/
theorem traceAt_ofConstructs (cs : List Construct) : layer.traceAt p (.ofConstructs cs) = layer.countAt p cs := by
  rw [traceAt, Trace.ofConstructs, Trace.empty, leaves_nil]
  rfl

/-- Whether calls have sites in the layer. -/
def ofCalls : Layer → Bool
  | .value | .kind .call | .kind .channelMake | .kind .errorConstruct | .kind .errorCompare => true
  | _ => false

/-- How many sites the calls and comparisons of a run offer at a place. -/
def expressionAt (layer : Layer) (p : Position) (tokens : List Token) : Nat :=
  (if layer.ofCalls then Token.countAt p ((Call.list tokens).map (·.first)) else 0) +
    if layer = .kind .errorCompare then Token.countAt p ((Comparison.list tokens).map (·.op)) else 0

/-- Calls and comparisons offer no more sites than their tokens. -/
theorem expressionAt_le (layer : Layer) (p : Position) (tokens : List Token) :
    layer.expressionAt p tokens ≤ Token.countAt p tokens := by
  have h := Call.countAt_firsts_add_ops p tokens
  rw [expressionAt]
  split <;> split <;> omega

end Layer

namespace Walk

variable {layer : Layer} {p : Position} {n m : Nat} {a b : Walk}

/-- A walk that finds at most so many sites at a place. -/
abbrev Takes (layer : Layer) (p : Position) (n : Nat) : Walk → Prop :=
  Outcome (fun t => layer.traceAt p t ≤ n) fun _ => True

/-- One walk after the other. -/
theorem Takes.andThen (ha : Takes layer p n a) (hb : Takes layer p m b) : Takes layer p (n + m) (andThen a b) := by
  refine Outcome.bind ha fun x hx => Outcome.bind hb fun y hy => .ok ?_
  rw [Layer.traceAt_append]
  omega

/-- A walk that finds nothing. -/
theorem Takes.empty : Takes layer p 0 (.ok .empty) := .ok (Nat.le_of_eq Layer.traceAt_empty)

/-- No walks. -/
theorem Takes.nil : Takes layer p 0 (all []) := .empty

/-- Walks one after the other. -/
theorem Takes.cons {ws : List Walk} (ha : Takes layer p n a) (hws : Takes layer p m (all ws)) :
    Takes layer p (n + m) (all (a :: ws)) := ha.andThen hws

/-- A walk that finds given constructs. -/
theorem Takes.found {cs : List Construct} (h : layer.countAt p cs ≤ n) : Takes layer p n (found cs) :=
  .ok (Nat.le_trans (Nat.le_of_eq (Layer.traceAt_ofConstructs cs)) h)

/-- A walk that finds at most one construct, of a plain kind. -/
theorem Takes.plain {cs : List Construct} (pos : Position) (hlength : cs.length ≤ 1)
    (h : ∀ c ∈ cs, c.kind ∈ Layer.plainKinds ∧ c.pos = pos) :
    Takes layer p ([pos].count p) (Walk.found cs) := by
  refine .found ?_
  match cs with
  | [] => exact Nat.zero_le _
  | [c] =>
    obtain ⟨hkind, rfl⟩ := h c (List.mem_singleton_self c)
    rw [Layer.countAt_cons, Layer.countAt_nil]
    exact Layer.count_sites_le hkind
  | _ :: _ :: _ =>
    simp only [List.length_cons] at hlength
    omega

/-- A walk whose trace loses sites at most. -/
theorem Takes.map {g : Trace → Trace} (ha : Takes layer p n a)
    (hg : ∀ t, layer.traceAt p (g t) ≤ layer.traceAt p t) : Takes layer p n (a.map g) :=
  Outcome.map ha fun t ht => Nat.le_trans (hg t) ht

/-- A bound that is larger. -/
theorem Takes.mono (ha : Takes layer p n a) (h : n ≤ m) : Takes layer p m a :=
  Outcome.mono ha fun _ ht => Nat.le_trans ht h

end Walk

namespace Body

open Statement

variable {file : FileInfo} {layer : Layer} {p : Position}

/-! ## Expressions -/

/-- What is special about a call is of one of three kinds. -/
theorem kind_special {ctx : Context} {c : Call} {d : Detail} (h : Expression.special ctx c = .ok (some d)) :
    d.kind ∈ [.channelMake, .errorConstruct, .errorCompare] := by
  have hfound {d' : Detail} (h : (pure (some d') : Except SizeFault (Option Detail)) = .ok (some d))
      (hd' : d'.kind ∈ [.channelMake, .errorConstruct, .errorCompare]) :
      d.kind ∈ [ConstructKind.channelMake, .errorConstruct, .errorCompare] := by
    cases h
    exact hd'
  unfold Expression.special at h
  cases harguments : c.arguments with
  | nil =>
    simp only [harguments] at h
    repeat' split at h
    all_goals first | exact hfound h (by simp [Detail.kind]) | cases h
  | cons type sizes =>
    simp only [harguments] at h
    split at h
    · obtain ⟨channel, -, h⟩ := Except.bind_eq_ok.mp h
      exact hfound h (by simp [Detail.kind])
    · repeat' split at h
      all_goals first | exact hfound h (by simp [Detail.kind]) | cases h

/-- A call, and what it is besides, have one site at most: where the call begins. -/
theorem countAt_call (path : String) (pos : Position) (line : Nat) (info : CallInfo) {more : Option Detail}
    (h : ∀ d ∈ more, d.kind ∈ [.channelMake, .errorConstruct, .errorCompare]) :
    layer.countAt p (⟨path, pos, line, .call info⟩ :: more.toList.map (⟨path, pos, line, ·⟩)) ≤
      if layer.ofCalls then [pos].count p else 0 := by
  have hcall : layer.sites ⟨path, pos, line, .call info⟩ =
      if layer = .kind .call ∨ layer = .value then [pos] else [] := by
    cases layer with
    | kind k => simp only [Layer.kind.injEq, reduceCtorEq, or_false]; rfl
    | _ => simp only [reduceCtorEq, or_true, or_self, if_true, if_false]; rfl
  have hfirst : (if layer = .kind .call ∨ layer = .value then [pos] else []).count p ≤
      if layer.ofCalls then [pos].count p else 0 := by
    split
    · next h => rcases h with rfl | rfl <;> exact Nat.le_refl _
    · exact Nat.zero_le _
  rw [Layer.countAt_cons, hcall]
  cases more with
  | none => exact hfirst
  | some d =>
    have hkind := h d rfl
    have hplain : d.kind ∈ Layer.plainKinds := by
      simp only [List.mem_cons, List.not_mem_nil, or_false] at hkind
      rcases hkind with hkind | hkind | hkind <;> rw [hkind] <;> decide
    rw [Option.toList_some, List.map_singleton, Layer.countAt_cons, Layer.countAt_nil, Layer.sites_of_plain hplain]
    by_cases hlayer : layer = .kind d.kind
    · subst hlayer
      rw [if_pos rfl]
      simp only [List.mem_cons, List.not_mem_nil, or_false] at hkind
      rcases hkind with hkind | hkind | hkind <;> rw [hkind] <;> exact Nat.le_of_eq (Nat.zero_add _)
    · rw [if_neg hlayer]
      exact hfirst

/-- The sites of a call. -/
theorem takes_walkCall (ctx : Context) (isStatement : Bool) (c : Call) :
    Walk.Takes layer p (if layer.ofCalls then [c.first.pos].count p else 0)
      (Expression.walkCall file ctx isStatement c) := by
  rw [Expression.walkCall]
  cases hspecial : Expression.special ctx c with
  | error f => exact .error trivial
  | ok detail =>
    refine .ok ?_
    rw [Layer.traceAt, Trace.empty, Layer.leaves_nil]
    refine countAt_call file.path c.first.pos c.first.line _ fun d hd => ?_
    rw [Option.mem_def.mp hd] at hspecial
    exact kind_special hspecial

/-- The sites of calls one after the other. -/
theorem takes_walkCalls (ctx : Context) (isStatement : Bool) (calls : List Call) :
    Walk.Takes layer p (if layer.ofCalls then Token.countAt p (calls.map (·.first)) else 0)
      (Walk.all (calls.map (Expression.walkCall file ctx isStatement))) := by
  induction calls with
  | nil => exact Walk.Takes.nil.mono (Nat.zero_le _)
  | cons c rest ih =>
    refine ((takes_walkCall ctx isStatement c).cons ih).mono ?_
    rw [List.map_cons, Token.countAt_cons]
    split <;> omega

/-- The sites of comparisons. -/
theorem countAt_comparisons (ctx : Context) (tokens : List Token) :
    layer.countAt p (Expression.comparisons file ctx tokens) ≤
      if layer = .kind .errorCompare then Token.countAt p ((Comparison.list tokens).map (·.op)) else 0 := by
  rw [Expression.comparisons]
  induction Comparison.list tokens with
  | nil => exact Nat.zero_le _
  | cons c rest ih =>
    rw [List.filterMap_cons, List.map_cons, Token.countAt_cons]
    cases Expression.comparisonInfo ctx.function c with
    | none =>
      refine ih.trans ?_
      split <;> omega
    | some info =>
      dsimp only [Option.map_some]
      have hsite : layer.sites ⟨file.path, c.op.pos, c.op.line, .errorCompare info⟩ =
          if layer = .kind .errorCompare then [c.op.pos] else [] :=
        Layer.sites_of_plain (by decide : ConstructKind.errorCompare ∈ Layer.plainKinds)
      rw [Layer.countAt_cons, hsite]
      split at ih
      · next hlayer =>
        rw [if_pos hlayer, if_pos hlayer]
        exact Nat.add_le_add_left ih _
      · next hlayer =>
        rw [if_neg hlayer, if_neg hlayer]
        exact Nat.add_le_add_left ih _

variable (layer p) in
/-- The sites of the constructs in a token run. -/
theorem takes_expression (ctx : Context) (isStatement : Bool) (tokens : List Token) :
    Walk.Takes layer p (layer.expressionAt p tokens) (Expression.walk file ctx isStatement tokens) :=
  (takes_walkCalls ctx isStatement (Call.list tokens)).andThen (.found (countAt_comparisons ctx tokens))

/-! ## Plain statements -/

/-- The calls and comparisons of a plain statement are in its own sites. -/
theorem expressionAt_le_ownAt (place : Place) (tokens : List Token) (literals : List FuncLiteral) :
    layer.expressionAt p tokens ≤ layer.ownAt p place tokens literals := by
  unfold Layer.ownAt
  split
  · exact Nat.zero_le _
  · exact Nat.zero_le _
  · exact Nat.zero_le _
  · exact Nat.zero_le _
  · exact layer.expressionAt_le p tokens

/-- A plain statement that is nothing besides its expressions. -/
theorem traceAt_empty_le (place : Place) (tokens : List Token) (literals : List FuncLiteral) :
    layer.traceAt p .empty + layer.expressionAt p tokens ≤ layer.ownAt p place tokens literals := by
  rw [Layer.traceAt_empty, Nat.zero_add]
  exact expressionAt_le_ownAt place tokens literals

/-- A construct that stands in for a plain statement, in a layer that calls and comparisons have no sites in. -/
theorem countAt_single {c : Construct} (h : c.kind ∈ Layer.plainKinds) {place : Place} {tokens : List Token}
    {literals : List FuncLiteral} (hcalls : layer = .kind c.kind → layer.expressionAt p tokens = 0)
    (hsite : layer = .kind c.kind → [c.pos].count p ≤ layer.ownAt p place tokens literals) :
    layer.countAt p [c] + layer.expressionAt p tokens ≤ layer.ownAt p place tokens literals := by
  have hsites : layer.sites c = if layer = .kind c.kind then [c.pos] else [] := Layer.sites_of_plain h
  rw [Layer.countAt_cons, Layer.countAt_nil, hsites]
  split
  · next hlayer =>
    rw [hcalls hlayer]
    exact hsite hlayer
  · rw [List.count_nil, Nat.add_zero, Nat.zero_add]
    exact expressionAt_le_ownAt place tokens literals

/-- The sites of a go statement: where it begins, and the parameters of the function literal it launches. -/
theorem countAt_go (file : FileInfo) (ctx : Context) (place : Place) (tokens : List Token)
    (literals : List FuncLiteral) :
    layer.countAt p [⟨file.path, place.pos, place.endLine, .go (goInfo ctx tokens literals)⟩] +
      layer.expressionAt p tokens ≤ layer.ownAt p place tokens literals := by
  have hother (h : layer.sites ⟨file.path, place.pos, place.endLine, .go (goInfo ctx tokens literals)⟩ = []) :
      layer.countAt p [⟨file.path, place.pos, place.endLine, .go (goInfo ctx tokens literals)⟩] +
        layer.expressionAt p tokens ≤ layer.ownAt p place tokens literals := by
    rw [Layer.countAt_cons, Layer.countAt_nil, h, List.count_nil, Nat.add_zero, Nat.zero_add]
    exact expressionAt_le_ownAt place tokens literals
  cases layer with
  | kind k =>
    by_cases hk : k = .go
    · subst hk
      exact Nat.le_refl _
    · exact hother (if_neg hk)
  | part => exact Nat.le_of_eq (congrArg (List.count p) (List.append_nil _))
  | _ => exact hother rfl

/-- The construct that a return is, begins at one of the tokens. -/
theorem of_errorReturn? {ctx : Context} {pos : Position} {tokens : List Token} {c : Construct}
    (h : errorReturn? file ctx pos (Token.commaItems (tokens.drop 1)) = some c) :
    c.kind = .errorReturn ∧ ∃ t ∈ tokens, c.pos = t.pos := by
  rw [errorReturn?_eq] at h
  obtain ⟨chosen, hchosen, h⟩ := Option.bind_eq_some_iff.mp h
  obtain ⟨index, -, hvalue⟩ := Option.bind_eq_some_iff.mp hchosen
  obtain ⟨first, hfirst, rfl⟩ := Option.map_eq_some_iff.mp h
  have hmem : chosen.1 ∈ Token.splitCommas (tokens.drop 1) := (List.mem_filter.mp (mem_of_errorValue? hvalue)).1
  have hdrop : first ∈ tokens.drop 1 := Token.mem_of_mem_splitTopFrom hmem (List.mem_of_mem_head? hfirst)
  exact ⟨rfl, first, List.mem_of_mem_drop hdrop, rfl⟩

/-- The blank name is one token. -/
theorem exists_of_isBlankName {ts : List Token} (h : isBlankName ts = true) : ∃ t, ts = [t] ∧ t.text = "_" := by
  unfold isBlankName at h
  split at h
  · next t => exact ⟨t, rfl, beq_iff_eq.mp h⟩
  · cases h

/-- The construct that a statement is which drops the last result of a call, begins at the target in front of the
assignment sign. -/
theorem of_ignored? {tokens : List Token} {c : Construct} (h : ignored? file tokens = some c) :
    ∃ front target sign value info, tokens = front ++ target :: sign :: value ∧ target.text = "_" ∧
      sign.isOpIn [":=", "="] = true ∧ c = ⟨file.path, target.pos, target.line, .errorIgnored info⟩ := by
  unfold ignored? at h
  obtain ⟨a, ha, h⟩ := Option.bind_eq_some_iff.mp h
  obtain ⟨happend, hsign⟩ := Token.append_of_cutAssignmentFrom ha
  dsimp only at h
  split at h
  · obtain ⟨value, -, h⟩ := Option.bind_eq_some_iff.mp h
    obtain ⟨last, hlast, h⟩ := Option.bind_eq_some_iff.mp h
    obtain ⟨first, hfirst, h⟩ := Option.bind_eq_some_iff.mp h
    obtain ⟨whole, -, h⟩ := Option.bind_eq_some_iff.mp h
    obtain ⟨hblank, h⟩ := Option.ite_none_right_eq_some.mp h
    obtain rfl := Option.some.inj h
    obtain ⟨front, hleft⟩ := Token.suffix_of_getLast?_splitTopFrom hlast
    obtain ⟨target, rfl, htext⟩ := exists_of_isBlankName hblank
    obtain rfl := Option.some.inj hfirst
    refine ⟨front, target, a.op, a.right, _, ?_, htext, hsign, rfl⟩
    rw [← happend, ← hleft, List.append_assoc]
    rfl
  · cases h

/-- The sites of a return: an error that it hands on, or the statement itself when it has no values. -/
theorem traceAt_returnTrace (file : FileInfo) (ctx : Context) (place : Place) (tokens : List Token)
    (literals : List FuncLiteral) :
    layer.traceAt p (returnTrace file ctx place.pos tokens) + layer.expressionAt p tokens ≤
      layer.ownAt p place tokens literals := by
  have hnone : 0 + layer.expressionAt p tokens ≤ layer.ownAt p place tokens literals := by
    rw [Nat.zero_add]
    exact expressionAt_le_ownAt place tokens literals
  rw [returnTrace]
  dsimp only
  split
  · split
    · cases layer with
      | leave => exact Nat.le_of_eq (Nat.zero_add _)
      | _ => exact hnone
    · exact traceAt_empty_le place tokens literals
  · rw [Layer.traceAt_ofConstructs]
    cases hreturn : errorReturn? file ctx place.pos (Token.commaItems (tokens.drop 1)) with
    | none => exact hnone
    | some c =>
      obtain ⟨hkind, t, ht, hpos⟩ := of_errorReturn? hreturn
      refine countAt_single (by rw [hkind]; decide) ?_ ?_
      · rw [hkind]
        rintro rfl
        rfl
      · rw [hkind, hpos]
        rintro rfl
        exact Token.count_pos_le ht

/-- The sites of a statement that may drop the last result of a call: the blank name, and the calls. -/
theorem countAt_ignored (file : FileInfo) (place : Place) (tokens : List Token) (literals : List FuncLiteral) :
    layer.countAt p (ignored? file tokens).toList + layer.expressionAt p tokens ≤
      layer.ownAt p place tokens literals := by
  have hnone : 0 + layer.expressionAt p tokens ≤ layer.ownAt p place tokens literals := by
    rw [Nat.zero_add]
    exact expressionAt_le_ownAt place tokens literals
  cases hignored : ignored? file tokens with
  | none => exact hnone
  | some c =>
    obtain ⟨front, target, sign, value, info, rfl, htext, hsign, rfl⟩ := of_ignored? hignored
    have htarget : target.isOp "(" = false := by
      rw [Token.isOp, htext, Bool.and_eq_false_iff]
      exact Or.inr (by decide)
    have hsites := Call.countAt_firsts_add_target p htarget hsign front value
    rw [Option.toList_some, Layer.countAt_cons, Layer.countAt_nil]
    cases layer with
    | kind k =>
      by_cases hk : k = .errorIgnored
      · subst hk
        exact Token.count_pos_le (List.mem_append_right _ List.mem_cons_self)
      · have hnot : (Layer.kind k).sites ⟨file.path, target.pos, target.line, .errorIgnored info⟩ = [] :=
          if_neg hk
        rw [hnot]
        exact hnone
    | value => exact hsites
    | _ => exact hnone

variable (file layer p) in
/-- What a plain statement is besides its expressions, and the expressions, have the statement's own sites. -/
theorem traceAt_plainTrace (ctx : Context) (place : Place) (kind : PlainKind) (tokens : List Token)
    (literals : List FuncLiteral) :
    layer.traceAt p (plainTrace file ctx place kind tokens literals) + layer.expressionAt p tokens ≤
      layer.ownAt p place tokens literals := by
  cases kind with
  | go =>
    rw [plainTrace, Layer.traceAt_ofConstructs]
    exact countAt_go file ctx place tokens literals
  | defer =>
    rw [plainTrace, Layer.traceAt_ofConstructs]
    refine countAt_single (List.contains_iff_mem.mp rfl) ?_ ?_
    · rintro rfl
      rfl
    · rintro rfl
      exact Nat.le_refl _
  | «return» => exact traceAt_returnTrace file ctx place tokens literals
  | simple =>
    rw [plainTrace, Layer.traceAt_ofConstructs]
    exact countAt_ignored file place tokens literals
  | _ => exact traceAt_empty_le place tokens literals

/-! ## Statements -/

variable (layer p)

/-- The construct of a compound statement that has an error for its condition. -/
theorem takes_check (ctx : Context) (place : Place) (condition : List Token) (body : List Statement)
    (hasElse : Bool) :
    Walk.Takes layer p ([place.pos].count p)
      (.found ((errorCheck? ctx condition body hasElse).toList.map fun info =>
        ⟨file.path, place.pos, place.endLine, .errorCheck info⟩)) := by
  refine .plain place.pos ?_ fun c hc => ?_
  · rw [List.length_map]
    exact Option.length_toList_le
  · obtain ⟨info, -, rfl⟩ := List.mem_map.mp hc
    exact ⟨List.contains_iff_mem.mp rfl, rfl⟩

/-- A walk through what lies deeper. -/
theorem takes_atDepth {layer : Layer} {p : Position} {n depth : Nat} {w : Walk} (h : Walk.Takes layer p n w) :
    Walk.Takes layer p n (w.map (Trace.atDepth depth)) := h.map fun _ => Nat.le_refl _

mutual

/-- The sites of the constructs that a walk through a statement finds. -/
theorem takes_walkStatement (ctx : Context) : ∀ s : Statement,
    Walk.Takes layer p (sitesAt layer p s) (walkStatement file ctx s)
  | .plain place kind tokens literals => by
    have hplain := traceAt_plainTrace file layer p ctx place kind tokens literals
    have hown : Walk.Takes layer p _ (.ok (plainTrace file ctx place kind tokens literals)) := .ok (Nat.le_refl _)
    rw [walkStatement]
    refine (hown.cons ((takes_expression layer p ctx _ tokens).cons
      ((takes_walkLiterals ctx _ literals).cons .nil))).mono ?_
    rw [sitesAt]
    omega
  | .block _ body => by
    rw [walkStatement]
    exact takes_walkList ctx body
  | .branch place header literals body otherwise => by
    have hheader := layer.expressionAt_le p header
    rw [walkStatement]
    refine ((takes_expression layer p ctx _ header).cons ((takes_walkLiterals ctx _ literals).cons
      ((takes_check layer p ctx place _ body _).cons ((takes_atDepth (takes_walkList _ body)).cons
        ((takes_walkOther ctx otherwise).cons .nil))))).mono ?_
    rw [sitesAt]
    omega
  | .loop place header literals body => by
    have hheader := layer.expressionAt_le p header
    have hloop : Walk.Takes layer p ([place.pos].count p) (.found [⟨file.path, place.pos, place.endLine,
        .loop ⟨(loopForm header).1, (loopForm header).2, ctx.loopDepth + 1, ctx.function⟩⟩]) :=
      .plain place.pos (Nat.le_refl 1) fun c hc =>
        List.mem_singleton.mp hc ▸ ⟨List.contains_iff_mem.mp rfl, rfl⟩
    rw [walkStatement]
    refine ((takes_expression layer p ctx _ header).cons ((takes_walkLiterals ctx _ literals).cons
      (hloop.cons ((takes_atDepth (takes_walkList _ body)).cons .nil)))).mono ?_
    rw [sitesAt]
    omega
  | .switch place header literals clauses => by
    have hheader := layer.expressionAt_le p header
    rw [walkStatement]
    refine ((takes_expression layer p ctx _ header).cons ((takes_walkLiterals ctx _ literals).cons
      (.cons (.plain place.pos ?_ fun c hc => ?_) ((takes_walkClauses ctx _ clauses).cons .nil)))).mono ?_
    · split
      · exact Nat.le_refl 1
      · exact Nat.zero_le 1
    · split at hc
      · rw [List.mem_singleton.mp hc]
        exact ⟨List.contains_iff_mem.mp rfl, rfl⟩
      · cases hc
    · rw [sitesAt]
      omega
  | .select place header literals clauses => by
    have hheader := layer.expressionAt_le p header
    have hselect : Walk.Takes layer p ([place.pos].count p)
        (.found [⟨file.path, place.pos, place.endLine, .select (selectInfo ctx clauses)⟩]) :=
      .plain place.pos (Nat.le_refl 1) fun c hc =>
        List.mem_singleton.mp hc ▸ ⟨List.contains_iff_mem.mp rfl, rfl⟩
    rw [walkStatement]
    refine ((takes_expression layer p ctx _ header).cons ((takes_walkLiterals ctx _ literals).cons
      (hselect.cons ((takes_walkClauses ctx _ clauses).cons .nil)))).mono ?_
    rw [sitesAt]
    omega

/-- The sites of the constructs that a walk through a statement list finds. -/
theorem takes_walkList (ctx : Context) : ∀ body : List Statement,
    Walk.Takes layer p (listSitesAt layer p body) (walkList file ctx body)
  | [] => .empty
  | s :: rest => by
    rw [walkList, listSitesAt]
    exact (takes_walkStatement ctx s).andThen (takes_walkList ctx rest)

/-- The sites of the constructs that a walk through the other branch finds. -/
theorem takes_walkOther (ctx : Context) : ∀ body : Option (List Statement),
    Walk.Takes layer p (otherSitesAt layer p body) (walkOther file ctx body)
  | none => .empty
  | some body => by
    rw [walkOther, otherSitesAt]
    split
    · exact takes_walkList ctx body
    · exact takes_atDepth (takes_walkList ctx.enter body)

/-- The sites of the constructs that a walk through clauses finds. -/
theorem takes_walkClauses (ctx : Context) (guard : Bool → List Token → Option Guard) : ∀ cs : List Clause,
    Walk.Takes layer p (clauseSitesAt layer p cs) (walkClauses file ctx guard cs)
  | [] => .empty
  | .mk _ isDefault header body :: rest => by
    have hheader := layer.expressionAt_le p header
    rw [walkClauses]
    refine ((takes_expression layer p ctx _ header).cons ((takes_atDepth (takes_walkList _ body)).cons
      ((takes_walkClauses ctx guard rest).cons .nil))).mono ?_
    rw [clauseSitesAt]
    omega

/-- The sites of the constructs that a walk through function literals finds. -/
theorem takes_walkLiterals (ctx : Context) (launchesFirst : Bool) : ∀ ls : List FuncLiteral,
    Walk.Takes layer p (literalSitesAt layer p ls) (walkLiterals file ctx launchesFirst ls)
  | [] => .empty
  | .mk _ _ params results body :: rest => by
    rw [walkLiterals, literalSitesAt]
    refine ((takes_walkList _ body).map fun t => ?_).andThen (takes_walkLiterals ctx false rest)
    rw [Layer.traceAt, Layer.leaves_nil]
    exact Nat.le_add_right _ _

end

end Body

end GoIdiom
