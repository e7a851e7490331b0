import GoIdiom.Proofs.Enclosures.Paths
import GoIdiom.Proofs.Outcome

/-!
# What a walk finds along the ways

A walk through a body finds at every statement, at every depth, what the statement is by itself in the context
that the way to the statement leads to, and nothing else. It is looked at through an observation: the constructs,
or the returns without values, which are not found in function literals.
-/

namespace GoIdiom

/-- What is looked at in the trace of a walk, and whether it is found in function literals. -/
structure Observation (α : Type) where
  of : Trace → List α
  inLiterals : Bool
  of_empty : of .empty = []
  of_append : ∀ a b, of (a ++ b) = of a ++ of b
  of_atDepth : ∀ depth t, of (t.atDepth depth) = of t
  of_literal : ∀ t, of { t with nakedReturns := [] } = if inLiterals then of t else []

namespace Observation

/-- The constructs that are found. -/
def constructs : Observation Construct :=
  ⟨(·.constructs), true, rfl, fun _ _ => rfl, fun _ _ => rfl, fun _ => rfl⟩

/-- The returns without values that are found. -/
def nakedReturns : Observation Position :=
  ⟨(·.nakedReturns), false, rfl, fun _ _ => rfl, fun _ _ => rfl, fun _ => rfl⟩

variable {α : Type} (o : Observation α)

/-- Whether what is looked at is found inside an enclosure. -/
def enters (e : Enclosure) : Bool := o.inLiterals || !e.isLiteral

/-- A trace is put together from some walks: none of them fails, and it holds what they find. -/
structure Gathers (R : Walk → Prop) (t : Trace) : Prop where
  succeed : ∀ e, ¬ R (.error e)
  mem_iff : ∀ a, a ∈ o.of t ↔ ∃ u, R (.ok u) ∧ a ∈ o.of u

/-- A walk that is put together from some walks, if it does not fail. -/
abbrev Collects (R : Walk → Prop) : Walk → Prop := Outcome (o.Gathers R) fun _ => True

variable {o} {R S : Walk → Prop} {a b : Walk} {ws : List Walk}

/-- A walk is put together from itself. -/
theorem Collects.self (w : Walk) : o.Collects (· = w) w := by
  cases w with
  | error e => exact .error trivial
  | ok t =>
    refine .ok ⟨nofun, fun a => ⟨fun h => ⟨t, rfl, h⟩, ?_⟩⟩
    rintro ⟨_, ⟨⟩, h⟩
    exact h

/-- One walk after the other. -/
theorem Collects.andThen (ha : o.Collects R a) (hb : o.Collects S b) :
    o.Collects (fun v => R v ∨ S v) (Walk.andThen a b) := by
  refine Outcome.bind ha fun s hs => Outcome.bind hb fun t ht => .ok ⟨fun e => ?_, fun v => ?_⟩
  · exact not_or.mpr ⟨hs.succeed e, ht.succeed e⟩
  · rw [o.of_append, List.mem_append, hs.mem_iff, ht.mem_iff]
    simp only [or_and_right, exists_or]

/-- A walk that finds nothing. -/
theorem Collects.empty : o.Collects (fun _ => False) (.ok .empty) := by
  refine .ok ⟨fun _ => not_false, fun v => ?_⟩
  rw [o.of_empty, List.mem_nil_iff]
  simp only [false_and, exists_false]

/-- No walk at all. -/
theorem Collects.nil : o.Collects (fun _ => False) (Walk.all []) := .empty

/-- Walks one after the other. -/
theorem Collects.cons (ha : o.Collects R a) (hws : o.Collects S (Walk.all ws)) :
    o.Collects (fun v => R v ∨ S v) (Walk.all (a :: ws)) := ha.andThen hws

/-- A walk through what lies deeper. -/
theorem Collects.atDepth (ha : o.Collects R a) (depth : Nat) : o.Collects R (a.map (Trace.atDepth depth)) :=
  Outcome.map ha fun t ht => ⟨ht.succeed, fun v => by rw [o.of_atDepth, ht.mem_iff]⟩

/-- A walk through a function literal. -/
theorem Collects.literal (ha : o.Collects R a) (depth : Nat) :
    o.Collects (fun v => o.inLiterals = true ∧ R v)
      (a.map fun t => { t.atDepth depth with nakedReturns := [] }) := by
  refine Outcome.map ha fun t ht => ⟨fun e he => ht.succeed e he.2, fun v => ?_⟩
  rw [o.of_literal, o.of_atDepth]
  split
  · next hin => simp only [ht.mem_iff, hin, true_and]
  · next hin => exact iff_of_false List.not_mem_nil fun ⟨u, h, _⟩ => hin h.1

/-- The same walks told in another way. -/
theorem Collects.congr (ha : o.Collects R a) (h : ∀ v, R v ↔ S v) : o.Collects S a := by
  obtain rfl : R = S := funext fun v => propext (h v)
  exact ha

/-- A walk that finds nothing may be added. -/
theorem Collects.skip (ha : o.Collects R a) : o.Collects (fun v => v = .ok .empty ∨ R v) a := by
  refine Outcome.mono ha fun t ht => ⟨fun e => not_or.mpr ⟨nofun, ht.succeed e⟩, fun x => ?_⟩
  rw [ht.mem_iff]
  constructor
  · rintro ⟨u, hu, hx⟩
    exact ⟨u, Or.inr hu, hx⟩
  · rintro ⟨u, ⟨⟨⟩⟩ | hu, hx⟩
    · rw [o.of_empty] at hx
      cases hx
    · exact ⟨u, hu, hx⟩

/-- Some walks one after the other. -/
theorem Collects.all (ws : List Walk) : o.Collects (· ∈ ws) (Walk.all ws) := by
  induction ws with
  | nil => exact Collects.nil.congr fun v => (List.mem_nil_iff v).symm
  | cons w rest ih => exact ((Collects.self w).cons ih).congr fun v => List.mem_cons.symm

end Observation

namespace Body

open Statement Observation

/-! ## What statements are by themselves -/

/-- What a statement is by itself, its expressions left out. -/
def ownTrace (file : FileInfo) (ctx : Context) : Statement → Trace
  | .plain place kind tokens literals => plainTrace file ctx place kind tokens literals
  | .block .. => .empty
  | .branch place header _ body otherwise =>
    .ofConstructs ((errorCheck? ctx ((Token.splitSemis header).getLastD []) body
      otherwise.isSome).toList.map fun info => ⟨file.path, place.pos, place.endLine, .errorCheck info⟩)
  | .loop place header _ _ =>
    .ofConstructs [⟨file.path, place.pos, place.endLine,
      .loop ⟨(loopForm header).1, (loopForm header).2, ctx.loopDepth + 1, ctx.function⟩⟩]
  | .switch place header _ _ =>
    .ofConstructs (if Text.endsWith (Token.render (subject header).tag) ".Error()" then
      [⟨file.path, place.pos, place.pos.line,
        .errorCompare ⟨.string, "switch", Token.render (subject header).tag, ctx.function⟩⟩]
    else [])
  | .select place _ _ clauses =>
    .ofConstructs [⟨file.path, place.pos, place.endLine, .select (selectInfo ctx clauses)⟩]

/-- The walks through a statement itself, the statements inside it left out: what it is, and its expressions. -/
def ownWalks (file : FileInfo) (ctx : Context) (s : Statement) : List Walk :=
  .ok (ownTrace file ctx s) :: s.ownRuns.map (Expression.walk file ctx (s.isPlain .simple))

/-- A statement without blocks is walked for itself and for its expressions. -/
theorem ownWalks_of_plain (file : FileInfo) (ctx : Context) (place : Place) (kind : PlainKind) (tokens : List Token)
    (literals : List FuncLiteral) :
    ownWalks file ctx (.plain place kind tokens literals) =
      [.ok (plainTrace file ctx place kind tokens literals), Expression.walk file ctx (kind == .simple) tokens] :=
  rfl

/-- Any other statement is walked for itself, its tokens and the headers of its clauses. -/
theorem ownWalks_of_not_simple {file : FileInfo} {ctx : Context} {s : Statement} (h : s.isPlain .simple = false) :
    ownWalks file ctx s = .ok (ownTrace file ctx s) :: Expression.walk file ctx false s.tokens ::
      (s.clauses.map (·.header)).map (Expression.walk file ctx false) := by
  rw [ownWalks, h]
  rfl

/-! ## Ways to statements -/

variable {α : Type} (o : Observation α) (file : FileInfo)

/-- The walks through the statements of a body themselves, each in the context that the way to it leads to. -/
def WalkedIn (ctx : Context) (body : List Statement) (v : Walk) : Prop :=
  ∃ path s, Within body path s ∧ path.all o.enters = true ∧ v ∈ ownWalks file (ctx.along path) s

/-- The walks through the statements of some enclosed bodies. -/
def WalkedBelow (ctx : Context) (parts : List (Enclosure × List Statement)) (v : Walk) : Prop :=
  ∃ part ∈ parts, o.enters part.1 = true ∧ WalkedIn o file (part.1.into ctx) part.2 v

variable {o file} {ctx : Context} {v : Walk}

/-- Nothing is walked in an empty body. -/
theorem walkedIn_nil : WalkedIn o file ctx [] v ↔ False := by
  refine iff_false_intro ?_
  rintro ⟨path, s, h, -⟩
  cases path with
  | nil => exact List.not_mem_nil (within_nil.mp h)
  | cons e path =>
    obtain ⟨t, ht, -⟩ := within_cons.mp h
    exact List.not_mem_nil ht

/-- What is found in a body is found at its first statement, below it or in the others. -/
theorem walkedIn_cons {s : Statement} {rest : List Statement} :
    WalkedIn o file ctx (s :: rest) v ↔
      (v ∈ ownWalks file ctx s ∨ WalkedBelow o file ctx s.enclosed v) ∨ WalkedIn o file ctx rest v := by
  constructor
  · rintro ⟨path, t, h, henters, hown⟩
    cases path with
    | nil =>
      rcases List.mem_cons.mp (within_nil.mp h) with rfl | hrest
      · exact Or.inl (Or.inl hown)
      · exact Or.inr ⟨[], t, within_nil.mpr hrest, rfl, hown⟩
    | cons e path =>
      obtain ⟨u, hu, inner, he, hin⟩ := within_cons.mp h
      rcases List.mem_cons.mp hu with rfl | hrest
      · obtain ⟨hfirst, hmore⟩ := Bool.and_eq_true_iff.mp henters
        exact Or.inl (Or.inr ⟨(e, inner), he, hfirst, path, t, hin, hmore, hown⟩)
      · exact Or.inr ⟨e :: path, t, within_cons.mpr ⟨u, hrest, inner, he, hin⟩, henters, hown⟩
  · rintro ((hown | ⟨⟨e, inner⟩, he, hfirst, path, t, h, hmore, hown⟩) | ⟨path, t, h, henters, hown⟩)
    · exact ⟨[], s, within_nil.mpr List.mem_cons_self, rfl, hown⟩
    · exact ⟨e :: path, t, within_cons.mpr ⟨s, List.mem_cons_self, inner, he, h⟩,
        Bool.and_eq_true_iff.mpr ⟨hfirst, hmore⟩, hown⟩
    · cases path with
      | nil => exact ⟨[], t, within_nil.mpr (List.mem_cons_of_mem s (within_nil.mp h)), rfl, hown⟩
      | cons e path =>
        obtain ⟨u, hu, inner, he, h⟩ := within_cons.mp h
        exact ⟨e :: path, t, within_cons.mpr ⟨u, List.mem_cons_of_mem s hu, inner, he, h⟩, henters, hown⟩

/-- Nothing is walked below a statement that encloses nothing. -/
theorem walkedBelow_nil : WalkedBelow o file ctx [] v ↔ False := by simp [WalkedBelow]

/-- What is walked below a statement is walked in its first enclosed body, if that is entered, or in the
others. -/
theorem walkedBelow_cons {part : Enclosure × List Statement} {parts : List (Enclosure × List Statement)} :
    WalkedBelow o file ctx (part :: parts) v ↔
      (o.enters part.1 = true ∧ WalkedIn o file (part.1.into ctx) part.2 v) ∨
      WalkedBelow o file ctx parts v := by
  simp [WalkedBelow]

/-- What is found below an enclosure that is no function literal. -/
theorem walkedBelow_cons_of (e : Enclosure) (h : e.isLiteral = false) {body : List Statement}
    {parts : List (Enclosure × List Statement)} :
    WalkedBelow o file ctx ((e, body) :: parts) v ↔
      WalkedIn o file (e.into ctx) body v ∨ WalkedBelow o file ctx parts v := by
  rw [walkedBelow_cons, enters, h, Bool.not_false, Bool.or_true]
  exact or_congr_left (and_iff_right rfl)

/-- What is walked below two kinds of bodies is walked below one of them. -/
theorem walkedBelow_append {parts more : List (Enclosure × List Statement)} :
    WalkedBelow o file ctx (parts ++ more) v ↔
      WalkedBelow o file ctx parts v ∨ WalkedBelow o file ctx more v := by
  simp only [WalkedBelow, List.mem_append, or_and_right, exists_or]

/-! ## The walk -/

variable (o file)

mutual

/-- What a walk through a statement finds. -/
theorem collects_walkStatement (ctx : Context) : ∀ s : Statement,
    o.Collects (fun v => v ∈ ownWalks file ctx s ∨ WalkedBelow o file ctx s.enclosed v)
      (walkStatement file ctx s)
  | .plain place kind tokens literals => by
    rw [walkStatement]
    refine ((Collects.self _).cons ((Collects.self _).cons
      ((collects_walkLiterals ctx _ literals).cons .nil))).congr fun v => ?_
    rw [ownWalks_of_plain]
    simp only [enclosed, List.mem_cons, List.not_mem_nil, or_false, or_assoc]
  | .block place body => by
    rw [walkStatement]
    refine (collects_walkList ctx body).skip.skip.congr fun v => ?_
    have hown : ownWalks file ctx (.block place body) = [.ok .empty, .ok .empty] := rfl
    simp only [hown, enclosed, List.mem_cons, List.not_mem_nil, walkedBelow_cons_of .block rfl, walkedBelow_nil,
      or_false, or_assoc, Enclosure.into]
  | .branch place header literals body otherwise => by
    rw [walkStatement]
    refine ((Collects.self _).cons ((collects_walkLiterals ctx _ literals).cons ((Collects.self _).cons
      (((collects_walkList _ body).atDepth _).cons
        ((collects_walkOther ctx otherwise).cons .nil))))).congr fun v => ?_
    rw [ownWalks_of_not_simple rfl]
    simp only [enclosed, Statement.tokens, Statement.clauses, List.map_nil, List.mem_cons, List.not_mem_nil,
      walkedBelow_append, walkedBelow_cons_of (.branch header) rfl, or_false, Enclosure.into,
      Enclosure.headerGuards, Guard.strongest_cons]
    exact iff_of_eq (by ac_rfl)
  | .loop place header literals body => by
    rw [walkStatement]
    refine ((Collects.self _).cons ((collects_walkLiterals ctx _ literals).cons ((Collects.self _).cons
      (((collects_walkList _ body).atDepth _).cons .nil)))).congr fun v => ?_
    rw [ownWalks_of_not_simple rfl]
    simp only [enclosed, Statement.tokens, Statement.clauses, List.map_nil, List.mem_cons, List.not_mem_nil,
      walkedBelow_append, walkedBelow_cons_of (.loop header) rfl, walkedBelow_nil, or_false, Enclosure.into]
    exact iff_of_eq (by ac_rfl)
  | .switch place header literals clauses => by
    rw [walkStatement]
    refine ((Collects.self _).cons ((collects_walkLiterals ctx _ literals).cons ((Collects.self _).cons
      ((collects_walkClauses ctx _ (.clause (subject header)) (fun _ _ => ⟨rfl, rfl⟩) clauses).cons
        .nil)))).congr fun v => ?_
    rw [ownWalks_of_not_simple rfl]
    simp only [enclosed, Statement.tokens, Statement.clauses, List.map_map, List.mem_cons,
      walkedBelow_append, or_false]
    exact iff_of_eq (by ac_rfl)
  | .select place header literals clauses => by
    rw [walkStatement]
    refine ((Collects.self _).cons ((collects_walkLiterals ctx _ literals).cons ((Collects.self _).cons
      ((collects_walkClauses ctx _ (fun _ _ => .communication) (fun _ _ => ⟨rfl, rfl⟩) clauses).cons
        .nil)))).congr fun v => ?_
    rw [ownWalks_of_not_simple rfl]
    simp only [enclosed, Statement.tokens, Statement.clauses, List.map_map, List.mem_cons,
      walkedBelow_append, or_false]
    exact iff_of_eq (by ac_rfl)

/-- What a walk through a statement list finds. -/
theorem collects_walkList (ctx : Context) : ∀ body : List Statement,
    o.Collects (WalkedIn o file ctx body) (walkList file ctx body)
  | [] => Collects.empty.congr fun v => walkedIn_nil.symm
  | s :: rest => by
    rw [walkList]
    refine ((collects_walkStatement ctx s).andThen (collects_walkList ctx rest)).congr fun v => ?_
    exact walkedIn_cons.symm

/-- What a walk through the other branch finds. -/
theorem collects_walkOther (ctx : Context) : ∀ body : Option (List Statement),
    o.Collects (WalkedBelow o file ctx (otherBodies body)) (walkOther file ctx body)
  | none => Collects.empty.congr fun v => walkedBelow_nil.symm
  | some body => by
    have hother (v : Walk) : WalkedBelow o file ctx (otherBodies (some body)) v ↔
        WalkedIn o file (if isElseIf body then ctx else ctx.enter) body v := by
      rw [otherBodies, walkedBelow_cons_of _ rfl, walkedBelow_nil, or_false, Enclosure.into]
    rw [walkOther]
    split
    · next hbranch =>
      refine (collects_walkList ctx body).congr fun v => ?_
      rw [hother, if_pos hbranch]
    · next hbranch =>
      refine ((collects_walkList ctx.enter body).atDepth _).congr fun v => ?_
      rw [hother, if_neg hbranch]

/-- What a walk through clauses finds, whose enclosures lead to the guarded contexts. -/
theorem collects_walkClauses (ctx : Context) (guard : Bool → List Token → Option Guard)
    (enclosure : Bool → List Token → Enclosure)
    (h : ∀ isDefault header, (enclosure isDefault header).isLiteral = false ∧
      (enclosure isDefault header).into ctx = ctx.enterGuarded (guard isDefault header)) : ∀ cs : List Clause,
    o.Collects (fun v => (v ∈ cs.map fun c => Expression.walk file ctx false c.header) ∨
      WalkedBelow o file ctx (clauseBodies enclosure cs) v) (walkClauses file ctx guard cs)
  | [] => Collects.empty.congr fun v => by
    simp only [List.map_nil, clauseBodies, List.not_mem_nil, walkedBelow_nil, false_or]
  | .mk _ isDefault header body :: rest => by
    obtain ⟨hopen, hinto⟩ := h isDefault header
    rw [walkClauses]
    refine ((Collects.self _).cons (((collects_walkList _ body).atDepth _).cons
      ((collects_walkClauses ctx guard enclosure h rest).cons .nil))).congr fun v => ?_
    simp only [List.map_cons, clauseBodies, List.mem_cons, walkedBelow_cons_of _ hopen, hinto, or_false,
      Clause.header]
    exact iff_of_eq (by ac_rfl)

/-- What a walk through function literals finds. -/
theorem collects_walkLiterals (ctx : Context) (launchesFirst : Bool) : ∀ ls : List FuncLiteral,
    o.Collects (WalkedBelow o file ctx (literalBodies launchesFirst ls)) (walkLiterals file ctx launchesFirst ls)
  | [] => Collects.empty.congr fun v => walkedBelow_nil.symm
  | .mk _ _ params results body :: rest => by
    rw [walkLiterals]
    refine (((collects_walkList _ body).literal _).andThen (collects_walkLiterals ctx false rest)).congr fun v => ?_
    rw [literalBodies, walkedBelow_cons, enters, Enclosure.isLiteral, Bool.not_true, Bool.or_false]
    exact Iff.rfl

end

/-! ## Constructs and returns without values -/

variable {file} {body : List Statement} {t : Trace} {isStatement : Bool} {run : List Token}

/-- A call and what it is besides a call. -/
def OfCall (file : FileInfo) (ctx : Context) (isStatement : Bool) (call : Call) (c : Construct) : Prop :=
  c = ⟨file.path, call.first.pos, call.first.line, .call (Expression.callInfo file ctx isStatement call)⟩ ∨
    ∃ detail, Expression.special ctx call = .ok (some detail) ∧
    c = ⟨file.path, call.first.pos, call.first.line, detail⟩

/-- The constructs of a token run: its calls, what they are besides, and its comparisons. -/
def OfExpression (file : FileInfo) (ctx : Context) (isStatement : Bool) (run : List Token) (c : Construct) : Prop :=
  (∃ call ∈ Call.list run, OfCall file ctx isStatement call c) ∨ c ∈ Expression.comparisons file ctx run

/-- The constructs of a statement itself: what it is, and those of its own runs. -/
def OfStatement (file : FileInfo) (ctx : Context) (s : Statement) (c : Construct) : Prop :=
  c ∈ (ownTrace file ctx s).constructs ∨ ∃ run ∈ s.ownRuns, OfExpression file ctx (s.isPlain .simple) run c

/-- A walk over a call finds exactly what the call gives. -/
theorem ofCall_iff {call : Call} (h : Expression.walkCall file ctx isStatement call = .ok t) (c : Construct) :
    c ∈ t.constructs ↔ OfCall file ctx isStatement call c := by
  obtain ⟨more, hmore, h⟩ := Except.bind_eq_ok.mp h
  obtain rfl := Except.ok.inj h
  rw [List.mem_cons, OfCall, hmore]
  refine or_congr_right ?_
  cases more <;> simp

/-- A walk over a run finds exactly what its expressions give. -/
theorem ofExpression_iff (h : Expression.walk file ctx isStatement run = .ok t) (c : Construct) :
    c ∈ t.constructs ↔ OfExpression file ctx isStatement run c := by
  have hcollects : constructs.Collects _ (Expression.walk file ctx isStatement run) :=
    (Collects.all ((Call.list run).map (Expression.walkCall file ctx isStatement))).andThen
      (.self (Walk.found (Expression.comparisons file ctx run)))
  have hgathers := (h ▸ hcollects).of_ok
  refine (hgathers.mem_iff c).trans ⟨?_, ?_⟩
  · rintro ⟨u, hu | hu, hc⟩
    · obtain ⟨call, hcall, hwalk⟩ := List.mem_map.mp hu
      exact Or.inl ⟨call, hcall, (ofCall_iff hwalk c).mp hc⟩
    · obtain rfl := Except.ok.inj hu
      exact Or.inr hc
  · rintro (⟨call, hcall, hc⟩ | hc)
    · have hmem : Expression.walkCall file ctx isStatement call ∈
        (Call.list run).map (Expression.walkCall file ctx isStatement) := List.mem_map_of_mem hcall
      cases hwalk : Expression.walkCall file ctx isStatement call with
      | error e => exact absurd (Or.inl (hwalk ▸ hmem)) (hgathers.succeed e)
      | ok u => exact ⟨u, Or.inl (hwalk ▸ hmem), (ofCall_iff hwalk c).mpr hc⟩
    · exact ⟨_, Or.inr rfl, hc⟩

/-- An expression is no return. -/
theorem nakedReturns_expression (h : Expression.walk file ctx isStatement run = .ok t) : t.nakedReturns = [] := by
  have hcollects : nakedReturns.Collects _ (Expression.walk file ctx isStatement run) :=
    (Collects.all ((Call.list run).map (Expression.walkCall file ctx isStatement))).andThen
      (.self (Walk.found (Expression.comparisons file ctx run)))
  refine List.eq_nil_iff_forall_not_mem.mpr fun p hp => ?_
  obtain ⟨u, hu | hu, hp⟩ := ((h ▸ hcollects).of_ok.mem_iff p).mp hp
  · obtain ⟨call, -, hwalk⟩ := List.mem_map.mp hu
    obtain ⟨more, -, hwalk⟩ := Except.bind_eq_ok.mp hwalk
    obtain rfl := Except.ok.inj hwalk
    cases hp
  · obtain rfl := Except.ok.inj hu
    cases hp

/-- The constructs of a body are those of its statements at every depth, each in the context that the way to it
leads to. -/
theorem mem_constructs_iff (h : walkList file ctx body = .ok t) (c : Construct) :
    c ∈ t.constructs ↔ ∃ path s, Within body path s ∧ OfStatement file (ctx.along path) s c := by
  have hgathers := (h ▸ collects_walkList constructs file ctx body).of_ok
  have henters (path : List Enclosure) : path.all constructs.enters = true := List.all_eq_true.mpr fun _ _ => rfl
  refine (hgathers.mem_iff c).trans ⟨?_, ?_⟩
  · rintro ⟨u, ⟨path, s, hs, -, hu⟩, hc⟩
    refine ⟨path, s, hs, ?_⟩
    rcases List.mem_cons.mp hu with hu | hu
    · obtain rfl := Except.ok.inj hu
      exact Or.inl hc
    · obtain ⟨run, hrun, hwalk⟩ := List.mem_map.mp hu
      exact Or.inr ⟨run, hrun, (ofExpression_iff hwalk c).mp hc⟩
  · rintro ⟨path, s, hs, hc | ⟨run, hrun, hc⟩⟩
    · exact ⟨_, ⟨path, s, hs, henters path, List.mem_cons_self⟩, hc⟩
    · have hmem : Expression.walk file (ctx.along path) (s.isPlain .simple) run ∈
          ownWalks file (ctx.along path) s :=
        List.mem_cons_of_mem _ (List.mem_map_of_mem hrun)
      cases hwalk : Expression.walk file (ctx.along path) (s.isPlain .simple) run with
      | error e => exact absurd ⟨path, s, hs, henters path, hwalk ▸ hmem⟩ (hgathers.succeed e)
      | ok u => exact ⟨u, ⟨path, s, hs, henters path, hwalk ▸ hmem⟩, (ofExpression_iff hwalk c).mpr hc⟩

/-- The returns without values of a body are those of its statements outside function literals. -/
theorem mem_nakedReturns_iff (h : walkList file ctx body = .ok t) (p : Position) :
    p ∈ t.nakedReturns ↔ ∃ path s, Within body path s ∧ (∀ e ∈ path, e.isLiteral = false) ∧
      p ∈ (ownTrace file (ctx.along path) s).nakedReturns := by
  have hgathers := (h ▸ collects_walkList nakedReturns file ctx body).of_ok
  have henters (path : List Enclosure) :
      path.all nakedReturns.enters = true ↔ ∀ e ∈ path, e.isLiteral = false := by
    simp [enters, nakedReturns]
  refine (hgathers.mem_iff p).trans ⟨?_, ?_⟩
  · rintro ⟨u, ⟨path, s, hs, hpath, hu⟩, hp⟩
    refine ⟨path, s, hs, (henters path).mp hpath, ?_⟩
    rcases List.mem_cons.mp hu with hu | hu
    · obtain rfl := Except.ok.inj hu
      exact hp
    · obtain ⟨run, -, hwalk⟩ := List.mem_map.mp hu
      have hnone := nakedReturns_expression hwalk
      change p ∈ u.nakedReturns at hp
      rw [hnone] at hp
      cases hp
  · rintro ⟨path, s, hs, hpath, hp⟩
    exact ⟨_, ⟨path, s, hs, (henters path).mpr hpath, List.mem_cons_self⟩, hp⟩

end Body

end GoIdiom
