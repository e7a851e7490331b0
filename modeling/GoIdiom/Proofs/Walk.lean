import GoIdiom.Construct.Body
import GoIdiom.Proofs.Runs.Statements

/-!
# Where constructs in bodies come from

A walk through statements finds constructs at a few kinds of sites only, and at each of them from the
token runs of the statements. It fails only on the size of a channel that a call in such a run makes.
-/

namespace GoIdiom

open Token

/-- A call that makes a channel and writes a size that cannot be read. -/
def Call.HasBadSize (c : Call) (f : SizeFault) : Prop :=
  ∃ type size more, c.name = "make" ∧ c.arguments = type :: [size] :: more ∧
    type.head?.any (·.isKeyword "chan") = true ∧ Expression.size? size = .error f

namespace Walk

/-- A walk all of whose constructs have one property, and whose fault has another. -/
abbrev Finds (P : Construct → Prop) (E : SizeFault → Prop) : Walk → Prop :=
  Outcome (fun t => ∀ c ∈ t.constructs, P c) E

variable {P : Construct → Prop} {E : SizeFault → Prop} {a b : Walk}

/-- One walk after the other. -/
theorem Finds.andThen (ha : Finds P E a) (hb : Finds P E b) : Finds P E (andThen a b) := by
  refine Outcome.bind ha fun x hx => Outcome.bind hb fun y hy => .ok ?_
  exact List.forall_mem_append.mpr ⟨hx, hy⟩

/-- A walk that finds nothing. -/
theorem Finds.empty : Finds P E (.ok Trace.empty) := .ok fun _ hc => absurd hc List.not_mem_nil

/-- Walks one after the other. -/
theorem Finds.all {ws : List Walk} (h : ∀ w ∈ ws, Finds P E w) : Finds P E (all ws) := by
  induction ws with
  | nil => exact .empty
  | cons w rest ih =>
    obtain ⟨hw, hrest⟩ := List.forall_mem_cons.mp h
    exact hw.andThen (ih hrest)

/-- A walk that finds given constructs. -/
theorem Finds.found {cs : List Construct} (h : ∀ c ∈ cs, P c) : Finds P E (found cs) := .ok h

/-- A walk whose trace is changed apart from its constructs. -/
theorem Finds.map {g : Trace → Trace} (ha : Finds P E a) (hg : ∀ t, (g t).constructs = t.constructs) :
    Finds P E (a.map g) := by
  refine Outcome.map ha fun t ht => ?_
  rw [hg]
  exact ht

end Walk

namespace Body

open Statement

variable {file : FileInfo} {all : List Token}

/-- The constructs that are found at the sites of a body whose runs are runs of a list. -/
inductive Emits (file : FileInfo) (all : List Token) : Construct → Prop
  | plain (ctx : Context) (place : Place) (kind : PlainKind) {tokens : List Token} (literals : List FuncLiteral)
      (h : Run all tokens) {c : Construct}
      (hc : c ∈ (plainTrace file ctx place kind tokens literals).constructs) :
      Emits file all c
  | call (ctx : Context) (isStatement : Bool) {tokens : List Token} (h : Run all tokens) {c : Call}
      (hc : c ∈ Call.list tokens) :
      Emits file all ⟨file.path, c.first.pos, c.first.line, .call (Expression.callInfo file ctx isStatement c)⟩
  | special (ctx : Context) {tokens : List Token} (h : Run all tokens) {c : Call} (hc : c ∈ Call.list tokens)
      {detail : Detail} (hdetail : Expression.special ctx c = .ok (some detail)) :
      Emits file all ⟨file.path, c.first.pos, c.first.line, detail⟩
  | comparison (ctx : Context) {tokens : List Token} (h : Run all tokens) {c : Construct}
      (hc : c ∈ Expression.comparisons file ctx tokens) : Emits file all c
  | check (ctx : Context) (place : Place) (condition : List Token) (body : List Statement) (hasElse : Bool)
      {info : ErrorCheckInfo} (h : errorCheck? ctx condition body hasElse = some info) :
      Emits file all ⟨file.path, place.pos, place.endLine, .errorCheck info⟩
  | loop (ctx : Context) (place : Place) {header : List Token} (h : Run all header) :
      Emits file all ⟨file.path, place.pos, place.endLine,
        .loop ⟨(loopForm header).1, (loopForm header).2, ctx.loopDepth + 1, ctx.function⟩⟩
  | switch (ctx : Context) (place : Place) {header : List Token} (h : Run all header) :
      Emits file all ⟨file.path, place.pos, place.pos.line,
        .errorCompare ⟨.string, "switch", Token.render (subject header).tag, ctx.function⟩⟩
  | select (ctx : Context) (place : Place) (clauses : List Clause) :
      Emits file all ⟨file.path, place.pos, place.endLine, .select (selectInfo ctx clauses)⟩

/-- A fault on the size of a channel that a call in a run of a list makes. -/
def Refuses (all : List Token) (f : SizeFault) : Prop :=
  ∃ tokens, Run all tokens ∧ ∃ c ∈ Call.list tokens, c.HasBadSize f

/-- The channel that a call makes fails only on its size. -/
theorem exists_size_of_channelOf {type : List Token} {sizes : List (List Token)} {f : SizeFault}
    (h : Expression.channelOf type sizes = .error f) :
    ∃ size more, sizes = [size] :: more ∧ Expression.size? size = .error f := by
  unfold Expression.channelOf at h
  dsimp only at h
  split at h
  · next size more =>
    rcases Except.bind_eq_error.mp h with h | ⟨_, -, h⟩
    · exact ⟨size, more, rfl, h⟩
    · cases h
  · cases h

/-- What is special about a call fails only on the size of a channel. -/
theorem hasBadSize_of_special {ctx : Context} {c : Call} {f : SizeFault} (h : Expression.special ctx c = .error f) :
    c.HasBadSize f := by
  have hfound {d : Option Detail} (h : (pure d : Except SizeFault (Option Detail)) = .error f) : c.HasBadSize f :=
    nomatch h
  unfold Expression.special at h
  cases harguments : c.arguments with
  | nil =>
    simp only [harguments] at h
    repeat' split at h
    all_goals exact hfound h
  | cons type sizes =>
    simp only [harguments] at h
    split at h
    · next hmake =>
      obtain ⟨hname, hchan⟩ := Bool.and_eq_true_iff.mp hmake
      rcases Except.bind_eq_error.mp h with h | ⟨_, -, h⟩
      · obtain ⟨size, more, rfl, hsize⟩ := exists_size_of_channelOf h
        exact ⟨type, size, more, beq_iff_eq.mp hname, harguments, hchan, hsize⟩
      · exact hfound h
    · repeat' split at h
      all_goals exact hfound h

/-- The constructs in a token run. -/
theorem emits_expression (ctx : Context) (isStatement : Bool) {tokens : List Token} (h : Run all tokens) :
    Walk.Finds (Emits file all) (Refuses all) (Expression.walk file ctx isStatement tokens) := by
  refine Walk.Finds.andThen (Walk.Finds.all fun w hw => ?_) (.found fun c hc => .comparison ctx h hc)
  obtain ⟨c, hc, rfl⟩ := List.mem_map.mp hw
  rw [Expression.walkCall]
  cases hspecial : Expression.special ctx c with
  | error f => exact .error ⟨tokens, h, c, hc, hasBadSize_of_special hspecial⟩
  | ok detail =>
    refine .ok (List.forall_mem_cons.mpr ⟨.call ctx isStatement h hc, fun construct hconstruct => ?_⟩)
    obtain ⟨detail, hdetail, rfl⟩ := List.mem_map.mp hconstruct
    rw [Option.mem_toList] at hdetail
    exact .special ctx h hc (hdetail ▸ hspecial)

mutual

/-- The constructs that a walk through a statement finds. -/
theorem emits_walkStatement (ctx : Context) : ∀ s : Statement, (∀ r ∈ s.runs, Run all r) →
    Walk.Finds (Emits file all) (Refuses all) (walkStatement file ctx s)
  | .plain place kind tokens literals, h => by
    rw [runs, List.forall_mem_cons] at h
    rw [walkStatement]
    refine .all (List.forall_mem_cons.mpr ⟨?_,
      List.forall_mem_cons.mpr ⟨?_, List.forall_mem_singleton.mpr ?_⟩⟩)
    · exact .ok fun c hc => .plain ctx place kind literals h.1 hc
    · exact emits_expression ctx _ h.1
    · exact emits_walkLiterals ctx _ literals h.2
  | .block _ body, h => by
    rw [walkStatement]
    exact emits_walkList ctx body h
  | .branch place header literals body otherwise, h => by
    rw [runs, List.forall_mem_cons, List.forall_mem_append, List.forall_mem_append] at h
    obtain ⟨hheader, hliterals, hbody, hother⟩ := h
    rw [walkStatement]
    refine .all fun w hw => ?_
    simp only [List.mem_cons, List.not_mem_nil, or_false] at hw
    rcases hw with rfl | rfl | rfl | rfl | rfl
    · exact emits_expression ctx _ hheader
    · exact emits_walkLiterals ctx _ literals hliterals
    · refine .found fun c hc => ?_
      obtain ⟨info, hinfo, rfl⟩ := List.mem_map.mp hc
      exact .check ctx place _ body _ (Option.mem_toList.mp hinfo)
    · exact (emits_walkList _ body hbody).map fun t => rfl
    · exact emits_walkOther ctx otherwise hother
  | .loop place header literals body, h => by
    rw [runs, List.forall_mem_cons, List.forall_mem_append] at h
    obtain ⟨hheader, hliterals, hbody⟩ := h
    rw [walkStatement]
    refine .all fun w hw => ?_
    simp only [List.mem_cons, List.not_mem_nil, or_false] at hw
    rcases hw with rfl | rfl | rfl | rfl
    · exact emits_expression ctx _ hheader
    · exact emits_walkLiterals ctx _ literals hliterals
    · refine .found fun c hc => ?_
      rw [List.mem_singleton.mp hc]
      exact .loop ctx place hheader
    · exact (emits_walkList _ body hbody).map fun t => rfl
  | .switch place header literals clauses, h => by
    rw [runs, List.forall_mem_cons, List.forall_mem_append] at h
    obtain ⟨hheader, hliterals, hclauses⟩ := h
    rw [walkStatement]
    refine .all fun w hw => ?_
    simp only [List.mem_cons, List.not_mem_nil, or_false] at hw
    rcases hw with rfl | rfl | rfl | rfl
    · exact emits_expression ctx _ hheader
    · exact emits_walkLiterals ctx _ literals hliterals
    · refine .found fun c hc => ?_
      split at hc
      · rw [List.mem_singleton.mp hc]
        exact .switch ctx place hheader
      · exact absurd hc List.not_mem_nil
    · exact emits_walkClauses ctx _ clauses hclauses
  | .select place header literals clauses, h => by
    rw [runs, List.forall_mem_cons, List.forall_mem_append] at h
    obtain ⟨hheader, hliterals, hclauses⟩ := h
    rw [walkStatement]
    refine .all fun w hw => ?_
    simp only [List.mem_cons, List.not_mem_nil, or_false] at hw
    rcases hw with rfl | rfl | rfl | rfl
    · exact emits_expression ctx _ hheader
    · exact emits_walkLiterals ctx _ literals hliterals
    · refine .found fun c hc => ?_
      rw [List.mem_singleton.mp hc]
      exact .select ctx place clauses
    · exact emits_walkClauses ctx _ clauses hclauses

/-- The constructs that a walk through a statement list finds. -/
theorem emits_walkList (ctx : Context) : ∀ body : List Statement, (∀ r ∈ listRuns body, Run all r) →
    Walk.Finds (Emits file all) (Refuses all) (walkList file ctx body)
  | [], _ => .empty
  | s :: rest, h => by
    rw [listRuns, List.forall_mem_append] at h
    rw [walkList]
    exact (emits_walkStatement ctx s h.1).andThen (emits_walkList ctx rest h.2)

/-- The constructs that a walk through the other branch finds. -/
theorem emits_walkOther (ctx : Context) :
    ∀ body : Option (List Statement), (∀ r ∈ otherRuns body, Run all r) →
    Walk.Finds (Emits file all) (Refuses all) (walkOther file ctx body)
  | none, _ => .empty
  | some body, h => by
    rw [otherRuns] at h
    rw [walkOther]
    split
    · exact emits_walkList ctx body h
    · exact (emits_walkList ctx.enter body h).map fun t => rfl

/-- The constructs that a walk through clauses finds. -/
theorem emits_walkClauses (ctx : Context) (guard : Bool → List Token → Option Guard) :
    ∀ cs : List Clause, (∀ r ∈ clauseRuns cs, Run all r) →
      Walk.Finds (Emits file all) (Refuses all) (walkClauses file ctx guard cs)
  | [], _ => .empty
  | .mk _ isDefault header body :: rest, h => by
    rw [clauseRuns, List.forall_mem_cons, List.forall_mem_append] at h
    obtain ⟨hheader, hbody, hrest⟩ := h
    rw [walkClauses]
    refine .all fun w hw => ?_
    simp only [List.mem_cons, List.not_mem_nil, or_false] at hw
    rcases hw with rfl | rfl | rfl
    · exact emits_expression ctx _ hheader
    · exact (emits_walkList _ body hbody).map fun t => rfl
    · exact emits_walkClauses ctx guard rest hrest

/-- The constructs that a walk through function literals finds. -/
theorem emits_walkLiterals (ctx : Context) (launchesFirst : Bool) :
    ∀ ls : List FuncLiteral, (∀ r ∈ literalRuns ls, Run all r) →
      Walk.Finds (Emits file all) (Refuses all) (walkLiterals file ctx launchesFirst ls)
  | [], _ => .empty
  | .mk _ _ params results body :: rest, h => by
    rw [literalRuns, List.forall_mem_append] at h
    rw [walkLiterals]
    refine Walk.Finds.andThen (Walk.Finds.map (emits_walkList _ body h.1) ?_)
      (emits_walkLiterals ctx false rest h.2)
    exact fun t => rfl

end

end Body

end GoIdiom
