import GoIdiom.Proofs.Forest.Statements
import GoIdiom.Proofs.Sites.Walk

/-!
# A walk accounts for every statement

A walk through statements finds one construct for every go, defer, for and select statement of their forest and
no other construct of these kinds, wherever the function literal around the statement stands. Every construct
ends in the line it begins in, or where its statement ends.
-/

namespace GoIdiom

/-- The keyword of the kinds of constructs that stand for one statement each. -/
def ConstructKind.keyword? : ConstructKind → Option String
  | go => some "go"
  | defer => some "defer"
  | loop => some "for"
  | select => some "select"
  | _ => none

/-- No two of these kinds have one keyword. -/
theorem ConstructKind.eq_of_keyword? {k l : ConstructKind} {word : String} (hk : k.keyword? = some word)
    (hl : l.keyword? = some word) : k = l := by
  cases k <;> cases hk <;> cases l <;> first | rfl | exact absurd hl (by decide)

/-- The constructs of each kind with a keyword begin where the statements with that keyword begin, one for each. -/
def Kept (ss : List Statement) (cs : List Construct) : Prop :=
  ∀ kind word, ConstructKind.keyword? kind = some word →
    ((cs.filter (·.kind = kind)).map (·.pos)).Perm ((ss.filter (·.keyword? = some word)).map (·.pos))

namespace Kept

variable {ss ts : List Statement} {s : Statement} {cs ds : List Construct} {c : Construct}

/-- Constructs of other kinds. -/
theorem filter_eq_nil (h : ∀ c ∈ cs, c.kind.keyword? = none) {kind : ConstructKind} {word : String}
    (hword : kind.keyword? = some word) : cs.filter (·.kind = kind) = [] := by
  rw [List.filter_eq_nil_iff]
  intro c hc hkind
  have hnone := h c hc
  rw [of_decide_eq_true hkind, hword] at hnone
  cases hnone

/-- Constructs of other kinds stand for no statement. -/
theorem none (h : ∀ c ∈ cs, c.kind.keyword? = .none) : Kept [] cs := by
  intro kind word hword
  rw [filter_eq_nil h hword]
  exact List.Perm.refl []

/-- Statements one after the other. -/
theorem append (h : Kept ss cs) (hmore : Kept ts ds) : Kept (ss ++ ts) (cs ++ ds) := by
  intro kind word hword
  simp only [List.filter_append, List.map_append]
  exact (h kind word hword).append (hmore kind word hword)

/-- The order of the statements does not matter. -/
theorem perm (h : Kept ss cs) (hperm : ss.Perm ts) : Kept ts cs :=
  fun kind word hword => (h kind word hword).trans ((hperm.filter _).map _)

/-- The construct of a statement with a keyword. -/
theorem single (hkind : c.kind.keyword? = s.keyword?) (hpos : c.pos = s.pos) : Kept [s] [c] := by
  intro kind word hword
  have hiff : c.kind = kind ↔ s.keyword? = some word := by
    constructor
    · rintro rfl
      rw [← hkind, hword]
    · intro h
      exact ConstructKind.eq_of_keyword? (hkind.trans h) hword
  by_cases h : c.kind = kind
  · have hs := hiff.mp h
    rw [List.filter_cons_of_pos (by simpa using h), List.filter_cons_of_pos (by simpa using hs)]
    simp [hpos]
  · have hs : ¬ s.keyword? = some word := fun hs => h (hiff.mpr hs)
    rw [List.filter_cons_of_neg (by simpa using h), List.filter_cons_of_neg (by simpa using hs)]
    exact List.Perm.refl _

/-- A statement without a keyword. -/
theorem plain (hs : s.keyword? = .none) (h : ∀ c ∈ cs, c.kind.keyword? = .none) : Kept [s] cs := by
  intro kind word hword
  rw [filter_eq_nil h hword, List.filter_cons_of_neg (by simp [hs])]
  exact List.Perm.refl []

end Kept

/-- A construct ends in the line it begins in, or begins and ends with one of some statements. -/
def EndsWith (ss : List Statement) (c : Construct) : Prop :=
  c.endLine = c.pos.line ∨ ∃ s ∈ ss, c.pos = s.pos ∧ c.endLine = s.endLine

/-- Constructs account for statements: none is missing, and none ends elsewhere. -/
structure Accounts (ss : List Statement) (cs : List Construct) : Prop where
  kept : Kept ss cs
  ends : ∀ c ∈ cs, EndsWith ss c

namespace Accounts

variable {ss ts : List Statement} {s : Statement} {cs ds : List Construct} {c : Construct}

/-- Constructs that stand for no statement, as those of expressions. -/
theorem none (h : ∀ c ∈ cs, c.kind.keyword? = none ∧ c.endLine = c.pos.line) : Accounts [] cs :=
  ⟨.none fun c hc => (h c hc).1, fun c hc => Or.inl (h c hc).2⟩

/-- Nothing accounts for no statements. -/
theorem nil : Accounts [] [] := none fun _ hc => absurd hc List.not_mem_nil

/-- Statements one after the other. -/
theorem append (h : Accounts ss cs) (hmore : Accounts ts ds) : Accounts (ss ++ ts) (cs ++ ds) := by
  refine ⟨h.kept.append hmore.kept, List.forall_mem_append.mpr ⟨fun c hc => ?_, fun c hc => ?_⟩⟩
  · exact (h.ends c hc).imp id fun ⟨s, hs, hends⟩ => ⟨s, List.mem_append_left _ hs, hends⟩
  · exact (hmore.ends c hc).imp id fun ⟨s, hs, hends⟩ => ⟨s, List.mem_append_right _ hs, hends⟩

/-- The order of the statements does not matter. -/
theorem perm (h : Accounts ss cs) (hperm : ss.Perm ts) : Accounts ts cs :=
  ⟨h.kept.perm hperm, fun c hc => (h.ends c hc).imp id fun ⟨s, hs, hends⟩ =>
    ⟨s, hperm.mem_iff.mp hs, hends⟩⟩

/-- The construct of a statement with a keyword. -/
theorem single (hkind : c.kind.keyword? = s.keyword?) (hpos : c.pos = s.pos) (hends : c.endLine = s.endLine) :
    Accounts [s] [c] :=
  ⟨.single hkind hpos, List.forall_mem_singleton.mpr (Or.inr ⟨s, List.mem_singleton_self s, hpos, hends⟩)⟩

/-- A statement without a keyword. -/
theorem plain (hs : s.keyword? = .none) (h : ∀ c ∈ cs, c.kind.keyword? = .none ∧
    (c.endLine = c.pos.line ∨ c.pos = s.pos ∧ c.endLine = s.endLine)) : Accounts [s] cs :=
  ⟨.plain hs fun c hc => (h c hc).1,
    fun c hc => (h c hc).2.imp id fun hends => ⟨s, List.mem_singleton_self s, hends⟩⟩

end Accounts

namespace Walk

variable {ss ts : List Statement} {a b : Walk}

/-- A walk that accounts for statements, if it does not fail. -/
abbrev Covers (ss : List Statement) : Walk → Prop := Outcome (fun t => Accounts ss t.constructs) fun _ => True

/-- One walk after the other. -/
theorem Covers.andThen (ha : Covers ss a) (hb : Covers ts b) : Covers (ss ++ ts) (andThen a b) :=
  Outcome.bind ha fun _ hx => Outcome.bind hb fun _ hy => .ok (hx.append hy)

/-- A walk that finds nothing. -/
theorem Covers.empty : Covers [] (.ok .empty) := .ok .nil

/-- No walks. -/
theorem Covers.nil : Covers [] (all []) := .empty

/-- Walks one after the other. -/
theorem Covers.cons {ws : List Walk} (ha : Covers ss a) (hws : Covers ts (all ws)) :
    Covers (ss ++ ts) (all (a :: ws)) := ha.andThen hws

/-- A walk that finds given constructs. -/
theorem Covers.found {cs : List Construct} (h : Accounts ss cs) : Covers ss (Walk.found cs) := .ok h

/-- A walk whose trace keeps its constructs. -/
theorem Covers.map {g : Trace → Trace} (ha : Covers ss a) (hg : ∀ t, (g t).constructs = t.constructs) :
    Covers ss (a.map g) :=
  Outcome.map ha fun t ht => (hg t).symm ▸ ht

/-- The statements in another order. -/
theorem Covers.perm (ha : Covers ss a) (h : ss.Perm ts) : Covers ts a := Outcome.mono ha fun _ ht => ht.perm h

end Walk

namespace Body

open Statement

variable {file : FileInfo}

/-- The constructs in a token run stand for no statement. -/
theorem covers_expression (ctx : Context) (isStatement : Bool) (tokens : List Token) :
    Walk.Covers [] (Expression.walk file ctx isStatement tokens) := by
  refine Outcome.mono (P := fun t => ∀ c ∈ t.constructs, c.kind.keyword? = none ∧ c.endLine = c.pos.line)
    (Walk.Finds.andThen (Walk.Finds.all fun w hw => ?_) (.found fun c hc => ?_)) fun _ ht => .none ht
  · obtain ⟨call, -, rfl⟩ := List.mem_map.mp hw
    rw [Expression.walkCall]
    cases hspecial : Expression.special ctx call with
    | error f => exact .error trivial
    | ok more =>
      refine .ok (List.forall_mem_cons.mpr ⟨⟨rfl, rfl⟩, fun c hc => ?_⟩)
      obtain ⟨detail, hdetail, rfl⟩ := List.mem_map.mp hc
      rw [Option.mem_toList] at hdetail
      have hkind := kind_special (hdetail ▸ hspecial)
      refine ⟨?_, rfl⟩
      change detail.kind.keyword? = none
      simp only [List.mem_cons, List.not_mem_nil, or_false] at hkind
      rcases hkind with hkind | hkind | hkind <;> rw [hkind] <;> rfl
  · obtain ⟨comparison, -, hinfo⟩ := List.mem_filterMap.mp hc
    obtain ⟨info, -, rfl⟩ := Option.map_eq_some_iff.mp hinfo
    exact ⟨rfl, rfl⟩

/-- The construct that a return of values is, begins and ends at one token. -/
theorem place_errorReturn? {ctx : Context} {pos : Position} {values : List (List Token)} {c : Construct}
    (h : errorReturn? file ctx pos values = some c) : c.kind = .errorReturn ∧ c.endLine = c.pos.line := by
  rw [errorReturn?_eq] at h
  obtain ⟨chosen, -, h⟩ := Option.bind_eq_some_iff.mp h
  obtain ⟨first, -, rfl⟩ := Option.map_eq_some_iff.mp h
  exact ⟨rfl, rfl⟩

/-- A plain statement accounts for itself. -/
theorem accounts_plainTrace (ctx : Context) (place : Place) (kind : PlainKind) (tokens : List Token)
    (literals : List FuncLiteral) :
    Accounts [.plain place kind tokens literals] (plainTrace file ctx place kind tokens literals).constructs := by
  cases kind with
  | go => exact .single rfl rfl rfl
  | defer => exact .single rfl rfl rfl
  | «return» =>
    refine .plain rfl fun c hc => ?_
    change c ∈ (returnTrace file ctx place.pos tokens).constructs at hc
    rw [returnTrace] at hc
    dsimp only at hc
    split at hc
    · cases hc
    · obtain ⟨hkind, hends⟩ := place_errorReturn? (Option.mem_toList.mp hc)
      rw [hkind]
      exact ⟨rfl, Or.inl hends⟩
  | simple =>
    refine .plain rfl fun c hc => ?_
    obtain ⟨_, _, _, _, _, -, -, -, rfl⟩ := of_ignored? (Option.mem_toList.mp hc)
    exact ⟨rfl, Or.inl rfl⟩
  | _ => exact .plain rfl fun _ hc => absurd hc List.not_mem_nil

/-- A walk through what lies deeper. -/
theorem covers_atDepth {ss : List Statement} {depth : Nat} {w : Walk} (h : Walk.Covers ss w) :
    Walk.Covers ss (w.map (Trace.atDepth depth)) := h.map fun _ => rfl

mutual

/-- A walk through a statement accounts for it and for the statements inside it. -/
theorem covers_walkStatement (ctx : Context) : ∀ s : Statement,
    Walk.Covers (s :: s.nested) (walkStatement file ctx s)
  | .plain place kind tokens literals => by
    rw [walkStatement, nested]
    have hown : Walk.Covers _ (.ok (plainTrace file ctx place kind tokens literals)) :=
      .ok (accounts_plainTrace ctx place kind tokens literals)
    refine (hown.cons
      ((covers_expression ctx _ tokens).cons ((covers_walkLiterals ctx _ literals).cons .nil))).perm ?_
    rw [List.append_nil]
    exact List.Perm.refl _
  | .block place body => by
    rw [walkStatement, nested]
    have hown : Accounts [.block place body] [] := .plain rfl fun _ hc => absurd hc List.not_mem_nil
    exact Outcome.mono (covers_walkList ctx body) fun _ ht => hown.append ht
  | .branch place header literals body otherwise => by
    rw [walkStatement, nested]
    have hown : Walk.Covers [.branch place header literals body otherwise] (.found
        ((errorCheck? ctx ((Token.splitSemis header).getLastD []) body otherwise.isSome).toList.map fun info =>
          ⟨file.path, place.pos, place.endLine, .errorCheck info⟩)) := by
      refine .found (.plain rfl fun c hc => ?_)
      obtain ⟨info, -, rfl⟩ := List.mem_map.mp hc
      exact ⟨rfl, Or.inr ⟨rfl, rfl⟩⟩
    refine ((covers_expression ctx _ header).cons ((covers_walkLiterals ctx _ literals).cons
      (hown.cons ((covers_atDepth (covers_walkList _ body)).cons
        ((covers_walkOther ctx otherwise).cons .nil))))).perm ?_
    rw [List.append_nil]
    exact List.perm_middle
  | .loop place header literals body => by
    rw [walkStatement, nested]
    have hown : Walk.Covers [.loop place header literals body] (.found [⟨file.path, place.pos, place.endLine,
        .loop ⟨(loopForm header).1, (loopForm header).2, ctx.loopDepth + 1, ctx.function⟩⟩]) :=
      .found (.single rfl rfl rfl)
    refine ((covers_expression ctx _ header).cons ((covers_walkLiterals ctx _ literals).cons
      (hown.cons ((covers_atDepth (covers_walkList _ body)).cons .nil)))).perm ?_
    rw [List.append_nil]
    exact List.perm_middle
  | .switch place header literals clauses => by
    rw [walkStatement, nested]
    refine ((covers_expression ctx _ header).cons ((covers_walkLiterals ctx _ literals).cons
      ((.found (.plain rfl fun c hc => ?_) : Walk.Covers [.switch place header literals clauses] _).cons
        ((covers_walkClauses ctx _ clauses).cons .nil)))).perm ?_
    · split at hc
      · rw [List.mem_singleton.mp hc]
        exact ⟨rfl, Or.inl rfl⟩
      · cases hc
    · rw [List.append_nil]
      exact List.perm_middle
  | .select place header literals clauses => by
    rw [walkStatement, nested]
    have hown : Walk.Covers [.select place header literals clauses]
        (.found [⟨file.path, place.pos, place.endLine, .select (selectInfo ctx clauses)⟩]) :=
      .found (.single rfl rfl rfl)
    refine ((covers_expression ctx _ header).cons ((covers_walkLiterals ctx _ literals).cons
      (hown.cons ((covers_walkClauses ctx _ clauses).cons .nil)))).perm ?_
    rw [List.append_nil]
    exact List.perm_middle

/-- A walk through a statement list accounts for its forest. -/
theorem covers_walkList (ctx : Context) : ∀ body : List Statement,
    Walk.Covers (forest body) (walkList file ctx body)
  | [] => .empty
  | s :: rest => by
    rw [walkList, forest]
    exact (covers_walkStatement ctx s).andThen (covers_walkList ctx rest)

/-- A walk through the other branch accounts for its forest. -/
theorem covers_walkOther (ctx : Context) : ∀ body : Option (List Statement),
    Walk.Covers (otherForest body) (walkOther file ctx body)
  | none => .empty
  | some body => by
    rw [walkOther, otherForest]
    split
    · exact covers_walkList ctx body
    · exact covers_atDepth (covers_walkList ctx.enter body)

/-- A walk through clauses accounts for their forest. -/
theorem covers_walkClauses (ctx : Context) (guard : Bool → List Token → Option Guard) : ∀ cs : List Clause,
    Walk.Covers (clauseForest cs) (walkClauses file ctx guard cs)
  | [] => .empty
  | .mk _ isDefault header body :: rest => by
    rw [walkClauses, clauseForest]
    refine ((covers_expression ctx _ header).cons ((covers_atDepth (covers_walkList _ body)).cons
      ((covers_walkClauses ctx guard rest).cons .nil))).perm ?_
    rw [List.append_nil]
    exact List.Perm.refl _

/-- A walk through function literals accounts for their forest. -/
theorem covers_walkLiterals (ctx : Context) (launchesFirst : Bool) : ∀ ls : List FuncLiteral,
    Walk.Covers (literalForest ls) (walkLiterals file ctx launchesFirst ls)
  | [] => .empty
  | .mk _ _ params results body :: rest => by
    rw [walkLiterals, literalForest]
    refine Walk.Covers.andThen ((covers_walkList _ body).map ?_) (covers_walkLiterals ctx false rest)
    exact fun _ => rfl

end

end Body

end GoIdiom
