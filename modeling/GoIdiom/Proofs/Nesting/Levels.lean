import GoIdiom.Construct.Body
import GoIdiom.Proofs.Outcome

/-!
# The levels of a statement tree

A walk goes one level deeper in the blocks of branches and loops, in the clauses of a switch or select, and in
function literals. The depth that it reports is the deepest level of the tree: neither the scope nor the guards that
the walk carries with it, nor what it finds, change the level that it is on.
-/

namespace GoIdiom

namespace Walk

/-- A walk that begins on a level and reaches so many levels more, if it does not fail. -/
abbrev Reaches (depth more : Nat) : Walk → Prop :=
  Outcome (fun t => max depth t.depth = depth + more) fun _ => True

variable {depth m n : Nat} {a b : Walk} {ws : List Walk}

/-- What is found without going deeper. -/
theorem Reaches.flat {t : Trace} (h : t.depth = 0) : Reaches depth 0 (.ok t) := by
  refine .ok ?_
  rw [h]
  omega

/-- One walk after the other. -/
theorem Reaches.andThen (ha : Reaches depth m a) (hb : Reaches depth n b) :
    Reaches depth (max m n) (andThen a b) := by
  refine Outcome.bind ha fun s hs => Outcome.bind hb fun t ht => .ok ?_
  have happend : (s ++ t).depth = max s.depth t.depth := rfl
  rw [happend]
  omega

/-- No walks reach no deeper. -/
theorem Reaches.nil : Reaches depth 0 (all []) := .flat rfl

/-- The first walk and the others reach as deep as the deeper of them. -/
theorem Reaches.cons (ha : Reaches depth m a) (hws : Reaches depth n (all ws)) :
    Reaches depth (max m n) (all (a :: ws)) := ha.andThen hws

/-- A walk through what lies one level deeper. -/
theorem Reaches.deeper (ha : Reaches (depth + 1) n a) :
    Reaches depth (n + 1) (a.map (Trace.atDepth (depth + 1))) := by
  refine Outcome.map ha fun t ht => ?_
  change max depth (max (depth + 1) t.depth) = depth + (n + 1)
  omega

/-- Returns are nothing to the depth. -/
theorem Reaches.literal (ha : Reaches (depth + 1) n a) :
    Reaches depth (n + 1) (a.map fun t => { t.atDepth (depth + 1) with nakedReturns := [] }) := by
  refine Outcome.map ha fun t ht => ?_
  change max depth (max (depth + 1) t.depth) = depth + (n + 1)
  omega

/-- How deep a walk reaches may be written otherwise. -/
theorem Reaches.congr (ha : Reaches depth m a) (h : m = n) : Reaches depth n a := h ▸ ha

end Walk

namespace Body

open Walk

variable {file : FileInfo}

mutual

/-- The deepest level inside a statement, from the level that it stands on. -/
def levels : Statement → Nat
  | .plain _ _ _ literals => levelsLiterals literals
  | .block _ body => levelsList body
  | .branch _ _ literals body otherwise =>
    max (levelsLiterals literals) (max (levelsList body + 1) (levelsOther otherwise))
  | .loop _ _ literals body => max (levelsLiterals literals) (levelsList body + 1)
  | .switch _ _ literals clauses => max (levelsLiterals literals) (levelsClauses clauses)
  | .select _ _ literals clauses => max (levelsLiterals literals) (levelsClauses clauses)

/-- The deepest level inside some statements. -/
def levelsList : List Statement → Nat
  | [] => 0
  | s :: rest => max (levels s) (levelsList rest)

/-- The deepest level inside the other branch, where a single `if` stays on its level. -/
def levelsOther : Option (List Statement) → Nat
  | none => 0
  | some body => if isElseIf body then levelsList body else levelsList body + 1

/-- The deepest level inside clauses. -/
def levelsClauses : List Clause → Nat
  | [] => 0
  | .mk _ _ _ body :: rest => max (levelsList body + 1) (levelsClauses rest)

/-- The deepest level inside function literals. -/
def levelsLiterals : List FuncLiteral → Nat
  | [] => 0
  | .mk _ _ _ _ body :: rest => max (levelsList body + 1) (levelsLiterals rest)

end

/-- Expressions are walked through on one level. -/
theorem reaches_expression (ctx : Context) (isStatement : Bool) (tokens : List Token) (depth : Nat) :
    Reaches depth 0 (Expression.walk file ctx isStatement tokens) := by
  have hcalls (cs : List Call) : Reaches depth 0 (all (cs.map (Expression.walkCall file ctx isStatement))) := by
    induction cs with
    | nil => exact .nil
    | cons c rest ih =>
      have hcall : Reaches depth 0 (Expression.walkCall file ctx isStatement c) := by
        rw [Expression.walkCall]
        cases Expression.special ctx c with
        | error e => exact .error trivial
        | ok detail => exact .flat rfl
      exact (hcall.cons ih).congr (Nat.max_self 0)
  exact ((hcalls _).andThen (.flat rfl)).congr (Nat.max_self 0)

/-- A statement without blocks lies no deeper than its body. -/
theorem depth_plainTrace (ctx : Context) (place : Place) (kind : PlainKind) (tokens : List Token)
    (literals : List FuncLiteral) : (plainTrace file ctx place kind tokens literals).depth = 0 := by
  cases kind with
  | «return» =>
    change (returnTrace file ctx place.pos tokens).depth = 0
    rw [returnTrace]
    dsimp only
    split <;> rfl
  | _ => rfl

mutual

/-- A walk through a statement reaches its deepest level. -/
theorem reaches_walkStatement (ctx : Context) : ∀ s : Statement,
    Reaches ctx.depth (levels s) (walkStatement file ctx s)
  | .plain place kind tokens literals => by
    rw [walkStatement, levels]
    refine ((Reaches.flat (depth_plainTrace ..)).cons ((reaches_expression ..).cons
      ((reaches_walkLiterals ctx _ literals).cons .nil))).congr ?_
    omega
  | .block _ body => by
    rw [walkStatement, levels]
    exact reaches_walkList ctx body
  | .branch place header literals body otherwise => by
    rw [walkStatement, levels]
    refine ((reaches_expression ..).cons ((reaches_walkLiterals ctx _ literals).cons ((Reaches.flat rfl).cons
      ((reaches_walkList (ctx.enterGuarded _) body).deeper.cons
        ((reaches_walkOther ctx otherwise).cons .nil))))).congr ?_
    omega
  | .loop place header literals body => by
    rw [walkStatement, levels]
    refine ((reaches_expression ..).cons ((reaches_walkLiterals ctx _ literals).cons ((Reaches.flat rfl).cons
      ((reaches_walkList (ctx.enterLoop _) body).deeper.cons .nil)))).congr ?_
    omega
  | .switch place header literals clauses => by
    rw [walkStatement, levels]
    refine ((reaches_expression ..).cons ((reaches_walkLiterals ctx _ literals).cons ((Reaches.flat rfl).cons
      ((reaches_walkClauses ctx _ clauses).cons .nil)))).congr ?_
    omega
  | .select place header literals clauses => by
    rw [walkStatement, levels]
    refine ((reaches_expression ..).cons ((reaches_walkLiterals ctx _ literals).cons ((Reaches.flat rfl).cons
      ((reaches_walkClauses ctx _ clauses).cons .nil)))).congr ?_
    omega

/-- A walk through statements reaches their deepest level. -/
theorem reaches_walkList (ctx : Context) : ∀ body : List Statement,
    Reaches ctx.depth (levelsList body) (walkList file ctx body)
  | [] => .flat rfl
  | s :: rest => (reaches_walkStatement ctx s).andThen (reaches_walkList ctx rest)

/-- A walk through the other branch reaches its deepest level. -/
theorem reaches_walkOther (ctx : Context) : ∀ otherwise : Option (List Statement),
    Reaches ctx.depth (levelsOther otherwise) (walkOther file ctx otherwise)
  | none => .flat rfl
  | some body => by
    rw [walkOther, levelsOther]
    -- a single `if` goes on from the level of the branch, whatever it was written as
    split
    · exact reaches_walkList ctx body
    · exact (reaches_walkList ctx.enter body).deeper

/-- A walk through clauses reaches their deepest level. -/
theorem reaches_walkClauses (ctx : Context) (guard : Bool → List Token → Option Guard) :
    ∀ clauses : List Clause, Reaches ctx.depth (levelsClauses clauses) (walkClauses file ctx guard clauses)
  | [] => .flat rfl
  | .mk _ isDefault header body :: rest => by
    rw [walkClauses, levelsClauses]
    refine ((reaches_expression ..).cons ((reaches_walkList (ctx.enterGuarded _) body).deeper.cons
      ((reaches_walkClauses ctx guard rest).cons .nil))).congr ?_
    omega

/-- A walk through function literals reaches their deepest level. -/
theorem reaches_walkLiterals (ctx : Context) (launchesFirst : Bool) : ∀ literals : List FuncLiteral,
    Reaches ctx.depth (levelsLiterals literals) (walkLiterals file ctx launchesFirst literals)
  | [] => .flat rfl
  | .mk _ _ params results body :: rest => by
    rw [walkLiterals, levelsLiterals]
    exact (reaches_walkList (ctx.enterLiteral _ _) body).literal.andThen (reaches_walkLiterals ctx false rest)

end

/-- The depth of a function is the deepest level of its statements. -/
theorem depth_of_walkList {scope : Scope} {body : List Statement} {t : Trace}
    (h : walkList file (.ofScope scope) body = .ok t) : t.depth = levelsList body := by
  have hreaches := (h ▸ reaches_walkList (.ofScope scope) body : Reaches 0 (levelsList body) (.ok t)).of_ok
  omega

end Body

end GoIdiom
