import GoIdiom.Proofs.Relocation.Signature
import GoIdiom.Statement

/-!
# Moving statement trees

A statement moves with its tokens and with its place. The statements nested in a tree, and the tokens
of a tree, move along.
-/

namespace GoIdiom.Relocation

/-- A place at its new position. -/
def place (m : Relocation) (p : Place) : Place := ⟨p.label, m.written p.pos, p.endLine + m.shift⟩

mutual

/-- A statement at its new place. -/
def statement (m : Relocation) : Statement → Statement
  | .plain place kind tokens literals =>
    .plain (m.place place) kind (tokens.map m.token) (m.literals literals)
  | .block place body => .block (m.place place) (m.statements body)
  | .branch place header literals body otherwise =>
    .branch (m.place place) (header.map m.token) (m.literals literals) (m.statements body)
      (m.otherwise otherwise)
  | .loop place header literals body =>
    .loop (m.place place) (header.map m.token) (m.literals literals) (m.statements body)
  | .switch place header literals clauses =>
    .switch (m.place place) (header.map m.token) (m.literals literals) (m.clauses clauses)
  | .select place header literals clauses =>
    .select (m.place place) (header.map m.token) (m.literals literals) (m.clauses clauses)

/-- A statement list at its new place. -/
def statements (m : Relocation) : List Statement → List Statement
  | [] => []
  | s :: rest => m.statement s :: m.statements rest

/-- The other branch at its new place. -/
def otherwise (m : Relocation) : Option (List Statement) → Option (List Statement)
  | none => none
  | some body => some (m.statements body)

/-- Clauses at their new places. -/
def clauses (m : Relocation) : List Clause → List Clause
  | [] => []
  | .mk pos isDefault header body :: rest =>
    .mk (m.written pos) isDefault (header.map m.token) (m.statements body) :: m.clauses rest

/-- Function literals at their new places. -/
def literals (m : Relocation) : List FuncLiteral → List FuncLiteral
  | [] => []
  | .mk pos endLine params results body :: rest =>
    .mk (m.written pos) (endLine + m.shift) (params.map m.param) (results.map m.param) (m.statements body) ::
      m.literals rest

end

variable (m : Relocation)

/-- A clause at its new place. -/
def clause (c : Clause) : Clause :=
  .mk (m.written c.pos) c.isDefault (c.header.map m.token) (m.statements c.body)

/-- A function literal at its new place. -/
def literal (l : FuncLiteral) : FuncLiteral :=
  .mk (m.written l.pos) (l.endLine + m.shift) (l.params.map m.param) (l.results.map m.param)
    (m.statements l.body)

/-- The body of a moved literal is the moved body. -/
@[simp] theorem body_literal (l : FuncLiteral) : (m.literal l).body = m.statements l.body := (rfl)

/-- The parameters of a moved literal are the moved parameters. -/
@[simp] theorem params_literal (l : FuncLiteral) : (m.literal l).params = l.params.map m.param := (rfl)

/-- The header of a moved clause is the moved header. -/
@[simp] theorem header_clause (c : Clause) : (m.clause c).header = c.header.map m.token := (rfl)

/-- A moved clause is the default exactly when the clause is. -/
@[simp] theorem isDefault_clause (c : Clause) : (m.clause c).isDefault = c.isDefault := (rfl)

/-- A body moves statement by statement. -/
theorem statements_eq_map (body : List Statement) : m.statements body = body.map m.statement := by
  induction body with
  | nil => rfl
  | cons s rest ih => rw [statements, ih, List.map_cons]

/-- Another branch moves when there is one. -/
theorem otherwise_eq_map (body : Option (List Statement)) : m.otherwise body = body.map m.statements := by
  cases body <;> rfl

/-- Clauses move one by one. -/
theorem clauses_eq_map (cs : List Clause) : m.clauses cs = cs.map m.clause := by
  induction cs with
  | nil => rfl
  | cons c rest ih =>
    obtain ⟨pos, isDefault, header, body⟩ := c
    rw [clauses, ih, List.map_cons]
    rfl

/-- Literals move one by one. -/
theorem literals_eq_map (ls : List FuncLiteral) : m.literals ls = ls.map m.literal := by
  induction ls with
  | nil => rfl
  | cons l rest ih =>
    obtain ⟨pos, endLine, params, results, body⟩ := l
    rw [literals, ih, List.map_cons]
    rfl

/-- Two bodies in a row move each for itself. -/
theorem statements_append (xs ys : List Statement) :
    m.statements (xs ++ ys) = m.statements xs ++ m.statements ys := by
  rw [statements_eq_map, statements_eq_map, statements_eq_map, List.map_append]

section Statement

variable (s : Statement)

/-- Labelling a statement and moving it are the same in either order. -/
@[simp] theorem withLabel_statement (label : Option String) :
    (m.statement s).withLabel label = m.statement (s.withLabel label) := by
  cases s <;> rfl

/-- The tokens of a moved statement are the moved tokens. -/
@[simp] theorem tokens_statement : (m.statement s).tokens = s.tokens.map m.token := by
  cases s <;> simp [statement, Statement.tokens]

/-- A moved statement is of the same kind. -/
@[simp] theorem isPlain_statement (kind : PlainKind) : (m.statement s).isPlain kind = s.isPlain kind := by
  cases s <;> rfl

/-- The last line of a moved statement is as many lines further down. -/
@[simp] theorem endLine_statement : (m.statement s).endLine = s.endLine + m.shift := by
  cases s <;> rfl

end Statement

mutual

/-- All tokens of a moved statement, nested ones included, are the moved tokens. -/
@[simp] theorem allTokens_statement : ∀ s : Statement,
    (m.statement s).allTokens = s.allTokens.map m.token
  | .plain _ _ tokens literals => by
    rw [statement, Statement.allTokens, Statement.allTokens, literalTokens_literals, List.map_append]
  | .block _ body => by rw [statement, Statement.allTokens, Statement.allTokens, listTokens_statements]
  | .branch _ header literals body otherwise => by
    simp only [statement, Statement.allTokens, List.map_append, listTokens_statements body,
      optionTokens_otherwise otherwise, literalTokens_literals literals]
  | .loop _ header literals body => by
    simp only [statement, Statement.allTokens, List.map_append, listTokens_statements body,
      literalTokens_literals literals]
  | .switch _ header literals clauses | .select _ header literals clauses => by
    simp only [statement, Statement.allTokens, List.map_append, clauseTokens_clauses clauses,
      literalTokens_literals literals]

/-- All tokens of a moved body are the moved tokens. -/
@[simp] theorem listTokens_statements : ∀ body : List Statement,
    Statement.listTokens (m.statements body) = (Statement.listTokens body).map m.token
  | [] => rfl
  | s :: rest => by
    simp only [statements, Statement.listTokens, List.map_append, allTokens_statement s,
      listTokens_statements rest]

/-- All tokens of a moved other branch are the moved tokens. -/
@[simp] theorem optionTokens_otherwise : ∀ body : Option (List Statement),
    Statement.optionTokens (m.otherwise body) = (Statement.optionTokens body).map m.token
  | none => rfl
  | some body => by simp only [otherwise, Statement.optionTokens, listTokens_statements body]

/-- All tokens of moved clauses are the moved tokens. -/
@[simp] theorem clauseTokens_clauses : ∀ cs : List Clause,
    Statement.clauseTokens (m.clauses cs) = (Statement.clauseTokens cs).map m.token
  | [] => rfl
  | .mk _ _ header body :: rest => by
    simp only [clauses, Statement.clauseTokens, List.map_append, listTokens_statements body,
      clauseTokens_clauses rest]

/-- All tokens of moved literals are the moved tokens. -/
@[simp] theorem literalTokens_literals : ∀ ls : List FuncLiteral,
    Statement.literalTokens (m.literals ls) = (Statement.literalTokens ls).map m.token
  | [] => rfl
  | .mk _ _ _ _ body :: rest => by
    simp only [literals, Statement.literalTokens, List.map_append, listTokens_statements body,
      literalTokens_literals rest]

end

mutual

/-- The statements within a moved statement are the moved statements. -/
@[simp] theorem flatten_statement : ∀ s : Statement,
    (m.statement s).flatten = m.statements s.flatten
  | .plain .. => rfl
  | .block _ body => by
    simp only [statement, Statement.flatten, statements, flattenList_statements body]
  | .branch _ _ _ body otherwise => by
    simp only [statement, Statement.flatten, statements, statements_append, List.cons_append,
      flattenList_statements body, flattenOption_otherwise otherwise]
  | .loop _ _ _ body => by
    simp only [statement, Statement.flatten, statements, flattenList_statements body]
  | .switch _ _ _ clauses | .select _ _ _ clauses => by
    simp only [statement, Statement.flatten, statements, flattenClauses_clauses clauses]

/-- The statements within a moved body are the moved statements. -/
@[simp] theorem flattenList_statements : ∀ body : List Statement,
    Statement.flattenList (m.statements body) = m.statements (Statement.flattenList body)
  | [] => rfl
  | s :: rest => by
    simp only [statements, Statement.flattenList, statements_append, flatten_statement s,
      flattenList_statements rest]

/-- The statements within a moved other branch are the moved statements. -/
@[simp] theorem flattenOption_otherwise : ∀ body : Option (List Statement),
    Statement.flattenOption (m.otherwise body) = m.statements (Statement.flattenOption body)
  | none => rfl
  | some body => by simp only [otherwise, Statement.flattenOption, flattenList_statements body]

/-- The statements within moved clauses are the moved statements. -/
@[simp] theorem flattenClauses_clauses : ∀ cs : List Clause,
    Statement.flattenClauses (m.clauses cs) = m.statements (Statement.flattenClauses cs)
  | [] => rfl
  | .mk _ _ _ body :: rest => by
    simp only [clauses, Statement.flattenClauses, statements_append, flattenList_statements body,
      flattenClauses_clauses rest]

end

end GoIdiom.Relocation
