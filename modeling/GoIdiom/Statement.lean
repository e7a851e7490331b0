import GoIdiom.Signature

/-!
# Statement trees

A function body is a list of statements: the structure of blocks, branches, loops, clauses and
function literals is recovered, and expressions stay flat token runs. A function literal is kept
beside the run it stands in, where only the braces of its body remain.
-/

namespace GoIdiom

/-- What a statement without a block of its own is. -/
inductive PlainKind where
  | simple
  | declaration
  | go
  | defer
  | return
  | break
  | continue
  | goto
  | fallthrough
deriving DecidableEq, Repr

/-- The name of a kind of plain statement. -/
def PlainKind.name : PlainKind → String
  | simple => "simple"
  | declaration => "decl"
  | go => "go"
  | defer => "defer"
  | «return» => "return"
  | «break» => "break"
  | «continue» => "continue"
  | goto => "goto"
  | fallthrough => "fallthrough"

/-- The label of a statement, its first position and its last line. -/
structure Place where
  label : Option String
  pos : Position
  endLine : Nat
deriving DecidableEq, Repr

mutual

/-- A statement. Headers are the tokens between the keyword and the opening brace. -/
inductive Statement where
  | plain (place : Place) (kind : PlainKind) (tokens : List Token) (literals : List FuncLiteral)
  | block (place : Place) (body : List Statement)
  | branch (place : Place) (header : List Token) (literals : List FuncLiteral) (body : List Statement)
      (otherwise : Option (List Statement))
  | loop (place : Place) (header : List Token) (literals : List FuncLiteral) (body : List Statement)
  | switch (place : Place) (header : List Token) (literals : List FuncLiteral) (clauses : List Clause)
  | select (place : Place) (header : List Token) (literals : List FuncLiteral) (clauses : List Clause)

/-- A clause of a switch or select. -/
inductive Clause where
  | mk (pos : Position) (isDefault : Bool) (header : List Token) (body : List Statement)

/-- A function literal. -/
inductive FuncLiteral where
  | mk (pos : Position) (endLine : Nat) (params results : List Param) (body : List Statement)

end

namespace Clause

/-- Where the clause begins. -/
def pos : Clause → Position | mk p _ _ _ => p

/-- Whether the clause is taken when no other is. -/
def isDefault : Clause → Bool | mk _ d _ _ => d

/-- The tokens between the keyword and the colon. -/
def header : Clause → List Token | mk _ _ h _ => h

/-- The statements of the clause. -/
def body : Clause → List Statement | mk _ _ _ b => b

end Clause

namespace FuncLiteral

/-- Where the literal begins. -/
def pos : FuncLiteral → Position | mk p _ _ _ _ => p

/-- The line of the brace that ends the literal. -/
def endLine : FuncLiteral → Nat | mk _ e _ _ _ => e

/-- The parameters of the literal. -/
def params : FuncLiteral → List Param | mk _ _ ps _ _ => ps

/-- The results of the literal. -/
def results : FuncLiteral → List Param | mk _ _ _ rs _ => rs

/-- The statements of the literal. -/
def body : FuncLiteral → List Statement | mk _ _ _ _ b => b

end FuncLiteral

namespace Statement

/-- Label and lines of the statement. -/
def place : Statement → Place
  | plain p .. => p
  | block p _ => p
  | branch p .. => p
  | loop p .. => p
  | switch p .. => p
  | select p .. => p

/-- The statement at another place. -/
def withPlace (p : Place) : Statement → Statement
  | plain _ kind tokens literals => plain p kind tokens literals
  | block _ body => block p body
  | branch _ header literals body otherwise => branch p header literals body otherwise
  | loop _ header literals body => loop p header literals body
  | switch _ header literals clauses => switch p header literals clauses
  | select _ header literals clauses => select p header literals clauses

/-- The statement with a label. -/
def withLabel (label : Option String) (s : Statement) : Statement :=
  s.withPlace { s.place with label }

/-- Where the statement begins. -/
def pos (s : Statement) : Position := s.place.pos

/-- The last line of the statement. -/
def endLine (s : Statement) : Nat := s.place.endLine

/-- The statement's own tokens: all of a plain statement, the header of a compound one. -/
def tokens : Statement → List Token
  | plain _ _ tokens _ => tokens
  | block _ _ => []
  | branch _ header .. => header
  | loop _ header .. => header
  | switch _ header .. => header
  | select _ header .. => header

/-- The function literals that stand in the statement's own tokens. -/
def literals : Statement → List FuncLiteral
  | plain _ _ _ literals => literals
  | block _ _ => []
  | branch _ _ literals .. => literals
  | loop _ _ literals _ => literals
  | switch _ _ literals _ => literals
  | select _ _ literals _ => literals

/-- The statements directly inside the block of a branch, loop or block. -/
def body : Statement → List Statement
  | block _ body => body
  | branch _ _ _ body _ => body
  | loop _ _ _ body => body
  | _ => []

/-- The statements of the other branch, if there is one. -/
def otherwise : Statement → Option (List Statement)
  | branch _ _ _ _ otherwise => otherwise
  | _ => none

/-- The clauses of a switch or select. -/
def clauses : Statement → List Clause
  | switch _ _ _ clauses => clauses
  | select _ _ _ clauses => clauses
  | _ => []

/-- Whether the statement is plain and of the given kind. -/
def isPlain (kind : PlainKind) : Statement → Bool
  | plain _ k _ _ => k == kind
  | _ => false

/-- The name of the kind of statement. -/
def kindName : Statement → String
  | plain _ kind _ _ => kind.name
  | block .. => "block"
  | branch .. => "if"
  | loop .. => "for"
  | switch .. => "switch"
  | select .. => "select"

mutual

/-- All tokens of a statement in the order own tokens, body, other branch, clauses, function literals. -/
def allTokens : Statement → List Token
  | plain _ _ tokens literals => tokens ++ literalTokens literals
  | block _ body => listTokens body
  | branch _ header literals body otherwise =>
    header ++ listTokens body ++ optionTokens otherwise ++ literalTokens literals
  | loop _ header literals body => header ++ listTokens body ++ literalTokens literals
  | switch _ header literals clauses => header ++ clauseTokens clauses ++ literalTokens literals
  | select _ header literals clauses => header ++ clauseTokens clauses ++ literalTokens literals

/-- All tokens of a statement list. -/
def listTokens : List Statement → List Token
  | [] => []
  | s :: rest => allTokens s ++ listTokens rest

/-- All tokens of the other branch. -/
def optionTokens : Option (List Statement) → List Token
  | none => []
  | some body => listTokens body

/-- All tokens of clauses: header, then body. -/
def clauseTokens : List Clause → List Token
  | [] => []
  | .mk _ _ header body :: rest => header ++ listTokens body ++ clauseTokens rest

/-- All tokens of the bodies of function literals. -/
def literalTokens : List FuncLiteral → List Token
  | [] => []
  | .mk _ _ _ _ body :: rest => listTokens body ++ literalTokens rest

end

mutual

/-- The statement with all statements nested in it, function literals left out. -/
def flatten : Statement → List Statement
  | plain p kind tokens literals => [plain p kind tokens literals]
  | block p body => block p body :: flattenList body
  | branch p header literals body otherwise =>
    branch p header literals body otherwise :: flattenList body ++ flattenOption otherwise
  | loop p header literals body => loop p header literals body :: flattenList body
  | switch p header literals clauses => switch p header literals clauses :: flattenClauses clauses
  | select p header literals clauses => select p header literals clauses :: flattenClauses clauses

/-- All statements of a list, function literals left out. -/
def flattenList : List Statement → List Statement
  | [] => []
  | s :: rest => flatten s ++ flattenList rest

/-- All statements of the other branch. -/
def flattenOption : Option (List Statement) → List Statement
  | none => []
  | some body => flattenList body

/-- All statements of clauses. -/
def flattenClauses : List Clause → List Statement
  | [] => []
  | .mk _ _ _ body :: rest => flattenList body ++ flattenClauses rest

end

end Statement

end GoIdiom
