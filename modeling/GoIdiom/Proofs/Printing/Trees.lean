import GoIdiom.Statement.OfTokens
import GoIdiom.Proofs.Printing.Runs
import Mathlib.Data.List.Forall2

/-!
# Printed statement trees

A statement tree is printed as the tokens of its runs with the tokens of the syntax around them. Of the
latter only kind and text are given, they may stand anywhere. Canonical trees are those whose runs can
stand where the printing puts them.
-/

namespace GoIdiom

/-- A piece of a printed statement tree: a token of one of its runs, a token of the syntax around them, or
the semicolon that ends a statement, written or inserted. -/
inductive Piece where
  | own (t : Token)
  | mark (kind : TokenKind) (text : String)
  | semi
deriving DecidableEq, Repr

namespace Piece

/-- Whether the piece can be written as this token. -/
def isWritten : Piece → Token → Bool
  | own t, u => t == u
  | mark kind text, u => u.kind == kind && u.text == text
  | semi, u => u.isSemi

/-- The token that the piece is written as when all of the syntax stands at the beginning of the text. -/
def token : Piece → Token
  | own t => t
  | mark kind text => ⟨kind, text, .start⟩
  | semi => ⟨.semi, ";", .start⟩

/-- The tokens that pieces are written as. -/
def Written : List Piece → List Token → Prop := List.Forall₂ fun p t => p.isWritten t = true

/-- A group of braces. -/
def braced (ps : List Piece) : List Piece := mark .op "\x7b" :: (ps ++ [mark .op "\x7d"])

/-- A keyword, a header and the group of braces after it. -/
def headed (word : String) (header : List Token) (ps : List Piece) : List Piece :=
  mark .keyword word :: (header.map own ++ braced ps)

/-- A label with its colon. -/
def label : Option String → List Piece
  | none => []
  | some name => [mark .ident name, mark .op ":"]

section Written

variable {p : Piece} {ps qs : List Piece} {ts : List Token}

/-- Pieces are written by their own tokens. -/
theorem written_token (ps : List Piece) : Written ps (ps.map token) := by
  refine List.forall₂_map_right_iff.mpr (List.forall₂_same.mpr fun p _ => ?_)
  cases p with
  | own t => exact beq_self_eq_true t
  | mark kind text => exact Bool.and_eq_true_iff.mpr ⟨beq_self_eq_true kind, beq_self_eq_true text⟩
  | semi => rfl

/-- Nothing is written by nothing. -/
theorem written_nil : Written [] ts ↔ ts = [] := List.forall₂_nil_left_iff

/-- Pieces are written one by one. -/
theorem written_cons : Written (p :: ps) ts ↔ ∃ t us, p.isWritten t = true ∧ Written ps us ∧ ts = t :: us :=
  List.forall₂_cons_left_iff

/-- Two lists of pieces are written in a row. -/
theorem written_append : Written (ps ++ qs) ts ↔
    ∃ us vs, Written ps us ∧ Written qs vs ∧ ts = us ++ vs := by
  induction ps generalizing ts with
  | nil =>
    simp only [List.nil_append, written_nil]
    constructor
    · intro h
      exact ⟨[], ts, rfl, h, rfl⟩
    · rintro ⟨_, _, rfl, h, rfl⟩
      exact h
  | cons p ps ih =>
    simp only [List.cons_append, written_cons, ih]
    constructor
    · rintro ⟨t, _, ht, ⟨us, vs, hus, hvs, rfl⟩, rfl⟩
      exact ⟨t :: us, vs, ⟨t, us, ht, hus, rfl⟩, hvs, rfl⟩
    · rintro ⟨_, vs, ⟨t, us, ht, hus, rfl⟩, hvs, rfl⟩
      exact ⟨t, us ++ vs, ht, ⟨us, vs, hus, hvs, rfl⟩, rfl⟩

/-- The tokens of a run are written as they are. -/
theorem written_own {run : List Token} : Written (run.map own) ts ↔ ts = run := by
  have hown : (fun (t u : Token) => (own t).isWritten u = true) = fun t u => t = u := by
    funext t u
    exact propext beq_iff_eq
  rw [Written, List.forall₂_map_left_iff, hown, List.forall₂_eq_eq_eq, eq_comm]

/-- What is printed in braces is written as a group. -/
theorem exists_of_written_braced (h : Written (braced ps) ts) : ∃ opener inner closer,
    opener.isOp "\x7b" = true ∧ Written ps inner ∧ closer.isOp "\x7d" = true ∧
      ts = opener :: (inner ++ [closer]) := by
  simp only [braced, written_cons, written_append, written_nil] at h
  obtain ⟨opener, _, hopen, ⟨inner, _, hinner, ⟨closer, _, hclose, rfl, rfl⟩, rfl⟩, rfl⟩ := h
  exact ⟨opener, inner, closer, hopen, hinner, hclose, rfl⟩

/-- What is printed with a header and a block is written with its keyword, its header and a group. -/
theorem exists_of_written_headed {word : String} {header : List Token} (h : Written (headed word header ps) ts) :
    ∃ keyword opener inner closer, keyword.isKeyword word = true ∧ opener.isOp "\x7b" = true ∧
      Written ps inner ∧ closer.isOp "\x7d" = true ∧
      ts = keyword :: (header ++ opener :: (inner ++ [closer])) := by
  simp only [headed, written_cons, written_append, written_own] at h
  obtain ⟨keyword, _, hkeyword, ⟨_, _, rfl, hbraced, rfl⟩, rfl⟩ := h
  obtain ⟨opener, inner, closer, hopen, hinner, hclose, rfl⟩ := exists_of_written_braced hbraced
  exact ⟨keyword, opener, inner, closer, hkeyword, hopen, hinner, hclose, rfl⟩

end Written

end Piece

/-- A well bracketed run without such a token outside brackets. -/
def Token.isFree (p : Token → Bool) (ts : List Token) : Bool :=
  (Token.matchBrackets ts).isOk && Token.countTop p 0 ts == 0

namespace Statement

open Piece

/-- The words that compound statements begin with. -/
def compoundWords : List String := ["if", "for", "switch", "select"]

/-- Whether the statements of an other branch are one `if` without a label. -/
def isElseIf : List Statement → Bool
  | [.branch p ..] => p.label.isNone
  | _ => false

mutual

/-- The pieces of a statement after its label. -/
def print : Statement → List Piece
  | plain _ _ tokens _ => tokens.map own
  | block _ body => braced (printList body)
  | branch _ header _ body otherwise => headed "if" header (printList body) ++ printElse otherwise
  | loop _ header _ body => headed "for" header (printList body)
  | switch _ header _ clauses => headed "switch" header (printClauses clauses)
  | select _ header _ clauses => headed "select" header (printClauses clauses)

/-- The pieces of a statement list, with a semicolon after every statement. -/
def printList : List Statement → List Piece
  | [] => []
  | s :: rest => label s.place.label ++ (print s ++ semi :: printList rest)

/-- The pieces of an other branch. A single `if` stands there without braces and semicolon. -/
def printElse : Option (List Statement) → List Piece
  | none => []
  | some body =>
    mark .keyword "else" :: if isElseIf body then (printList body).dropLast else braced (printList body)

/-- The pieces of clauses. -/
def printClauses : List Clause → List Piece
  | [] => []
  | .mk _ isDefault header body :: rest =>
    mark .keyword (if isDefault then "default" else "case") ::
      (header.map own ++ mark .op ":" :: (printList body ++ printClauses rest))

end

section Inversion

variable {ts : List Token}

/-- The other branch is one `if` without a label. -/
theorem of_isElseIf {s : Statement} {rest : List Statement} (h : isElseIf (s :: rest) = true) :
    rest = [] ∧ s.place.label = none ∧ s.kindName = "if" := by
  cases rest with
  | cons => cases s <;> cases h
  | nil =>
    cases s with
    | branch => exact ⟨rfl, Option.isNone_iff_eq_none.mp h, rfl⟩
    | _ => cases h

/-- A statement without a label, printed without its semicolon. -/
theorem printList_dropLast {s : Statement} (h : s.place.label = none) : (printList [s]).dropLast = print s := by
  rw [printList, printList, h, label, List.nil_append, List.dropLast_concat]

/-- A printed body is written as the first statement's label, the statement, a semicolon and the others. -/
theorem exists_of_written_statement {s : Statement} {rest : List Statement}
    (h : Written (printList (s :: rest)) ts) :
    ∃ before core semi more, Written (label s.place.label) before ∧ Written (print s) core ∧
    semi.isSemi = true ∧
      Written (printList rest) more ∧ ts = before ++ (core ++ semi :: more) := by
  simp only [printList, written_append, written_cons] at h
  obtain ⟨before, _, hbefore, ⟨core, _, hcore, ⟨semi, more, hsemi, hmore, rfl⟩, rfl⟩, rfl⟩ := h
  exact ⟨before, core, semi, more, hbefore, hcore, hsemi, hmore, rfl⟩

/-- An other branch stands in braces, or is one `if` without them. -/
theorem exists_of_written_else {body : List Statement} (h : Written (printElse (some body)) ts) :
    ∃ keyword more, keyword.isKeyword "else" = true ∧ ts = keyword :: more ∧
      (isElseIf body = false ∧ Written (braced (printList body)) more ∨
        ∃ s, body = [s] ∧ isElseIf [s] = true ∧ Written (print s) more) := by
  rw [printElse, written_cons] at h
  obtain ⟨keyword, more, hkeyword, hmore, rfl⟩ := h
  refine ⟨keyword, more, hkeyword, rfl, ?_⟩
  cases helse : isElseIf body with
  | false =>
    rw [helse, if_neg Bool.false_ne_true] at hmore
    exact .inl ⟨rfl, hmore⟩
  | true =>
    rw [helse, if_pos rfl] at hmore
    cases body with
    | nil => cases helse
    | cons s rest =>
      obtain ⟨rfl, hlabel, -⟩ := of_isElseIf helse
      rw [printList_dropLast hlabel] at hmore
      exact .inr ⟨s, rfl, helse, hmore⟩

/-- Printed clauses are written as the first one's keyword, header, colon and body, and the others. -/
theorem exists_of_written_clause {pos : Position} {isDefault : Bool} {header : List Token} {body : List Statement}
    {rest : List Clause} (h : Written (printClauses (.mk pos isDefault header body :: rest)) ts) :
    ∃ keyword colon inner more, keyword.isKeyword (if isDefault then "default" else "case") = true ∧
      colon.isOp ":" = true ∧ Written (printList body) inner ∧ Written (printClauses rest) more ∧
        ts = keyword :: (header ++ colon :: (inner ++ more)) := by
  simp only [printClauses, written_append, written_cons, written_own] at h
  obtain ⟨keyword, _, hkeyword,
    ⟨_, _, rfl, ⟨colon, _, hcolon, ⟨inner, more, hinner, hmore, rfl⟩, rfl⟩, rfl⟩, rfl⟩ := h
  exact ⟨keyword, colon, inner, more, hkeyword, hcolon, hinner, hmore, rfl⟩

end Inversion

/-- Whether a plain statement can begin so. -/
def beginsPlain (t : Token) (rest : List Token) : Bool :=
  !t.isKeywordIn compoundWords && !t.isOp "\x7b" && !(t.isIdent && rest.head?.any (·.isOp ":"))

/-- The runs of plain statements of this kind. -/
def isPlainRun (kind : PlainKind) : List Token → Bool
  | [] => false
  | t :: rest =>
    kind == plainKind t && beginsPlain t rest && (t :: rest).all (!·.isKeyword "func") &&
      Token.isFree (fun t => t.isSemi || startsClause t) (t :: rest)

/-- The headers of compound statements. -/
def isHeader (ts : List Token) : Bool :=
  ts.all (!·.isKeywordIn ["func", "interface", "struct"]) && Token.isFree (·.isOp "\x7b") ts

/-- The headers of clauses. -/
def isClauseHeader (ts : List Token) : Bool :=
  ts.all (!·.isKeywordIn ["func", "case", "default"]) && Token.isFree (·.isOp ":") ts

mutual

/-- Whether every run of the statement can stand where it is printed, and no function literal is cut out
of one. -/
def canonical : Statement → Bool
  | plain _ kind tokens literals => isPlainRun kind tokens && literals.isEmpty
  | block _ body => canonicalList body
  | branch _ header literals body otherwise =>
    isHeader header && literals.isEmpty && canonicalList body && canonicalElse otherwise
  | loop _ header literals body => isHeader header && literals.isEmpty && canonicalList body
  | switch _ header literals clauses => isHeader header && literals.isEmpty && canonicalClauses clauses
  | select _ header literals clauses => isHeader header && literals.isEmpty && canonicalClauses clauses

/-- Whether all statements are canonical. -/
def canonicalList : List Statement → Bool
  | [] => true
  | s :: rest => canonical s && canonicalList rest

/-- Whether the other branch is canonical. -/
def canonicalElse : Option (List Statement) → Bool
  | none => true
  | some body => canonicalList body

/-- Whether all clauses are canonical. -/
def canonicalClauses : List Clause → Bool
  | [] => true
  | .mk _ _ header body :: rest => isClauseHeader header && canonicalList body && canonicalClauses rest

end

/-- A header without the keyword of a clause outside brackets. -/
def isClear (header : List Token) : Bool := Token.countTop startsClause 0 header == 0

mutual

/-- Whether the headers of the statement and of the branches chained to it are clear. -/
def headersClear : Statement → Bool
  | plain .. => true
  | block .. => true
  | branch _ header _ _ otherwise => isClear header && headersClearElse otherwise
  | loop _ header .. => isClear header
  | switch _ header .. => isClear header
  | select _ header .. => isClear header

/-- Whether this holds of all statements of a list. -/
def headersClearList : List Statement → Bool
  | [] => true
  | s :: rest => headersClear s && headersClearList rest

/-- Whether this holds of an other branch, of which a single `if` is chained. -/
def headersClearElse : Option (List Statement) → Bool
  | none => true
  | some body => if isElseIf body then headersClearList body else true

end

mutual

/-- Whether the statements that stand directly in the clauses of a statement, at any depth, have clear
headers. -/
def clausesClear : Statement → Bool
  | plain .. => true
  | block _ body => clausesClearList body
  | branch _ _ _ body otherwise => clausesClearList body && clausesClearElse otherwise
  | loop _ _ _ body => clausesClearList body
  | switch _ _ _ clauses => clausesClearClauses clauses
  | select _ _ _ clauses => clausesClearClauses clauses

/-- Whether this holds of all statements of a list. -/
def clausesClearList : List Statement → Bool
  | [] => true
  | s :: rest => clausesClear s && clausesClearList rest

/-- Whether this holds of an other branch. -/
def clausesClearElse : Option (List Statement) → Bool
  | none => true
  | some body => clausesClearList body

/-- Whether this holds of the clauses and of what they hold. -/
def clausesClearClauses : List Clause → Bool
  | [] => true
  | .mk _ _ _ body :: rest => headersClearList body && clausesClearList body && clausesClearClauses rest

end

mutual

/-- The statement without the places where it and its parts begin and end. Labels and runs stay. -/
def unplaced : Statement → Statement
  | plain p kind tokens literals => plain ⟨p.label, .start, 0⟩ kind tokens literals
  | block p body => block ⟨p.label, .start, 0⟩ (unplacedList body)
  | branch p header literals body otherwise =>
    branch ⟨p.label, .start, 0⟩ header literals (unplacedList body) (unplacedElse otherwise)
  | loop p header literals body => loop ⟨p.label, .start, 0⟩ header literals (unplacedList body)
  | switch p header literals clauses => switch ⟨p.label, .start, 0⟩ header literals (unplacedClauses clauses)
  | select p header literals clauses => select ⟨p.label, .start, 0⟩ header literals (unplacedClauses clauses)

/-- The statements without their places. -/
def unplacedList : List Statement → List Statement
  | [] => []
  | s :: rest => unplaced s :: unplacedList rest

/-- The other branch without its places. -/
def unplacedElse : Option (List Statement) → Option (List Statement)
  | none => none
  | some body => some (unplacedList body)

/-- The clauses without their places. -/
def unplacedClauses : List Clause → List Clause
  | [] => []
  | .mk _ isDefault header body :: rest => .mk .start isDefault header (unplacedList body) :: unplacedClauses rest

end

end Statement

end GoIdiom
