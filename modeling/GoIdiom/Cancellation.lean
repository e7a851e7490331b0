import GoIdiom.Text.Search
import GoIdiom.Statement

/-!
# Signals that stop a goroutine

A goroutine waits on a cancellation signal when it receives from `ctx.Done()` or from a channel whose
name says that it announces an end, or ranges over such a channel.
-/

namespace GoIdiom.Cancellation

/-- Words in the name of a channel that announces an end. -/
def signalWords : List String :=
  ["done", "quit", "stop", "cancel", "shutdown", "closing", "close", "exit", "term", "kill", "abort"]

/-- Whether a name says that a channel announces an end. -/
def isSignalName (name : String) : Bool := signalWords.any (Text.contains (Text.fold name))

/-- The rest of an operand inside `depth` open brackets: a chain of names, selectors, calls and
indices. -/
def operandFrom (depth : Nat) : List Token → List Token
  | [] => []
  | t :: rest =>
    if t.isOpIn ["(", "["] then t :: operandFrom (depth + 1) rest
    else
      match depth with
      | 0 => if t.isIdent || t.isOp "." then t :: operandFrom 0 rest else []
      | d + 1 => t :: operandFrom (if t.isOpIn [")", "]"] then d else d + 1) rest

/-- The operand at the head of a token run. -/
def operand (tokens : List Token) : List Token := operandFrom 0 tokens

/-- Whether an operand is a cancellation signal. -/
def isSignal (tokens : List Token) : Bool :=
  let text := Token.render tokens
  !tokens.isEmpty &&
    (Text.endsWith text ".Done()" ||
      (!Text.endsWith text ")" &&
        match (tokens.filter (·.isIdent)).getLast? with
        | some name => isSignalName name.text
        | none => false))

/-- Whether a value may end with this token, so that an arrow after it sends instead of receiving, or
the arrow belongs to a channel type. -/
def precludesReceive (t : Token) : Bool :=
  match t.kind with
  | .ident | .number | .string | .char => true
  | .op => [")", "]", "\x7d"].contains t.text
  | .keyword => t.text == "chan"
  | .semi => false

/-- Whether a run receives from a signal, given the token before the run. -/
def receivesAfter (previous : Option Token) : List Token → Bool
  | [] => false
  | t :: rest =>
    (t.isOp "<-" && !previous.any precludesReceive && isSignal (operand rest)) ||
      receivesAfter (some t) rest

/-- Whether a token run receives from a cancellation signal. -/
def receives (tokens : List Token) : Bool := receivesAfter none tokens

/-- Whether the header of a loop ranges over a cancellation signal. -/
def ranges : List Token → Bool
  | [] => false
  | t :: rest => if t.isKeyword "range" then isSignal (operand rest) else ranges rest

/-- Calls that end the goroutine or the program, up to their parenthesis. -/
def endingCalls : List String :=
  ["panic(", "runtime.Goexit(", "os.Exit(", "log.Fatal(", "log.Fatalf(", "log.Fatalln(", "log.Panic(",
   "log.Panicf(", "log.Panicln("]

/-- Whether a token run begins with a call that does not return. -/
def terminates (tokens : List Token) : Bool := Text.startsWithAny (Token.render tokens) endingCalls

/-- Adds the names among `wanted` that a token run uses to those found before. `previous` is the token
before the run; a name after a point is a selector. -/
def namesFrom (wanted : List String) (previous : Option Token) (found : List String) :
    List Token → List String
  | [] => found
  | t :: rest =>
    if t.isIdent && !previous.any (·.isOp ".") && wanted.contains t.text && !found.contains t.text then
      namesFrom wanted (some t) (found ++ [t.text]) rest
    else namesFrom wanted (some t) found rest

/-- The names among `wanted` that statements use, function literals included, in order of first use. -/
def references (body : List Statement) (wanted : List String) : List String :=
  namesFrom wanted none [] (Statement.listTokens body)

/-!
## Whether every path waits for a signal

The flow of a statement tells whether every path through it has waited on a cancellation signal or
ended the goroutine, and whether some path leaves the enclosing loop, switch or select by a break
before that. A body can be stopped when it waits somewhere and its flow is safe.
-/

/-- The summary of a statement or statement list. -/
structure Flow where
  safe : Bool
  breaks : Bool
deriving DecidableEq, Repr, Inhabited

/-- The flow of a statement inside a list, and how the list treats the statement. -/
structure Step where
  flow : Flow
  continues : Bool
  fallsThrough : Bool
deriving DecidableEq, Repr

namespace Flow

/-- Falls off the end without a wait. -/
def open' : Flow := ⟨false, false⟩

/-- Waits or ends on every path. -/
def closed : Flow := ⟨true, false⟩

/-- The flow of statements one after the other. Statements after one that is safe are not reached, and
a `continue` ends the list without a wait. -/
def sequence : List Step → Flow
  | [] => open'
  | s :: rest =>
    if s.continues then open'
    else if s.flow.safe then ⟨true, s.flow.breaks⟩
    else
      let more := sequence rest
      ⟨more.safe, s.flow.breaks || more.breaks⟩

/-- The flows of clauses. A clause that ends in `fallthrough` and is not safe before it takes the flow
of the next clause. -/
def clauses : List (List Step) → List Flow
  | [] => []
  | steps :: rest =>
    let more := clauses rest
    let flow :=
      if steps.getLast?.any (·.fallsThrough) then
        match more with
        | next :: _ =>
          let own := sequence steps.dropLast
          if own.safe then own else next
        | [] => sequence steps
      else sequence steps
    flow :: more

/-- Whether every clause is safe and none is left by a break. -/
def allClosed (flows : List Flow) : Bool := flows.all fun f => f.safe && !f.breaks

end Flow

/-- Whether a loop header has no condition. -/
def isInfinite : List Token → Bool
  | [] => true
  | [t] => t.isIdent && t.text == "true"
  | _ => false

/-- Whether a clause other than the default one receives from a signal in its header. -/
def clauseReceives (c : Clause) : Bool := !c.isDefault && receives c.header

mutual

/-- The flow of a statement. -/
def statementFlow : Statement → Flow
  | .plain _ kind tokens _ =>
    match kind with
    | .return | .goto => .closed
    | .break => ⟨true, true⟩
    | .simple | .declaration => ⟨receives tokens || terminates tokens, false⟩
    | .go | .defer | .continue | .fallthrough => ⟨receives tokens, false⟩
  | .block _ body => Flow.sequence (steps body)
  | .branch _ header _ body otherwise =>
    if receives header then .closed
    else
      let first := Flow.sequence (steps body)
      match otherFlow otherwise with
      | none => ⟨false, first.breaks⟩
      | some second => ⟨first.safe && second.safe, first.breaks || second.breaks⟩
  | .loop _ header _ body =>
    if receives header || ranges header then .closed
    else if !isInfinite header then .open'
    else
      let inner := Flow.sequence (steps body)
      ⟨inner.safe && !inner.breaks, false⟩
  | .switch _ header _ clauses =>
    if receives header then .closed
    else ⟨clauses.any (·.isDefault) && Flow.allClosed (Flow.clauses (clauseSteps clauses)), false⟩
  | .select _ header _ clauses =>
    if receives header || clauses.any clauseReceives then .closed
    else
      let flows := Flow.clauses (clauseSteps clauses)
      ⟨!flows.isEmpty && Flow.allClosed flows, false⟩

/-- The steps of a statement list. -/
def steps : List Statement → List Step
  | [] => []
  | s :: rest => ⟨statementFlow s, s.isPlain .continue, s.isPlain .fallthrough⟩ :: steps rest

/-- The flow of the other branch, if there is one. -/
def otherFlow : Option (List Statement) → Option Flow
  | none => none
  | some body => some (Flow.sequence (steps body))

/-- The steps of every clause. -/
def clauseSteps : List Clause → List (List Step)
  | [] => []
  | .mk _ _ _ body :: rest => steps body :: clauseSteps rest

end

/-- The flow of a statement list. -/
def sequenceFlow (body : List Statement) : Flow := Flow.sequence (steps body)

/-- The flow of every clause. -/
def clauseFlows (clauses : List Clause) : List Flow := Flow.clauses (clauseSteps clauses)

mutual

/-- Whether a statement waits somewhere, function literals left out. -/
def statementWaits : Statement → Bool
  | .plain _ _ tokens _ => receives tokens
  | .block _ body => containsWait body
  | .branch _ header _ body otherwise => receives header || containsWait body || otherWaits otherwise
  | .loop _ header _ body => receives header || ranges header || containsWait body
  | .switch _ header _ clauses => receives header || clausesWait clauses
  | .select _ header _ clauses => receives header || clausesWait clauses

/-- Whether a statement list waits somewhere. -/
def containsWait : List Statement → Bool
  | [] => false
  | s :: rest => statementWaits s || containsWait rest

/-- Whether the other branch waits somewhere. -/
def otherWaits : Option (List Statement) → Bool
  | none => false
  | some body => containsWait body

/-- Whether a clause waits in its header or body. -/
def clausesWait : List Clause → Bool
  | [] => false
  | .mk _ _ header body :: rest => receives header || containsWait body || clausesWait rest

end

/-- Whether a goroutine that runs this body can always be stopped. -/
def waitsForCancellation (body : List Statement) : Bool := containsWait body && (sequenceFlow body).safe

end GoIdiom.Cancellation
