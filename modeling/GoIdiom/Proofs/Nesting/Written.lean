import GoIdiom.Proofs.Derivation
import GoIdiom.Proofs.Headers.Search
import GoIdiom.Proofs.Nesting.Marks
import GoIdiom.Proofs.Printing.Clauses

/-!
# Written bodies

The bodies of functions as they are written: simple statements with function literals in them, branches with their
other branches, loops, switches and selects. A level is the block of a control statement or the body of a function
literal. Two kinds of levels are written that no walk enters: an `else` block that holds a single `if` and nothing
else, and what stands in the header of a clause.

Runs and headers are such that they are read whole: the search for a block passes over a header, and no brace is
taken for the body of a function type.
-/

namespace GoIdiom.Nesting

open Token Statement

/-! ## Runs -/

/-- The parts of a run are those of a simple statement. -/
structure IsSimple (ps : List Part) : Prop where
  begins : ∃ t rest, Part.run ps = t :: rest ∧ beginsPlain t rest = true
  free : Free (fun t => t.isSemi || startsClause t) (Part.run ps)
  typesStay : Part.TypesStay ps

/-- The parts of a run are those of a header between a keyword and a block. -/
structure IsHeader (keyword : Token) (ps : List Part) : Prop where
  passed : Block.Passed false keyword (Part.run ps)
  free : Free startsClause (Part.run ps)
  typesStay : Part.TypesStay ps

/-- The parts of a run are those of a header between the keyword of a clause and its colon. -/
structure IsClauseHeader (ps : List Part) : Prop where
  free : Free startsClause (Part.run ps)
  colonless : Free (·.isOp ":") (Part.run ps)

/-! ## Bodies -/

mutual

/-- Statements of a body, with semicolons between them. It is told of each statement whether it is an `if`. -/
inductive WrittenList : List Bool → Marked → Prop
  | nil : WrittenList [] []
  | semi {t : Token} {ifs : List Bool} {rest : Marked} (ht : t.isSemi = true) (hrest : WrittenList ifs rest) :
      WrittenList ifs ((t, .none) :: rest)
  | label {name colon : Token} {ifs : List Bool} {rest : Marked} (hname : name.isIdent = true)
      (hcolon : colon.isOp ":" = true) (hrest : WrittenList ifs rest) :
      WrittenList ifs ((name, .none) :: (colon, .none) :: rest)
  | last {isIf : Bool} {s : Marked} (hs : WrittenStatement isIf s) : WrittenList [isIf] s
  | cons {t : Token} {isIf : Bool} {ifs : List Bool} {s rest : Marked} (hs : WrittenStatement isIf s)
      (ht : t.isSemi = true) (hrest : WrittenList ifs rest) : WrittenList (isIf :: ifs) (s ++ (t, .none) :: rest)

/-- A statement without its label. -/
inductive WrittenStatement : Bool → Marked → Prop
  | simple {ps : List Part} {run : Marked} (hps : IsSimple ps) (hrun : WrittenRun ps run) :
      WrittenStatement false run
  | block {opener closer : Token} {ifs : List Bool} {body : Marked} (hopen : opener.isOp "\x7b" = true)
      (hbody : WrittenList ifs body) (hclose : closer.isOp "\x7d" = true) :
      WrittenStatement false ((opener, .none) :: (body ++ [(closer, .none)]))
  | compound {keyword : Token} {rest : Marked}
      (hkeyword : keyword.isKeywordIn ["if", "for", "switch", "select"] = true)
      (hrest : WrittenCompound keyword rest) : WrittenStatement (keyword.isKeyword "if") ((keyword, .none) :: rest)

/-- What stands behind the keyword of a compound statement. -/
inductive WrittenCompound : Token → Marked → Prop
  | branch {keyword opener closer : Token} {ps : List Part} {ifs : List Bool} {header body other : Marked}
      (hkeyword : keyword.isKeyword "if" = true) (hps : IsHeader keyword ps) (hheader : WrittenRun ps header)
      (hopen : opener.isOp "\x7b" = true) (hbody : WrittenList ifs body) (hclose : closer.isOp "\x7d" = true)
      (hother : WrittenElse other) : WrittenCompound keyword (header ++ (braced true opener body closer ++ other))
  | loop {keyword opener closer : Token} {ps : List Part} {ifs : List Bool} {header body : Marked}
      (hkeyword : keyword.isKeyword "for" = true) (hps : IsHeader keyword ps) (hheader : WrittenRun ps header)
      (hopen : opener.isOp "\x7b" = true) (hbody : WrittenList ifs body) (hclose : closer.isOp "\x7d" = true) :
      WrittenCompound keyword (header ++ braced true opener body closer)
  | choice {keyword opener closer : Token} {ps : List Part} {header clauses : Marked}
      (hkeyword : keyword.isKeywordIn ["switch", "select"] = true) (hps : IsHeader keyword ps)
      (hheader : WrittenRun ps header) (hopen : opener.isOp "\x7b" = true) (hclauses : WrittenClauses clauses)
      (hsome : clauses ≠ []) (hclose : closer.isOp "\x7d" = true) :
      WrittenCompound keyword (header ++ braced true opener clauses closer)

/-- What stands behind the first block of a branch. An `else` block is entered unless it holds a single `if`. -/
inductive WrittenElse : Marked → Prop
  | none : WrittenElse []
  | block {word opener closer : Token} {ifs : List Bool} {body : Marked} (hword : word.isKeyword "else" = true)
      (hopen : opener.isOp "\x7b" = true) (hbody : WrittenList ifs body) (hclose : closer.isOp "\x7d" = true) :
      WrittenElse ((word, .none) :: braced (ifs != [true]) opener body closer)
  | branch {word keyword : Token} {rest : Marked} (hword : word.isKeyword "else" = true)
      (hkeyword : keyword.isKeyword "if" = true) (hrest : WrittenCompound keyword rest) :
      WrittenElse ((word, .none) :: (keyword, .none) :: rest)

/-- The clauses of a switch or select. Nothing in their headers is entered. -/
inductive WrittenClauses : Marked → Prop
  | nil : WrittenClauses []
  | cons {keyword colon : Token} {ps : List Part} {ifs : List Bool} {header body rest : Marked}
      (hkeyword : startsClause keyword = true) (hps : IsClauseHeader ps) (hheader : WrittenRun ps header)
      (hcolon : colon.isOp ":" = true) (hbody : WrittenList ifs body) (hrest : WrittenClauses rest) :
      WrittenClauses ((keyword, .none) :: (hidden header ++ (colon, .none) :: (body ++ rest)))

/-- A run by its parts. -/
inductive WrittenRun : List Part → Marked → Prop
  | nil : WrittenRun [] []
  | plain {t : Token} {ht : t.isKeyword "func" = false} {ps : List Part} {rest : Marked}
      (hrest : WrittenRun ps rest) :
      WrittenRun (.plain t ht :: ps) ((t, .none) :: rest)
  | functionType {keyword opener : Token} {hkeyword : keyword.isKeyword "func" = true}
      {hopen : opener.isOp "(" = true} {ps : List Part} {rest : Marked} (hrest : WrittenRun ps rest) :
      WrittenRun (.functionType keyword opener hkeyword hopen :: ps) ((keyword, .none) :: (opener, .none) :: rest)
  | literal {c : LiteralCut} {hc : c.WellFormed} {ps : List Part} {ifs : List Bool} {body rest : Marked}
      (hinner : c.body.inner = tokens body) (hbody : WrittenList ifs body) (hrest : WrittenRun ps rest) :
      WrittenRun (.literal c hc :: ps)
        (plainly c.signature ++ (braced true c.body.opener body c.body.closer ++ rest))

end

/-! ## Tokens of bodies -/

/-- A run has the tokens of its parts. -/
theorem tokens_run {ps : List Part} {run : Marked} : WrittenRun ps run → tokens run = Part.run ps
  | .nil => rfl
  | .plain hrest => by
    rw [tokens_cons, tokens_run hrest, Part.run_cons]
    rfl
  | .functionType hrest => by
    rw [tokens_cons, tokens_cons, tokens_run hrest, Part.run_cons]
    rfl
  | .literal hinner _ hrest => by
    rw [tokens_append, tokens_append, tokens_plainly, tokens_braced, tokens_run hrest, Part.run_cons, ← hinner,
      ← List.append_assoc]
    rfl

/-- An identifier starts no clause. -/
theorem startsClause_of_isIdent {t : Token} (h : t.isIdent = true) : startsClause t = false := by
  apply startsClause_of_kind
  rw [beq_iff_eq.mp h]
  decide

/-- A keyword other than `case` and `default` starts no clause. -/
theorem startsClause_of_isKeyword {t : Token} {word : String} (h : t.isKeyword word = true)
    (hword : ["case", "default"].contains word = false) : startsClause t = false := by
  rw [startsClause, isKeywordIn_of_isKeyword h, hword]

/-- A group of braces holds no keyword of a clause outside brackets. -/
theorem free_braced {level : Bool} {opener closer : Token} {inner : Marked} (hopen : opener.isOp "\x7b" = true)
    (hinner : Balanced (tokens inner)) (hclose : closer.isOp "\x7d" = true) :
    Free startsClause (tokens (braced level opener inner closer)) := by
  rw [tokens_braced]
  exact .group (closes_of_isOp hopen hclose) (startsClause_of_isOp hopen) hinner .nil

mutual

/-- The keywords of clauses stand in brackets. -/
theorem free_list {ifs : List Bool} {ms : Marked} : WrittenList ifs ms → Free startsClause (tokens ms)
  | .nil => .nil
  | .semi ht hrest => .plain (isPlain_of_isSemi ht) (startsClause_of_isSemi ht) (free_list hrest)
  | .label hname hcolon hrest =>
    .plain (isPlain_of_isIdent hname) (startsClause_of_isIdent hname)
      (.plain (isPlain_of_isOp hcolon (by decide)) (startsClause_of_isOp hcolon) (free_list hrest))
  | .last hs => free_statement hs
  | .cons hs ht hrest => by
    rw [tokens_append]
    exact (free_statement hs).append (.plain (isPlain_of_isSemi ht) (startsClause_of_isSemi ht) (free_list hrest))

/-- A statement has no start of a clause outside brackets. -/
theorem free_statement {isIf : Bool} {ms : Marked} : WrittenStatement isIf ms → Free startsClause (tokens ms)
  | .simple hps hrun => by
    rw [tokens_run hrun]
    exact hps.free.mono fun t ht => (Bool.or_eq_false_iff.mp ht).2
  | .block hopen hbody hclose => by
    rw [tokens_cons, tokens_append]
    exact .group (closes_of_isOp hopen hclose) (startsClause_of_isOp hopen) (free_list hbody).balanced .nil
  | .compound hkeyword hrest => by
    obtain ⟨word, hmem, hword⟩ := isKeywordIn_iff.mp hkeyword
    have hclause : ["case", "default"].contains word = false := by
      revert hmem
      simp only [List.mem_cons, List.not_mem_nil, or_false]
      rintro (rfl | rfl | rfl | rfl) <;> decide
    exact .plain (isPlain_of_isKeyword hword) (startsClause_of_isKeyword hword hclause) (free_compound hrest)

/-- A compound statement has no start of a clause outside brackets. -/
theorem free_compound {keyword : Token} {ms : Marked} : WrittenCompound keyword ms → Free startsClause (tokens ms)
  | .branch _ hps hheader hopen hbody hclose hother => by
    rw [tokens_append, tokens_append, tokens_run hheader]
    exact hps.free.append ((free_braced hopen (free_list hbody).balanced hclose).append (free_else hother))
  | .loop _ hps hheader hopen hbody hclose => by
    rw [tokens_append, tokens_run hheader]
    exact hps.free.append (free_braced hopen (free_list hbody).balanced hclose)
  | .choice _ hps hheader hopen hclauses _ hclose => by
    rw [tokens_append, tokens_run hheader]
    exact hps.free.append (free_braced hopen (balanced_clauses hclauses) hclose)

/-- Another branch has no start of a clause outside brackets. -/
theorem free_else {ms : Marked} : WrittenElse ms → Free startsClause (tokens ms)
  | .none => .nil
  | .block hword hopen hbody hclose =>
    .plain (isPlain_of_isKeyword hword) (startsClause_of_isKeyword hword (by decide))
      (free_braced hopen (free_list hbody).balanced hclose)
  | .branch hword hkeyword hrest =>
    .plain (isPlain_of_isKeyword hword) (startsClause_of_isKeyword hword (by decide))
      (.plain (isPlain_of_isKeyword hkeyword) (startsClause_of_isKeyword hkeyword (by decide))
        (free_compound hrest))

/-- The clauses of a switch or select are well bracketed. -/
theorem balanced_clauses {ms : Marked} : WrittenClauses ms → Balanced (tokens ms)
  | .nil => .nil
  | .cons hkeyword hps hheader hcolon hbody hrest => by
    rw [tokens_cons, tokens_append, tokens_cons, tokens_append, tokens_hidden, tokens_run hheader]
    obtain ⟨word, -, hword⟩ := isKeywordIn_iff.mp hkeyword
    exact .plain (isPlain_of_isKeyword hword) (hps.free.balanced.append
      (.plain (isPlain_of_isOp hcolon (by decide)) ((free_list hbody).balanced.append (balanced_clauses hrest))))

end

/-! ## Levels of bodies -/

mutual

/-- A body closes the levels it opens, whichever of them count. -/
theorem nests_list {counts : Bool → Bool} {ifs : List Bool} {ms : Marked} :
    WrittenList ifs ms → ∃ n, Nests counts ms n
  | .nil => ⟨0, .nil⟩
  | .semi _ hrest => by
    obtain ⟨n, hn⟩ := nests_list hrest
    exact ⟨n, hn.cons _⟩
  | .label _ _ hrest => by
    obtain ⟨n, hn⟩ := nests_list hrest
    exact ⟨n, (hn.cons _).cons _⟩
  | .last hs => nests_statement hs
  | .cons hs _ hrest => by
    obtain ⟨m, hm⟩ := nests_statement hs
    obtain ⟨n, hn⟩ := nests_list hrest
    exact ⟨_, hm.append (hn.cons _)⟩

/-- A statement closes the levels it opens. -/
theorem nests_statement {counts : Bool → Bool} {isIf : Bool} {ms : Marked} :
    WrittenStatement isIf ms → ∃ n, Nests counts ms n
  | .simple _ hrun => nests_run hrun
  | .block _ hbody _ => by
    obtain ⟨n, hn⟩ := nests_list hbody
    exact ⟨_, (hn.append (Nests.nil.cons _)).cons _⟩
  | .compound _ hrest => by
    obtain ⟨n, hn⟩ := nests_compound hrest
    exact ⟨n, hn.cons _⟩

/-- A compound statement closes the levels it opens. -/
theorem nests_compound {counts : Bool → Bool} {keyword : Token} {ms : Marked} :
    WrittenCompound keyword ms → ∃ n, Nests counts ms n
  | .branch _ _ hheader _ hbody _ hother => by
    obtain ⟨l, hl⟩ := nests_run hheader
    obtain ⟨m, hm⟩ := nests_list hbody
    obtain ⟨n, hn⟩ := nests_else hother
    exact ⟨_, hl.append ((hm.braced ..).append hn)⟩
  | .loop _ _ hheader _ hbody _ => by
    obtain ⟨l, hl⟩ := nests_run hheader
    obtain ⟨m, hm⟩ := nests_list hbody
    exact ⟨_, hl.append (hm.braced ..)⟩
  | .choice _ _ hheader _ hclauses _ _ => by
    obtain ⟨l, hl⟩ := nests_run hheader
    obtain ⟨m, hm⟩ := nests_clauses hclauses
    exact ⟨_, hl.append (hm.braced ..)⟩

/-- Another branch closes the levels it opens. -/
theorem nests_else {counts : Bool → Bool} {ms : Marked} : WrittenElse ms → ∃ n, Nests counts ms n
  | .none => ⟨0, .nil⟩
  | .block _ _ hbody _ => by
    obtain ⟨n, hn⟩ := nests_list hbody
    exact ⟨_, (hn.braced ..).cons _⟩
  | .branch _ _ hrest => by
    obtain ⟨n, hn⟩ := nests_compound hrest
    exact ⟨n, (hn.cons _).cons _⟩

/-- Clauses close the levels they open. -/
theorem nests_clauses {counts : Bool → Bool} {ms : Marked} : WrittenClauses ms → ∃ n, Nests counts ms n
  | .nil => ⟨0, .nil⟩
  | .cons _ _ hheader _ hbody hrest => by
    obtain ⟨l, hl⟩ : ∃ l, Nests (fun _ => counts false) _ l := nests_run hheader
    obtain ⟨m, hm⟩ := nests_list hbody
    obtain ⟨n, hn⟩ := nests_clauses hrest
    exact ⟨_, (hl.hidden.append ((hm.append hn).cons _)).cons _⟩

/-- A run closes the levels it opens. -/
theorem nests_run {counts : Bool → Bool} {ps : List Part} {ms : Marked} :
    WrittenRun ps ms → ∃ n, Nests counts ms n
  | .nil => ⟨0, .nil⟩
  | .plain hrest => by
    obtain ⟨n, hn⟩ := nests_run hrest
    exact ⟨n, hn.cons _⟩
  | .functionType hrest => by
    obtain ⟨n, hn⟩ := nests_run hrest
    exact ⟨n, (hn.cons _).cons _⟩
  | .literal _ hbody hrest => by
    obtain ⟨m, hm⟩ := nests_list hbody
    obtain ⟨n, hn⟩ := nests_run hrest
    exact ⟨_, (Nests.plainly _).append ((hm.braced ..).append hn)⟩

end

end GoIdiom.Nesting
