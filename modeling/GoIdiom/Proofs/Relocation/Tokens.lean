import GoIdiom.Token
import GoIdiom.Token.Split

/-!
# Moving tokens

A relocation moves the written tokens of a file by keeping their order, and puts the inserted
semicolons anywhere on their lines. What is read from a token run by kinds and texts does not change,
and the runs that are cut out of it move along.
-/

namespace GoIdiom

namespace Token

/-- Whether a token is a semicolon that a line break stands for. -/
def isInserted (t : Token) : Bool := t.kind == .semi && t.text == "\n"

/-- A token of another kind is no inserted semicolon. -/
theorem isInserted_of_isSemi {t : Token} (h : t.isSemi = false) : t.isInserted = false := by
  rw [isSemi] at h
  rw [isInserted, h, Bool.false_and]

end Token

/-- Where tokens are moved to, and the file that they are moved to. -/
structure Relocation where
  path : String
  shift : Nat
  written : Position → Position
  inserted : Position → Position
  written_line : ∀ p, (written p).line = p.line + shift
  inserted_line : ∀ p, (inserted p).line = p.line + shift
  before_written : ∀ p q, (written p).before (written q) = p.before q

/-- Nothing is moved. -/
def Relocation.still (path : String) : Relocation where
  path := path
  shift := 0
  written := id
  inserted := id
  written_line := fun _ => rfl
  inserted_line := fun _ => rfl
  before_written := fun _ _ => rfl

/-- Tokens as they are when semicolons that line breaks stand for have no column. -/
def Relocation.settled (path : String) : Relocation where
  path := path
  shift := 0
  written := id
  inserted := fun p => ⟨p.line, 0⟩
  written_line := fun _ => rfl
  inserted_line := fun _ => rfl
  before_written := fun _ _ => rfl

namespace Relocation

variable (m : Relocation)

/-- The token at its new place. -/
def token (t : Token) : Token :=
  { t with pos := if t.isInserted then m.inserted t.pos else m.written t.pos }

section Token

variable (t : Token)

/-- A moved token keeps its kind. -/
@[simp] theorem kind_token : (m.token t).kind = t.kind := (rfl)

/-- A moved token keeps its text. -/
@[simp] theorem text_token : (m.token t).text = t.text := (rfl)

/-- A moved token is the same operator. -/
@[simp] theorem isOp_token (text : String) : (m.token t).isOp text = t.isOp text := (rfl)

/-- A moved token is among the same operators. -/
@[simp] theorem isOpIn_token (texts : List String) : (m.token t).isOpIn texts = t.isOpIn texts := (rfl)

/-- A moved token is the same keyword. -/
@[simp] theorem isKeyword_token (text : String) : (m.token t).isKeyword text = t.isKeyword text := (rfl)

/-- A moved token is among the same keywords. -/
@[simp] theorem isKeywordIn_token (texts : List String) :
    (m.token t).isKeywordIn texts = t.isKeywordIn texts := (rfl)

/-- A moved token is an identifier exactly when the token is. -/
@[simp] theorem isIdent_token : (m.token t).isIdent = t.isIdent := (rfl)

/-- A moved token is a semicolon exactly when the token is. -/
@[simp] theorem isSemi_token : (m.token t).isSemi = t.isSemi := (rfl)

/-- A moved token opens a bracket exactly when the token does. -/
@[simp] theorem isOpener_token : (m.token t).isOpener = t.isOpener := (rfl)

/-- A moved token closes a bracket exactly when the token does. -/
@[simp] theorem isCloser_token : (m.token t).isCloser = t.isCloser := (rfl)

/-- A moved token changes the depth of brackets by as much. -/
@[simp] theorem depthStep_token : (m.token t).depthStep = t.depthStep := (rfl)

/-- Moved tokens need a blank between them exactly when the tokens do. -/
@[simp] theorem needsBlank_token (u : Token) : (m.token t).needsBlank (m.token u) = t.needsBlank u := (rfl)

/-- A token changes its line as all tokens do. -/
@[simp] theorem line_token : (m.token t).line = t.line + m.shift := by
  rw [Token.line, token, Token.line]
  split
  · exact m.inserted_line t.pos
  · exact m.written_line t.pos

variable {t}

/-- A written token moves as its position does. -/
theorem pos_token (h : t.isInserted = false) : (m.token t).pos = m.written t.pos := by
  rw [token, h]
  rfl

/-- An identifier moves to its written place. -/
theorem pos_token_of_isIdent (h : t.isIdent = true) : (m.token t).pos = m.written t.pos := by
  refine m.pos_token (Token.isInserted_of_isSemi ?_)
  rw [Token.isIdent, beq_iff_eq] at h
  rw [Token.isSemi, h]
  rfl

/-- A token of any kind but the semicolon moves to its written place. -/
theorem pos_token_of_kind {kind : TokenKind} (h : t.kind = kind) (hkind : kind ≠ .semi) :
    (m.token t).pos = m.written t.pos := by
  refine m.pos_token (Token.isInserted_of_isSemi ?_)
  rw [Token.isSemi, h, beq_eq_false_iff_ne]
  exact hkind

end Token

/-- The texts of a run do not change. -/
@[simp] theorem renderPieces_map (previous : Option Token) (ts : List Token) :
    Token.renderPieces (previous.map m.token) (ts.map m.token) = Token.renderPieces previous ts := by
  induction ts generalizing previous with
  | nil => rfl
  | cons t rest ih =>
    have ih := ih (some t)
    rw [Option.map_some] at ih
    simp only [List.map_cons, Token.renderPieces, isSemi_token, text_token, ih, Option.any_map,
      needsBlank_token]

/-- A run reads the same. -/
@[simp] theorem render_map (ts : List Token) : Token.render (ts.map m.token) = Token.render ts := by
  have h := m.renderPieces_map none ts
  rw [Option.map_none] at h
  rw [Token.render, h, Token.render]

/-- A group at its new place. -/
def group (g : Token.Group) : Token.Group := ⟨g.inner.map m.token, m.token g.closer, g.rest.map m.token⟩

/-- A group is cut out at its new place. -/
theorem splitGroup_map {deeper closes : Token → Bool} (hdeeper : ∀ t, deeper (m.token t) = deeper t)
    (hcloses : ∀ t, closes (m.token t) = closes t) (depth : Nat) (ts : List Token) :
    Token.splitGroup deeper closes depth (ts.map m.token) =
      (Token.splitGroup deeper closes depth ts).map m.group := by
  induction ts generalizing depth with
  | nil => rfl
  | cons t rest ih =>
    unfold Token.splitGroup
    simp only [List.map_cons, hcloses, hdeeper]
    split
    · cases depth with
      | zero => rfl
      | succ d => simp only [ih, Option.map_map]; rfl
    · simp only [ih, Option.map_map]; rfl

/-- The group that moved tokens close is the moved group. -/
@[simp] theorem closeGroup_map (ts : List Token) :
    Token.closeGroup (ts.map m.token) = (Token.closeGroup ts).map m.group :=
  m.splitGroup_map m.isOpener_token m.isCloser_token 0 ts

/-- The last group of moved tokens is the moved last group. -/
@[simp] theorem lastGroup?_map (ts : List Token) : Token.lastGroup? (ts.map m.token) =
    (Token.lastGroup? ts).map fun (before, inner) => (before.map m.token, inner.map m.token) := by
  rw [Token.lastGroup?, Token.lastGroup?, ← List.map_reverse]
  cases ts.reverse with
  | nil => rfl
  | cons t reversed =>
    simp only [List.map_cons, m.splitGroup_map m.isCloser_token m.isOpener_token, Option.map_map]
    congr 1
    funext g
    simp only [Function.comp_apply, group, List.map_reverse]

/-- A cut at tokens outside brackets moves with its parts. -/
theorem splitTopFrom_map {separates : Token → Bool} (h : ∀ t, separates (m.token t) = separates t)
    (depth : Int) (ts : List Token) : Token.splitTopFrom separates depth (ts.map m.token) =
      (Token.splitTopFrom separates depth ts).map (List.map m.token) := by
  induction ts generalizing depth with
  | nil => rfl
  | cons t rest ih =>
    simp only [List.map_cons, Token.splitTopFrom, h, depthStep_token, ih]
    split
    · rfl
    · cases Token.splitTopFrom separates (depth + t.depthStep) rest <;> rfl

/-- A cut at commas moves with its parts. -/
@[simp] theorem splitCommas_map (ts : List Token) :
    Token.splitCommas (ts.map m.token) = (Token.splitCommas ts).map (List.map m.token) :=
  m.splitTopFrom_map (fun t => m.isOp_token t ",") 0 ts

/-- A cut at semicolons moves with its parts. -/
@[simp] theorem splitSemis_map (ts : List Token) :
    Token.splitSemis (ts.map m.token) = (Token.splitSemis ts).map (List.map m.token) :=
  m.splitTopFrom_map m.isSemi_token 0 ts

/-- Selecting the runs that are not empty. -/
theorem filter_isEmpty_map (groups : List (List Token)) :
    (groups.map (List.map m.token)).filter (!·.isEmpty) =
      (groups.filter (!·.isEmpty)).map (List.map m.token) := by
  rw [List.filter_map]
  congr 1
  simp only [Function.comp_def, List.isEmpty_map]

/-- The items between commas move with their tokens. -/
@[simp] theorem commaItems_map (ts : List Token) :
    Token.commaItems (ts.map m.token) = (Token.commaItems ts).map (List.map m.token) := by
  rw [Token.commaItems, splitCommas_map, filter_isEmpty_map, Token.commaItems]

/-- An assignment at its new place. -/
def assignment (a : Token.Assignment) : Token.Assignment :=
  ⟨a.left.map m.token, m.token a.op, a.right.map m.token⟩

/-- An assignment's two sides, sought from any depth of brackets, move with their tokens. -/
theorem cutAssignmentFrom_map (depth : Int) (ts : List Token) :
    Token.cutAssignmentFrom depth (ts.map m.token) = (Token.cutAssignmentFrom depth ts).map m.assignment := by
  induction ts generalizing depth with
  | nil => rfl
  | cons t rest ih =>
    simp only [List.map_cons, Token.cutAssignmentFrom, isOpIn_token, depthStep_token, ih]
    split
    · rfl
    · simp only [Option.map_map]; rfl

/-- An assignment's two sides move with their tokens. -/
@[simp] theorem cutAssignment_map (ts : List Token) :
    Token.cutAssignment (ts.map m.token) = (Token.cutAssignment ts).map m.assignment :=
  m.cutAssignmentFrom_map 0 ts

/-- Both parts of a cut at their new places. -/
def cut (parts : List Token × List Token) : List Token × List Token :=
  (parts.1.map m.token, parts.2.map m.token)

/-- The first piece of moved tokens is the moved first piece. -/
@[simp] theorem takePiece_map (t : Token) (rest : List Token) :
    Token.takePiece (m.token t) (rest.map m.token) = m.cut (Token.takePiece t rest) := by
  simp only [Token.takePiece, isOpener_token, closeGroup_map]
  split
  · cases Token.closeGroup rest with
    | none => rfl
    | some g => simp [group, cut]
  · rfl

/-- A cut at the first stop outside brackets moves with its two parts. -/
theorem spanTop_map {stops : Token → Bool} (h : ∀ t, stops (m.token t) = stops t) (ts : List Token) :
    Token.spanTop stops (ts.map m.token) = m.cut (Token.spanTop stops ts) := by
  fun_induction Token.spanTop stops ts with
  | case1 => simp [Token.spanTop, cut]
  | case2 t rest ht => rw [List.map_cons, Token.spanTop, h, if_pos ht]; rfl
  | case3 t rest ht piece more ih =>
    rw [List.map_cons, Token.spanTop, h, if_neg ht]
    simp only [takePiece_map, piece] at ih ⊢
    simp only [cut] at ih ⊢
    simp only [ih, more, piece, List.map_append]

/-- The parts of a list with what ends each move with their tokens. -/
theorem endedParts_map {separates : Token → Bool} (h : ∀ t, separates (m.token t) = separates t)
    (ts : List Token) : Token.endedParts separates (ts.map m.token) =
      (Token.endedParts separates ts).map fun (part, ended) => (part.map m.token, ended.map m.token) := by
  fun_induction Token.endedParts separates ts with
  | case1 ts part hspan =>
    have hmap := m.spanTop_map h ts
    rw [hspan, cut, List.map_nil] at hmap
    rw [Token.endedParts]
    split
    · next hx => rw [hmap] at hx; simp_all
    · next hx => rw [hmap] at hx; simp_all
  | case2 ts part t rest hspan ih =>
    have hmap := m.spanTop_map h ts
    rw [hspan, cut, List.map_cons] at hmap
    rw [Token.endedParts]
    split
    · next hx => rw [hmap] at hx; simp_all
    · next hx => rw [hmap] at hx; simp_all

/-- The non-empty parts of a list move with their tokens. -/
theorem splitParts_map {separates : Token → Bool} (h : ∀ t, separates (m.token t) = separates t)
    (ts : List Token) : Token.splitParts separates (ts.map m.token) =
      (Token.splitParts separates ts).map (List.map m.token) := by
  rw [Token.splitParts, m.endedParts_map h, Token.splitParts, ← filter_isEmpty_map]
  simp only [List.map_map]
  rfl

end Relocation

end GoIdiom
