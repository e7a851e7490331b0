import GoIdiom.Proofs.Relocation.Semicolons
import GoIdiom.Signature
import GoIdiom.Statement.Block

/-!
# Moving signatures and blocks

Parameters move with their first tokens, and the blocks that are found in a run are found at their new
places.
-/

namespace GoIdiom.Relocation

variable (m : Relocation)

/-- A parameter at its new place. -/
def param (p : Param) : Param := { p with pos := m.written p.pos }

/-- An entry of a parameter list at its new place. -/
def entry (e : ParamEntry) : ParamEntry := ⟨e.name, e.typeTokens.map m.token, m.token e.first⟩

/-- A block at its new place. -/
def block (b : Block) : Block :=
  ⟨b.before.map m.token, m.token b.opener, b.inner.map m.token, m.token b.closer, b.rest.map m.token⟩

/-- A function literal in a run at its new place. -/
def literalCut (c : LiteralCut) : LiteralCut :=
  ⟨m.token c.keyword, m.token c.open', c.params.map m.token, m.token c.close', m.block c.body⟩

section Parameters

/-- A moved parameter keeps its name. -/
@[simp] theorem name_param (p : Param) : (m.param p).name = p.name := (rfl)

/-- Moved tokens are an array's length exactly when the tokens are. -/
@[simp] theorem isArrayLength_map (ts : List Token) :
    Signature.isArrayLength (ts.map m.token) = Signature.isArrayLength ts := by
  match ts with
  | [] => rfl
  | [_] => rfl
  | _ :: _ :: _ => rfl

/-- Moved tokens declare a name exactly when the tokens do. -/
@[simp] theorem declaresName_map (ts : List Token) :
    Signature.declaresName (ts.map m.token) = Signature.declaresName ts := by
  match ts with
  | [] => rfl
  | [_] => rfl
  | first :: second :: rest =>
    simp only [List.map_cons, Signature.declaresName, isIdent_token, isOp_token, closeGroup_map, Option.any_map]
    simp only [group, isArrayLength_map]

/-- An entry of a parameter list moves with its tokens. -/
theorem entryOf_map (ts : List Token) :
    Signature.entryOf (ts.map m.token) = (Signature.entryOf ts).map m.entry := by
  cases ts with
  | nil => rfl
  | cons first rest =>
    have h := m.declaresName_map (first :: rest)
    rw [List.map_cons] at h
    rw [List.map_cons, Signature.entryOf, Signature.entryOf, h]
    split <;> rfl

/-- Sharing a type among the names before it moves with the entries. -/
theorem shareTypes_map (entries : List ParamEntry) : Signature.shareTypes (entries.map m.entry) =
    ((Signature.shareTypes entries).1.map m.token, (Signature.shareTypes entries).2.map m.entry) := by
  induction entries with
  | nil => rfl
  | cons e rest ih =>
    obtain ⟨name, typeTokens, first⟩ := e
    simp only [List.map_cons, Signature.shareTypes, ih, entry]
    match name, typeTokens with
    | none, [t] =>
      simp only [List.map_cons, List.map_nil, isIdent_token]
      split <;> rfl
    | none, [] => rfl
    | none, _ :: _ :: _ => rfl
    | some _, _ => rfl

/-- Sharing types keeps the first tokens. -/
theorem first_mem_of_mem_shareTypes {entries : List ParamEntry} {e : ParamEntry}
    (h : e ∈ (Signature.shareTypes entries).2) : ∃ e' ∈ entries, e'.first = e.first := by
  induction entries with
  | nil => exact absurd h List.not_mem_nil
  | cons head rest ih =>
    have hdone (hd : e ∈ (Signature.shareTypes rest).2) : ∃ e' ∈ head :: rest, e'.first = e.first := by
      obtain ⟨e', he', hfirst⟩ := ih hd
      exact ⟨e', List.mem_cons_of_mem _ he', hfirst⟩
    unfold Signature.shareTypes at h
    dsimp only at h
    split at h
    · split at h
      · rcases List.mem_cons.mp h with rfl | h
        · exact ⟨head, List.mem_cons_self, rfl⟩
        · exact hdone h
      · rcases List.mem_cons.mp h with rfl | h
        · exact ⟨e, List.mem_cons_self, rfl⟩
        · exact hdone h
    · rcases List.mem_cons.mp h with rfl | h
      · exact ⟨e, List.mem_cons_self, rfl⟩
      · exact hdone h

/-- A parameter moves with its first token. -/
theorem paramOf_entry {e : ParamEntry} (h : e.first.isInserted = false) :
    Signature.paramOf (m.entry e) = m.param (Signature.paramOf e) := by
  obtain ⟨name, typeTokens, first⟩ := e
  have hpos := m.pos_token h
  simp only [Signature.paramOf, entry]
  cases typeTokens with
  | nil => simp only [List.map_nil, hpos]; rfl
  | cons t rest =>
    have hrender := m.render_map (t :: rest)
    rw [List.map_cons] at hrender
    simp only [List.map_cons, isOp_token, hpos, render_map, hrender]
    split <;> rfl

/-- The first token of an entry is the first of its run. -/
theorem first_of_entryOf {ts : List Token} {e : ParamEntry} (h : Signature.entryOf ts = some e) :
    ts.head? = some e.first := by
  cases ts with
  | nil => simp [Signature.entryOf] at h
  | cons first rest =>
    rw [Signature.entryOf] at h
    split at h <;> simp only [Option.some.injEq] at h <;> subst h <;> rfl

/-- The parameters in brackets move along. -/
theorem params_map {inner : List Token} (h : Token.laid false inner = true) :
    Signature.params (inner.map m.token) = (Signature.params inner).map m.param := by
  have hentries (e : ParamEntry) (he : e ∈ (Token.splitParts (·.isOp ",") inner).filterMap Signature.entryOf) :
      e.first.isInserted = false := by
    obtain ⟨part, hpart, he⟩ := List.mem_filterMap.mp he
    have hlaid := Token.laid_splitParts h part hpart
    have hfirst := first_of_entryOf he
    cases part with
    | nil => exact absurd hfirst (by simp)
    | cons t rest => exact Option.some.inj hfirst ▸ Token.isInserted_of_laid hlaid
  have hmap : (Token.splitParts (·.isOp ",") (inner.map m.token)).filterMap Signature.entryOf =
      ((Token.splitParts (·.isOp ",") inner).filterMap Signature.entryOf).map m.entry := by
    rw [m.splitParts_map fun t => m.isOp_token t ",", List.filterMap_map, List.map_filterMap]
    simp only [Function.comp_def, entryOf_map]
  rw [Signature.params, Signature.params, hmap]
  generalize (Token.splitParts (·.isOp ",") inner).filterMap Signature.entryOf = entries at hentries
  simp only [List.any_map, shareTypes_map]
  have hnames : ((fun e : ParamEntry => e.name.isSome) ∘ m.entry) = fun e => e.name.isSome := rfl
  rw [hnames]
  split
  · rw [List.map_map, List.map_map]
    refine List.map_congr_left fun e he => ?_
    obtain ⟨e', he', hfirst⟩ := first_mem_of_mem_shareTypes he
    exact m.paramOf_entry (hfirst ▸ hentries e' he')
  · rw [List.map_map, List.map_map]
    exact List.map_congr_left fun e he => m.paramOf_entry (hentries e he)

/-- The results of a signature move along. -/
theorem results_map {ts : List Token} (h : Token.laid false ts = true) :
    Signature.results (ts.map m.token) = (Signature.results ts).map m.param := by
  cases ts with
  | nil => rfl
  | cons t rest =>
    have hrender := m.render_map (t :: rest)
    rw [List.map_cons] at hrender
    simp only [List.map_cons, Signature.results, isOp_token, closeGroup_map, hrender]
    split
    · next hopener =>
      cases hg : Token.closeGroup rest with
      | none => rfl
      | some g => exact m.params_map (Token.laid_inner h (Token.endsStatement_of_isOp hopener (by decide)) hg)
    · simp only [List.map_nil, List.map_cons, param, m.pos_token (Token.isInserted_of_laid h)]

end Parameters

section Blocks

/-- A moved token opens a type's braces exactly when the token does. -/
@[simp] theorem opensType_token (t : Token) : Block.opensType (m.token t) = Block.opensType t := rfl

/-- The block at an opening brace moves with its tokens. -/
@[simp] theorem ofOpener?_map (opener : Token) (rest : List Token) :
    Block.ofOpener? (m.token opener) (rest.map m.token) = (Block.ofOpener? opener rest).map m.block := by
  simp only [Block.ofOpener?, closeGroup_map, Option.map_map]
  rfl

/-- A block moves together with the tokens before it. -/
theorem block_prepend (ts : List Token) (b : Block) :
    m.block (b.prepend ts) = (m.block b).prepend (ts.map m.token) := by
  simp only [block, Block.prepend, List.map_append]

/-- Tokens before a block move with the block. -/
theorem map_prepend (ts : List Token) (b : Option Block) :
    (b.map m.block).map (Block.prepend (ts.map m.token)) = (b.map (Block.prepend ts)).map m.block := by
  simp only [Option.map_map, Function.comp_def, block_prepend]

/-- The body of a function moves with the tokens from its signature on. -/
@[simp] theorem body?_map (previous : Token) (ts : List Token) :
    Block.body? (m.token previous) (ts.map m.token) = (Block.body? previous ts).map m.block := by
  fun_induction Block.body? previous ts with
  | case1 => simp [Block.body?]
  | case2 previous t rest hsemi => rw [List.map_cons, Block.body?, isSemi_token, if_pos hsemi]; rfl
  | case3 previous t rest hsemi hbrace =>
    rw [List.map_cons, Block.body?, isSemi_token, if_neg hsemi, isOp_token, opensType_token, if_pos hbrace,
      ofOpener?_map]
  | case4 previous t rest hsemi hbrace piece ih =>
    rw [List.map_cons, Block.body?, isSemi_token, if_neg hsemi, isOp_token, opensType_token, if_neg hbrace]
    simp only [takePiece_map, cut, List.getLastD_map]
    rw [ih, map_prepend]

/-- A function literal is cut from moved tokens where it is cut from the tokens. -/
@[simp] theorem ofKeyword?_map (keyword : Token) (ts : List Token) :
    LiteralCut.ofKeyword? (m.token keyword) (ts.map m.token) =
      (LiteralCut.ofKeyword? keyword ts).map m.literalCut := by
  cases ts with
  | nil => rfl
  | cons t rest =>
    simp only [List.map_cons, LiteralCut.ofKeyword?, isKeyword_token, isOp_token, closeGroup_map]
    split
    · cases Token.closeGroup rest with
      | none => rfl
      | some g => simp only [Option.map_some, group, body?_map, Option.map_map]; rfl
    · rfl

/-- All tokens of a literal move along. -/
theorem all_literalCut (c : LiteralCut) : (m.literalCut c).all = c.all.map m.token := by
  simp [literalCut, block, LiteralCut.all, LiteralCut.signature]

/-- The shell of a literal moves along. -/
theorem shell_literalCut (c : LiteralCut) : (m.literalCut c).shell = c.shell.map m.token := by
  simp [literalCut, block, LiteralCut.shell, LiteralCut.signature]

/-- Moved tokens end a statement exactly when the tokens do. -/
@[simp] theorem endsStatement_map (ts : List Token) :
    Block.endsStatement (ts.map m.token) = Block.endsStatement ts := by
  cases ts <;> rfl

/-- The block after a header by the first token of the header. -/
theorem afterHeader?_cons (previous t : Token) (rest : List Token) :
    Block.afterHeader? previous (t :: rest) =
      match LiteralCut.ofKeyword? t rest with
      | some c => (Block.afterHeader? c.body.closer c.body.rest).map (Block.prepend c.all)
      | none =>
        if t.isOp "\x7b" && !Block.opensType previous &&
            (Token.closeGroup rest).any (Block.endsStatement ·.rest) then
          Block.ofOpener? t rest
        else
          (Block.afterHeader? ((Token.takePiece t rest).1.getLastD t) (Token.takePiece t rest).2).map
            (Block.prepend (Token.takePiece t rest).1) := by
  rw [Block.afterHeader?]
  split
  · next h => rw [h]
  · next h => rw [h]

/-- The block after a header moves with the header. -/
@[simp] theorem afterHeader?_map (previous : Token) (ts : List Token) :
    Block.afterHeader? (m.token previous) (ts.map m.token) = (Block.afterHeader? previous ts).map m.block := by
  fun_induction Block.afterHeader? previous ts with
  | case1 => simp [Block.afterHeader?]
  | case2 previous t rest c hc ih =>
    rw [List.map_cons, afterHeader?_cons, ofKeyword?_map, hc, Option.map_some]
    simp only [all_literalCut]
    rw [show (m.literalCut c).body.closer = m.token c.body.closer from rfl,
      show (m.literalCut c).body.rest = c.body.rest.map m.token from rfl, ih, map_prepend]
  | case3 previous t rest hc hbrace =>
    rw [List.map_cons, afterHeader?_cons, ofKeyword?_map, hc, Option.map_none]
    simp only [isOp_token, opensType_token, closeGroup_map, Option.any_map, group, endsStatement_map]
    rw [if_pos hbrace, ofOpener?_map]
  | case4 previous t rest hc hbrace piece ih =>
    rw [List.map_cons, afterHeader?_cons, ofKeyword?_map, hc, Option.map_none]
    simp only [isOp_token, opensType_token, closeGroup_map, Option.any_map, group, endsStatement_map,
      takePiece_map, cut, List.getLastD_map]
    rw [if_neg hbrace, ih, map_prepend]

end Blocks

end GoIdiom.Relocation
