import GoIdiom.Proofs.Runs
import Mathlib.Data.List.Forall2

/-!
# Function literals of a run

A run is written with plain tokens, function types and function literals. Literals are found by the brace of their
body, which is looked for behind the parameters of every signature. So the literals that are found are those that
the run is written with exactly when the search finds no brace behind the parameters of a function type.
-/

namespace GoIdiom

open Token

namespace Token

variable {t opener closer : Token} {inner rest : List Token}

/-- A token that opens no brackets is a piece. -/
theorem takePiece_single (h : t.isOpener = false) : takePiece t rest = ([t], rest) := by
  rw [takePiece, h, if_neg Bool.false_ne_true]

/-- A group is a piece. -/
theorem takePiece_group (hcloses : Closes opener closer) (hinner : Balanced inner) :
    takePiece opener (inner ++ closer :: rest) = (opener :: (inner ++ [closer]), rest) := by
  rw [takePiece, if_pos hcloses.1, hinner.closeGroup_append hcloses.2.1]

/-- A group ends in its closing bracket. -/
theorem getLastD_group (t : Token) : (opener :: (inner ++ [closer])).getLastD t = closer := by
  rw [← List.cons_append, List.getLastD_concat]

/-- An operator is no semicolon. -/
theorem not_isSemi_of_isOp {text : String} (h : t.isOp text = true) : t.isSemi = false := by
  rw [isSemi, beq_iff_eq.mp (Bool.and_eq_true_iff.mp h).1]
  rfl

/-- An opening bracket is no semicolon. -/
theorem not_isSemi_of_isOpener (h : t.isOpener = true) : t.isSemi = false := by
  rw [isSemi, beq_iff_eq.mp (Bool.and_eq_true_iff.mp h).1]
  rfl

/-- An opening bracket is no keyword. -/
theorem not_isKeyword_of_isOpener {text : String} (h : t.isOpener = true) : t.isKeyword text = false := by
  rw [isKeyword, beq_iff_eq.mp (Bool.and_eq_true_iff.mp h).1]
  rfl

end Token

namespace Block

variable {previous t opener closer : Token} {inner rest results : List Token}

/-! ## The search for a body -/

/-- Whether a brace that belongs to no interface or struct type is met behind a token. Groups are passed over,
brackets that were opened before are left through their closers, and semicolons are not passed. -/
inductive MeetsBrace : Token → List Token → Prop
  | brace {previous t : Token} {rest : List Token} (hprevious : opensType previous = false)
      (ht : t.isOp "\x7b" = true) : MeetsBrace previous (t :: rest)
  | pass {previous t : Token} {rest : List Token} (hopen : t.isOpener = false) (hsemi : t.isSemi = false)
      (hrest : MeetsBrace t rest) : MeetsBrace previous (t :: rest)
  | group {previous opener closer : Token} {inner rest : List Token} (hcloses : Closes opener closer)
      (hinner : Balanced inner) (hrest : MeetsBrace closer rest) :
      MeetsBrace previous (opener :: (inner ++ closer :: rest))

/-- The tokens between the parameters of a literal and its body: braces only belong to interface and struct types.
-/
inductive ResultTypes : Token → List Token → Prop
  | nil {previous : Token} (hprevious : opensType previous = false) : ResultTypes previous []
  | plain {previous t : Token} {rest : List Token} (ht : t.isPlain = true) (hsemi : t.isSemi = false)
      (hrest : ResultTypes t rest) : ResultTypes previous (t :: rest)
  | group {previous opener closer : Token} {inner rest : List Token} (hcloses : Closes opener closer)
      (hinner : Balanced inner) (htype : opener.isOp "\x7b" = true → opensType previous = true)
      (hrest : ResultTypes closer rest) : ResultTypes previous (opener :: (inner ++ closer :: rest))

/-- At a semicolon there is no body left to be found. -/
theorem body?_semi (h : t.isSemi = true) : body? previous (t :: rest) = none := by
  rw [body?, if_pos h]

/-- A brace that opens no type is the body's. -/
theorem body?_brace (hprevious : opensType previous = false) (ht : t.isOp "\x7b" = true) :
    body? previous (t :: rest) = ofOpener? t rest := by
  rw [body?, not_isSemi_of_isOp ht, if_neg Bool.false_ne_true, ht, hprevious, Bool.not_false,
    Bool.and_self, if_pos rfl]

/-- Brackets that are no braces, or the braces of a type, open no body. -/
theorem opensBody_eq_false (htype : opener.isOp "\x7b" = true → opensType previous = true) :
    (opener.isOp "\x7b" && !opensType previous) = false := by
  cases h : opener.isOp "\x7b" with
  | false => rfl
  | true => rw [htype h]; rfl

/-- What opens no bracket is no brace. -/
theorem isOp_brace_eq_false (hopen : t.isOpener = false) : t.isOp "\x7b" = false := by
  cases h : t.isOp "\x7b" with
  | false => rfl
  | true =>
    rw [isOpener_of_isOp h (by decide)] at hopen
    cases hopen

/-- The search for a body passes over a token that is no bracket and no semicolon. -/
theorem body?_pass (hopen : t.isOpener = false) (hsemi : t.isSemi = false) :
    body? previous (t :: rest) = (body? t rest).map (prepend [t]) := by
  rw [body?, hsemi, if_neg Bool.false_ne_true, isOp_brace_eq_false hopen, Bool.false_and, if_neg Bool.false_ne_true,
    takePiece_single hopen]
  rfl

/-- The search for a body passes over a group, unless its brace is the body's. -/
theorem body?_group (hcloses : Closes opener closer) (hinner : Balanced inner)
    (htype : opener.isOp "\x7b" = true → opensType previous = true) :
    body? previous (opener :: (inner ++ closer :: rest)) =
      (body? closer rest).map (prepend (opener :: (inner ++ [closer]))) := by
  rw [body?, not_isSemi_of_isOpener hcloses.1, if_neg Bool.false_ne_true, opensBody_eq_false htype,
    if_neg Bool.false_ne_true, takePiece_group hcloses hinner]
  dsimp only
  rw [getLastD_group]

/-- In a well bracketed run the search finds a body exactly when it meets a brace. -/
theorem isSome_body?_iff {front : List Token} (h : Balanced (front ++ rest)) :
    (body? previous rest).isSome = true ↔ MeetsBrace previous rest := by
  constructor
  · intro hsome
    fun_induction body? previous rest generalizing front with
    | case1 => cases hsome
    | case2 => cases hsome
    | case3 previous t rest _ hbrace =>
      obtain ⟨hbrace, hprevious⟩ := Bool.and_eq_true_iff.mp hbrace
      exact .brace (by simpa using hprevious) hbrace
    | case4 =>
      rename_i previous t rest hsemi hbrace piece ih
      rw [Option.isSome_map] at hsome
      cases hopen : t.isOpener with
      | false =>
        simp only [piece, takePiece_single hopen] at ih hsome
        refine .pass hopen (Bool.eq_false_iff.mpr hsemi) (ih (?_ : Balanced ((front ++ [t]) ++ rest)) hsome)
        rwa [List.append_assoc, List.singleton_append]
      | true =>
        obtain ⟨g, hg, hcloses, hinner, -⟩ := h.exists_closeGroup_append hopen
        have hpiece : takePiece t rest = (t :: (g.inner ++ [g.closer]), g.rest) := by
          rw [takePiece, if_pos hopen, hg]
        simp only [piece, hpiece, getLastD_group] at ih hsome
        rw [← splitGroup_eq_append hg] at h ⊢
        refine .group hcloses hinner (ih (?_ : Balanced ((front ++ t :: (g.inner ++ [g.closer])) ++ g.rest)) hsome)
        simpa only [List.append_assoc, List.cons_append, List.nil_append] using h
  · intro hmeets
    induction hmeets generalizing front with
    | brace hprevious ht =>
      obtain ⟨g, hg, -⟩ := h.exists_closeGroup_append (isOpener_of_isOp ht (by decide))
      rw [body?_brace hprevious ht, ofOpener?, hg]
      rfl
    | @pass previous t rest hopen hsemi _ ih =>
      rw [body?_pass hopen hsemi, Option.isSome_map]
      refine ih (?_ : Balanced ((front ++ [t]) ++ rest))
      rwa [List.append_assoc, List.singleton_append]
    | @group previous opener closer inner rest hcloses hinner _ ih =>
      by_cases htype : opener.isOp "\x7b" = true → opensType previous = true
      · rw [body?_group hcloses hinner htype, Option.isSome_map]
        refine ih (?_ : Balanced ((front ++ opener :: (inner ++ [closer])) ++ rest))
        simpa only [List.append_assoc, List.cons_append, List.nil_append] using h
      · rw [Classical.not_imp, Bool.not_eq_true] at htype
        rw [body?_brace htype.2 htype.1, ofOpener?, hinner.closeGroup_append hcloses.2.1]
        rfl

/-- The search finds the brace behind result types. -/
theorem ResultTypes.body?_append (h : ResultTypes previous results) (hbrace : opener.isOp "\x7b" = true)
    (hinner : Balanced inner) (hclose : closer.isCloser = true) :
    body? previous (results ++ opener :: (inner ++ closer :: rest)) =
      some ⟨results, opener, inner, closer, rest⟩ := by
  induction h with
  | nil hprevious =>
    rw [List.nil_append, body?_brace hprevious hbrace, ofOpener?, hinner.closeGroup_append hclose]
    rfl
  | plain ht hsemi _ ih =>
    rw [List.cons_append, body?_pass (isPlain_iff.mp ht).1 hsemi, ih]
    rfl
  | group hcloses hinner' htype _ ih =>
    rw [List.cons_append, List.append_assoc, List.cons_append, body?_group hcloses hinner' htype, ih,
      Option.map_some, prepend, List.cons_append, List.append_assoc]
    rfl

end Block

namespace LiteralCut

variable {keyword opener : Token} {rest front : List Token}

/-! ## Signatures with and without a body -/

/-- Whether the search for a body behind the parameters that are opened here meets a brace. -/
def MeetsBrace (opener : Token) (rest : List Token) : Prop :=
  ∃ params closer after, rest = params ++ closer :: after ∧ Closes opener closer ∧ Balanced params ∧
    Block.MeetsBrace closer after

/-- A signature is taken for a literal exactly when its search for a body meets a brace. -/
theorem isSome_ofKeyword?_iff (hkeyword : keyword.isKeyword "func" = true) (hopen : opener.isOp "(" = true)
    (h : Balanced (front ++ opener :: rest)) :
    (ofKeyword? keyword (opener :: rest)).isSome = true ↔ MeetsBrace opener rest := by
  obtain ⟨g, hg, hcloses, hinner, -⟩ := h.exists_closeGroup_append (isOpener_of_isOp hopen (by decide))
  have hbody : (Block.body? g.closer g.rest).isSome = true ↔ Block.MeetsBrace g.closer g.rest := by
    rw [← splitGroup_eq_append hg] at h
    refine Block.isSome_body?_iff (?_ : Balanced ((front ++ opener :: (g.inner ++ [g.closer])) ++ g.rest))
    simpa only [List.append_assoc, List.cons_append, List.nil_append] using h
  rw [ofKeyword?, hkeyword, hopen, Bool.and_self, if_pos rfl, hg, Option.isSome_map, hbody]
  constructor
  · exact fun hmeets => ⟨g.inner, g.closer, g.rest, (splitGroup_eq_append hg).symm, hcloses, hinner, hmeets⟩
  · rintro ⟨params, closer, after, rfl, hcloses', hparams, hmeets⟩
    obtain rfl := Option.some.inj ((hparams.closeGroup_append hcloses'.2.1 after).symm.trans hg)
    exact hmeets

/-- A function literal as it is written: no brace of the signature could open its body. -/
structure WellFormed (c : LiteralCut) : Prop where
  keyword : c.keyword.isKeyword "func" = true
  parenthesis : c.open'.isOp "(" = true
  params : Balanced c.params
  signature : Closes c.open' c.close'
  results : Block.ResultTypes c.close' c.body.before
  brace : c.body.opener.isOp "\x7b" = true
  inner : Balanced c.body.inner
  body : Closes c.body.opener c.body.closer

/-- The tokens of a literal behind its keyword, and those behind its body. -/
theorem exists_all_append (c : LiteralCut) (after : List Token) : ∃ tail, c.all ++ after = c.keyword :: tail ∧
    tail = c.open' :: (c.params ++ c.close' ::
      (c.body.before ++ c.body.opener :: (c.body.inner ++ c.body.closer :: after))) := by
  refine ⟨_, ?_, rfl⟩
  simp only [all, signature, List.append_assoc, List.cons_append, List.nil_append]

/-- A written literal is cut out whole, with its own body. -/
theorem WellFormed.ofKeyword?_eq {c : LiteralCut} (h : c.WellFormed) {after tail : List Token}
    (htail : c.all ++ after = c.keyword :: tail) :
    ofKeyword? c.keyword tail = some { c with body := { c.body with rest := after } } := by
  obtain ⟨tail', hall, rfl⟩ := c.exists_all_append after
  obtain rfl := (List.cons.inj (hall.symm.trans htail)).2
  rw [ofKeyword?, h.keyword, h.parenthesis, Bool.and_self, if_pos rfl, h.params.closeGroup_append h.signature.2.1]
  dsimp only
  rw [h.results.body?_append h.brace h.inner h.body.2.1]
  rfl

/-- A function literal that is read from its tokens: its place, its own parameters and results, and the statements
of its body. -/
structure Reads (c : LiteralCut) (f : FuncLiteral) : Prop where
  pos : f.pos = c.keyword.pos
  endLine : f.endLine = c.body.closer.line
  params : f.params = Signature.params c.params
  results : f.results = Signature.results c.body.before
  body : Statement.readList (some c.body.closer) none c.body.inner = .ok f.body

/-- Whether the body of a literal is read. -/
def Readable (c : LiteralCut) : Prop :=
  ∃ body, Statement.readList (some c.body.closer) none c.body.inner = .ok body

instance (c : LiteralCut) : Decidable c.Readable := decidable_of_iff _ Except.isSome_toOption_iff

end LiteralCut

/-! ## Runs by their parts -/

/-- What a run is written with: plain tokens, function types by the tokens they begin with, and function literals.
-/
inductive Part where
  | plain (t : Token) (ht : t.isKeyword "func" = false)
  | functionType (keyword opener : Token) (hkeyword : keyword.isKeyword "func" = true)
      (hopen : opener.isOp "(" = true)
  | literal (c : LiteralCut) (hc : c.WellFormed)

namespace Part

/-- The tokens of a part. -/
def tokens : Part → List Token
  | plain t _ => [t]
  | functionType keyword opener _ _ => [keyword, opener]
  | literal c _ => c.all

/-- The tokens of a part with the body of a literal emptied. -/
def shell : Part → List Token
  | plain t _ => [t]
  | functionType keyword opener _ _ => [keyword, opener]
  | literal c _ => c.shell

/-- The literal that a part is. -/
def literal? : Part → Option LiteralCut
  | literal c _ => some c
  | _ => none

/-- The run that is written with the parts. -/
def run (ps : List Part) : List Token := ps.flatMap tokens

/-- The run with the bodies of its literals emptied. -/
def shells (ps : List Part) : List Token := ps.flatMap shell

/-- The literals of the run that stand in no other literal of it. -/
def literals (ps : List Part) : List LiteralCut := ps.filterMap literal?

/-- Whether the part is a function type behind whose parameters the search for a body meets a brace. -/
def MeetsBrace : Part → List Part → Prop
  | functionType _ opener _ _, after => LiteralCut.MeetsBrace opener (run after)
  | _, _ => False

/-- The search for a body meets no brace behind the parameters of a function type of the run. -/
def TypesStay : List Part → Prop
  | [] => True
  | p :: after => ¬p.MeetsBrace after ∧ TypesStay after

variable {p : Part} {ps : List Part} {c : LiteralCut} {front : List Token}

/-- A run begins with its first part. -/
theorem run_cons (p : Part) (ps : List Part) : run (p :: ps) = p.tokens ++ run ps := List.flatMap_cons

/-- The keyword of a literal stands in the run. -/
theorem keyword_mem_run (h : c ∈ literals ps) : c.keyword ∈ run ps := by
  obtain ⟨p, hp, hc⟩ := List.mem_filterMap.mp h
  refine List.mem_flatMap.mpr ⟨p, hp, ?_⟩
  cases p with
  | plain => cases hc
  | functionType => cases hc
  | literal =>
    obtain rfl := Option.some.inj hc
    exact List.mem_cons_self

/-- The literals behind a part are literals of the run. -/
theorem literals_cons_subset : literals ps ⊆ literals (p :: ps) := by
  intro c hc
  obtain ⟨q, hq, hc⟩ := List.mem_filterMap.mp hc
  exact List.mem_filterMap.mpr ⟨q, List.mem_cons_of_mem p hq, hc⟩

/-- A run is well bracketed with the keyword of a function type in front of the tokens after it. -/
theorem balanced_functionType {keyword opener : Token} {hkeyword : keyword.isKeyword "func" = true}
    {hopen : opener.isOp "(" = true}
    (h : Balanced (front ++ run (functionType keyword opener hkeyword hopen :: ps))) :
    Balanced ((front ++ [keyword]) ++ opener :: run ps) := by
  rwa [List.append_assoc, List.singleton_append]

/-! ## The literals that are found -/

open LiteralCut

open Statement (cutLiterals readList cutLiterals_cons)

/-- A token that begins no literal is kept in its place. -/
theorem cutLiterals_plain {t : Token} {rest : List Token} (h : ofKeyword? t rest = none) :
    cutLiterals (t :: rest) = cutLiterals rest >>= fun r => pure (r.1, t :: r.2) := by
  rw [cutLiterals_cons, h]

/-- A function type without a brace ahead stays with its tokens. -/
theorem cutLiterals_functionType {keyword opener : Token} {rest : List Token} (hopen : opener.isOp "(" = true)
    (hkeyword : ofKeyword? keyword (opener :: rest) = none) :
    cutLiterals (keyword :: opener :: rest) = cutLiterals rest >>=
      fun r => pure (r.1, keyword :: opener :: r.2) := by
  have hopener : opener.isKeyword "func" = false := by
    rw [isKeyword, beq_iff_eq.mp (Bool.and_eq_true_iff.mp hopen).1]
    rfl
  rw [cutLiterals_plain hkeyword, cutLiterals_plain (ofKeyword?_eq_none hopener rest), bind_assoc]
  rfl

/-- A written literal is cut out, and only the braces of its body stay. -/
theorem cutLiterals_literal (h : c.WellFormed) (after : List Token) :
    cutLiterals (c.all ++ after) = readList (some c.body.closer) none c.body.inner >>= fun body =>
      cutLiterals after >>= fun r =>
        pure (.mk c.keyword.pos c.body.closer.line (Signature.params c.params)
          (Signature.results c.body.before) body ::
          r.1, c.shell ++ r.2) := by
  obtain ⟨tail, hall, -⟩ := c.exists_all_append after
  rw [hall, cutLiterals_cons, h.ofKeyword?_eq hall]
  rfl

/-- The literals of a run are found when their bodies are read and no function type is taken for one. -/
theorem exists_cutLiterals (hrun : Balanced (front ++ run ps)) (hread : ∀ c ∈ literals ps, c.Readable)
    (hstay : TypesStay ps) :
    ∃ found, cutLiterals (run ps) = .ok (found, shells ps) ∧ List.Forall₂ Reads (literals ps) found := by
  induction ps generalizing front with
  | nil => exact ⟨[], by rw [run, List.flatMap_nil, cutLiterals]; rfl, .nil⟩
  | cons p ps ih =>
    have hrun' : Balanced ((front ++ p.tokens) ++ run ps) := by rwa [List.append_assoc, ← run_cons]
    obtain ⟨found, hfound, hreads⟩ := ih hrun' (fun c hc => hread c (literals_cons_subset hc)) hstay.2
    cases p with
    | plain t ht =>
      refine ⟨found, ?_, hreads⟩
      rw [run_cons, tokens, List.singleton_append, cutLiterals_plain (ofKeyword?_eq_none ht _), hfound]
      rfl
    | functionType keyword opener hkeyword hopen =>
      have hnone : ofKeyword? keyword (opener :: run ps) = none := by
        rw [← Option.not_isSome_iff_eq_none, isSome_ofKeyword?_iff hkeyword hopen (balanced_functionType hrun)]
        exact hstay.1
      refine ⟨found, ?_, hreads⟩
      rw [run_cons, tokens, List.cons_append, List.singleton_append, cutLiterals_functionType hopen hnone, hfound]
      rfl
    | literal c hc =>
      obtain ⟨body, hbody⟩ := hread c List.mem_cons_self
      refine ⟨.mk c.keyword.pos c.body.closer.line (Signature.params c.params)
        (Signature.results c.body.before) body ::
        found, ?_, .cons ⟨rfl, rfl, rfl, rfl, hbody⟩ hreads⟩
      rw [run_cons, tokens, cutLiterals_literal hc, hbody, hfound]
      rfl

/-- When the literals that are found are those of the run, their bodies are read and no function type is taken for
one: it would be found at its own keyword. -/
theorem typesStay_of_cutLiterals {found : List FuncLiteral} {own : List Token} (hrun : Balanced (front ++ run ps))
    (hpos : ((run ps).map (·.pos)).Nodup) (hfound : cutLiterals (run ps) = .ok (found, own))
    (hreads : List.Forall₂ Reads (literals ps) found) : (∀ c ∈ literals ps, c.Readable) ∧ TypesStay ps := by
  induction ps generalizing front found own with
  | nil => exact ⟨fun c hc => absurd hc List.not_mem_nil, trivial⟩
  | cons p ps ih =>
    have hrun' : Balanced ((front ++ p.tokens) ++ run ps) := by rwa [List.append_assoc, ← run_cons]
    rw [run_cons, List.map_append] at hpos
    obtain ⟨-, hpos', hapart⟩ := List.nodup_append.mp hpos
    cases p with
    | plain t ht =>
      rw [run_cons, tokens, List.singleton_append, cutLiterals_plain (ofKeyword?_eq_none ht _)] at hfound
      obtain ⟨r, hr, hpure⟩ := Except.bind_eq_ok.mp hfound
      obtain ⟨rfl, -⟩ := Prod.mk.inj (Except.ok.inj hpure)
      obtain ⟨hread, hstay⟩ := ih hrun' hpos' hr hreads
      exact ⟨hread, id, hstay⟩
    | functionType keyword opener hkeyword hopen =>
      rw [run_cons, tokens, List.cons_append, List.singleton_append] at hfound
      cases hcut : ofKeyword? keyword (opener :: run ps) with
      | none =>
        rw [cutLiterals_functionType hopen hcut] at hfound
        obtain ⟨r, hr, hpure⟩ := Except.bind_eq_ok.mp hfound
        obtain ⟨rfl, -⟩ := Prod.mk.inj (Except.ok.inj hpure)
        obtain ⟨hread, hstay⟩ := ih hrun' hpos' hr hreads
        refine ⟨hread, fun hmeets => ?_, hstay⟩
        have hsome := (isSome_ofKeyword?_iff hkeyword hopen (balanced_functionType hrun)).mpr hmeets
        rw [hcut] at hsome
        cases hsome
      | some c =>
        rw [cutLiterals_cons, hcut] at hfound
        obtain ⟨body, -, hfound⟩ := Except.bind_eq_ok.mp hfound
        obtain ⟨r, -, hpure⟩ := Except.bind_eq_ok.mp hfound
        obtain ⟨rfl, -⟩ := Prod.mk.inj (Except.ok.inj hpure)
        obtain ⟨c', cs, hc', -, hcuts⟩ := List.forall₂_cons_right_iff.mp hreads
        have hmem : c'.keyword ∈ run ps := keyword_mem_run (hcuts ▸ List.mem_cons_self)
        exact absurd hc'.pos (hapart _ (List.mem_map_of_mem List.mem_cons_self) _ (List.mem_map_of_mem hmem))
    | literal c hc =>
      rw [run_cons, tokens, cutLiterals_literal hc] at hfound
      obtain ⟨body, hbody, hfound⟩ := Except.bind_eq_ok.mp hfound
      obtain ⟨r, hr, hpure⟩ := Except.bind_eq_ok.mp hfound
      obtain ⟨rfl, -⟩ := Prod.mk.inj (Except.ok.inj hpure)
      obtain ⟨-, hreads⟩ := List.forall₂_cons.mp hreads
      obtain ⟨hread, hstay⟩ := ih hrun' hpos' hr hreads
      exact ⟨List.forall_mem_cons.mpr ⟨⟨body, hbody⟩, hread⟩, id, hstay⟩

/-- The literals that are found in a run are the outermost literals that it is written with, in their order, each
with its own parameters and body, and all other tokens stay in the run, exactly when the bodies of these literals
are read and no brace is met behind the parameters of a function type. -/
theorem cutLiterals_exact (ps : List Part) (hrun : Balanced (run ps)) (hpos : ((run ps).map (·.pos)).Nodup) :
    (∃ found, cutLiterals (run ps) = .ok (found, shells ps) ∧ List.Forall₂ Reads (literals ps) found) ↔
      (∀ c ∈ literals ps, c.Readable) ∧ TypesStay ps := by
  rw [← List.nil_append (run ps)] at hrun
  exact ⟨fun ⟨_, hfound, hreads⟩ => typesStay_of_cutLiterals hrun hpos hfound hreads,
    fun ⟨hread, hstay⟩ => exists_cutLiterals hrun hread hstay⟩

/-- `f(func() { y }, (func())(h))`: a literal and a conversion to a function type. -/
def literalAndConversion : List Part :=
  let opened : Token := ⟨.op, "(", ⟨1, 7⟩⟩
  let closed : Token := ⟨.op, ")", ⟨1, 8⟩⟩
  let literal : LiteralCut := ⟨⟨.keyword, "func", ⟨1, 3⟩⟩, opened, [], closed,
    ⟨[], ⟨.op, "\x7b", ⟨1, 10⟩⟩, [⟨.ident, "y", ⟨1, 12⟩⟩],
      ⟨.op, "\x7d", ⟨1, 14⟩⟩, []⟩⟩
  [.plain ⟨.ident, "f", ⟨1, 1⟩⟩ rfl, .plain ⟨.op, "(", ⟨1, 2⟩⟩ rfl,
    .literal literal ⟨rfl, rfl, .nil, by decide, .nil rfl, rfl, .single rfl, by decide⟩,
    .plain ⟨.op, ",", ⟨1, 15⟩⟩ rfl, .plain ⟨.op, "(", ⟨1, 17⟩⟩ rfl,
    .functionType ⟨.keyword, "func", ⟨1, 18⟩⟩ ⟨.op, "(", ⟨1, 22⟩⟩ rfl rfl,
    .plain ⟨.op, ")", ⟨1, 23⟩⟩ rfl, .plain ⟨.op, ")", ⟨1, 24⟩⟩ rfl,
    .plain ⟨.op, "(", ⟨1, 25⟩⟩ rfl, .plain ⟨.ident, "h", ⟨1, 26⟩⟩ rfl,
    .plain ⟨.op, ")", ⟨1, 27⟩⟩ rfl, .plain ⟨.op, ")", ⟨1, 28⟩⟩ rfl]

/-- A run with a literal and a conversion is cut exactly at the literal. -/
theorem cutLiterals_exact_literalAndConversion :
    Balanced (run literalAndConversion) ∧ ((run literalAndConversion).map (·.pos)).Nodup ∧
      ∃ found, cutLiterals (run literalAndConversion) = .ok (found, shells literalAndConversion) ∧
        List.Forall₂ Reads (literals literalAndConversion) found := by
  have hrun : Balanced (run literalAndConversion) := exists_matchBrackets_iff.mp ⟨_, rfl⟩
  have hpos : ((run literalAndConversion).map (·.pos)).Nodup := by decide
  refine ⟨hrun, hpos,
    (cutLiterals_exact literalAndConversion hrun hpos).mpr ⟨fun c hc => ?_, id, id, id, id, id, ?_⟩⟩
  · obtain rfl := List.mem_singleton.mp hc
    decide +kernel
  · refine ⟨fun hmeets => ?_, id, id, id, id, id, id, trivial⟩
    have hopened : Balanced ((run literalAndConversion).take 11 ++ (run literalAndConversion).drop 11) := hrun
    have hkeyword : Token.isKeyword ⟨.keyword, "func", ⟨1, 18⟩⟩ "func" = true := rfl
    have hcut := (isSome_ofKeyword?_iff hkeyword rfl hopened).mpr hmeets
    revert hcut
    decide +kernel

/-- `x := []func(){a, b}`: a slice of functions. -/
def sliceOfFunctions : List Part :=
  [.plain ⟨.ident, "x", ⟨1, 1⟩⟩ rfl, .plain ⟨.op, ":=", ⟨1, 3⟩⟩ rfl,
    .plain ⟨.op, "[", ⟨1, 6⟩⟩ rfl, .plain ⟨.op, "]", ⟨1, 7⟩⟩ rfl,
    .functionType ⟨.keyword, "func", ⟨1, 8⟩⟩ ⟨.op, "(", ⟨1, 12⟩⟩ rfl rfl,
    .plain ⟨.op, ")", ⟨1, 13⟩⟩ rfl, .plain ⟨.op, "\x7b", ⟨1, 14⟩⟩ rfl,
    .plain ⟨.ident, "a", ⟨1, 15⟩⟩ rfl, .plain ⟨.op, ",", ⟨1, 16⟩⟩ rfl,
    .plain ⟨.ident, "b", ⟨1, 18⟩⟩ rfl, .plain ⟨.op, "\x7d", ⟨1, 19⟩⟩ rfl]

/-- The elements of the slice are taken for the body of a literal, and are lost from the run. -/
theorem cutLiterals_sliceOfFunctions : literals sliceOfFunctions = [] ∧
    ∃ f own, cutLiterals (run sliceOfFunctions) = .ok ([f], own) ∧
      own.map (·.text) = ["x", ":=", "[", "]", "func", "(", ")", "\x7b", "\x7d"] := by
  have hfound : (cutLiterals (run sliceOfFunctions)).toOption.map (fun r => (r.1.length, r.2.map (·.text))) =
      some (1, ["x", ":=", "[", "]", "func", "(", ")", "\x7b", "\x7d"]) := by decide +kernel
  refine ⟨rfl, ?_⟩
  cases hcut : cutLiterals (run sliceOfFunctions) with
  | error e =>
    rw [hcut] at hfound
    cases hfound
  | ok r =>
    rw [hcut] at hfound
    obtain ⟨hlength, hown⟩ := Prod.mk.inj (Option.some.inj hfound)
    obtain ⟨f, hf⟩ := List.length_eq_one_iff.mp hlength
    exact ⟨f, r.2, by rw [← hf], hown⟩

end Part

end GoIdiom
