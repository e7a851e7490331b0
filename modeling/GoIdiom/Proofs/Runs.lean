import GoIdiom.Proofs.Blocks
import GoIdiom.Proofs.Brackets
import GoIdiom.Proofs.Outcome
import GoIdiom.Proofs.Reading

/-!
# The runs that are read from a token list

Everything that is read from a well bracketed token list is made of runs that are well bracketed too and
keep the tokens in their order: the statements, headers and clauses at every depth, function literals
included. A fault is placed at a token of the list.
-/

namespace GoIdiom

namespace Token

/-- A well bracketed run of tokens of a list, in their order. -/
structure Run (all ts : List Token) : Prop where
  sublist : ts.Sublist all
  balanced : Balanced ts

/-- A token that is written like an opening bracket is one. -/
theorem isOpener_of_isOp {t : Token} {text : String} (h : t.isOp text = true)
    (htext : text ∈ ["(", "[", "\x7b"]) : t.isOpener = true := by
  obtain ⟨hkind, hsame⟩ := Bool.and_eq_true_iff.mp h
  rw [isOpener, isOpIn, hkind, beq_iff_eq.mp hsame, List.contains_iff_mem.mpr htext]
  rfl

/-- Brackets are operators. -/
theorem isPlain_of_kind {t : Token} (h : t.kind ≠ .op) : t.isPlain = true := by
  have hkind : (t.kind == TokenKind.op) = false := beq_eq_false_iff_ne.mpr h
  simp only [isPlain, isOpener, isCloser, isOpIn, hkind, Bool.false_and, Bool.not_false, Bool.and_self]

/-- A keyword is no bracket. -/
theorem isPlain_of_isKeyword {t : Token} {text : String} (h : t.isKeyword text = true) : t.isPlain = true := by
  apply isPlain_of_kind
  rw [beq_iff_eq.mp (Bool.and_eq_true_iff.mp h).1]
  decide

/-- A semicolon is no bracket. -/
theorem isPlain_of_isSemi {t : Token} (h : t.isSemi = true) : t.isPlain = true := by
  apply isPlain_of_kind
  rw [beq_iff_eq.mp h]
  decide

/-- An identifier is no bracket. -/
theorem isPlain_of_isIdent {t : Token} (h : t.isIdent = true) : t.isPlain = true := by
  apply isPlain_of_kind
  rw [beq_iff_eq.mp h]
  decide

/-- One of some keywords is no bracket. -/
theorem isPlain_of_isKeywordIn {t : Token} {texts : List String} (h : t.isKeywordIn texts = true) :
    t.isPlain = true := by
  apply isPlain_of_kind
  rw [beq_iff_eq.mp (Bool.and_eq_true_iff.mp h).1]
  decide

/-- A colon is no bracket. -/
theorem isPlain_of_isOp {t : Token} {text : String} (h : t.isOp text = true)
    (htext : text ∉ ["(", "[", "\x7b", ")", "]", "\x7d"]) : t.isPlain = true := by
  have hsame := beq_iff_eq.mp (Bool.and_eq_true_iff.mp h).2
  simp only [List.mem_cons, List.not_mem_nil, or_false, not_or] at htext
  simp [isPlain, isOpener, isCloser, isOpIn, hsame, htext]

/-- An operator is written in one way. -/
theorem not_isOp_of_isOp {t : Token} {text other : String} (h : t.isOp text = true) (hother : text ≠ other) :
    t.isOp other = false := by
  rw [isOp, beq_iff_eq.mp (Bool.and_eq_true_iff.mp h).2, Bool.and_eq_false_iff]
  exact .inr (beq_eq_false_iff_ne.mpr hother)

namespace Run

variable {all ts us : List Token} {t : Token}

/-- A well bracketed part of a run. -/
theorem part (h : Run all ts) (hsub : us.Sublist ts) (hus : Balanced us) : Run all us :=
  ⟨hsub.trans h.sublist, hus⟩

/-- The tokens of a run are those of the list. -/
theorem mem (h : Run all ts) (ht : t ∈ ts) : t ∈ all := h.sublist.subset ht

/-- What follows a token that is no bracket. -/
theorem tail (h : Run all (t :: ts)) (ht : t.isPlain = true) : Run all ts :=
  h.part (List.sublist_cons_self t ts) (h.balanced.tail (isPlain_iff.mp ht).1).2

/-- The contents of a group that begins a run, and what follows it. -/
theorem group (h : Run all (t :: ts)) (ht : t.isOpener = true) {g : Group} (hg : closeGroup ts = some g) :
    Run all g.inner ∧ g.closer ∈ all ∧ Run all g.rest := by
  obtain ⟨-, hinner, hrest⟩ := h.balanced.of_closeGroup ht hg
  have happend := splitGroup_eq_append hg
  have hts : ts.Sublist all := (List.sublist_cons_self t ts).trans h.sublist
  rw [← happend] at hts
  refine ⟨⟨(List.sublist_append_left ..).trans hts, hinner⟩, ?_, ⟨?_, hrest⟩⟩
  · exact hts.subset (List.mem_append_right _ List.mem_cons_self)
  · exact ((List.sublist_cons_self g.closer g.rest).trans (List.sublist_append_right ..)).trans hts

/-- The run before a cut outside brackets, and what follows it. -/
theorem spanTop (h : Run all ts) (stops : Token → Bool) :
    Run all (Token.spanTop stops ts).1 ∧ Run all (Token.spanTop stops ts).2 := by
  obtain ⟨hrun, hrest⟩ := h.balanced.spanTop stops
  have happend := spanTop_append stops ts
  refine ⟨h.part ?_ hrun, h.part ?_ hrest⟩
  · conv => rhs; rw [← happend]
    exact List.sublist_append_left ..
  · conv => rhs; rw [← happend]
    exact List.sublist_append_right ..

/-- The parts between separators are runs, and so ends every one of them. -/
theorem endedParts {separates : Token → Bool} (hseparates : ∀ t, separates t = true → t.isPlain = true)
    (h : Run all ts) {part : List Token × Option Token} (hpart : part ∈ Token.endedParts separates ts) :
    Run all part.1 ∧ ∀ t ∈ part.2, t ∈ all := by
  fun_induction Token.endedParts separates ts with
  | case1 ts run hrun =>
    have hspan := (h.spanTop separates).1
    rw [hrun] at hspan
    rw [List.mem_singleton.mp hpart]
    exact ⟨hspan, fun t ht => by cases ht⟩
  | case2 ts run t rest hrun ih =>
    have hspan := h.spanTop separates
    rw [hrun] at hspan
    have hstop : separates t = true := spanTop_stops (congrArg Prod.snd hrun)
    rcases List.mem_cons.mp hpart with rfl | hpart
    · refine ⟨hspan.1, fun u hu => ?_⟩
      obtain rfl := Option.some.inj hu
      exact hspan.2.mem List.mem_cons_self
    · exact ih (hspan.2.tail (hseparates t hstop)) hpart

end Run

end Token

open Token

/-! ## Blocks and function literals -/

/-- A block whose parts are runs of a list. -/
structure Block.Within (all : List Token) (b : Block) : Prop where
  before : Run all b.before
  inner : Run all b.inner
  rest : Run all b.rest
  closes : Closes b.opener b.closer
  closer : b.closer ∈ all

namespace Block

variable {all ts : List Token} {b : Block}

/-- The parts of a block in a run, when the parts are well bracketed. -/
theorem Within.of_run (h : Run all ts) (hrun : b.run = ts) (hbefore : Balanced b.before) (hinner : Balanced b.inner)
    (hrest : Balanced b.rest) (hcloses : Closes b.opener b.closer) : Within all b := by
  subst hrun
  have hinside : (b.inner ++ b.closer :: b.rest).Sublist b.run :=
    (List.sublist_cons_self ..).trans (List.sublist_append_right ..)
  have hafter : (b.closer :: b.rest).Sublist b.run := (List.sublist_append_right ..).trans hinside
  exact ⟨h.part (List.sublist_append_left ..) hbefore,
    h.part ((List.sublist_append_left ..).trans hinside) hinner,
    h.part ((List.sublist_cons_self ..).trans hafter) hrest, hcloses, h.mem (hafter.subset List.mem_cons_self)⟩

/-- The parts of a block that is found after a well bracketed run. -/
theorem balanced_prepend {piece : List Token} (hpiece : Balanced piece)
    (h : Balanced b.before ∧ Balanced b.inner ∧ Balanced b.rest ∧ Closes b.opener b.closer) :
    Balanced (b.prepend piece).before ∧ Balanced (b.prepend piece).inner ∧ Balanced (b.prepend piece).rest ∧
      Closes (b.prepend piece).opener (b.prepend piece).closer :=
  ⟨hpiece.append h.1, h.2⟩

/-- The parts of a block that begins a well bracketed run. -/
theorem balanced_ofOpener? {opener : Token} (h : Balanced (opener :: ts)) (hopen : opener.isOp "\x7b" = true)
    (hb : ofOpener? opener ts = some b) :
    Balanced b.before ∧ Balanced b.inner ∧ Balanced b.rest ∧ Closes b.opener b.closer := by
  obtain ⟨g, hg, rfl⟩ := Option.map_eq_some_iff.mp hb
  obtain ⟨hcloses, hinner, hrest⟩ := h.of_closeGroup (isOpener_of_isOp hopen (by decide)) hg
  exact ⟨.nil, hinner, hrest, hcloses⟩

/-- The parts of a body in a well bracketed run. -/
theorem balanced_body? {previous : Token} (h : Balanced ts) (hb : body? previous ts = some b) :
    Balanced b.before ∧ Balanced b.inner ∧ Balanced b.rest ∧ Closes b.opener b.closer := by
  fun_induction body? previous ts generalizing b with
  | case1 => cases hb
  | case2 => cases hb
  | case3 previous t rest _ hbrace => exact balanced_ofOpener? h (Bool.and_eq_true_iff.mp hbrace).1 hb
  | case4 =>
    rename_i ih
    obtain ⟨b', hb', rfl⟩ := Option.map_eq_some_iff.mp hb
    exact balanced_prepend h.takePiece.1 (ih h.takePiece.2 hb')

/-- The parts of a body in a run. -/
theorem within_body? {previous : Token} (h : Run all ts) (hb : body? previous ts = some b) : Within all b := by
  obtain ⟨hbefore, hinner, hrest, hcloses⟩ := balanced_body? h.balanced hb
  exact .of_run h (run_body? hb) hbefore hinner hrest hcloses

end Block

namespace LiteralCut

variable {all ts : List Token} {keyword : Token} {c : LiteralCut}

/-- A function literal whose parts are runs of a list. -/
structure Within (all : List Token) (c : LiteralCut) : Prop where
  params : Run all c.params
  body : Block.Within all c.body
  shell : Balanced c.shell
  all : Balanced c.all

/-- The body of any function literal in a well bracketed run is a group, which may be emptied. -/
theorem balanced_body {before : List Token} (hc : ofKeyword? keyword ts = some c)
    (h : Balanced (before ++ keyword :: ts)) :
    Closes c.body.opener c.body.closer ∧ Balanced c.body.inner ∧
    Balanced (before ++ (c.shell ++ c.body.rest)) := by
  have hsplit := all_append_rest hc
  obtain ⟨-, -, -, -, hbody⟩ := run_ofKeyword? hc
  obtain ⟨hbrace, hgroup⟩ := Block.closeGroup_body? hbody
  have hwhole : Balanced
      ((before ++ c.signature) ++ c.body.opener :: (c.body.inner ++ c.body.closer :: c.body.rest)) := by
    simpa only [← hsplit, LiteralCut.all, List.append_assoc, List.cons_append, List.nil_append] using h
  have hopen := isOpener_of_isOp hbrace (by decide)
  obtain ⟨g, hg, hcloses, hinner, hfill⟩ := hwhole.exists_closeGroup_append hopen
  obtain rfl := Option.some.inj (hgroup.symm.trans hg)
  refine ⟨hcloses, hinner, ?_⟩
  have hempty := hfill [c.body.opener, c.body.closer] (.enclosed hcloses .nil)
  simpa only [shell, List.append_assoc] using hempty

/-- The parts of a function literal that begins a run. -/
theorem within_ofKeyword? (h : Run all (keyword :: ts)) (hc : ofKeyword? keyword ts = some c) : Within all c := by
  obtain ⟨rfl, hfunc, hopen, rfl, hbody⟩ := run_ofKeyword? hc
  have hplain := isPlain_of_isKeyword hfunc
  have hts := h.tail hplain
  have hopener := isOpener_of_isOp hopen (by decide)
  -- The parenthesis before the body closes the one after the keyword, as the literal was cut there.
  obtain ⟨g, hg, hgroup⟩ : ∃ g, closeGroup (c.params ++ c.close' :: c.body.run) = some g ∧
      g = ⟨c.params, c.close', c.body.run⟩ := by
    rw [ofKeyword?, hfunc, hopen] at hc
    simp only [Bool.and_self, ↓reduceIte] at hc
    split at hc
    · next g hg =>
      obtain ⟨b, hb, hcut⟩ := Option.map_eq_some_iff.mp hc
      refine ⟨g, hg, ?_⟩
      rw [← hcut]
      dsimp only
      rw [Block.run_body? hb]
    · cases hc
  subst hgroup
  obtain ⟨hcloses, hparams, -⟩ := hts.balanced.of_closeGroup hopener hg
  obtain ⟨hrunParams, -, hrest⟩ := hts.group hopener hg
  have hwithin : Block.Within all c.body := Block.within_body? hrest hbody
  have hsignature : Balanced c.signature := by
    refine .plain hplain ?_
    exact .group hcloses hparams hwithin.before.balanced
  refine ⟨hrunParams, hwithin, hsignature.append ?_, hsignature.append ?_⟩
  · exact .enclosed hwithin.closes .nil
  · exact .enclosed hwithin.closes hwithin.inner.balanced

end LiteralCut

namespace Block

variable {all ts : List Token} {b : Block}

/-- The parts of the block after a header in a well bracketed run. -/
theorem balanced_afterHeader? {previous : Token} (h : Balanced ts) (hb : afterHeader? previous ts = some b) :
    Balanced b.before ∧ Balanced b.inner ∧ Balanced b.rest ∧ Closes b.opener b.closer := by
  fun_induction afterHeader? previous ts generalizing b with
  | case1 => cases hb
  | case2 previous t rest c hc ih =>
    obtain ⟨b', hb', rfl⟩ := Option.map_eq_some_iff.mp hb
    have hcut := LiteralCut.within_ofKeyword? ⟨List.Sublist.refl _, h⟩ hc
    exact balanced_prepend hcut.all (ih hcut.body.rest.balanced hb')
  | case3 previous t rest _ hbrace =>
    exact balanced_ofOpener? h (Bool.and_eq_true_iff.mp (Bool.and_eq_true_iff.mp hbrace).1).1 hb
  | case4 =>
    rename_i ih
    obtain ⟨b', hb', rfl⟩ := Option.map_eq_some_iff.mp hb
    exact balanced_prepend h.takePiece.1 (ih h.takePiece.2 hb')

/-- The parts of the block after a header in a run. -/
theorem within_afterHeader? {previous : Token} (h : Run all ts) (hb : afterHeader? previous ts = some b) :
    Within all b := by
  obtain ⟨hbefore, hinner, hrest, hcloses⟩ := balanced_afterHeader? h.balanced hb
  exact .of_run h (run_afterHeader? hb) hbefore hinner hrest hcloses

end Block

end GoIdiom
