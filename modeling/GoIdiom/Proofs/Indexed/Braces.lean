import GoIdiom.Proofs.Indexed.Loops

/-!
# Braces and signatures by indices

The searches for the brace of a body and the brace of a block find the blocks that the list readers cut out, and
fail where those find none. A search may begin inside parentheses and leave them: all that it needs is that every
opener it meets is closed before the end. Parameters and results are those of the tokens between the brackets.
-/

namespace GoIdiom.Pairing

open Token
open Stop (advance advance_eq)

variable {p : Pairing} {index stop : Nat} {t previous : Token} {run rest : List Token}

/-- The token before an index tells whether braces there belong to a type. -/
theorem opensType_eq (h : p.Follows index previous) : p.opensType index = .ok (Block.opensType previous) := by
  rw [opensType, if_pos h.1, token, h.2]
  rfl

/-- A fault at a token is placed there. -/
theorem faultAt_eq {α : Type} (h : p.token index = .ok t) (cause : SourceCause) :
    p.faultAt cause index = (.error (.fault ⟨cause, t.pos⟩) : Except Stop α) := by
  have hindex : index < p.tokens.length := by
    rw [token] at h
    split at h
    · next ht => exact (List.getElem?_eq_some_iff.mp ht).1
    · cases h
  rw [faultAt, Nat.min_eq_left (by omega), h]
  rfl

namespace Spans

/-- The tokens of a range are those of the run that spans it. -/
theorem slice_eq {more : List Token} (h : p.Spans index (run ++ more)) (hstop : index + run.length = stop) :
    p.slice index stop = run := by
  obtain ⟨front, beyond, htokens, rfl⟩ := h.stands
  rw [slice, htokens, List.drop_left, ← hstop, Nat.add_sub_cancel_left, List.append_assoc, List.take_left]

/-- A condition on the first token of a run. -/
theorem holdsAt_eq (h : p.Spans index run) (hstop : index + run.length = stop) (condition : Token → Bool) :
    p.holdsAt condition index stop = .ok (run.head?.any condition) := by
  cases run with
  | nil => rw [holdsAt, if_neg (by simp at hstop; omega)]; rfl
  | cons t rest => rw [holdsAt, if_pos (lt_stop hstop), h.token_head]; rfl

/-- Conditions on the first two tokens of a run. -/
theorem holdsTwice_eq (h : p.Spans index (t :: rest)) (hstop : index + (t :: rest).length = stop)
    (first second : Token → Bool) :
    p.holdsTwice first second index stop = .ok (first t && rest.head?.any second) := by
  rw [holdsTwice, h.token_head, Except.ok_bind]
  cases first t with
  | false => rfl
  | true =>
    rw [if_pos rfl, Bool.true_and]
    exact h.tail.holdsAt_eq (by rw [List.length_cons] at hstop; omega) second

/-- Whether a statement ends before a run. -/
theorem endsAt_eq (h : p.Spans index run) (hstop : index + run.length = stop) :
    p.endsAt index stop = .ok (Block.endsStatement run) := by
  cases run with
  | nil => rw [endsAt, if_neg (by simp at hstop; omega)]; rfl
  | cons t rest => rw [endsAt, if_pos (lt_stop hstop), h.token_head]; rfl

/-- The search for the body after a signature finds its brace. -/
theorem bodyBrace_eq (h : p.Spans index run) (hstop : index + run.length = stop)
    (hprevious : p.Follows index previous) :
    p.bodyBrace index stop = .ok ((Block.body? previous run).map fun b => index + b.before.length) := by
  fun_induction Block.body? previous run generalizing index with
  | case1 =>
    rw [bodyBrace, if_neg (by simp at hstop; omega)]
    rfl
  | case2 previous t rest ht =>
    rw [bodyBrace, if_pos (lt_stop hstop), h.token_head, Except.ok_bind, if_pos ht]
    rfl
  | case3 previous t rest ht hbrace =>
    obtain ⟨hopen, htype⟩ := Bool.and_eq_true_iff.mp hbrace
    obtain ⟨g, hg, -⟩ := h.exists_closeGroup (isOpener_of_isOp hopen (by decide))
    rw [Bool.not_eq_true'] at htype
    rw [bodyBrace, if_pos (lt_stop hstop), h.token_head, Except.ok_bind, if_neg ht, if_pos hopen,
      opensType_eq hprevious, Except.ok_bind, htype, if_neg Bool.false_ne_true, Block.ofOpener?, hg]
    rfl
  | case4 previous t rest ht hbrace piece =>
    rename_i ih
    have hpiece := h.pieceAt
    have hrest := ih hpiece.after (PieceAt.stop_eq hstop) hpiece.follows
    have hfound : ((Block.body? (piece.1.getLastD t) piece.2).map (Block.prepend piece.1)).map
        (fun b => index + b.before.length) =
        (Block.body? (piece.1.getLastD t) piece.2).map fun b => index + piece.1.length + b.before.length := by
      rw [Option.map_map]
      congr 1
      funext b
      simp only [Function.comp_apply, Block.prepend, List.length_append, Nat.add_assoc]
    rw [bodyBrace, if_pos (lt_stop hstop), h.token_head, Except.ok_bind, if_neg ht, hfound, ← hrest]
    by_cases hopen : t.isOp "\x7b" = true
    · have htype : Block.opensType previous = true := by simpa [hopen] using hbrace
      obtain ⟨close, hclose, hnext⟩ := hpiece.closer (isOpener_of_isOp hopen (by decide))
      have hlt := hpiece.lt
      rw [if_pos hopen, opensType_eq hprevious, Except.ok_bind, if_pos htype, hclose, Except.ok_bind,
        advance_eq (by omega), Except.ok_bind]
      dsimp only
      rw [hnext]
    · rw [if_neg hopen, hpiece.skip, advance_eq hpiece.lt, Except.ok_bind]

/-- A block whose brace is at an index: its closer is found by the brace, and contents and rest are runs. -/
structure BraceAt (p : Pairing) (brace : Nat) (b : Block) : Prop where
  closer : p.closer brace = .ok (brace + 1 + b.inner.length)
  token : p.token (brace + 1 + b.inner.length) = .ok b.closer
  inner : p.Spans (brace + 1) b.inner
  balanced : Balanced b.inner
  rest : p.Spans (brace + 1 + b.inner.length + 1) b.rest
  follows : p.Follows (brace + 1 + b.inner.length + 1) b.closer

/-- The brace that a run begins with, when the block is the group of it. -/
theorem braceAt {b : Block} (h : p.Spans index (b.opener :: (b.inner ++ b.closer :: b.rest)))
    (hopen : b.opener.isOpener = true)
    (hgroup : closeGroup (b.inner ++ b.closer :: b.rest) = some ⟨b.inner, b.closer, b.rest⟩) :
    BraceAt p index b := by
  have hg := h.groupAt hopen hgroup
  exact ⟨hg.closer, hg.token, hg.inner, hg.balanced, hg.rest, hg.follows⟩

/-- The braces of the body that follows a signature. -/
theorem body_braceAt {b : Block} (h : p.Spans index run) (hb : Block.body? previous run = some b) :
    BraceAt p (index + b.before.length) b := by
  obtain ⟨hbrace, hgroup⟩ := Block.closeGroup_body? hb
  rw [← Block.run_body? hb] at h
  exact h.right.braceAt (isOpener_of_isOp hbrace (by decide)) hgroup

/-- The braces of the body of a function literal. -/
theorem literal_braceAt {c : LiteralCut} (h : p.Spans index (t :: rest))
    (hc : LiteralCut.ofKeyword? t rest = some c) : BraceAt p (index + c.signature.length) c.body := by
  obtain ⟨-, -, -, -, hbody⟩ := LiteralCut.run_ofKeyword? hc
  obtain ⟨hbrace, hgroup⟩ := Block.closeGroup_body? hbody
  rw [← LiteralCut.all_append_rest hc, LiteralCut.all, List.append_assoc, List.cons_append, List.append_assoc,
    List.singleton_append] at h
  exact h.right.braceAt (isOpener_of_isOp hbrace (by decide)) hgroup

/-- The braces of the block after a header. -/
theorem header_braceAt {b : Block} (h : p.Spans index run) (hrun : Balanced run)
    (hb : Block.afterHeader? previous run = some b) : BraceAt p (index + b.before.length) b := by
  obtain ⟨-, hinner, -, hcloses⟩ := Block.balanced_afterHeader? hrun hb
  rw [← Block.run_afterHeader? hb] at h
  exact h.right.braceAt hcloses.1 (hinner.closeGroup_append hcloses.2.1 b.rest)

/-- The parentheses and the body of a function literal. -/
theorem exists_literal_groupAt {c : LiteralCut} (h : p.Spans index (t :: rest))
    (hc : LiteralCut.ofKeyword? t rest = some c) : ∃ u us g, rest = u :: us ∧ GroupAt p (index + 1) u us g ∧
      Block.body? g.closer g.rest = some c.body ∧ c = ⟨t, u, g.inner, g.closer, c.body⟩ := by
  cases rest with
  | nil => cases hc
  | cons u us =>
    rw [LiteralCut.ofKeyword?] at hc
    split at hc
    · next hkeyword =>
      have hopen : u.isOp "(" = true := (Bool.and_eq_true_iff.mp hkeyword).2
      obtain ⟨g, hg⟩ := h.tail.exists_groupAt (isOpener_of_isOp hopen (by decide))
      rw [hg.closeGroup] at hc
      obtain ⟨b, hb, rfl⟩ := Option.map_eq_some_iff.mp hc
      exact ⟨u, us, g, rfl, hg, hb, rfl⟩
    · cases hc

/-- The search for the braces of a function literal finds its body. -/
theorem literalBraces_eq (h : p.Spans index (t :: rest)) (hstop : index + (t :: rest).length = stop) :
    p.literalBraces index stop = .ok ((LiteralCut.ofKeyword? t rest).map fun c =>
      ⟨index + c.signature.length, index + c.signature.length + 1 + c.body.inner.length⟩) := by
  rw [literalBraces, h.holdsTwice_eq hstop, Except.ok_bind]
  cases rest with
  | nil =>
    rw [List.head?_nil, Option.any_none, Bool.and_false, if_neg Bool.false_ne_true]
    rfl
  | cons u us =>
    rw [List.head?_cons, Option.any_some, LiteralCut.ofKeyword?]
    by_cases hkeyword : (t.isKeyword "func" && u.isOp "(") = true
    · have hopen : u.isOp "(" = true := (Bool.and_eq_true_iff.mp hkeyword).2
      obtain ⟨g, hg⟩ := h.tail.exists_groupAt (isOpener_of_isOp hopen (by decide))
      have hlength := hg.length_eq
      simp only [List.length_cons] at hstop
      rw [if_pos hkeyword, if_pos hkeyword, hg.closer, Except.ok_bind, hg.closeGroup,
        hg.rest.bodyBrace_eq (by omega) hg.follows, Except.ok_bind]
      cases hb : Block.body? g.closer g.rest with
      | none =>
        simp only [hb, Option.map_none]
        rfl
      | some b =>
        have hbrace := hg.rest.body_braceAt hb
        have hsignature : index + (LiteralCut.mk t u g.inner g.closer b).signature.length =
            index + 1 + 1 + g.inner.length + 1 + b.before.length := by
          simp only [LiteralCut.signature, List.length_cons, List.length_append]
          omega
        simp only [hb, Option.map_some, hsignature]
        rw [hbrace.closer]
        rfl
    · rw [if_neg hkeyword, if_neg hkeyword]
      rfl

/-- What the search for the block after a keyword gives for a block that is found after an index, or for none. -/
def braceOf (keyword : Token) (index : Nat) : Option Block → Except Stop Nat
  | some b => .ok (index + b.before.length)
  | none => .error (.fault ⟨.missingBlock, keyword.pos⟩)

/-- A piece before the block moves its brace by the length of the piece. -/
theorem braceOf_prepend (keyword : Token) {next : Nat} {piece : List Token} (hnext : next = index + piece.length)
    (found : Option Block) :
    braceOf keyword next found = braceOf keyword index (found.map (Block.prepend piece)) := by
  cases found with
  | none => rfl
  | some b => simp only [Option.map_some, braceOf, Block.prepend, List.length_append, hnext, Nat.add_assoc]

/-- The search for the block after a header finds its brace, or fails at the keyword. -/
theorem blockBrace_eq {keyword : Token} {first : Nat} (hkeyword : p.token first = .ok keyword)
    (h : p.Spans index run) (hstop : index + run.length = stop) (hprevious : p.Follows index previous) :
    p.blockBrace first index stop = braceOf keyword index (Block.afterHeader? previous run) := by
  fun_induction Block.afterHeader? previous run generalizing index with
  | case1 =>
    rw [blockBrace, if_neg (by simp at hstop; omega), faultAt_eq hkeyword]
    rfl
  | case2 previous t rest c hc =>
    rename_i ih
    have hbrace := h.literal_braceAt hc
    have hall : index + c.signature.length + 1 + c.body.inner.length + 1 = index + c.all.length := by
      simp only [LiteralCut.all, List.length_append, List.length_cons, List.length_nil]
      omega
    have hlength := LiteralCut.length_all_add_rest hc
    rw [blockBrace, if_pos (lt_stop hstop), h.token_head, Except.ok_bind, h.literalBraces_eq hstop, hc,
      Except.ok_bind]
    dsimp only [Option.map_some]
    rw [advance_eq (by omega), Except.ok_bind]
    dsimp only
    rw [List.length_cons] at hstop
    rw [ih hbrace.rest (by omega) hbrace.follows, braceOf_prepend keyword hall]
  | case3 previous t rest hc hbrace =>
    simp only [Bool.and_eq_true, Bool.not_eq_true'] at hbrace
    obtain ⟨⟨hopen, htype⟩, hends⟩ := hbrace
    obtain ⟨g, hg⟩ := h.exists_groupAt (isOpener_of_isOp hopen (by decide))
    have hlength := hg.length_eq
    rw [hg.closeGroup, Option.any_some] at hends
    rw [blockBrace, if_pos (lt_stop hstop), h.token_head, Except.ok_bind, h.literalBraces_eq hstop, hc,
      Except.ok_bind]
    dsimp only [Option.map_none]
    rw [List.length_cons] at hstop
    rw [if_pos hopen, hg.closer, Except.ok_bind, opensType_eq hprevious, Except.ok_bind, htype,
      if_neg Bool.false_ne_true, hg.rest.endsAt_eq (by omega), Except.ok_bind, hends, if_pos rfl, Block.ofOpener?,
      hg.closeGroup]
    rfl
  | case4 previous t rest hc hbrace piece =>
    rename_i ih
    have hpiece := h.pieceAt
    have hlt := hpiece.lt
    have hrest := ih hpiece.after (PieceAt.stop_eq hstop) hpiece.follows
    rw [blockBrace, if_pos (lt_stop hstop), h.token_head, Except.ok_bind, h.literalBraces_eq hstop, hc,
      Except.ok_bind, ← braceOf_prepend keyword rfl, ← hrest]
    dsimp only [Option.map_none]
    by_cases hopen : t.isOp "\x7b" = true
    · -- The brace is that of a type or a composite literal, and the search goes on after its closer.
      obtain ⟨g, hg⟩ := h.exists_groupAt (isOpener_of_isOp hopen (by decide))
      obtain ⟨close, hclose, hnext⟩ := hpiece.closer (isOpener_of_isOp hopen (by decide))
      obtain rfl : close = index + 1 + g.inner.length := Except.ok.inj (hclose.symm.trans hg.closer)
      have hlength := hg.length_eq
      have hpasses : Block.opensType previous = false → Block.endsStatement g.rest = false := by
        intro htype
        rw [hopen, htype, hg.closeGroup] at hbrace
        simpa using hbrace
      rw [List.length_cons] at hstop
      rw [if_pos hopen, hg.closer, Except.ok_bind, opensType_eq hprevious, Except.ok_bind]
      cases htype : Block.opensType previous with
      | true =>
        rw [if_pos rfl, advance_eq (by omega), Except.ok_bind]
        dsimp only
        rw [hnext]
      | false =>
        rw [if_neg Bool.false_ne_true, hg.rest.endsAt_eq (by omega), Except.ok_bind, hpasses htype,
          if_neg Bool.false_ne_true, advance_eq (by omega), Except.ok_bind]
        dsimp only
        rw [hnext]
    · rw [if_neg hopen, hpiece.skip, advance_eq hlt, Except.ok_bind]

/-! ## Signatures -/

/-- Whether an entry declares a name. -/
theorem isNamed_eq (h : p.Spans index run) : p.isNamed index run = .ok (Signature.declaresName run) := by
  match run with
  | [] => rfl
  | [_] => rfl
  | first :: second :: rest =>
    rw [isNamed, Signature.declaresName]
    cases hident : first.isIdent with
    | false => rfl
    | true =>
      cases hdot : second.isOp "." with
      | true => rfl
      | false =>
        by_cases hopen : second.isOp "[" = true
        · obtain ⟨g, hg⟩ := h.tail.exists_groupAt (isOpener_of_isOp hopen (by decide))
          have hinner := hg.inner
          rw [← List.append_nil g.inner] at hinner
          rw [if_neg (by decide), if_pos hopen, hg.closer, Except.ok_bind, hopen, hg.closeGroup]
          rw [show index + 2 = index + 1 + 1 from rfl, hinner.slice_eq (by omega)]
          rfl
        · rw [if_neg (by decide), if_neg hopen, Bool.eq_false_iff.mpr hopen]
          rfl

/-- An entry of a parameter list is read from its range. -/
theorem entryIn_eq {e : ParamEntry} (h : p.Spans index run) (hrun : Signature.entryOf run = some e) :
    p.entryIn ⟨index, index + run.length⟩ = .ok e := by
  have hslice := h
  rw [← List.append_nil run] at hslice
  rw [entryIn, hslice.slice_eq rfl]
  cases run with
  | nil => cases hrun
  | cons first rest =>
    dsimp only
    rw [h.isNamed_eq, Except.ok_bind]
    rw [Signature.entryOf] at hrun
    split at hrun
    · next hnamed =>
      rw [if_pos hnamed, ← Option.some.inj hrun]
      rfl
    · next hnamed =>
      rw [if_neg hnamed, ← Option.some.inj hrun]
      rfl

/-- Every part with a token has an entry. -/
theorem exists_entryOf (hrun : run ≠ []) : ∃ e, Signature.entryOf run = some e := by
  cases run with
  | nil => exact absurd rfl hrun
  | cons first rest =>
    rw [Signature.entryOf]
    split <;> exact ⟨_, rfl⟩

/-- The entries between commas. -/
theorem entriesIn_eq (h : p.Spans index run) (hrun : Balanced run) :
    p.entriesIn ((rangesOf index index (endedParts (·.isOp ",") run)).filter fun r => r.first < r.stop) =
      .ok ((splitParts (·.isOp ",") run).filterMap Signature.entryOf) := by
  -- A part without a token has no range, and a part with one gives its entry.
  have hpart {index : Nat} {part : List Token} (hpart : p.Spans index part) (ended : Option Token)
      {more : List (List Token × Option Token)} (entries : List ParamEntry)
      (hmore : p.entriesIn ((rangesOf (index + part.length + 1) (index + part.length + 1) more).filter
        fun r => r.first < r.stop) = .ok entries) :
      p.entriesIn ((rangesOf index index ((part, ended) :: more)).filter fun r => r.first < r.stop) =
        .ok ((Signature.entryOf part).toList ++ entries) := by
    rw [rangesOf, List.filter_cons]
    by_cases hempty : part = []
    · subst hempty
      rw [if_neg (by simp)]
      exact hmore
    · have hlength := List.length_pos_iff.mpr hempty
      obtain ⟨e, he⟩ := exists_entryOf hempty
      rw [if_pos (by simpa using hlength), entriesIn, hpart.entryIn_eq he, Except.ok_bind, hmore, he]
      rfl
  have hfilter (part : List Token) (parts : List (List Token)) :
      ((part :: parts).filter (!·.isEmpty)).filterMap Signature.entryOf =
        (Signature.entryOf part).toList ++ (parts.filter (!·.isEmpty)).filterMap Signature.entryOf := by
    cases part with
    | nil => rfl
    | cons first rest =>
      obtain ⟨e, he⟩ := exists_entryOf (List.cons_ne_nil first rest)
      rw [List.filter_cons_of_pos rfl, List.filterMap_cons_some he, he]
      rfl
  rw [splitParts]
  fun_induction endedParts (·.isOp ",") run generalizing index with
  | case1 run part hspan =>
    have happend := spanTop_append (·.isOp ",") run
    have hbalanced := hrun.spanTop (·.isOp ",")
    rw [hspan] at happend hbalanced
    rw [List.append_nil] at happend
    subst happend
    rw [hpart h none [] rfl, List.map_cons, List.map_nil, hfilter]
    rfl
  | case2 run part t rest hspan ih =>
    have happend := spanTop_append (·.isOp ",") run
    have hbalanced := hrun.spanTop (·.isOp ",")
    have hcomma : t.isOp "," = true := spanTop_stops (congrArg Prod.snd hspan)
    rw [hspan] at happend hbalanced
    rw [← happend] at h
    have htail := hbalanced.2.of_plain (isPlain_of_isOp hcomma (by decide))
    rw [hpart (h.left ⟨[], hbalanced.1⟩) (some t) _ (ih h.right.tail htail), List.map_cons, hfilter]

/-- The parameters in the parentheses that a run begins with. -/
theorem GroupAt.params_eq {g : Group} (hg : GroupAt p index t rest g) :
    p.params index = .ok (Signature.params g.inner) := by
  rw [Pairing.params, hg.closer, Except.ok_bind, split, hg.inner.ranges_eq rfl, Except.ok_bind]
  change (p.entriesIn _ >>= _) = _
  rw [entriesIn_eq hg.inner hg.balanced]
  rfl

/-- A body after a parenthesis comes behind the group of that. -/
theorem before_body? {b : Block} (hopen : t.isOp "(" = true) {g : Group} (hg : closeGroup rest = some g)
    (hb : Block.body? previous (t :: rest) = some b) : ∃ more, b.before = t :: (g.inner ++ g.closer :: more) := by
  obtain ⟨hkind, htext⟩ := Bool.and_eq_true_iff.mp hopen
  have hsemi : ¬t.isSemi = true := by
    rw [isSemi, beq_iff_eq.mp hkind]
    decide
  have hbrace : ¬(t.isOp "\x7b" && !Block.opensType previous) = true := by
    rw [isOp, beq_iff_eq.mp htext]
    simp
  rw [Block.body?, if_neg hsemi, if_neg hbrace, takePiece, if_pos (isOpener_of_isOp hopen (by decide)), hg] at hb
  obtain ⟨b', -, rfl⟩ := Option.map_eq_some_iff.mp hb
  exact ⟨b'.before, by simp [Block.prepend]⟩

/-- The results between a signature and its body. -/
theorem results_eq {b : Block} (h : p.Spans index run) (hb : Block.body? previous run = some b) :
    p.results index (index + b.before.length) = .ok (Signature.results b.before) := by
  have hrun := Block.run_body? hb
  cases hbefore : b.before with
  | nil =>
    rw [results, if_neg (by simp)]
    rfl
  | cons t more =>
    rw [Block.run, hbefore, List.cons_append] at hrun
    rw [← hrun] at h hb
    rw [results, if_pos (by simp), h.token_head, Except.ok_bind, Signature.results]
    by_cases hopen : t.isOp "(" = true
    · obtain ⟨g, hg⟩ := h.exists_groupAt (isOpener_of_isOp hopen (by decide))
      obtain ⟨behind, hbehind⟩ := before_body? hopen hg.closeGroup hb
      rw [hbefore] at hbehind
      rw [if_pos hopen, if_pos hopen, hg.params_eq, (List.cons.inj hbehind).2,
        hg.balanced.closeGroup_append hg.closes.2.1]
    · rw [← List.cons_append] at h
      rw [if_neg hopen, if_neg hopen, h.slice_eq rfl]
      rfl

end Spans

end GoIdiom.Pairing
