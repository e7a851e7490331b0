import GoIdiom.Proofs.BracketWords
import GoIdiom.Proofs.Literals

/-!
# The block behind a header

The brace of a block is looked for from the keyword of its statement on. Outside brackets the search passes over the
types and composite literals of the header, and over a signature with its body. Behind a signature any brace is
taken for the body until a semicolon ends the search for it, and a composite literal with a semicolon behind it is
taken for the block. `Passed` says which headers are passed over.
-/

namespace GoIdiom

open Token

namespace Block

variable {waits : Bool} {previous t opener closer : Token} {inner rest header : List Token}

/-- Whether a function literal or function type begins with the token. -/
def beginsSignature (t : Token) (rest : List Token) : Bool := t.isKeyword "func" && rest.head?.any (·.isOp "(")

/-- A header behind the token `previous` that the search for a block passes over. A signature waits for its body
until a semicolon stands outside brackets. A composite literal does not stand before a semicolon. -/
inductive Passed : Bool → Token → List Token → Prop
  | nil {previous : Token} (hprevious : opensType previous = false) : Passed false previous []
  | semi {waits : Bool} {previous t : Token} {rest : List Token} (ht : t.isSemi = true)
      (hrest : Passed false t rest) :
      Passed waits previous (t :: rest)
  | plain {waits : Bool} {previous t : Token} {rest : List Token} (ht : t.isPlain = true) (hsemi : t.isSemi = false)
      (hrest : Passed (waits || beginsSignature t rest) t rest) : Passed waits previous (t :: rest)
  | group {waits : Bool} {previous opener closer : Token} {inner rest : List Token} (hcloses : Closes opener closer)
      (hinner : Balanced inner) (htype : opener.isOp "\x7b" = true → opensType previous = true)
      (hrest : Passed waits closer rest) : Passed waits previous (opener :: (inner ++ closer :: rest))
  | body {previous opener closer : Token} {inner rest : List Token} (hcloses : Closes opener closer)
      (hinner : Balanced inner) (hbrace : opener.isOp "\x7b" = true) (hprevious : opensType previous = false)
      (hrest : Passed false closer rest) : Passed true previous (opener :: (inner ++ closer :: rest))
  | composite {previous opener closer : Token} {inner rest : List Token} (hcloses : Closes opener closer)
      (hinner : Balanced inner) (hbrace : opener.isOp "\x7b" = true) (hprevious : opensType previous = false)
      (hnext : rest.head?.any (fun t => t.isSemi || t.isKeyword "else") = false)
      (hrest : Passed false closer rest) :
      Passed false previous (opener :: (inner ++ closer :: rest))

/-! ## The search behind a signature -/

/-- The block that is found when the body of a signature is looked for first. -/
def afterSignature? (previous : Token) (ts : List Token) : Option Block :=
  match body? previous ts with
  | some b => (afterHeader? b.closer b.rest).map (prepend (b.before ++ b.opener :: (b.inner ++ [b.closer])))
  | none => afterHeader? previous ts

/-- The block that is found, with or without a signature that waits for its body. -/
def find? (waits : Bool) (previous : Token) (ts : List Token) : Option Block :=
  if waits then afterSignature? previous ts else afterHeader? previous ts

/-- Tokens put before a block twice are put before it at once. -/
theorem prepend_append (front piece : List Token) (b : Block) :
    (b.prepend piece).prepend front = b.prepend (front ++ piece) := by
  rw [prepend, prepend, prepend, List.append_assoc]

/-- The same where there may be no block. -/
theorem map_prepend_append (front piece : List Token) (b : Option Block) :
    (b.map (prepend piece)).map (prepend front) = b.map (prepend (front ++ piece)) := by
  rw [Option.map_map]
  exact congrArg (Option.map · b) (funext (prepend_append front piece))

/-- Without a signature behind it a keyword begins no literal. -/
theorem ofKeyword?_of_not_beginsSignature (h : beginsSignature t rest = false) :
    LiteralCut.ofKeyword? t rest = none := by
  cases rest with
  | nil => rfl
  | cons u rest =>
    rw [beginsSignature, List.head?_cons, Option.any_some] at h
    rw [LiteralCut.ofKeyword?, h, if_neg Bool.false_ne_true]

/-- Behind its keyword and behind its parameters the same body of a signature is found. -/
theorem exists_of_beginsSignature (h : beginsSignature t rest = true) (hrest : Balanced rest) :
    ∃ opener params closer after,
      LiteralCut.ofKeyword? t rest = (body? closer after).map (LiteralCut.mk t opener params closer) ∧
        body? t rest = (body? closer after).map (prepend (opener :: (params ++ [closer]))) := by
  cases rest with
  | nil =>
    rw [beginsSignature, List.head?_nil, Option.any_none, Bool.and_false] at h
    cases h
  | cons opener rest =>
    rw [beginsSignature, List.head?_cons, Option.any_some] at h
    have hopen : opener.isOp "(" = true := (Bool.and_eq_true_iff.mp h).2
    obtain ⟨g, hg, hcloses, hinner, -⟩ := hrest.exists_closeGroup (isOpener_of_isOp hopen (by decide))
    refine ⟨opener, g.inner, g.closer, g.rest, ?_, ?_⟩
    · rw [LiteralCut.ofKeyword?, h, if_pos rfl, hg]
    · rw [← splitGroup_eq_append hg, body?_group hcloses hinner]
      rw [not_isOp_of_isOp hopen (by decide)]
      exact fun hbrace => absurd hbrace Bool.false_ne_true

/-- A signature without a body is no function literal. -/
theorem ofKeyword?_of_body? (h : body? t rest = none) (hrest : Balanced rest) :
    LiteralCut.ofKeyword? t rest = none := by
  cases ht : beginsSignature t rest with
  | false => exact ofKeyword?_of_not_beginsSignature ht
  | true =>
    obtain ⟨opener, params, closer, after, hcut, hbody⟩ := exists_of_beginsSignature ht hrest
    rw [hbody, Option.map_eq_none_iff] at h
    rw [hcut, h, Option.map_none]

/-! ## The steps of the search -/

/-- The search for a header's block passes over a token that neither opens a bracket nor begins a
literal. -/
theorem afterHeader?_pass (hopen : t.isOpener = false) (hnone : LiteralCut.ofKeyword? t rest = none) :
    afterHeader? previous (t :: rest) = (afterHeader? t rest).map (prepend [t]) := by
  rw [afterHeader?_step hnone, isOp_brace_eq_false hopen, Bool.false_and, Bool.false_and, if_neg Bool.false_ne_true,
    takePiece_single hopen]
  rfl

/-- The search for a header's block passes over a whole literal. -/
theorem afterHeader?_literal {c : LiteralCut} (h : LiteralCut.ofKeyword? t rest = some c) :
    afterHeader? previous (t :: rest) = (afterHeader? c.body.closer c.body.rest).map (prepend c.all) := by
  rw [afterHeader?.eq_def]
  dsimp only
  split
  · next c' hc =>
    obtain rfl := Option.some.inj (hc.symm.trans h)
    rfl
  · next hc =>
    rw [h] at hc
    cases hc

/-- The search behind a signature passes over a token that is no bracket and no semicolon. -/
theorem afterSignature?_pass (hopen : t.isOpener = false) (hsemi : t.isSemi = false) (hrest : Balanced rest) :
    afterSignature? previous (t :: rest) = (afterSignature? t rest).map (prepend [t]) := by
  rw [afterSignature?, body?_pass hopen hsemi, afterSignature?]
  cases hbody : body? t rest with
  | some b => exact (map_prepend_append [t] _ _).symm
  | none => exact afterHeader?_pass hopen (ofKeyword?_of_body? hbody hrest)

/-- Behind the keyword of a signature the body of the signature is looked for first. -/
theorem afterHeader?_signature (hopen : t.isOpener = false) (ht : beginsSignature t rest = true)
    (hrest : Balanced rest) : afterHeader? previous (t :: rest) = (afterSignature? t rest).map (prepend [t]) := by
  obtain ⟨opener, params, closer, after, hcut, hbody⟩ := exists_of_beginsSignature ht hrest
  rw [afterSignature?]
  cases hafter : body? closer after with
  | none =>
    rw [hafter, Option.map_none] at hcut hbody
    rw [hbody]
    exact afterHeader?_pass hopen hcut
  | some b =>
    rw [hafter, Option.map_some] at hcut hbody
    rw [hbody, afterHeader?_literal hcut]
    dsimp only
    rw [map_prepend_append]
    simp only [LiteralCut.all, LiteralCut.signature, prepend, List.append_assoc, List.cons_append, List.nil_append]

/-- The search passes over a plain token, and waits from there on if a signature begins at it. -/
theorem find?_plain (ht : t.isPlain = true) (hsemi : t.isSemi = false) (hrest : Balanced rest) :
    find? waits previous (t :: rest) = (find? (waits || beginsSignature t rest) t rest).map (prepend [t]) := by
  have hopen := (isPlain_iff.mp ht).1
  cases waits with
  | true => exact afterSignature?_pass hopen hsemi hrest
  | false =>
    cases hsignature : beginsSignature t rest with
    | true => exact afterHeader?_signature hopen hsignature hrest
    | false => exact afterHeader?_pass hopen (ofKeyword?_of_not_beginsSignature hsignature)

/-- At a semicolon the search stops waiting. -/
theorem find?_semi (ht : t.isSemi = true) :
    find? waits previous (t :: rest) = (find? false t rest).map (prepend [t]) := by
  have hopen := (isPlain_iff.mp (isPlain_of_isSemi ht)).1
  have hfunc : t.isKeyword "func" = false := by rw [isKeyword, beq_iff_eq.mp ht]; rfl
  have hstep : afterHeader? previous (t :: rest) = (afterHeader? t rest).map (prepend [t]) :=
    afterHeader?_pass hopen (LiteralCut.ofKeyword?_eq_none hfunc rest)
  cases waits with
  | true =>
    rw [find?, if_pos rfl, afterSignature?, body?_semi ht]
    exact hstep
  | false => exact hstep

/-- The search passes over a group that is no block. -/
theorem find?_group (hcloses : Closes opener closer) (hinner : Balanced inner)
    (htype : opener.isOp "\x7b" = true → opensType previous = true) :
    find? waits previous (opener :: (inner ++ closer :: rest)) =
      (find? waits closer rest).map (prepend (opener :: (inner ++ [closer]))) := by
  have hstep : afterHeader? previous (opener :: (inner ++ closer :: rest)) =
      (afterHeader? closer rest).map (prepend (opener :: (inner ++ [closer]))) := by
    rw [afterHeader?_cons (not_isKeyword_of_isOpener hcloses.1), opensBody_eq_false htype, Bool.false_and,
      if_neg Bool.false_ne_true, takePiece_group hcloses hinner]
    dsimp only
    rw [getLastD_group]
  cases waits with
  | false => exact hstep
  | true =>
    rw [find?, if_pos rfl, afterSignature?, body?_group hcloses hinner htype, find?, if_pos rfl, afterSignature?]
    cases body? closer rest with
    | none => exact hstep
    | some b =>
      dsimp only [Option.map_some]
      rw [map_prepend_append]
      simp only [prepend, List.append_assoc]

/-- A brace behind a signature that waits is the body of the literal, and is passed over. -/
theorem find?_body (hcloses : Closes opener closer) (hinner : Balanced inner) (hbrace : opener.isOp "\x7b" = true)
    (hprevious : opensType previous = false) :
    find? true previous (opener :: (inner ++ closer :: rest)) =
      (find? false closer rest).map (prepend (opener :: (inner ++ [closer]))) := by
  rw [find?, if_pos rfl, afterSignature?, body?_brace hprevious hbrace, ofOpener?,
    hinner.closeGroup_append hcloses.2.1]
  rfl

/-- A brace that nothing waits for is the block exactly when a statement ends behind it. -/
theorem find?_brace (hcloses : Closes opener closer) (hinner : Balanced inner) (hbrace : opener.isOp "\x7b" = true)
    (hprevious : opensType previous = false) :
    find? false previous (opener :: (inner ++ closer :: rest)) =
      if endsStatement rest then some ⟨[], opener, inner, closer, rest⟩
      else (find? false closer rest).map (prepend (opener :: (inner ++ [closer]))) := by
  have hgroup := hinner.closeGroup_append hcloses.2.1 rest
  rw [find?, if_neg Bool.false_ne_true, afterHeader?_cons (not_isKeyword_of_isOpener hcloses.1), hbrace, hprevious,
    hgroup, takePiece_group hcloses hinner, ofOpener?, hgroup]
  dsimp only
  rw [getLastD_group]
  rfl

/-! ## Headers that are passed over -/

/-- A header that is passed over is well bracketed. -/
theorem Passed.balanced (h : Passed waits previous header) : Balanced header := by
  induction h with
  | nil => exact .nil
  | semi ht _ ih => exact .plain (isPlain_of_isSemi ht) ih
  | plain ht _ _ ih => exact .plain ht ih
  | group hcloses hinner _ _ ih => exact .group hcloses hinner ih
  | body hcloses hinner _ _ _ ih => exact .group hcloses hinner ih
  | composite hcloses hinner _ _ _ _ ih => exact .group hcloses hinner ih

/-- What is found behind a piece is found with the piece before it. -/
theorem map_prepend_eq_some_iff {piece before after : List Token} {b : Option Block} :
    b.map (prepend piece) = some ⟨piece ++ before, opener, inner, closer, after⟩ ↔
      b = some ⟨before, opener, inner, closer, after⟩ := by
  constructor
  · intro h
    obtain ⟨⟨before', opener', inner', closer', after'⟩, rfl, hparts⟩ := Option.map_eq_some_iff.mp h
    obtain ⟨hbefore, rfl, rfl, rfl, rfl⟩ := mk.inj hparts
    obtain rfl := List.append_cancel_left hbefore
    rfl
  · rintro rfl
    rfl

/-- The block behind a group is found with the group before it. -/
theorem map_prepend_group {o c : Token} {inside before after : List Token} {b : Option Block} :
    b.map (prepend (o :: (inside ++ [c]))) =
      some ⟨o :: (inside ++ c :: before), opener, inner, closer, after⟩ ↔
      b = some ⟨before, opener, inner, closer, after⟩ := by
  have hsplit : o :: (inside ++ c :: before) = (o :: (inside ++ [c])) ++ before := by
    rw [List.cons_append, List.append_assoc, List.singleton_append]
  rw [hsplit]
  exact map_prepend_eq_some_iff

/-- A block with tokens before it has no empty header. -/
theorem map_prepend_ne_some {piece after : List Token} {b : Option Block} :
    b.map (prepend (t :: piece)) ≠ some ⟨[], opener, inner, closer, after⟩ := by
  intro h
  obtain ⟨b', -, h⟩ := Option.map_eq_some_iff.mp h
  exact List.cons_ne_nil _ _ (mk.inj h).1

/-- A composite literal ends no statement when neither a semicolon nor an other branch stands behind it. -/
theorem endsStatement_append (hrest : Balanced rest) (hbrace : opener.isOp "\x7b" = true) {us : List Token} :
    endsStatement (rest ++ opener :: us) = rest.head?.any (fun t => t.isSemi || t.isKeyword "else") := by
  cases rest with
  | nil =>
    have hopen := isOpener_of_isOp hbrace (by decide)
    rw [List.nil_append, endsStatement, not_isSemi_of_isOp hbrace, not_isKeyword_of_isOpener hopen,
      not_isOp_of_isOp hbrace (by decide)]
    rfl
  | cons u us =>
    have hclose : u.isOp "\x7d" = false := by
      cases h : u.isOp "\x7d" with
      | false => rfl
      | true =>
        have hcloser : u.isCloser = true := by
          rw [isCloser, isOpIn, (Bool.and_eq_true_iff.mp h).1, beq_iff_eq.mp (Bool.and_eq_true_iff.mp h).2]
          decide
        have hplain := (hrest.tail (isOpener_of_isCloser hcloser)).1
        rw [isPlain_of_isCloser hcloser] at hplain
        cases hplain
    rw [List.cons_append, endsStatement, hclose, Bool.or_false, List.head?_cons, Option.any_some]

/-- Whether a signature begins does not depend on what stands from the block's brace on. -/
theorem beginsSignature_append (hbrace : opener.isOp "\x7b" = true) {us : List Token} :
    beginsSignature t (rest ++ opener :: us) = beginsSignature t rest := by
  cases rest with
  | cons u rest => rfl
  | nil =>
    rw [List.nil_append, beginsSignature, beginsSignature, List.head?_cons, Option.any_some,
      not_isOp_of_isOp hbrace (by decide), List.head?_nil, Option.any_none]

section Found

variable {after : List Token} (hbrace : opener.isOp "\x7b" = true) (hinner : Balanced inner)
  (hcloses : Closes opener closer) (hafter : Balanced after)
include hbrace hinner hcloses hafter

/-- A header before the block that is found is one that the search passes over. -/
theorem passed_of_find? (hheader : Balanced header)
    (h : find? waits previous (header ++ opener :: (inner ++ closer :: after)) =
      some ⟨header, opener, inner, closer, after⟩) : Passed waits previous header := by
  induction hheader generalizing waits previous with
  | nil =>
    rw [List.nil_append] at h
    cases hprevious : opensType previous with
    | true =>
      rw [find?_group hcloses hinner fun _ => hprevious] at h
      exact absurd h map_prepend_ne_some
    | false =>
      cases waits with
      | true =>
        rw [find?_body hcloses hinner hbrace hprevious] at h
        exact absurd h map_prepend_ne_some
      | false => exact .nil hprevious
  | @plain t ts ht hts ih =>
    rw [List.cons_append] at h
    cases hsemi : t.isSemi with
    | true =>
      rw [find?_semi hsemi] at h
      exact .semi hsemi (ih (map_prepend_eq_some_iff.mp h))
    | false =>
      rw [find?_plain ht hsemi (hts.append (.group hcloses hinner hafter)), beginsSignature_append hbrace] at h
      exact .plain ht hsemi (ih (map_prepend_eq_some_iff.mp h))
  | @group opener' closer' inner' ts hcloses' hinner' hts ihinner ih =>
    rw [List.cons_append, List.append_assoc, List.cons_append] at h
    by_cases htype : opener'.isOp "\x7b" = true → opensType previous = true
    · rw [find?_group hcloses' hinner' htype] at h
      exact .group hcloses' hinner' htype (ih (map_prepend_group.mp h))
    · rw [Classical.not_imp, Bool.not_eq_true] at htype
      obtain ⟨hbrace', hprevious⟩ := htype
      cases waits with
      | true =>
        rw [find?_body hcloses' hinner' hbrace' hprevious] at h
        exact .body hcloses' hinner' hbrace' hprevious (ih (map_prepend_group.mp h))
      | false =>
        rw [find?_brace hcloses' hinner' hbrace' hprevious, endsStatement_append hts hbrace] at h
        cases hnext : ts.head?.any (fun t => t.isSemi || t.isKeyword "else") with
        | true =>
          rw [hnext, if_pos rfl] at h
          exact absurd (mk.inj (Option.some.inj h)).1.symm (List.cons_ne_nil _ _)
        | false =>
          rw [hnext, if_neg Bool.false_ne_true] at h
          exact .composite hcloses' hinner' hbrace' hprevious hnext (ih (map_prepend_group.mp h))

/-- Behind a header that the search passes over the block is found, when a statement ends there. -/
theorem find?_of_passed (hend : endsStatement after = true) (h : Passed waits previous header) :
    find? waits previous (header ++ opener :: (inner ++ closer :: after)) =
      some ⟨header, opener, inner, closer, after⟩ := by
  induction h with
  | nil hprevious => rw [List.nil_append, find?_brace hcloses hinner hbrace hprevious, if_pos hend]
  | semi ht _ ih =>
    rw [List.cons_append, find?_semi ht, ih]
    rfl
  | plain ht hsemi hrest ih =>
    rw [List.cons_append, find?_plain ht hsemi (hrest.balanced.append (.group hcloses hinner hafter)),
      beginsSignature_append hbrace, ih]
    rfl
  | group hcloses' hinner' htype _ ih =>
    rw [List.cons_append, List.append_assoc, List.cons_append, find?_group hcloses' hinner' htype]
    exact map_prepend_group.mpr ih
  | body hcloses' hinner' hbrace' hprevious _ ih =>
    rw [List.cons_append, List.append_assoc, List.cons_append, find?_body hcloses' hinner' hbrace' hprevious]
    exact map_prepend_group.mpr ih
  | composite hcloses' hinner' hbrace' hprevious hnext hrest ih =>
    rw [List.cons_append, List.append_assoc, List.cons_append, find?_brace hcloses' hinner' hbrace' hprevious,
      endsStatement_append hrest.balanced hbrace, hnext, if_neg Bool.false_ne_true]
    exact map_prepend_group.mpr ih

end Found

end Block

end GoIdiom
