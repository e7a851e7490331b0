import GoIdiom.Proofs.Brackets
import GoIdiom.Proofs.Relocation.Tokens

/-!
# Where inserted semicolons stand

A semicolon is inserted only behind a token that ends a statement. So no group between commas begins
with one, and whatever is reported at the first token of such a group is reported at a written token.
-/

namespace GoIdiom.Token

/-- Whether every inserted semicolon directly follows a token that ends a statement, where `may` tells
whether the token before the run does. -/
def laid (may : Bool) : List Token → Bool
  | [] => true
  | t :: rest => (may || !t.isInserted) && laid t.endsStatement rest

/-- Whether the last token of a run, or else the one before the run, ends a statement. -/
def endsAfter (may : Bool) : List Token → Bool
  | [] => may
  | t :: rest => endsAfter t.endsStatement rest

section Laid

variable {may : Bool} {t : Token} {ts us : List Token}

/-- A list is laid out when its first token is and the rest is laid out after it. -/
theorem laid_cons : laid may (t :: ts) = true ↔
    (may = true ∨ t.isInserted = false) ∧ laid t.endsStatement ts = true := by
  simp only [laid, Bool.and_eq_true, Bool.or_eq_true, Bool.not_eq_true']

/-- A run that begins with a written token may stand anywhere. -/
theorem laid_mono (h : laid may ts = true) : laid true ts = true := by
  cases ts with
  | nil => rfl
  | cons t rest => exact laid_cons.mpr ⟨.inl rfl, (laid_cons.mp h).2⟩

/-- A run that may stand where no statement ends begins with a written token. -/
theorem isInserted_of_laid (h : laid false (t :: ts) = true) : t.isInserted = false :=
  (laid_cons.mp h).1.resolve_left Bool.false_ne_true

/-- A token that is no inserted semicolon lets a run begin anywhere. -/
theorem laid_of_written (h : laid may (t :: ts) = true) (ht : t.isInserted = false) :
    laid false (t :: ts) = true := laid_cons.mpr ⟨.inr ht, (laid_cons.mp h).2⟩

/-- A run that begins with no semicolon may stand anywhere. -/
theorem laid_of_head (h : laid may ts = true) (hhead : ts.head?.any (·.isSemi) = false) :
    laid false ts = true := by
  cases ts with
  | nil => rfl
  | cons t rest => exact laid_of_written h (isInserted_of_isSemi hhead)

/-- Two lists are laid out in a row exactly when each is laid out where it stands. -/
theorem laid_append : laid may (ts ++ us) = true ↔ laid may ts = true ∧ laid (endsAfter may ts) us = true := by
  induction ts generalizing may with
  | nil => simp [laid, endsAfter]
  | cons t rest ih => rw [List.cons_append, laid_cons, laid_cons, ih, and_assoc, endsAfter]

/-- The first part of a run stands as the whole does. -/
theorem laid_left (h : laid may (ts ++ us) = true) : laid may ts = true := (laid_append.mp h).1

/-- The rest of a run stands somewhere. -/
theorem laid_right (h : laid may (ts ++ us) = true) : laid true us = true := laid_mono (laid_append.mp h).2

/-- After a token that ends no statement, a run begins with a written token. -/
theorem laid_after (h : laid may (ts ++ t :: us) = true) (ht : t.endsStatement = false) :
    laid false us = true := by
  have := (laid_cons.mp (laid_append.mp h).2).2
  rwa [ht] at this

end Laid

/-- An operator other than those that end statements ends none. -/
theorem endsStatement_of_isOp {t : Token} {op : String} (h : t.isOp op = true)
    (hop : ["++", "--", ")", "]", "\x7d"].contains op = false) : t.endsStatement = false := by
  rw [isOp, Bool.and_eq_true, beq_iff_eq, beq_iff_eq] at h
  rw [endsStatement, h.1, h.2]
  exact hop

/-- An opening bracket ends no statement. -/
theorem endsStatement_of_isOpener {t : Token} (h : t.isOpener = true) : t.endsStatement = false := by
  rw [isOpener, isOpIn, Bool.and_eq_true, beq_iff_eq] at h
  rw [endsStatement, h.1]
  have hmem := List.contains_iff_mem.mp h.2
  simp only [List.mem_cons, List.not_mem_nil, or_false] at hmem
  rcases hmem with h | h | h <;> simp only [h] <;> decide

/-- A bracket is no inserted semicolon. -/
theorem isInserted_of_isCloser {t : Token} (h : t.isCloser = true) : t.isInserted = false := by
  rw [isCloser, isOpIn, Bool.and_eq_true, beq_iff_eq] at h
  rw [isInserted, h.1]
  rfl

section Groups

variable {may : Bool} {opener : Token} {ts : List Token} {g : Group}

/-- The contents of a group begin with a written token. -/
theorem laid_inner (h : laid may (opener :: ts) = true) (hopener : opener.endsStatement = false)
    (hg : closeGroup ts = some g) : laid false g.inner = true := by
  have h := (laid_cons.mp h).2
  rw [hopener, ← splitGroup_eq_append hg] at h
  exact laid_left h

/-- What follows a group stands somewhere. -/
theorem laid_rest (h : laid may ts = true) (hg : closeGroup ts = some g) : laid true g.rest = true := by
  rw [← splitGroup_eq_append hg] at h
  exact laid_mono (laid_cons.mp (laid_append.mp h).2).2

/-- The groups between commas begin with written tokens, the first one where the run does. -/
theorem laid_splitTopFrom {separates : Token → Bool}
    (hsep : ∀ t, separates t = true → t.endsStatement = false) (depth : Int) (h : laid may ts = true) :
    ∃ first others,
      splitTopFrom separates depth ts = first :: others ∧ laid may first = true ∧
        ∀ group ∈ others, laid false group = true := by
  induction ts generalizing may depth with
  | nil => exact ⟨[], [], rfl, rfl, fun _ hg => absurd hg List.not_mem_nil⟩
  | cons t rest ih =>
    obtain ⟨hmay, hrest⟩ := laid_cons.mp h
    rw [splitTopFrom]
    split
    · next hcut =>
      rw [hsep t (Bool.and_eq_true_iff.mp hcut).2] at hrest
      obtain ⟨first, others, heq, hfirst, hothers⟩ := ih depth hrest
      rw [heq]
      exact ⟨[], _, rfl, rfl, List.forall_mem_cons.mpr ⟨hfirst, hothers⟩⟩
    · obtain ⟨first, others, heq, hfirst, hothers⟩ := ih (depth + t.depthStep) hrest
      rw [heq]
      exact ⟨t :: first, others, rfl, laid_cons.mpr ⟨hmay, hfirst⟩, hothers⟩

/-- The run up to a semicolon outside brackets begins with a written token. -/
theorem laid_spanTop (h : laid may ts = true) : laid false (spanTop (·.isSemi) ts).1 = true := by
  rw [← spanTop_append (·.isSemi) ts] at h
  have h := laid_left h
  refine laid_of_head h ?_
  cases hrun : (spanTop (·.isSemi) ts).1 with
  | nil => rfl
  | cons t run => exact not_stops_of_spanTop hrun

/-- A comma ends no statement. -/
theorem endsStatement_of_comma (t : Token) (h : t.isOp "," = true) : t.endsStatement = false :=
  endsStatement_of_isOp h (by decide)

/-- The items between commas begin with written tokens. -/
theorem laid_commaItems (h : laid false ts = true) : ∀ item ∈ commaItems ts, laid false item = true := by
  intro item hitem
  obtain ⟨first, others, heq, hfirst, hothers⟩ := laid_splitTopFrom endsStatement_of_comma 0 h
  rw [commaItems, splitCommas, heq, List.mem_filter, List.mem_cons] at hitem
  rcases hitem.1 with rfl | hmem
  · exact hfirst
  · exact hothers item hmem

/-- The parts between commas begin with written tokens. -/
theorem laid_splitParts (h : laid false ts = true) :
    ∀ part ∈ splitParts (·.isOp ",") ts, laid false part = true := by
  have hended : ∀ part ∈ endedParts (·.isOp ",") ts, laid false part.1 = true := by
    fun_induction endedParts (·.isOp ",") ts with
    | case1 ts part hspan =>
      have happend := spanTop_append (·.isOp ",") ts
      rw [hspan] at happend
      rw [← happend] at h
      simpa using laid_left h
    | case2 ts part t rest hspan ih =>
      have happend := spanTop_append (·.isOp ",") ts
      have hcomma := spanTop_stops (congrArg Prod.snd hspan)
      rw [hspan] at happend
      rw [← happend] at h
      exact List.forall_mem_cons.mpr ⟨laid_left h, ih (laid_after h (endsStatement_of_comma t hcomma))⟩
  intro part hpart
  rw [splitParts, List.mem_filter, List.mem_map] at hpart
  obtain ⟨⟨p, hp, rfl⟩, _⟩ := hpart
  exact hended p hp

/-- No part begins with a token that separates parts. -/
theorem head_endedParts {separates : Token → Bool} :
    ∀ part ∈ endedParts separates ts, part.1.head?.any separates = false := by
  have hhead {ts : List Token} {pieces : List Token × List Token} (h : spanTop separates ts = pieces) :
      pieces.1.head?.any separates = false := by
    cases hrun : pieces.1 with
    | nil => rfl
    | cons t run => exact not_stops_of_spanTop ((congrArg Prod.fst h).trans hrun)
  fun_induction endedParts separates ts with
  | case1 ts part hspan => exact List.forall_mem_singleton.mpr (hhead hspan)
  | case2 ts part t rest hspan ih => exact List.forall_mem_cons.mpr ⟨hhead hspan, ih⟩

/-- The parts between semicolons stand where no statement ends. -/
theorem laid_endedParts (h : laid may ts = true) :
    ∀ part ∈ endedParts (·.isSemi) ts, laid false part.1 = true := by
  fun_induction endedParts (·.isSemi) ts generalizing may with
  | case1 ts part hspan =>
    have hpart := laid_spanTop h
    rw [hspan] at hpart
    exact List.forall_mem_singleton.mpr hpart
  | case2 ts part t rest hspan ih =>
    have hpart := laid_spanTop h
    have happend := spanTop_append (·.isSemi) ts
    rw [hspan] at hpart happend
    rw [← happend] at h
    exact List.forall_mem_cons.mpr ⟨hpart, ih (laid_cons.mp (laid_append.mp h).2).2⟩

/-- No part begins with a token that separates parts. -/
theorem head_splitParts {separates : Token → Bool} {part : List Token} (h : part ∈ splitParts separates ts) :
    part.head?.any separates = false := by
  rw [splitParts, List.mem_filter, List.mem_map] at h
  obtain ⟨⟨p, hp, rfl⟩, _⟩ := h
  exact head_endedParts p hp

end Groups

end GoIdiom.Token
