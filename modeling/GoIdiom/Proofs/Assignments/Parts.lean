import GoIdiom.Proofs.Printing.Runs
import GoIdiom.Proofs.Sites.Tokens

/-!
# The parts of a run

A well bracketed run is cut at the separators that stand outside brackets. The parts are told by that alone: none of
them has a separator outside brackets, and one separator stands between each two. An assignment is cut in the same
way, at its first sign.
-/

namespace GoIdiom.Token

/-- Parts without separators outside brackets, and one separator between each two. -/
inductive Parted (separates : Token → Bool) : List (List Token) → List Token → Prop
  | last {part : List Token} (hpart : Free separates part) : Parted separates [part] part
  | cons {part rest : List Token} {parts : List (List Token)} {t : Token} (hpart : Free separates part)
      (ht : separates t = true) (hrest : Parted separates parts rest) :
      Parted separates (part :: parts) (part ++ t :: rest)

/-- A sign of an assignment. -/
def isSign (t : Token) : Bool := t.isOpIn [":=", "="]

/-- An operator of assignment is a sign of one. -/
theorem isSign_of_isOp {t : Token} {text : String} (h : t.isOp text = true) (htext : text ∈ [":=", "="]) :
    t.isSign = true := by
  obtain ⟨hkind, hsame⟩ := Bool.and_eq_true_iff.mp h
  rw [isSign, isOpIn, hkind, beq_iff_eq.mp hsame, List.contains_iff_mem.mpr htext, Bool.and_self]

/-- A name is no sign. -/
theorem free_ident {t : Token} (h : t.isIdent = true) : Free isSign [t] := by
  refine .plain (isPlain_of_isIdent h) ?_ .nil
  rw [isSign, isOpIn, beq_iff_eq.mp h]
  rfl

variable {separates : Token → Bool} {ts : List Token} {parts : List (List Token)}

/-- Tokens put before the first part one by one stand before it in a row. -/
theorem foldr_consFirst (ts part : List Token) (parts : List (List Token)) :
    ts.foldr consFirst (part :: parts) = (ts ++ part) :: parts := by
  induction ts with
  | nil => rfl
  | cons t rest ih => rw [List.foldr_cons, ih, consFirst, List.cons_append]

/-- Inside brackets no token separates. -/
theorem Balanced.splitTopFrom_append_of_pos (h : Balanced ts) {depth : Int} (hdepth : 0 < depth) (us : List Token) :
    splitTopFrom separates depth (ts ++ us) = ts.foldr consFirst (splitTopFrom separates depth us) := by
  have hinside {d : Int} (hd : 0 < d) (t : Token) (rest : List Token) : splitTopFrom separates d (t :: rest) =
      consFirst t (splitTopFrom separates (d + t.depthStep) rest) := by
    rw [splitTopFrom, decide_eq_false (by omega), Bool.false_and, if_neg Bool.false_ne_true]
  induction h generalizing depth us with
  | nil => rfl
  | plain ht _ ih =>
    rw [List.cons_append, hinside hdepth, depthStep_of_isPlain ht, Int.add_zero, ih hdepth, List.foldr_cons]
  | @group opener closer inner ts h _ _ ihinner ih =>
    rw [List.cons_append, List.append_assoc, List.cons_append, hinside hdepth, depthStep_of_isOpener h.1,
      ihinner (by omega), hinside (by omega), depthStep_of_closes h, Int.add_neg_cancel_right, ih hdepth,
      List.foldr_cons, List.foldr_append, List.foldr_cons]

/-- A run without separators outside brackets goes to the first part. -/
theorem Free.splitTopFrom_append (h : Free separates ts) (us : List Token) :
    splitTopFrom separates 0 (ts ++ us) = ts.foldr consFirst (splitTopFrom separates 0 us) := by
  induction h with
  | nil => rfl
  | plain ht hp _ ih =>
    rw [List.cons_append, splitTopFrom, hp, Bool.and_false, if_neg Bool.false_ne_true, depthStep_of_isPlain ht,
      Int.add_zero, ih, List.foldr_cons]
  | @group opener closer inner ts h hp hinner _ ih =>
    have hcloser (rest : List Token) : splitTopFrom separates 1 (closer :: rest) =
        consFirst closer (splitTopFrom separates 0 rest) := by
      rw [splitTopFrom, decide_eq_false (by decide), Bool.false_and, if_neg Bool.false_ne_true,
        depthStep_of_closes h]
      rfl
    rw [List.cons_append, List.append_assoc, List.cons_append, splitTopFrom, hp, Bool.and_false,
      if_neg Bool.false_ne_true, depthStep_of_isOpener h.1, Int.zero_add,
      hinner.splitTopFrom_append_of_pos Int.one_pos, hcloser, ih, List.foldr_cons, List.foldr_append,
      List.foldr_cons]

/-- Tokens without separators outside brackets in front. -/
theorem Parted.prepend (h : Parted separates parts ts) {us : List Token} (hus : Free separates us) :
    Parted separates (us.foldr consFirst parts) (us ++ ts) := by
  cases h with
  | last hpart =>
    rw [foldr_consFirst]
    exact .last (hus.append hpart)
  | cons hpart ht hrest =>
    rw [foldr_consFirst, ← List.append_assoc]
    exact .cons (hus.append hpart) ht hrest

/-- A single part is the run. -/
theorem Parted.sole {part : List Token} (h : Parted separates [part] ts) : part = ts ∧ Free separates ts := by
  cases h with
  | last hpart => exact ⟨rfl, hpart⟩
  | cons _ _ hrest => cases hrest

/-- A run is cut into its parts. -/
theorem Parted.splitTopFrom_eq (h : Parted separates parts ts) : splitTopFrom separates 0 ts = parts := by
  induction h with
  | last hpart =>
    have hwhole := hpart.splitTopFrom_append []
    rwa [List.append_nil, splitTopFrom, foldr_consFirst, List.append_nil] at hwhole
  | cons hpart ht _ ih =>
    rw [hpart.splitTopFrom_append, splitTopFrom, ht, decide_eq_true rfl, Bool.and_self, if_pos rfl, foldr_consFirst,
      List.append_nil, ih]

/-- What a well bracketed run is cut into are its parts. -/
theorem Balanced.parted (h : Balanced ts) (hplain : ∀ t, separates t = true → t.isPlain = true) :
    Parted separates (splitTopFrom separates 0 ts) ts := by
  induction h with
  | nil => exact .last .nil
  | @plain t rest ht _ ih =>
    cases hp : separates t with
    | true =>
      rw [splitTopFrom, hp, decide_eq_true rfl, Bool.and_self, if_pos rfl]
      exact .cons .nil hp ih
    | false =>
      have hone : Free separates [t] := .plain ht hp .nil
      exact hone.splitTopFrom_append rest ▸ ih.prepend hone
  | @group opener closer inner rest hcloses hinner _ _ ih =>
    have hopener : separates opener = false := Bool.eq_false_iff.mpr fun hp =>
      Bool.eq_false_iff.mp (isPlain_iff.mp (hplain opener hp)).1 hcloses.1
    have hgroup : Free separates (opener :: (inner ++ [closer])) := .group hcloses hopener hinner .nil
    have hall : opener :: (inner ++ closer :: rest) = opener :: (inner ++ [closer]) ++ rest := by
      rw [List.cons_append, List.append_assoc, List.singleton_append]
    rw [hall, hgroup.splitTopFrom_append rest]
    exact ih.prepend hgroup

/-! ## Assignments -/

/-- There are parts of every run. -/
theorem splitTopFrom_ne_nil (separates : Token → Bool) (depth : Int) (ts : List Token) :
    splitTopFrom separates depth ts ≠ [] := by
  rcases splitTopFrom_cases separates depth ts with h | ⟨_, _, _, -, -, h⟩
  · exact h ▸ List.cons_ne_nil _ _
  · exact h ▸ List.cons_ne_nil _ _

/-- An assignment is cut behind the first part between signs, if there is a sign. -/
theorem cutAssignmentFrom_cases (depth : Int) (ts : List Token) :
    (cutAssignmentFrom depth ts = none ∧ splitTopFrom isSign depth ts = [ts]) ∨
      ∃ a, cutAssignmentFrom depth ts = some a ∧ ts = a.left ++ a.op :: a.right ∧ isSign a.op = true ∧
        splitTopFrom isSign depth ts = a.left :: splitTopFrom isSign 0 a.right := by
  induction ts generalizing depth with
  | nil => exact .inl ⟨rfl, rfl⟩
  | cons t rest ih =>
    rw [cutAssignmentFrom, splitTopFrom, ← isSign]
    split
    · next hsign =>
      obtain ⟨hdepth, ht⟩ := Bool.and_eq_true_iff.mp hsign
      rw [of_decide_eq_true hdepth]
      exact .inr ⟨⟨[], t, rest⟩, rfl, rfl, ht, rfl⟩
    · rcases ih (depth + t.depthStep) with ⟨hnone, hwhole⟩ | ⟨a, hcut, rfl, hop, hparts⟩
      · exact .inl ⟨by rw [hnone, Option.map_none], by rw [hwhole, consFirst]⟩
      · exact .inr ⟨{ a with left := t :: a.left }, by rw [hcut, Option.map_some], rfl,
          hop, by rw [hparts, consFirst]⟩

/-- An assignment is cut at its first sign outside brackets. -/
theorem Free.cutAssignment_append {left : List Token} {op : Token} (hleft : Free isSign left)
    (hop : op.isSign = true) (right : List Token) :
    cutAssignment (left ++ op :: right) = some ⟨left, op, right⟩ := by
  have hparts : splitTopFrom isSign 0 (left ++ op :: right) = left :: splitTopFrom isSign 0 right := by
    rw [hleft.splitTopFrom_append, splitTopFrom, hop, decide_eq_true rfl, Bool.and_self, if_pos rfl,
      foldr_consFirst, List.append_nil]
  rw [cutAssignment]
  rcases cutAssignmentFrom_cases 0 (left ++ op :: right) with ⟨-, hwhole⟩ | ⟨a, hcut, hsame, -, hcutParts⟩
  · rw [hparts] at hwhole
    exact absurd (List.cons.inj hwhole).2 (splitTopFrom_ne_nil isSign 0 right)
  · rw [hcut]
    have hfirst : left = a.left := (List.cons.inj (hparts.symm.trans hcutParts)).1
    rw [← hfirst] at hsame
    obtain ⟨hsign, hrest⟩ := List.cons.inj (List.append_cancel_left hsame)
    rw [hfirst, hsign, hrest]

end GoIdiom.Token
