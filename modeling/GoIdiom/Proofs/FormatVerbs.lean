import GoIdiom.Construct.Expression
import GoIdiom.Proofs.Lexing.Comment
import GoIdiom.Text.Search

/-!
# Verbs and the characters that show them

A format string is read from percent sign to percent sign: behind each stand flags, a width, a precision and an
argument index, then the verb. The characters `%w` stand in a format string exactly when a verb `w` stands right
behind its percent sign, or behind a percent sign that stands for itself.
-/

namespace GoIdiom.FormatVerb

open Lexeme

/-- A verb in a format string, with what stands between it and its percent sign, and what follows it. -/
structure Occurrence where
  modifiers : List Char
  verb : Char
  after : List Char
deriving DecidableEq, Repr

/-- The verbs in a format string, where they occur. -/
def occurrences : List Char → List Occurrence
  | [] => []
  | c :: rest =>
    if c = '%' then
      match verbAfterSign? rest with
      | some (verb, n) => ⟨rest.take (n - 1), verb, rest.drop n⟩ :: occurrences (rest.drop n)
      | none => occurrences rest
    else occurrences rest
termination_by cs => cs.length
decreasing_by all_goals simp only [List.length_drop, List.length_cons]; omega

/-- The verbs of a format string are those that occur in it. -/
theorem all_eq (cs : List Char) : all cs = (occurrences cs).map (·.verb) := by
  fun_induction all cs with
  | case1 => rw [occurrences]; rfl
  | case2 rest verb n hverb ih => rw [occurrences, if_pos rfl, hverb, ih]; rfl
  | case3 rest hverb ih => rw [occurrences, if_pos rfl, hverb, ih]
  | case4 c rest hsign ih => rw [occurrences, if_neg hsign, ih]

/-- The letter of a verb is listed exactly when the verb occurs. -/
theorem contains_list_iff (message : String) :
    (list message).contains "w" = true ↔ ∃ o ∈ occurrences message.toList, o.verb = 'w' := by
  have hsame (c : Char) : String.ofList [c] = "w" ↔ c = 'w' := by
    constructor
    · intro h
      have hchars := congrArg String.toList h
      rw [String.toList_ofList] at hchars
      exact (List.cons.inj hchars).1
    · rintro rfl
      rfl
  rw [list, all_eq, List.contains_iff_mem, List.mem_map]
  simp only [List.mem_filter, List.mem_map, hsame]
  constructor
  · rintro ⟨_, ⟨⟨o, ho, rfl⟩, -⟩, hverb⟩
    exact ⟨o, ho, hverb⟩
  · rintro ⟨o, ho, hverb⟩
    exact ⟨o.verb, ⟨⟨o, ho, rfl⟩, by rw [hverb]; rfl⟩, hverb⟩

/-! ## Modifiers -/

/-- Digits, or a star, or nothing. -/
def IsWidth (cs : List Char) : Prop := cs = ['*'] ∨ ∀ c ∈ cs, Text.isDecimal c = true

/-- A point and a width behind it, or nothing. -/
def IsPrecision (cs : List Char) : Prop :=
  cs = [] ∨ ∃ width, cs = '.' :: width ∧ width ≠ [] ∧ IsWidth width

/-- Digits between brackets, or nothing. -/
def IsIndex (cs : List Char) : Prop :=
  cs = [] ∨ ∃ digits, cs = '[' :: (digits ++ [']']) ∧ digits ≠ [] ∧
    ∀ c ∈ digits, Text.isDecimal c = true

/-- Flags, a width, a precision and an argument index. -/
def IsModifiers (cs : List Char) : Prop :=
  ∃ flags width precision index, cs = flags ++ (width ++ (precision ++ index)) ∧
    (∀ c ∈ flags, isFlag c = true) ∧ IsWidth width ∧ IsPrecision precision ∧ IsIndex index

/-- What is taken for a width is one. -/
theorem isWidth_take (cs : List Char) : IsWidth (cs.take (widthLength cs)) := by
  cases cs with
  | nil => exact .inr fun c hc => absurd hc List.not_mem_nil
  | cons c rest =>
    rw [widthLength]
    split
    · next hstar => exact .inl (by rw [hstar]; rfl)
    · exact .inr (forall_mem_runLength _ _)

/-- What is taken for a precision is one. -/
theorem isPrecision_take (cs : List Char) : IsPrecision (cs.take (precisionLength cs)) := by
  unfold precisionLength
  split
  · next rest =>
    split
    · exact .inl rfl
    · next hwidth =>
      refine .inr ⟨rest.take (widthLength rest), rfl, fun hnil => ?_, isWidth_take rest⟩
      rcases List.take_eq_nil_iff.mp hnil with hzero | rfl
      · exact hwidth hzero
      · exact hwidth rfl
  · exact .inl rfl

/-- What is taken for an argument's index is one. -/
theorem isIndex_take (cs : List Char) : IsIndex (cs.take (indexLength cs)) := by
  unfold indexLength
  split
  · next rest =>
    dsimp only
    split
    · next hboth =>
      obtain ⟨hdigits, hcloser⟩ := Bool.and_eq_true_iff.mp hboth
      have hlast : rest[runLength Text.isDecimal rest]? = some ']' := by
        rw [← List.head?_drop]
        exact beq_iff_eq.mp hcloser
      refine .inr ⟨rest.take (runLength Text.isDecimal rest), ?_, fun hnil => ?_, forall_mem_runLength _ rest⟩
      · rw [List.take_succ_cons, List.take_add_one, hlast]
        rfl
      · rcases List.take_eq_nil_iff.mp hnil with hzero | rfl
        · exact bne_iff_ne.mp hdigits hzero
        · cases hlast
    · exact .inl rfl
  · exact .inl rfl

/-- What stands between a percent sign and its verb. -/
theorem of_verbAfterSign? {cs : List Char} {verb : Char} {n : Nat} (h : verbAfterSign? cs = some (verb, n)) :
    isVerb verb = true ∧ IsModifiers (cs.take (n - 1)) ∧ cs = cs.take (n - 1) ++ verb :: cs.drop n := by
  unfold verbAfterSign? at h
  dsimp only at h
  split at h
  · cases h
  · next c more hdrop =>
    split at h
    · next hverb =>
      obtain ⟨rfl, rfl⟩ := Prod.mk.inj (Option.some.inj h)
      refine ⟨hverb, ?_, ?_⟩
      · simp only [Nat.add_sub_cancel, partsLength, List.take_add, Nat.add_zero]
        exact ⟨_, _, _, _, rfl, forall_mem_runLength _ cs, isWidth_take _, isPrecision_take _, isIndex_take _⟩
      · rw [Nat.add_sub_cancel, ← List.drop_drop, hdrop, List.drop_one, List.tail_cons, ← hdrop,
          List.take_append_drop]
    · cases h

/-- A percent sign is no modifier. -/
theorem IsModifiers.not_mem {cs : List Char} (h : IsModifiers cs) : '%' ∉ cs := by
  have hdigit : ∀ {ds : List Char}, (∀ c ∈ ds, Text.isDecimal c = true) → '%' ∉ ds :=
    fun hds hmem => absurd (hds '%' hmem) (by decide)
  have hwide : ∀ {ds : List Char}, IsWidth ds → '%' ∉ ds := by
    rintro ds (rfl | hds)
    · decide
    · exact hdigit hds
  obtain ⟨flags, width, precision, index, rfl, hflags, hwidth, hprecision, hindex⟩ := h
  simp only [List.mem_append, not_or]
  refine ⟨fun hmem => absurd (hflags '%' hmem) (by decide), hwide hwidth, ?_, ?_⟩
  · rcases hprecision with rfl | ⟨digits, rfl, -, hdigits⟩
    · exact List.not_mem_nil
    · exact List.not_mem_cons_of_ne_of_not_mem (by decide) (hwide hdigits)
  · rcases hindex with rfl | ⟨digits, rfl, -, hdigits⟩
    · exact List.not_mem_nil
    · simp [hdigit hdigits]

/-- A verb stands in a format string behind a percent sign and modifiers. -/
structure Occurrence.StandsIn (o : Occurrence) (cs : List Char) : Prop where
  isVerb : isVerb o.verb = true
  isModifiers : IsModifiers o.modifiers
  shape : ∃ front, cs = front ++ '%' :: (o.modifiers ++ o.verb :: o.after)

/-- A verb stands in a longer string too. -/
theorem Occurrence.StandsIn.prepend {o : Occurrence} {cs : List Char} (h : o.StandsIn cs) (front : List Char) :
    o.StandsIn (front ++ cs) := by
  obtain ⟨hisVerb, hmodifiers, more, rfl⟩ := h
  exact ⟨hisVerb, hmodifiers, front ++ more, (List.append_assoc ..).symm⟩

/-- The verbs that occur in a format string stand in it. -/
theorem standsIn_of_mem_occurrences {cs : List Char} {o : Occurrence} (h : o ∈ occurrences cs) :
    o.StandsIn cs := by
  fun_induction occurrences cs with
  | case1 => exact absurd h List.not_mem_nil
  | case2 rest verb n hverb ih =>
    obtain ⟨hisVerb, hmodifiers, hrest⟩ := of_verbAfterSign? hverb
    rcases List.mem_cons.mp h with rfl | h
    · exact ⟨hisVerb, hmodifiers, [], congrArg ('%' :: ·) hrest⟩
    · have hsplit : '%' :: rest = '%' :: rest.take n ++ rest.drop n := by
        rw [List.cons_append, List.take_append_drop]
      exact hsplit ▸ (ih h).prepend ('%' :: rest.take n)
  | case3 rest hverb ih => exact (ih h).prepend ['%']
  | case4 c rest hsign ih => exact (ih h).prepend [c]

/-! ## The characters of a verb -/

/-- A `w` right behind a percent sign is its verb. -/
theorem verbAfterSign?_w (rest : List Char) : verbAfterSign? ('w' :: rest) = some ('w', 1) := by
  have hflag : isFlag 'w' = false := by decide
  have hdecimal : Text.isDecimal 'w' = false := by decide
  have hverb : isVerb 'w' = true := by decide
  simp [verbAfterSign?, partsLength, runLength, widthLength, precisionLength, indexLength, hflag, hdecimal, hverb]

/-- The characters begin at no character but a percent sign. -/
theorem hasRun_cons {c : Char} (hc : c ≠ '%') (rest : List Char) :
    Text.hasRun ['%', 'w'] (c :: rest) = Text.hasRun ['%', 'w'] rest := by
  rw [Text.hasRun, List.isPrefixOf, beq_eq_false_iff_ne.mpr hc.symm, Bool.false_and, Bool.false_or]

/-- Text without a percent sign shows no `%w` before what follows it. -/
theorem hasRun_append {front : List Char} (h : '%' ∉ front) (cs : List Char) :
    Text.hasRun ['%', 'w'] (front ++ cs) = Text.hasRun ['%', 'w'] cs := by
  induction front with
  | nil => rfl
  | cons c rest ih =>
    obtain ⟨hc, hrest⟩ := not_or.mp (List.mem_cons.not.mp h)
    rw [List.cons_append, hasRun_cons (Ne.symm hc), ih hrest]

/-- A percent sign shows `%w` when a `w` follows it, or further on. -/
theorem hasRun_sign (rest : List Char) :
    Text.hasRun ['%', 'w'] ('%' :: rest) = true ↔
      rest.head? = some 'w' ∨ Text.hasRun ['%', 'w'] rest = true := by
  rw [Text.hasRun, Bool.or_eq_true]
  refine or_congr_left ?_
  cases rest with
  | nil => decide
  | cons c more =>
    rw [List.isPrefixOf, List.isPrefixOf, List.isPrefixOf, beq_self_eq_true, Bool.true_and,
      Bool.and_true, beq_iff_eq, List.head?_cons, Option.some.injEq, eq_comm]

/-- A character behind a format string that is no `w` shows nothing more. -/
theorem hasRun_concat {c : Char} (hsign : c ≠ '%') (hverb : c ≠ 'w') (cs : List Char) :
    Text.hasRun ['%', 'w'] (cs ++ [c]) = Text.hasRun ['%', 'w'] cs := by
  induction cs with
  | nil => exact hasRun_cons hsign []
  | cons d rest ih =>
    rw [List.cons_append, Text.hasRun, Text.hasRun, ih]
    cases rest with
    | nil => simp [List.isPrefixOf, hverb.symm]
    | cons e more => rfl

/-- Where the characters `%w` come from. -/
def Occurrence.ShowsW (o : Occurrence) : Prop :=
  (o.modifiers = [] ∧ o.verb = 'w') ∨ (o.verb = '%' ∧ o.after.head? = some 'w')

/-- A verb `w` has no modifiers, and no `w` follows a percent sign that stands for itself. -/
def Occurrence.Unambiguous (o : Occurrence) : Prop :=
  (o.verb = 'w' → o.modifiers = []) ∧ (o.verb = '%' → o.after.head? ≠ some 'w')

/-- An unambiguous verb shows `%w` exactly when it is `w`. -/
theorem Occurrence.Unambiguous.showsW_iff {o : Occurrence} (h : o.Unambiguous) : o.ShowsW ↔ o.verb = 'w' := by
  constructor
  · rintro (⟨-, hverb⟩ | ⟨hsign, hafter⟩)
    · exact hverb
    · exact absurd hafter (h.2 hsign)
  · exact fun hverb => .inl ⟨h.1 hverb, hverb⟩

/-- The characters `%w` stand in a format string exactly when a verb `w` has no modifiers, or a `w` follows a
percent sign that stands for itself. -/
theorem hasRun_iff (cs : List Char) : Text.hasRun ['%', 'w'] cs = true ↔ ∃ o ∈ occurrences cs, o.ShowsW := by
  fun_induction occurrences cs with
  | case1 => simp [Text.hasRun]
  | case2 rest verb n hverb ih =>
    obtain ⟨-, hmodifiers, hrest⟩ := of_verbAfterSign? hverb
    have hfirst : rest.head? = some 'w' ↔ rest.take (n - 1) = [] ∧ verb = 'w' := by
      constructor
      · intro hhead
        obtain ⟨more, rfl⟩ := List.head?_eq_some_iff.mp hhead
        obtain ⟨rfl, rfl⟩ := Prod.mk.inj (Option.some.inj ((verbAfterSign?_w more).symm.trans hverb))
        exact ⟨rfl, rfl⟩
      · rintro ⟨hnone, rfl⟩
        rw [hrest, hnone]
        rfl
    have hlater : Text.hasRun ['%', 'w'] rest = true ↔ (verb = '%' ∧ (rest.drop n).head? = some 'w') ∨
        Text.hasRun ['%', 'w'] (rest.drop n) = true := by
      conv => lhs; rw [hrest, hasRun_append hmodifiers.not_mem]
      by_cases hsign : verb = '%'
      · rw [hsign, hasRun_sign]
        simp only [true_and]
      · rw [hasRun_cons hsign]
        simp only [hsign, false_and, false_or]
    rw [hasRun_sign, hfirst, hlater, ih]
    simp only [List.mem_cons, exists_eq_or_imp, Occurrence.ShowsW, or_assoc]
  | case3 rest hverb ih =>
    rw [hasRun_sign, ih, or_iff_right]
    intro hhead
    obtain ⟨more, rfl⟩ := List.head?_eq_some_iff.mp hhead
    cases (verbAfterSign?_w more).symm.trans hverb
  | case4 c rest hsign ih =>
    rw [hasRun_cons hsign, ih]

end GoIdiom.FormatVerb
