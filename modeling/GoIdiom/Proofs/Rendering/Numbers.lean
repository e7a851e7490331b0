import GoIdiom.Proofs.Lexing.Breaks

/-!
# Numbers in front of other text

A number that was read to its end is read to the same end in front of any text that begins with no character of a
word, unless it can still take a point and that is what follows. Its parts are looked at from the last one on: the
mark of an imaginary number, the exponent, the fraction and the first digits.
-/

namespace GoIdiom.Lexeme

/-! ## Classes of characters -/

/-- What holds of the first characters holds of each of them. -/
theorem forall_of_le {q : Char → Prop} (h : ∀ n : Fin 128, q (Char.ofNat n)) {c : Char} (hc : c ≤ '\x7f') :
    q c := by
  have hq := h ⟨c.toNat, Nat.lt_succ_of_le hc⟩
  rwa [Char.ofNat_toNat] at hq

/-- What holds of the digits among the first characters holds of each digit. -/
theorem forall_of_isDigit {q : Char → Prop} (h : ∀ n : Fin 128, (Char.ofNat n).isDigit = true →
    q (Char.ofNat n)) {c : Char} (hc : c.isDigit = true) : q c := by
  have hlow : c ≤ '\x7f' := by
    rw [Char.isDigit, Bool.and_eq_true, decide_eq_true_eq, decide_eq_true_eq] at hc
    exact Char.le_trans hc.2 (by decide)
  exact forall_of_le (q := fun c => c.isDigit = true → q c) h hlow hc

/-- Digits of all bases are characters of words. -/
theorem isWord_of_isHexPart (c : Char) (h : isHexPart c = true) : Text.isWord c = true := by
  have hlow : c ≤ '\x7f' := by
    simp only [isHexPart, isDecimalPart, Char.isDigit, Bool.or_eq_true, Bool.and_eq_true, decide_eq_true_eq,
      beq_iff_eq, Char.le_def, UInt32.le_iff_toNat_le] at h ⊢
    rcases h with ((⟨-, h⟩ | rfl) | ⟨-, h⟩) | ⟨-, h⟩
    · exact Nat.le_trans h (by decide)
    · decide
    · exact Nat.le_trans h (by decide)
    · exact Nat.le_trans h (by decide)
  revert h
  exact forall_of_le (q := fun c => isHexPart c = true → Text.isWord c = true) (by decide +kernel) hlow

/-- A part of a decimal number may stand in a hexadecimal one. -/
theorem isHexPart_of_isDecimalPart {c : Char} (h : isDecimalPart c = true) : isHexPart c = true := by
  rw [isHexPart, h, Bool.true_or, Bool.true_or]

/-- A part of a decimal number is a character of words. -/
theorem isWord_of_isDecimalPart (c : Char) (h : isDecimalPart c = true) : Text.isWord c = true :=
  isWord_of_isHexPart c (isHexPart_of_isDecimalPart h)

/-- A part of an octal number may stand in a hexadecimal one. -/
theorem isHexPart_of_isOctalPart {c : Char} (h : isOctalPart c = true) : isHexPart c = true := by
  apply isHexPart_of_isDecimalPart
  rw [isOctalPart, Bool.or_eq_true, Bool.and_eq_true, decide_eq_true_eq, decide_eq_true_eq] at h
  rw [isDecimalPart, Bool.or_eq_true, Char.isDigit, Bool.and_eq_true, decide_eq_true_eq, decide_eq_true_eq]
  exact h.imp_left fun ⟨hlow, hhigh⟩ => ⟨hlow, Char.le_trans hhigh (by decide)⟩

/-- A part of a binary number may stand in an octal one. -/
theorem isOctalPart_of_isBinaryPart {c : Char} (h : isBinaryPart c = true) : isOctalPart c = true := by
  rw [isBinaryPart, Bool.or_eq_true, Bool.or_eq_true, beq_iff_eq, beq_iff_eq, beq_iff_eq] at h
  rcases h with (rfl | rfl) | rfl <;> decide

variable {p : Char → Bool} {marks w u : List Char}

/-- A text that begins with no character of a word begins with none of a class of these. -/
theorem head_of_isWord (hp : ∀ c, p c = true → Text.isWord c = true) (hu : u.head?.any Text.isWord = false) :
    u.head?.any p = false := by
  cases u with
  | nil => rfl
  | cons c rest => exact Bool.eq_false_iff.mpr fun h => Bool.eq_false_iff.mp hu (hp c h)

/-! ## What is read of a text is read of its beginning -/

/-- A length that is settled by as many characters. -/
def Restricts (f : List Char → Nat) : Prop := ∀ w u : List Char, f (w ++ u) ≤ w.length → f w = f (w ++ u)

/-- A run of one class is settled by its own characters. -/
theorem restricts_runLength (p : Char → Bool) : Restricts (runLength p) := by
  intro w u h
  induction w with
  | nil => exact (Nat.le_zero.mp h).symm
  | cons c rest ih =>
    rw [List.cons_append, runLength, List.length_cons] at h
    rw [List.cons_append, runLength, runLength]
    split at h
    · next hc => rw [if_pos hc, if_pos hc, ih (Nat.le_of_succ_le_succ h)]
    · next hc => rw [if_neg hc, if_neg hc]

/-- Without a point there is no fraction. -/
theorem fractionLength_of_ne {c : Char} (hc : c ≠ '.') (rest : List Char) : fractionLength p (c :: rest) = 0 := by
  rw [fractionLength.eq_def]
  split
  · next heq => exact absurd (List.cons.inj heq).1 hc
  · rfl

/-- A fraction is settled by its own characters. -/
theorem restricts_fractionLength (p : Char → Bool) : Restricts (fractionLength p) := by
  intro w u h
  cases w with
  | nil => exact (Nat.le_zero.mp h).symm
  | cons c rest =>
    by_cases hc : c = '.'
    · subst hc
      rw [List.cons_append, fractionLength, List.length_cons] at h
      rw [List.cons_append, fractionLength, fractionLength,
        restricts_runLength p rest u (Nat.le_of_succ_le_succ h)]
    · rw [List.cons_append, fractionLength_of_ne hc, fractionLength_of_ne hc]

/-- The mark of an imaginary number is settled by one character. -/
theorem restricts_imaginaryLength : Restricts imaginaryLength := by
  intro w u h
  cases w with
  | nil => exact (Nat.le_zero.mp h).symm
  | cons c rest => rw [List.cons_append, imaginaryLength_eq, imaginaryLength_eq]; rfl

/-- A sign is the first character or none. -/
theorem signLength_cons_append (d : Char) (more u : List Char) :
    signLength (d :: more ++ u) = signLength (d :: more) := by
  rw [signLength_eq, signLength_eq]
  rfl

/-- An exponent needs a digit behind its mark. -/
theorem exponentLength_cons (marks : List Char) (c : Char) (rest : List Char) : exponentLength marks (c :: rest) =
    if (marks.contains c && runLength isDecimalPart (rest.drop (signLength rest)) != 0) = true then
      1 + signLength rest + runLength isDecimalPart (rest.drop (signLength rest))
    else 0 := rfl

/-- Without a mark there is no exponent. -/
theorem exponentLength_of_not_mark {c : Char} (h : marks.contains c = false) (rest : List Char) :
    exponentLength marks (c :: rest) = 0 := by
  rw [exponentLength_cons, h, Bool.false_and, if_neg Bool.false_ne_true]

/-- An exponent is settled by its own characters. -/
theorem restricts_exponentLength (marks : List Char) : Restricts (exponentLength marks) := by
  intro w u h
  cases w with
  | nil => exact (Nat.le_zero.mp h).symm
  | cons c rest =>
    rw [List.cons_append] at h ⊢
    by_cases hmark : marks.contains c = true
    · cases rest with
      | nil =>
        -- A mark alone takes no digits, and one with digits would be longer.
        rw [exponentLength_cons, List.length_singleton] at h
        rw [exponentLength_cons, exponentLength_cons, if_neg (by simp [runLength])]
        split at h
        · next hdigits =>
          simp only [Bool.and_eq_true, bne_iff_ne] at hdigits
          omega
        · next hnone => rw [if_neg hnone]
      | cons d more =>
        have hsign := signLength_cons_append d more u
        have hle := (local_signLength (d :: more) [] rfl).2
        have hdigits := restricts_runLength isDecimalPart ((d :: more).drop (signLength (d :: more))) u
        rw [List.length_drop] at hdigits
        rw [exponentLength_cons, hsign, List.drop_append_of_le_length hle, List.length_cons] at h
        rw [exponentLength_cons, exponentLength_cons, hsign, List.drop_append_of_le_length hle, hdigits]
        split at h
        · omega
        · next hnone =>
          rw [hmark, Bool.true_and, bne_iff_ne, ne_eq, Classical.not_not] at hnone
          omega
    · have hnone := Bool.eq_false_iff.mpr hmark
      rw [exponentLength_of_not_mark hnone, exponentLength_of_not_mark hnone]

/-- No parts are settled by no characters. -/
theorem Restricts.nil : Restricts (partsLength []) := fun _ _ _ => rfl

/-- One part and others after it. -/
theorem Restricts.cons {part : List Char → Nat} {parts : List (List Char → Nat)} (hpart : Restricts part)
    (hparts : Restricts (partsLength parts)) : Restricts (partsLength (part :: parts)) := by
  intro w u h
  rw [partsLength] at h
  have hfirst := hpart w u (by omega)
  rw [partsLength, partsLength, hfirst]
  have hdrop : (w ++ u).drop (part (w ++ u)) = w.drop (part (w ++ u)) ++ u :=
    List.drop_append_of_le_length (by omega)
  rw [hdrop] at h ⊢
  rw [hparts (w.drop (part (w ++ u))) u]
  rw [List.length_drop]
  omega

/-! ## What is read to its end -/

/-- The mark of an imaginary number is the same before what is no character of words. -/
theorem imaginaryLength_append (hu : u.head?.any Text.isWord = false) (w : List Char) :
    imaginaryLength (w ++ u) = imaginaryLength w := by
  cases w with
  | nil =>
    have hnone : u.head?.any (· == 'i') = false := head_of_isWord (by simp; decide +kernel) hu
    rw [List.nil_append, imaginaryLength_eq, hnone]
    rfl
  | cons c rest => rw [List.cons_append, imaginaryLength_eq, imaginaryLength_eq]; rfl

/-- Parts take all of a text when the first one takes some of it and the others take all of what is left. -/
theorem partsLength_eq_length_iff {part : List Char → Nat} {parts : List (List Char → Nat)} :
    partsLength (part :: parts) w = w.length ↔
      part w ≤ w.length ∧ partsLength parts (w.drop (part w)) = (w.drop (part w)).length := by
  rw [partsLength, List.length_drop]
  omega

/-- Parts take as much of a longer text when the first one does and the others do of what it leaves. -/
theorem partsLength_append {part : List Char → Nat} {parts : List (List Char → Nat)}
    (hpart : part (w ++ u) = part w) (hle : part w ≤ w.length) :
    partsLength (part :: parts) (w ++ u) = part w + partsLength parts (w.drop (part w) ++ u) := by
  rw [partsLength, hpart, List.drop_append_of_le_length hle]

/-- The marks of exponents are letters that do not mark imaginary numbers. -/
structure IsMarks (marks : List Char) : Prop where
  word : ∀ c, marks.contains c = true → Text.isWord c = true
  real : marks.contains 'i' = false

/-- A mark at the head of an exponent and the mark of an imaginary number that are all of a text has digits behind
it: it does not mark an imaginary number. -/
theorem digits_of_mark (hmarks : IsMarks marks) {c : Char} (hmark : marks.contains c = true) {rest : List Char}
    (h : partsLength [exponentLength marks, imaginaryLength] (c :: rest) = (c :: rest).length) :
    runLength isDecimalPart (rest.drop (signLength rest)) ≠ 0 := by
  intro hnone
  have hzero : exponentLength marks (c :: rest) = 0 := by
    rw [exponentLength_cons, hnone, bne_self_eq_false, Bool.and_false, if_neg Bool.false_ne_true]
  have hi : c ≠ 'i' := by
    rintro rfl
    exact absurd hmark (Bool.eq_false_iff.mp hmarks.real)
  rw [partsLength, hzero, List.drop_zero, partsLength, imaginaryLength_eq, List.head?_cons, Option.any_some,
    beq_eq_false_iff_ne.mpr hi] at h
  exact absurd h (Nat.ne_of_lt (Nat.succ_pos rest.length))

/-- The exponent in front of the end of a number stays. -/
theorem exponentLength_append (hmarks : IsMarks marks) (hu : u.head?.any Text.isWord = false)
    (h : partsLength [exponentLength marks, imaginaryLength] w = w.length) :
    exponentLength marks (w ++ u) = exponentLength marks w := by
  cases w with
  | nil =>
    cases u with
    | nil => rfl
    | cons c rest => exact exponentLength_of_not_mark (head_of_isWord hmarks.word hu) rest
  | cons c rest =>
    by_cases hmark : marks.contains c = true
    · have hdigits := digits_of_mark hmarks hmark h
      cases rest with
      | nil => exact absurd rfl hdigits
      | cons d more =>
        have hend : u.head?.any isDecimalPart = false := head_of_isWord isWord_of_isDecimalPart hu
        rw [List.cons_append, exponentLength_cons, exponentLength_cons, signLength_cons_append,
          List.drop_append_of_le_length (local_signLength (d :: more) [] rfl).2, runLength_append hend]
    · have hnone := Bool.eq_false_iff.mpr hmark
      rw [List.cons_append, exponentLength_of_not_mark hnone, exponentLength_of_not_mark hnone]

/-- An exponent and the mark of an imaginary number that are all of a text are read in front of other text. -/
theorem tailLength_append (hmarks : IsMarks marks) (hu : u.head?.any Text.isWord = false)
    (h : partsLength [exponentLength marks, imaginaryLength] w = w.length) :
    partsLength [exponentLength marks, imaginaryLength] (w ++ u) = w.length := by
  obtain ⟨hle, hrest⟩ := partsLength_eq_length_iff.mp h
  have himaginary (cs : List Char) :
      partsLength [imaginaryLength] (cs ++ u) = partsLength [imaginaryLength] cs := by
    rw [partsLength, partsLength, imaginaryLength_append hu]
    rfl
  rw [partsLength_append (exponentLength_append hmarks hu h) hle, himaginary, hrest, List.length_drop]
  omega

/-- With a fraction in front of them, only a text that is all taken before the point goes on with a point. -/
theorem fractionTail_append_iff (hmarks : IsMarks marks) (hp : ∀ c, p c = true → Text.isWord c = true)
    (hu : u.head?.any Text.isWord = false)
    (h : partsLength [fractionLength p, exponentLength marks, imaginaryLength] w = w.length) :
    partsLength [fractionLength p, exponentLength marks, imaginaryLength] (w ++ u) = w.length ↔
      ¬(w = [] ∧ u.head? = some '.') := by
  obtain ⟨hle, hrest⟩ := partsLength_eq_length_iff.mp h
  have htail := tailLength_append hmarks hu hrest
  have hstays (hfraction : fractionLength p (w ++ u) = fractionLength p w) :
      partsLength [fractionLength p, exponentLength marks, imaginaryLength] (w ++ u) = w.length := by
    rw [partsLength_append hfraction hle, htail, List.length_drop]
    omega
  cases w with
  | nil =>
    cases u with
    | nil => exact ⟨fun _ => by simp, fun _ => rfl⟩
    | cons c rest =>
      by_cases hc : c = '.'
      · subst hc
        refine ⟨fun hlength => ?_, fun hnot => absurd ⟨rfl, rfl⟩ hnot⟩
        rw [List.nil_append, partsLength, fractionLength, List.length_nil] at hlength
        omega
      · exact ⟨fun _ hpoint => hc (Option.some.inj hpoint.2), fun _ => hstays (fractionLength_of_ne hc rest)⟩
  | cons c rest =>
    refine ⟨fun _ hempty => List.cons_ne_nil _ _ hempty.1, fun _ => hstays ?_⟩
    by_cases hc : c = '.'
    · subst hc
      rw [List.cons_append, fractionLength, fractionLength, runLength_append (head_of_isWord hp hu)]
    · rw [List.cons_append, fractionLength_of_ne hc, fractionLength_of_ne hc]

/-- Digits take all of a text when nothing of it is left. -/
theorem drop_runLength_eq_nil_iff : w.drop (runLength p w) = [] ↔ w.all p = true := by
  induction w with
  | nil => simp [runLength]
  | cons c rest ih =>
    rw [runLength, List.all_cons, Bool.and_eq_true]
    split
    · next hc => rw [List.drop_succ_cons, ih, and_iff_right hc]
    · next hc => simp [hc]

/-- The parts of a number with first digits go on with a point when there are only digits. -/
theorem digitsLength_append_iff (hmarks : IsMarks marks) (hp : ∀ c, p c = true → Text.isWord c = true)
    (hu : u.head?.any Text.isWord = false)
    (h : partsLength [runLength p, fractionLength p, exponentLength marks, imaginaryLength] w = w.length) :
    partsLength [runLength p, fractionLength p, exponentLength marks, imaginaryLength] (w ++ u) = w.length ↔
      ¬(w.all p = true ∧ u.head? = some '.') := by
  obtain ⟨hle, hrest⟩ := partsLength_eq_length_iff.mp h
  have hfraction := fractionTail_append_iff hmarks hp hu hrest
  rw [drop_runLength_eq_nil_iff, List.length_drop] at hfraction
  rw [partsLength_append (runLength_append (head_of_isWord hp hu)) hle, ← hfraction]
  omega

/-- The parts of a number that begins with its point stay. -/
theorem pointLength_append (hu : u.head?.any Text.isWord = false) (hmarks : IsMarks marks)
    (h : partsLength [runLength isDecimalPart, exponentLength marks, imaginaryLength] w = w.length) :
    partsLength [runLength isDecimalPart, exponentLength marks, imaginaryLength] (w ++ u) = w.length := by
  obtain ⟨hle, hrest⟩ := partsLength_eq_length_iff.mp h
  rw [partsLength_append (runLength_append (head_of_isWord isWord_of_isDecimalPart hu)) hle,
    tailLength_append hmarks hu hrest, List.length_drop]
  omega

/-! ## Numbers -/

/-- The digits behind the mark of a base take no point. -/
theorem basedLength_append_of_isWord (hp : ∀ c, p c = true → Text.isWord c = true)
    (hu : u.head?.any Text.isWord = false) (w : List Char) : basedLength p (w ++ u) = basedLength p w := by
  simp only [basedLength, runLength_append (head_of_isWord hp hu), List.drop_append_of_le_length (runLength_le p w),
    imaginaryLength_append hu]

/-- A number with a mark for its base needs a digit. -/
theorem basedLength_eq_none_iff : basedLength p w = none ↔ runLength p w = 0 := by
  rw [basedLength]
  split <;> simp [*]

/-- A number in a base is settled by the characters that are read for it. -/
theorem basedLength_restrict {n : Nat} (h : basedLength p (w ++ u) = some n) (hn : n ≤ w.length + 1) :
    basedLength p w = some n := by
  rw [basedLength] at h
  split at h
  · cases h
  · next hdigits =>
    have hlength := Option.some.inj h
    have hrun := restricts_runLength p w u (by omega)
    rw [← hrun, List.drop_append_of_le_length (by omega)] at hlength
    have himaginary := restricts_imaginaryLength (w.drop (runLength p w)) u (by rw [List.length_drop]; omega)
    rw [basedLength, hrun, if_neg hdigits, ← hrun, himaginary, hlength]

/-- The parts of a hexadecimal number behind its mark. -/
def hexLength : List Char → Nat :=
  partsLength [runLength isHexPart, fractionLength isHexPart, exponentLength ['p', 'P'], imaginaryLength]

/-- Whether a character marks a hexadecimal number. -/
def isHexMark (m : Char) : Bool := m = 'x' || m = 'X'

/-- The digits of a base without fractions, by its mark. -/
def digitsOf (m : Char) : Option (Char → Bool) :=
  if m = 'b' || m = 'B' then some isBinaryPart else if m = 'o' || m = 'O' then some isOctalPart else none

/-- A number behind a zero, by its mark: hexadecimal, or of another base. -/
theorem markedLength_cons (m : Char) (digits : List Char) : markedLength (m :: digits) =
    if isHexMark m then some (1 + hexLength digits) else (digitsOf m).bind fun q => basedLength q digits := by
  rw [markedLength, isHexMark, digitsOf]
  split
  · rfl
  · split
    · rfl
    · split <;> rfl

/-- The mark of a base is no digit, and its digits are characters of words. -/
theorem isDigits_of_digitsOf {m : Char} {q : Char → Bool} (h : digitsOf m = some q) :
    isDecimalPart m = false ∧ Text.isWord m = true ∧ ∀ c, q c = true → Text.isWord c = true := by
  have hoctal (c : Char) (hc : isOctalPart c = true) : Text.isWord c = true :=
    isWord_of_isHexPart c (isHexPart_of_isOctalPart hc)
  rw [digitsOf] at h
  split at h
  · next hm =>
    obtain rfl := Option.some.inj h
    rw [Bool.or_eq_true, decide_eq_true_eq, decide_eq_true_eq] at hm
    refine ⟨?_, ?_, fun c hc => hoctal c (isOctalPart_of_isBinaryPart hc)⟩
    · rcases hm with rfl | rfl <;> decide
    · rcases hm with rfl | rfl <;> decide +kernel
  · split at h
    · next hm =>
      obtain rfl := Option.some.inj h
      rw [Bool.or_eq_true, decide_eq_true_eq, decide_eq_true_eq] at hm
      refine ⟨?_, ?_, hoctal⟩
      · rcases hm with rfl | rfl <;> decide
      · rcases hm with rfl | rfl <;> decide +kernel
    · cases h

/-- The mark of a hexadecimal number is no digit, but a character of words. -/
theorem isDigits_of_isHexMark {m : Char} (h : isHexMark m = true) :
    isDecimalPart m = false ∧ Text.isWord m = true := by
  rw [isHexMark, Bool.or_eq_true, decide_eq_true_eq, decide_eq_true_eq] at h
  rcases h with rfl | rfl
  · exact ⟨by decide, by decide +kernel⟩
  · exact ⟨by decide, by decide +kernel⟩

/-- A number with a mark in a longer text is one by itself. -/
theorem markedLength_restrict {n : Nat} (h : markedLength (w ++ u) = some n) (hn : n ≤ w.length) :
    markedLength w = some n := by
  cases w with
  | nil =>
    -- The mark itself counts, so the text is not empty.
    exfalso
    cases u with
    | nil => cases h
    | cons m digits =>
      rw [List.nil_append, markedLength_cons] at h
      rw [List.length_nil] at hn
      split at h
      · have hlength := Option.some.inj h
        omega
      · obtain ⟨q, -, hq⟩ := Option.bind_eq_some_iff.mp h
        rw [basedLength] at hq
        split at hq
        · cases hq
        · have hlength := Option.some.inj hq
          omega
  | cons m digits =>
    rw [List.cons_append, markedLength_cons] at h
    rw [List.length_cons] at hn
    rw [markedLength_cons]
    split at h
    · next hm =>
      have hlength := Option.some.inj h
      have hrestrict : hexLength digits = hexLength (digits ++ u) :=
        ((restricts_runLength _).cons ((restricts_fractionLength _).cons ((restricts_exponentLength _).cons
          (restricts_imaginaryLength.cons .nil)))) digits u (by rw [← hexLength]; omega)
      rw [if_pos hm, hrestrict, h]
    · next hm =>
      obtain ⟨q, hq, hlength⟩ := Option.bind_eq_some_iff.mp h
      rw [if_neg hm, hq, Option.bind_some, basedLength_restrict hlength hn]

/-- Without a number with a mark in a longer text there is none in the text. -/
theorem markedLength_eq_none_restrict (h : markedLength (w ++ u) = none) : markedLength w = none := by
  cases w with
  | nil => rfl
  | cons m digits =>
    rw [List.cons_append, markedLength_cons] at h
    rw [markedLength_cons]
    split at h
    · cases h
    · next hm =>
      rw [if_neg hm]
      cases hq : digitsOf m with
      | none => rfl
      | some q =>
        rw [hq, Option.bind_some, basedLength_eq_none_iff] at h
        rw [Option.bind_some, basedLength_eq_none_iff, restricts_runLength q digits u (by rw [h]; omega), h]

/-- In front of a text that begins with no character of a word there is no other mark. -/
theorem markedLength_eq_none_append (hu : u.head?.any Text.isWord = false) (h : markedLength w = none) :
    markedLength (w ++ u) = none := by
  cases w with
  | nil =>
    cases u with
    | nil => rfl
    | cons m digits =>
      rw [List.head?_cons, Option.any_some] at hu
      rw [List.nil_append, markedLength_cons, if_neg]
      · cases hq : digitsOf m with
        | none => rfl
        | some q => rw [(isDigits_of_digitsOf hq).2.1] at hu; cases hu
      · intro hm
        rw [(isDigits_of_isHexMark hm).2] at hu
        cases hu
  | cons m digits =>
    rw [markedLength_cons] at h
    rw [List.cons_append, markedLength_cons]
    split at h
    · cases h
    · next hm =>
      rw [if_neg hm]
      cases hq : digitsOf m with
      | none => rfl
      | some q =>
        rw [hq] at h
        rw [Option.bind_some, basedLength_append_of_isWord (isDigits_of_digitsOf hq).2.2 hu]
        exact h

/-- Whether the text of a number takes a point that follows it: decimal digits, or hexadecimal ones behind their
mark. -/
def takesPoint : List Char → Bool
  | [] => false
  | c :: rest =>
    c.isDigit && (rest.all isDecimalPart || (c == '0' && rest.head?.any isHexMark && rest.tail.all isHexPart))

/-- The marks of decimal exponents are marks of exponents. -/
theorem isMarks_decimal : IsMarks ['e', 'E'] := ⟨by simp; decide +kernel, by decide⟩

/-- The marks of hexadecimal exponents are marks of exponents. -/
theorem isMarks_hex : IsMarks ['p', 'P'] := ⟨by simp; decide +kernel, by decide⟩

/-- A decimal number goes on with a point when it has only digits. -/
theorem decimalLength_append_iff (hu : u.head?.any Text.isWord = false) (h : decimalLength w = w.length) :
    decimalLength (w ++ u) = w.length ↔ ¬(w.all isDecimalPart = true ∧ u.head? = some '.') :=
  digitsLength_append_iff isMarks_decimal isWord_of_isDecimalPart hu h

/-- A decimal number is settled by its own characters. -/
theorem restricts_decimalLength : Restricts decimalLength :=
  (restricts_runLength _).cons ((restricts_fractionLength _).cons ((restricts_exponentLength _).cons
    (restricts_imaginaryLength.cons .nil)))

/-- A number that begins with its point has a digit behind it. -/
theorem exists_of_pointedLength {n : Nat} (h : pointedLength w = some n) : 0 < n ∧ ∃ d rest, w = d :: rest ∧
    d.isDigit = true ∧
    partsLength [runLength isDecimalPart, exponentLength ['e', 'E'], imaginaryLength] w = n := by
  cases w with
  | nil => cases h
  | cons d rest =>
    rw [pointedLength] at h
    split at h
    · next hd =>
      have hlength := Option.some.inj h
      refine ⟨?_, d, rest, rfl, hd, hlength⟩
      rw [partsLength, runLength, if_pos (by rw [isDecimalPart, hd, Bool.true_or])] at hlength
      omega
    · cases h

/-- The mark behind the first digit of a number, if that is a zero. -/
def markedAfter (c : Char) (w : List Char) : Option Nat := if c = '0' then markedLength w else none

/-- A number that begins with a digit is one with a mark or a decimal one. -/
theorem numberLength_of_isDigit {c : Char} (hc : c.isDigit = true) (w : List Char) :
    numberLength c w = some ((markedAfter c w).getD (decimalLength w)) := by
  have hpoint : c ≠ '.' := by
    rintro rfl
    cases hc
  rw [numberLength_eq, if_neg hpoint, if_pos hc, markedAfter]

/-- A number that begins with its point is read from the characters behind the point. -/
theorem numberLength_of_point (w : List Char) : numberLength '.' w = pointedLength w := numberLength_eq '.' w

/-- A number begins with a digit or a point. -/
theorem isDigit_or_of_numberLength {c : Char} {n : Nat} (h : numberLength c w = some n) :
    c.isDigit = true ∨ c = '.' := by
  rw [numberLength_eq] at h
  split at h
  · next hc => exact .inr hc
  · split at h
    · next hc => exact .inl hc
    · cases h

/-- A number in a longer text is one by itself. -/
theorem numberLength_restrict {c : Char} (h : numberLength c (w ++ u) = some w.length) :
    numberLength c w = some w.length := by
  rcases isDigit_or_of_numberLength h with hc | rfl
  · rw [numberLength_of_isDigit hc] at h ⊢
    cases hmarked : markedAfter c (w ++ u) with
    | some k =>
      rw [hmarked, Option.getD_some] at h
      obtain ⟨hzero, hlength⟩ := Option.ite_none_right_eq_some.mp (hmarked.trans h)
      rw [markedAfter, if_pos hzero, markedLength_restrict hlength (Nat.le_refl _), Option.getD_some]
    | none =>
      have hnone : markedAfter c w = none := by
        rw [markedAfter] at hmarked ⊢
        split at hmarked
        · next hzero => rw [if_pos hzero, markedLength_eq_none_restrict hmarked]
        · next hzero => rw [if_neg hzero]
      rw [hmarked, Option.getD_none] at h
      have hlength := Option.some.inj h
      rw [hnone, Option.getD_none, restricts_decimalLength w u (by omega), h]
  · rw [numberLength_of_point] at h ⊢
    obtain ⟨hpos, d, rest, hcons, hd, hlength⟩ := exists_of_pointedLength h
    cases w with
    | nil => exact absurd hpos (Nat.lt_irrefl 0)
    | cons d' more =>
      obtain rfl : d' = d := (List.cons.inj hcons).1
      have hrestrict := ((restricts_runLength isDecimalPart).cons ((restricts_exponentLength ['e', 'E']).cons
        (restricts_imaginaryLength.cons .nil))) (d' :: more) u (by omega)
      rw [pointedLength, if_pos hd, hrestrict, hlength]

/-- A number with a mark goes on with a point when it is hexadecimal and has only digits. -/
theorem marked_append_iff {c : Char} (hu : u.head?.any Text.isWord = false)
    (h : markedAfter c w = some w.length) :
    (markedAfter c (w ++ u)).getD (decimalLength (w ++ u)) = w.length ↔
      ¬(takesPoint (c :: w) = true ∧ u.head? = some '.') := by
  obtain ⟨rfl, hlength⟩ := Option.ite_none_right_eq_some.mp h
  cases w with
  | nil => cases hlength
  | cons m digits =>
    rw [markedLength_cons] at hlength
    rw [List.cons_append, markedAfter, if_pos rfl, markedLength_cons]
    split at hlength
    · next hm =>
      have hhex : hexLength digits = digits.length := by
        have hall := Option.some.inj hlength
        rw [List.length_cons] at hall
        omega
      have htakes : takesPoint ('0' :: m :: digits) = digits.all isHexPart := by
        rw [takesPoint, List.all_cons, (isDigits_of_isHexMark hm).1, List.head?_cons, Option.any_some, hm,
          List.tail_cons]
        rfl
      have hiff := digitsLength_append_iff isMarks_hex isWord_of_isHexPart hu hhex
      rw [if_pos hm, Option.getD_some, htakes, ← hiff, List.length_cons, hexLength]
      omega
    · next hm =>
      obtain ⟨q, hq, hbased⟩ := Option.bind_eq_some_iff.mp hlength
      obtain ⟨hdigit, -, hword⟩ := isDigits_of_digitsOf hq
      have htakes : takesPoint ('0' :: m :: digits) = false := by
        rw [takesPoint, List.all_cons, hdigit, List.head?_cons, Option.any_some, Bool.eq_false_iff.mpr hm]
        rfl
      rw [if_neg hm, hq, Option.bind_some, basedLength_append_of_isWord hword hu, hbased, Option.getD_some, htakes]
      simp

/-- A number without a mark goes on with a point when it has only digits. -/
theorem unmarked_append_iff {c : Char} (hc : c.isDigit = true) (hu : u.head?.any Text.isWord = false)
    (hmarked : markedAfter c w = none) (h : decimalLength w = w.length) :
    (markedAfter c (w ++ u)).getD (decimalLength (w ++ u)) = w.length ↔
      ¬(takesPoint (c :: w) = true ∧ u.head? = some '.') := by
  have hnone : markedAfter c (w ++ u) = none := by
    rw [markedAfter] at hmarked ⊢
    split at hmarked
    · next hzero => rw [if_pos hzero, markedLength_eq_none_append hu hmarked]
    · next hzero => rw [if_neg hzero]
  have hmark : (c == '0' && w.head?.any isHexMark) = false := by
    by_cases hzero : c = '0'
    · cases w with
      | nil => exact Bool.and_false _
      | cons m digits =>
        rw [markedAfter, if_pos hzero, markedLength_cons] at hmarked
        rw [List.head?_cons, Option.any_some, Bool.and_eq_false_iff, Bool.eq_false_iff (b := isHexMark m)]
        refine .inr fun hm => ?_
        rw [if_pos hm] at hmarked
        cases hmarked
    · rw [beq_eq_false_iff_ne.mpr hzero, Bool.false_and]
  have htakes : takesPoint (c :: w) = w.all isDecimalPart := by
    rw [takesPoint, hc, hmark, Bool.true_and, Bool.false_and, Bool.or_false]
  rw [hnone, Option.getD_none, htakes]
  exact decimalLength_append_iff hu h

/-- A number that begins with its point takes no other one. -/
theorem pointedLength_append_of_isWord (hu : u.head?.any Text.isWord = false)
    (h : pointedLength w = some w.length) : pointedLength (w ++ u) = some w.length := by
  obtain ⟨-, d, rest, rfl, hd, hlength⟩ := exists_of_pointedLength h
  rw [List.cons_append, pointedLength, if_pos hd, ← List.cons_append,
    pointLength_append hu isMarks_decimal hlength]

/-- A number that is all of a text is one in front of any text that it takes nothing of. -/
theorem numberLength_append_iff {c : Char} (hu : u.head?.any Text.isWord = false)
    (h : numberLength c w = some w.length) :
    numberLength c (w ++ u) = some w.length ↔ ¬(takesPoint (c :: w) = true ∧ u.head? = some '.') := by
  rcases isDigit_or_of_numberLength h with hc | rfl
  · rw [numberLength_of_isDigit hc, Option.some.injEq] at h ⊢
    cases hmarked : markedAfter c w with
    | some k =>
      rw [hmarked, Option.getD_some] at h
      exact marked_append_iff hu (h ▸ hmarked)
    | none =>
      rw [hmarked, Option.getD_none] at h
      exact unmarked_append_iff hc hu hmarked h
  · rw [numberLength_of_point] at h ⊢
    exact iff_of_true (pointedLength_append_of_isWord hu h) fun hpoint => by cases hpoint.1

end GoIdiom.Lexeme
