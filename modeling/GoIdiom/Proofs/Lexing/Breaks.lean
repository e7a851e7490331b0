import GoIdiom.Token.Lexeme

/-!
# Lengths that end at a break

No number, word or operator reaches over a blank or a line feed, so the length of one is settled by the
text before the break. The length of a delimited piece is settled by the text up to its closing mark.
-/

namespace GoIdiom.Lexeme

/-- The characters that end a piece whatever stands before them. -/
def breakChars : List Char := ['\n', ' ', '\t', '\r', '\x0c', '\x0b']

/-- Whether a text is at its end or begins with a break. -/
def breaks (cs : List Char) : Bool := cs.head?.all breakChars.contains

/-- Whether a text is at its end or begins with a line feed. -/
def breaksLine (cs : List Char) : Bool := cs.head?.all (· == '\n')

/-- A length that is settled by the text before a break. -/
def Local (f : List Char → Nat) : Prop :=
  ∀ w u : List Char, breaks u = true → f (w ++ u) = f w ∧ f w ≤ w.length

section Local

variable {p : Char → Bool} {w u : List Char}

/-- A break is a line feed or a blank within a line. -/
theorem breakChars_contains_iff (c : Char) :
    breakChars.contains c = true ↔ (c == '\n' || isInlineBlank c) = true := by
  simp only [breakChars, isInlineBlank, List.contains_eq_mem, List.mem_cons, List.not_mem_nil, or_false,
    decide_eq_true_eq, Bool.or_eq_true, beq_iff_eq, or_assoc]

/-- The end of a line is a break. -/
theorem breaks_of_breaksLine (h : breaksLine u = true) : breaks u = true := by
  cases u with
  | nil => rfl
  | cons c rest =>
    rw [breaksLine, List.head?_cons, Option.all_some, beq_iff_eq] at h
    rw [h]
    rfl

/-- A class without breaks holds at no break. -/
theorem not_of_breaks (hp : breakChars.all (!p ·) = true) {c : Char} {rest : List Char}
    (h : breaks (c :: rest) = true) : p c = false := by
  have hc := List.all_eq_true.mp hp c (List.contains_iff_mem.mp h)
  rwa [Bool.not_eq_true'] at hc

/-- A run of one class is no longer than the text. -/
theorem runLength_le (p : Char → Bool) (cs : List Char) : runLength p cs ≤ cs.length := by
  induction cs with
  | nil => exact Nat.le_refl 0
  | cons c rest ih =>
    rw [runLength, List.length_cons]
    split <;> omega

/-- A run that ends before the end of a text is the run of any longer text. -/
theorem runLength_append_of_lt {n : Nat} (h : n < w.length) :
    runLength p (w ++ u) = n ↔ runLength p w = n := by
  induction w generalizing n with
  | nil => exact absurd h (Nat.not_lt_zero n)
  | cons c rest ih =>
    rw [List.cons_append, runLength, runLength]
    split
    · cases n with
      | zero => simp
      | succ n => simpa using ih (Nat.lt_of_succ_lt_succ h)
    · exact Iff.rfl

/-- A run ends where a character of another class follows. -/
theorem runLength_append (h : u.head?.any p = false) : runLength p (w ++ u) = runLength p w := by
  induction w with
  | nil =>
    cases u with
    | nil => rfl
    | cons c rest => exact if_neg (Bool.eq_false_iff.mp h)
  | cons c rest ih => rw [List.cons_append, runLength, runLength, ih]

/-- A run without line feeds ends where a line does. -/
theorem runLength_append_of_breaksLine (hp : p '\n' = false) (hu : breaksLine u = true) :
    runLength p (w ++ u) = runLength p w := by
  refine runLength_append ?_
  cases u with
  | nil => rfl
  | cons c rest =>
    rw [breaksLine, List.head?_cons, Option.all_some, beq_iff_eq] at hu
    rw [hu]
    exact hp

/-- A run of a class without breaks ends at a break. -/
theorem local_runLength (hp : breakChars.all (!p ·) = true) : Local (runLength p) := by
  refine fun w u hu => ⟨runLength_append ?_, runLength_le p w⟩
  cases u with
  | nil => rfl
  | cons c rest => exact not_of_breaks hp hu

/-- A fraction of digits without breaks ends at a break. -/
theorem local_fractionLength (hp : breakChars.all (!p ·) = true) : Local (fractionLength p) := by
  intro w u hu
  match w with
  | [] =>
    match u with
    | [] => exact ⟨rfl, Nat.le_refl 0⟩
    | c :: rest =>
      have hc := not_of_breaks (p := (· == '.')) (by decide) hu
      rw [beq_eq_false_iff_ne] at hc
      refine ⟨?_, Nat.le_refl 0⟩
      rw [List.nil_append, fractionLength.eq_def]
      split
      · next heq => exact absurd (List.cons.inj heq).1 hc
      · rfl
  | c :: rest =>
    rw [List.cons_append]
    by_cases hc : c = '.'
    · rw [hc, fractionLength, fractionLength, (local_runLength hp rest u hu).1]
      exact ⟨rfl, Nat.succ_le_succ (runLength_le p rest)⟩
    · have hnone (more : List Char) : fractionLength p (c :: more) = 0 := by
        rw [fractionLength.eq_def]
        split
        · next heq => exact absurd (List.cons.inj heq).1 hc
        · rfl
      rw [hnone, hnone]
      exact ⟨rfl, Nat.zero_le _⟩

/-- The length of a part that is one character of a class or nothing. -/
theorem local_headLength (hp : breakChars.all (!p ·) = true) :
    Local fun cs => if cs.head?.any p = true then 1 else 0 := by
  intro w u hu
  dsimp only
  cases w with
  | nil =>
    cases u with
    | nil => exact ⟨rfl, Nat.le_refl 0⟩
    | cons c rest =>
      have hc := not_of_breaks hp hu
      simp only [List.nil_append, List.head?_cons, Option.any_some, hc]
      exact ⟨rfl, Nat.le_refl 0⟩
  | cons c rest =>
    refine ⟨rfl, ?_⟩
    rw [List.length_cons]
    split <;> omega

/-- A sign is one character, if the text begins with one. -/
theorem signLength_eq (cs : List Char) :
    signLength cs = if cs.head?.any (fun c => c == '+' || c == '-') = true then 1 else 0 := by
  match cs with
  | [] => rfl
  | c :: rest =>
    rw [signLength.eq_def]
    split
    · next heq => rw [(List.cons.inj heq).1]; rfl
    · next heq => rw [(List.cons.inj heq).1]; rfl
    · next hplus hminus =>
      have h : (c == '+' || c == '-') = false := by
        rw [Bool.or_eq_false_iff, beq_eq_false_iff_ne, beq_eq_false_iff_ne]
        exact ⟨fun h => hplus rest (by rw [h]), fun h => hminus rest (by rw [h])⟩
      rw [List.head?_cons, Option.any_some, h]
      rfl

/-- A sign does not reach over a break. -/
theorem local_signLength : Local signLength := by
  rw [funext signLength_eq]
  exact local_headLength (by decide)

/-- The mark of an imaginary number is one character, if the text begins with it. -/
theorem imaginaryLength_eq (cs : List Char) :
    imaginaryLength cs = if cs.head?.any (· == 'i') = true then 1 else 0 := by
  match cs with
  | [] => rfl
  | c :: rest =>
    rw [imaginaryLength.eq_def]
    split
    · next heq => rw [(List.cons.inj heq).1]; rfl
    · next hmark =>
      have h : (c == 'i') = false := beq_eq_false_iff_ne.mpr fun h => hmark rest (by rw [h])
      rw [List.head?_cons, Option.any_some, h]
      rfl

/-- The mark of an imaginary number does not reach over a break. -/
theorem local_imaginaryLength : Local imaginaryLength := by
  rw [funext imaginaryLength_eq]
  exact local_headLength (by decide)

/-- A run of decimal digits ends at a break. -/
theorem local_digits : Local (runLength isDecimalPart) := local_runLength (by decide)

/-- An exponent whose marks are no breaks ends at a break. -/
theorem local_exponentLength {marks : List Char} (h : breakChars.all (!marks.contains ·) = true) :
    Local (exponentLength marks) := by
  intro w u hu
  cases w with
  | nil =>
    cases u with
    | nil => exact ⟨rfl, Nat.le_refl 0⟩
    | cons c rest =>
      have hc := not_of_breaks h hu
      refine ⟨?_, Nat.le_refl 0⟩
      simp only [List.nil_append, exponentLength, hc, Bool.false_and]
      rfl
  | cons c rest =>
    obtain ⟨hsign, hle⟩ := local_signLength rest u hu
    have hdrop : (rest ++ u).drop (signLength rest) = rest.drop (signLength rest) ++ u :=
      List.drop_append_of_le_length hle
    obtain ⟨hdigits, hdigitsLe⟩ := local_digits (rest.drop (signLength rest)) u hu
    rw [List.length_drop] at hdigitsLe
    simp only [List.cons_append, exponentLength, hsign, hdrop, hdigits, List.length_cons, true_and]
    split <;> omega

/-- No parts have no length, whatever follows. -/
theorem Local.nil : Local (partsLength []) := fun _ _ _ => ⟨rfl, Nat.zero_le _⟩

/-- A local part and local parts after it. -/
theorem Local.cons {part : List Char → Nat} {parts : List (List Char → Nat)} (hpart : Local part)
    (hparts : Local (partsLength parts)) : Local (partsLength (part :: parts)) := by
  intro w u hu
  obtain ⟨hfirst, hle⟩ := hpart w u hu
  have hdrop : (w ++ u).drop (part w) = w.drop (part w) ++ u := List.drop_append_of_le_length hle
  obtain ⟨hrest, hrestLe⟩ := hparts (w.drop (part w)) u hu
  rw [List.length_drop] at hrestLe
  rw [partsLength, partsLength, hfirst, hdrop, hrest]
  exact ⟨rfl, by omega⟩

/-- A local length reaches over no line feed. -/
theorem Local.not_mem_take {f : List Char → Nat} (hf : Local f) (w : List Char) : '\n' ∉ w.take (f w) := by
  intro h
  obtain ⟨a, b, hab⟩ := List.append_of_mem h
  have hw : w = a ++ '\n' :: (b ++ w.drop (f w)) := by
    rw [← List.cons_append, ← List.append_assoc, ← hab, List.take_append_drop]
  have hlength := congrArg List.length hab
  rw [List.length_take, List.length_append, List.length_cons] at hlength
  obtain ⟨heq, hle⟩ := hf a ('\n' :: (b ++ w.drop (f w))) rfl
  rw [← hw] at heq
  omega

end Local

section Numbers

variable {p : Char → Bool} {u : List Char}

/-- A number in a base is read the same before a break as at the end. -/
theorem basedLength_append (hp : breakChars.all (!p ·) = true) (w : List Char) (hu : breaks u = true) :
    basedLength p (w ++ u) = basedLength p w := by
  obtain ⟨hdigits, hle⟩ := local_runLength hp w u hu
  have hdrop : (w ++ u).drop (runLength p w) = w.drop (runLength p w) ++ u := List.drop_append_of_le_length hle
  simp only [basedLength, hdigits, hdrop, (local_imaginaryLength (w.drop (runLength p w)) u hu).1]

/-- The digits of a base and their mark lie in the text. -/
theorem basedLength_le {w : List Char} {n : Nat} (h : basedLength p w = some n) : n ≤ w.length + 1 := by
  rw [basedLength] at h
  split at h
  · cases h
  · have hn := Option.some.inj h
    have hdigits := runLength_le p w
    have himaginary := (local_imaginaryLength (w.drop (runLength p w)) [] rfl).2
    rw [List.length_drop] at himaginary
    omega

/-- A decimal number ends at a break. -/
theorem local_decimalLength : Local decimalLength :=
  local_digits.cons ((local_fractionLength (by decide)).cons
    ((local_exponentLength (by decide)).cons (local_imaginaryLength.cons .nil)))

/-- The length of a hexadecimal number after its mark. -/
theorem local_hexLength : Local (partsLength [runLength isHexPart, fractionLength isHexPart,
    exponentLength ['p', 'P'], imaginaryLength]) :=
  (local_runLength (by decide)).cons ((local_fractionLength (by decide)).cons
    ((local_exponentLength (by decide)).cons (local_imaginaryLength.cons .nil)))

/-- The length of the digits of a number that begins with its point. -/
theorem local_pointLength :
    Local (partsLength [runLength isDecimalPart, exponentLength ['e', 'E'], imaginaryLength]) :=
  local_digits.cons ((local_exponentLength (by decide)).cons (local_imaginaryLength.cons .nil))

/-- The length of a number with a mark for its base, after the zero. -/
def markedLength : List Char → Option Nat
  | [] => none
  | mark :: digits =>
    if mark = 'x' || mark = 'X' then
      some (1 + partsLength [runLength isHexPart, fractionLength isHexPart, exponentLength ['p', 'P'],
        imaginaryLength] digits)
    else if mark = 'b' || mark = 'B' then basedLength isBinaryPart digits
    else if mark = 'o' || mark = 'O' then basedLength isOctalPart digits
    else none

/-- The length of a number after its point. -/
def pointedLength : List Char → Option Nat
  | [] => none
  | d :: rest =>
    if d.isDigit then
      some (partsLength [runLength isDecimalPart, exponentLength ['e', 'E'], imaginaryLength] (d :: rest))
    else none

/-- How a number is read, by its first character: a point needs digits, a zero may begin a base. -/
theorem numberLength_eq (c : Char) (rest : List Char) :
    numberLength c rest =
      if c = '.' then pointedLength rest
      else if c.isDigit then some ((if c = '0' then markedLength rest else none).getD (decimalLength rest))
      else none := by
  unfold numberLength
  cases rest <;> rfl

/-- A number with a mark is read the same before a break as at the end. -/
theorem markedLength_append (w : List Char) (hu : breaks u = true) : markedLength (w ++ u) = markedLength w := by
  cases w with
  | cons mark digits =>
    simp only [List.cons_append, markedLength, (local_hexLength digits u hu).1,
      basedLength_append (p := isBinaryPart) (by decide) digits hu,
      basedLength_append (p := isOctalPart) (by decide) digits hu]
  | nil =>
    cases u with
    | nil => rfl
    | cons mark digits =>
      have hmark (x : Char) (hx : breakChars.all (!(· == x) ·) = true) : mark ≠ x := by
        have := not_of_breaks (p := (· == x)) hx hu
        rwa [beq_eq_false_iff_ne] at this
      simp only [List.nil_append, markedLength, hmark 'x' (by decide), hmark 'X' (by decide),
        hmark 'b' (by decide), hmark 'B' (by decide), hmark 'o' (by decide), hmark 'O' (by decide)]
      rfl

/-- A number with a mark lies in the text. -/
theorem markedLength_le {w : List Char} {n : Nat} (h : markedLength w = some n) : n ≤ w.length := by
  cases w with
  | nil => cases h
  | cons mark digits =>
    rw [markedLength] at h
    rw [List.length_cons]
    split at h
    · have := Option.some.inj h
      have := (local_hexLength digits [] rfl).2
      omega
    · split at h
      · exact basedLength_le h
      · split at h
        · exact basedLength_le h
        · cases h

/-- A number that begins with its point is read the same before a break as at the end. -/
theorem pointedLength_append (w : List Char) (hu : breaks u = true) : pointedLength (w ++ u) = pointedLength w := by
  cases w with
  | cons d rest =>
    have h := (local_pointLength (d :: rest) u hu).1
    rw [List.cons_append] at h
    simp only [List.cons_append, pointedLength, h]
  | nil =>
    cases u with
    | nil => rfl
    | cons d rest =>
      have hd := not_of_breaks (p := Char.isDigit) (by decide) hu
      simp only [List.nil_append, pointedLength, hd]
      rfl

/-- A number that begins with its point lies in the text. -/
theorem pointedLength_le {w : List Char} {n : Nat} (h : pointedLength w = some n) : n ≤ w.length := by
  cases w with
  | nil => cases h
  | cons d rest =>
    rw [pointedLength] at h
    split at h
    · exact Option.some.inj h ▸ (local_pointLength (d :: rest) [] rfl).2
    · cases h

/-- The length of a number is settled by the text before a break. -/
theorem numberLength_append (c : Char) (w : List Char) (hu : breaks u = true) :
    numberLength c (w ++ u) = numberLength c w := by
  rw [numberLength_eq, numberLength_eq, pointedLength_append w hu, markedLength_append w hu,
    (local_decimalLength w u hu).1]

/-- A number behind its first character lies in the text. -/
theorem numberLength_le {c : Char} {w : List Char} {n : Nat} (h : numberLength c w = some n) : n ≤ w.length := by
  rw [numberLength_eq] at h
  split at h
  · exact pointedLength_le h
  · split at h
    · rw [← Option.some.inj h]
      cases hmarked : if c = '0' then markedLength w else none with
      | none => exact (local_decimalLength w [] rfl).2
      | some k => exact markedLength_le (Option.ite_none_right_eq_some.mp hmarked).2
    · cases h

/-- A number ends at a break. -/
theorem local_numberLength (c : Char) : Local fun cs => (numberLength c cs).getD 0 := by
  intro w u hu
  dsimp only
  rw [numberLength_append c w hu]
  cases h : numberLength c w with
  | none => exact ⟨rfl, Nat.zero_le _⟩
  | some n => exact ⟨rfl, numberLength_le h⟩

end Numbers

section Delimited

variable {w u : List Char} {n : Nat}

/-- Two lengths that agree as far as they count agree with as many characters before them. -/
theorem map_add_iff {a b : Option Nat} {k : Nat} (h : ∀ j, j + k = n → (a = some j ↔ b = some j)) :
    a.map (· + k) = some n ↔ b.map (· + k) = some n := by
  rw [Option.map_eq_some_iff, Option.map_eq_some_iff]
  exact exists_congr fun j => and_congr_left (h j)

/-- A raw string has a closing quote within the text. -/
theorem rawLength_le (h : rawLength w = some n) : 0 < n ∧ n ≤ w.length := by
  induction w generalizing n with
  | nil => cases h
  | cons c rest ih =>
    rw [rawLength] at h
    rw [List.length_cons]
    split at h
    · have := Option.some.inj h
      omega
    · obtain ⟨k, hk, rfl⟩ := Option.map_eq_some_iff.mp h
      have := ih hk
      omega

/-- A raw string that ends in a text ends there in any longer text. -/
theorem rawLength_append (h : n ≤ w.length) : rawLength (w ++ u) = some n ↔ rawLength w = some n := by
  induction w generalizing n with
  | nil =>
    refine ⟨fun hu => ?_, fun hx => by cases hx⟩
    have := (rawLength_le hu).1
    rw [List.length_nil] at h
    omega
  | cons c rest ih =>
    rw [List.length_cons] at h
    rw [List.cons_append, rawLength, rawLength]
    split
    · exact Iff.rfl
    · exact map_add_iff fun j hj => ih (by omega)

/-- A raw string ends with its mark. -/
theorem getLast?_rawLength (h : rawLength w = some n) : (w.take n).getLast? = some '\x60' := by
  induction w generalizing n with
  | nil => cases h
  | cons c rest ih =>
    rw [rawLength] at h
    split at h
    · next hc =>
      rw [← Option.some.inj h, hc]
      rfl
    · obtain ⟨k, hk, rfl⟩ := Option.map_eq_some_iff.mp h
      rw [List.take_succ_cons, List.getLast?_cons, ih hk]
      rfl

/-- A literal has a closing quote within the text. -/
theorem literalLength_le {mark : Char} (h : literalLength mark w = some n) : 0 < n ∧ n ≤ w.length := by
  fun_induction literalLength mark w generalizing n with
  | case1 => cases h
  | case2 =>
    rw [List.length_cons]
    have := Option.some.inj h
    omega
  | case3 => cases h
  | case4 => cases h
  | case5 _ _ _ _ ih =>
    obtain ⟨k, hk, rfl⟩ := Option.map_eq_some_iff.mp h
    have := ih hk
    simp only [List.length_cons]
    omega
  | case6 _ _ _ _ _ ih =>
    obtain ⟨k, hk, rfl⟩ := Option.map_eq_some_iff.mp h
    have := ih hk
    simp only [List.length_cons]
    omega

/-- A string or rune ends with its mark. -/
theorem getLast?_literalLength {mark : Char} (h : literalLength mark w = some n) :
    (w.take n).getLast? = some mark := by
  fun_induction literalLength mark w generalizing n with
  | case1 => cases h
  | case2 =>
    rw [← Option.some.inj h]
    rfl
  | case3 => cases h
  | case4 => cases h
  | case5 _ _ _ _ ih =>
    obtain ⟨k, hk, rfl⟩ := Option.map_eq_some_iff.mp h
    rw [List.take_succ_cons, List.take_succ_cons, List.getLast?_cons, List.getLast?_cons, ih hk]
    rfl
  | case6 _ _ _ _ _ ih =>
    obtain ⟨k, hk, rfl⟩ := Option.map_eq_some_iff.mp h
    rw [List.take_succ_cons, List.getLast?_cons, ih hk]
    rfl

/-- A string or rune that ends in a text ends there in any longer text. -/
theorem literalLength_append {mark : Char} (h : n ≤ w.length) :
    literalLength mark (w ++ u) = some n ↔ literalLength mark w = some n := by
  fun_induction literalLength mark w generalizing n with
  | case1 =>
    refine ⟨fun hu => ?_, fun hx => by cases hx⟩
    have := (literalLength_le hu).1
    rw [List.length_nil] at h
    omega
  | case2 => rw [List.cons_append, literalLength.eq_def]; simp
  | case3 _ hmark => rw [List.cons_append, literalLength.eq_def]; simp [hmark]
  | case4 hmark hline =>
    refine ⟨fun hu => ?_, fun hx => by cases hx⟩
    cases u with
    | nil => simp [literalLength, hmark] at hu
    | cons c rest =>
      rw [List.singleton_append, literalLength.eq_def] at hu
      simp only [hmark, ↓reduceIte] at hu
      obtain ⟨k, -, rfl⟩ := Option.map_eq_some_iff.mp hu
      simp at h
  | case5 c rest hmark hline ih =>
    simp only [List.length_cons] at h
    rw [List.cons_append, List.cons_append, literalLength.eq_def]
    simp only [hmark, hline, ↓reduceIte]
    exact map_add_iff fun j hj => ih (by omega)
  | case6 c rest hmark hline hescape ih =>
    rw [List.length_cons] at h
    rw [List.cons_append, literalLength.eq_def]
    simp only [hmark, hline, hescape, ↓reduceIte]
    exact map_add_iff fun j hj => ih (by omega)

/-- A block comment has its two closing characters within the text. -/
theorem blockLength_le (h : blockLength w = some n) : 2 ≤ n ∧ n ≤ w.length := by
  fun_induction blockLength w generalizing n with
  | case1 => cases h
  | case2 rest =>
    have := Option.some.inj h
    simp only [List.length_cons]
    omega
  | case3 c rest hend ih =>
    obtain ⟨k, hk, rfl⟩ := Option.map_eq_some_iff.mp h
    have := ih hk
    simp only [List.length_cons]
    omega

/-- A block comment that ends in a text ends there in any longer text. -/
theorem blockLength_append (h : n ≤ w.length) : blockLength (w ++ u) = some n ↔ blockLength w = some n := by
  fun_induction blockLength w generalizing n with
  | case1 =>
    refine ⟨fun hu => ?_, fun hx => by cases hx⟩
    have := (blockLength_le hu).1
    rw [List.length_nil] at h
    omega
  | case2 rest => exact Iff.rfl
  | case3 c rest hend ih =>
    rw [List.length_cons] at h
    by_cases hclose : ∃ tail, c = '*' ∧ rest ++ u = '/' :: tail
    · obtain ⟨tail, rfl, htail⟩ := hclose
      cases rest with
      | nil =>
        rw [List.nil_append] at htail
        rw [htail]
        refine ⟨fun hu => ?_, fun hx => by cases hx⟩
        have := Option.some.inj hu
        rw [List.length_nil] at h
        omega
      | cons d more => exact absurd ((List.cons.inj htail).1 ▸ rfl) (hend more rfl)
    · rw [List.cons_append, blockLength.eq_def]
      split
      · next heq => exact absurd heq (List.cons_ne_nil _ _)
      · next tail heq => exact absurd ⟨tail, List.cons.inj heq⟩ hclose
      · next _ _ _ heq =>
        obtain ⟨rfl, rfl⟩ := List.cons.inj heq
        exact map_add_iff fun j hj => ih (by omega)

end Delimited

end GoIdiom.Lexeme
