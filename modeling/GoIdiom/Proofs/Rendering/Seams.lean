import GoIdiom.Proofs.GuardLiterals
import GoIdiom.Proofs.Rendering.Numbers

/-!
# Seams of a rendered text

Where no blank is put between two tokens, the first one may be read together with what follows: as a longer
operator, as a comment, or as a number with a point. Nothing else runs together, because a blank stands between
words and in front of everything that begins with an equals sign.
-/

namespace GoIdiom

namespace Lexeme

/-- What an operator is read together with when that follows it at once: a longer operator begins so, or a comment
or a number. Longer operators that go on with an equals sign are left out. -/
def runsInto (op : String) : List String :=
  if op = "+" then ["+"]
  else if op = "-" then ["-"]
  else if op = "&" then ["&", "^"]
  else if op = "<" then ["<", "-"]
  else if op = "|" then ["|"]
  else if op = ">" then [">"]
  else if op = "/" then ["/", "*"]
  else if op = "." then ["..", "0", "1", "2", "3", "4", "5", "6", "7", "8", "9"]
  else []

/-! ## Operators -/

/-- Longer operators come first. -/
theorem pairwise_operators : operators.Pairwise fun op other => other.length ≤ op.length := by decide +kernel

/-- An operator that begins a longer one is told by an equals sign, or runs into what the longer one goes on with.
-/
theorem runsInto_complete :
    ∀ op ∈ operators, ∀ longer ∈ operators, op.toList.isPrefixOf longer.toList = true →
    op = longer ∨ (longer.toList.drop op.toList.length).head? = some '=' ∨
      (runsInto op).any (fun s => s.toList.isPrefixOf (longer.toList.drop op.toList.length)) = true := by
  decide +kernel

/-- What an operator runs into makes a longer operator of it, or the beginning of a comment or a number. -/
theorem runsInto_sound : ∀ op ∈ operators, ∀ s ∈ runsInto op, op = "/" ∧ (s = "/" ∨ s = "*") ∨
    op = "." ∧ s.toList.head?.any Char.isDigit = true ∨ s ≠ "" ∧ op ++ s ∈ operators := by
  decide +kernel

/-- What operators begin with. -/
theorem head_operators : ∀ op ∈ operators, op.toList.head?.any (fun c => Text.isWord c || isInlineBlank c ||
    ['\n', '\x60', '"', '\''].contains c) = false ∧
      (op.toList.head? = some '=' → op ∈ Token.spacedOperators) := by
  decide +kernel

variable {c : Char} {w u behind rest : List Char} {op other : String} {kind : TokenKind} {n : Nat}

/-- A text of the length of the operator at the head of a longer one is that operator. -/
theorem text_of_operatorAt {text : String} (htext : text.toList = c :: w)
    (h : operatorAt (c :: (w ++ behind)) = some op) (hlength : w.length = op.length - 1) : text = op := by
  have htake := take_of_operatorAt h
  rwa [← hlength, List.take_left, ← htext, String.toList_inj, eq_comm] at htake

/-- The operator at the head of a text is the longest one there. -/
theorem length_le_of_operatorAt {cs : List Char} (h : operatorAt cs = some op) (hother : other ∈ operators)
    (hstart : other.toList <+: cs) : other.length ≤ op.length := by
  obtain ⟨-, front, back, hoperators, hfront⟩ := List.find?_eq_some_iff_append.mp h
  have hsorted := pairwise_operators
  rw [hoperators, List.pairwise_append] at hsorted
  rw [hoperators] at hother
  rcases List.mem_append.mp hother with hmem | hmem
  · have hnot := hfront other hmem
    rw [Bool.not_eq_true', List.isPrefixOf_iff_prefix.mpr hstart] at hnot
    cases hnot
  · rcases List.mem_cons.mp hmem with rfl | hmem
    · exact Nat.le_refl _
    · exact (List.pairwise_cons.mp hsorted.2.1).1 other hmem

/-- An operator is read in front of any text that it does not run into. -/
theorem operatorAt_append_of_not_runsInto (hop : op ∈ operators) (hequals : u.head? ≠ some '=')
    (hruns : (runsInto op).any (·.toList.isPrefixOf u) = false) : operatorAt (op.toList ++ u) = some op := by
  have hstart : op.toList <+: op.toList ++ u := List.prefix_append _ _
  cases hfound : operatorAt (op.toList ++ u) with
  | none =>
    have hnone := List.find?_eq_none.mp hfound op hop
    exact absurd (List.isPrefixOf_iff_prefix.mpr hstart) hnone
  | some longer =>
    have hlonger := prefix_of_operatorAt hfound
    have hle := length_le_of_operatorAt hfound hop hstart
    rw [← String.length_toList, ← String.length_toList] at hle
    have hbegins : op.toList <+: longer.toList := List.prefix_of_prefix_length_le hstart hlonger hle
    obtain ⟨more, hmore⟩ := hbegins
    have hbehind : more <+: u := by
      rw [← hmore] at hlonger
      exact (List.prefix_append_right_inj _).mp hlonger
    have hdrop : longer.toList.drop op.toList.length = more := by rw [← hmore, List.drop_left]
    rcases runsInto_complete op hop longer (List.mem_of_find?_eq_some hfound)
      (List.isPrefixOf_iff_prefix.mpr ⟨more, hmore⟩) with rfl | hhead | hany
    · rfl
    · rw [hdrop] at hhead
      obtain ⟨tail, rfl⟩ := hbehind
      cases more with
      | nil => cases hhead
      | cons d more => exact absurd hhead hequals
    · rw [hdrop] at hany
      obtain ⟨s, hs, hstarts⟩ := List.any_eq_true.mp hany
      have hsbehind := (List.isPrefixOf_iff_prefix.mp hstarts).trans hbehind
      exact absurd (List.isPrefixOf_iff_prefix.mpr hsbehind) (List.any_eq_false.mp hruns s hs)

/-! ## Tokens that are not between quotes -/

/-- Whether a comment begins. -/
def beginsComment (c : Char) (rest : List Char) : Bool :=
  c == '/' && (rest.head? == some '/' || rest.head? == some '*')

/-- A character that neither ends a line nor is blank nor opens a string or a rune. -/
def isPlainHead (c : Char) : Bool := !isInlineBlank c && !(['\n', '\x60', '"', '\''].contains c)

/-- A number, a word or an operator, in this order. -/
inductive Unquoted (c : Char) (rest : List Char) : TokenKind → Nat → Prop
  | number {n : Nat} (h : numberLength c rest = some n) : Unquoted c rest .number n
  | word (hnumber : numberLength c rest = none) (hc : Text.isWordStart c = true) :
      Unquoted c rest (wordKind (String.ofList (c :: rest.take (runLength Text.isWord rest))))
        (runLength Text.isWord rest)
  | operator {op : String} (hnumber : numberLength c rest = none) (hc : Text.isWordStart c = false)
      (h : operatorAt (c :: rest) = some op) : Unquoted c rest (if op == ";" then .semi else .op) (op.length - 1)

/-- Where no quotes open, a token is not between quotes, and no comment begins. -/
theorem classify_eq_token_iff (hc : isPlainHead c = true) :
    classify c rest = .ok (.token kind, n) ↔ beginsComment c rest = false ∧ Unquoted c rest kind n := by
  simp only [isPlainHead, List.contains_cons, List.contains_nil, Bool.or_false, Bool.and_eq_true, Bool.not_eq_true',
    Bool.or_eq_false_iff, beq_eq_false_iff_ne] at hc
  obtain ⟨hblank, hline, hraw, hquote, hrune⟩ := hc
  rw [classify, if_neg hline, hblank, if_neg Bool.false_ne_true, if_neg hraw, if_neg hquote, if_neg hrune]
  cases hcomment : beginsComment c rest with
  | true =>
    rw [beginsComment, Bool.and_eq_true, Bool.or_eq_true, beq_iff_eq] at hcomment
    refine ⟨fun h => ?_, fun h => by cases h.1⟩
    obtain ⟨rfl, hline | hblock⟩ := hcomment
    · rw [hline] at h
      cases h
    · rw [beq_iff_eq.mp hblock] at h
      cases hlength : blockLength (rest.drop 1) with
      | none => rw [hlength] at h; cases h
      | some k => rw [hlength] at h; cases h
  | false =>
    have hnot (x : Char) (hx : x = '/' ∨ x = '*') : ¬(c = '/' && rest.head? == some x) = true := by
      rw [beginsComment, Bool.and_eq_false_iff, Bool.or_eq_false_iff, beq_eq_false_iff_ne] at hcomment
      rw [Bool.and_eq_true, decide_eq_true_eq]
      rintro ⟨rfl, hhead⟩
      rcases hcomment with hslash | ⟨hline, hblock⟩
      · exact hslash rfl
      · rcases hx with rfl | rfl
        · rw [hline] at hhead; cases hhead
        · rw [hblock] at hhead; cases hhead
    rw [if_neg (hnot '/' (.inl rfl)), if_neg (hnot '*' (.inr rfl)), and_iff_right rfl]
    constructor
    · intro h
      cases hnumber : numberLength c rest with
      | some k =>
        rw [hnumber] at h
        cases h
        exact .number hnumber
      | none =>
        rw [hnumber] at h
        dsimp only at h
        split at h
        · next hword =>
          cases h
          exact .word hnumber hword
        · next hword =>
          cases hop : operatorAt (c :: rest) with
          | none => rw [hop] at h; cases h
          | some op =>
            rw [hop] at h
            cases h
            exact .operator hnumber (Bool.eq_false_iff.mpr hword) hop
    · rintro (hnumber | ⟨hnumber, hword⟩ | ⟨hnumber, hword, hop⟩)
      · rw [hnumber]
      · rw [hnumber]
        dsimp only
        rw [if_pos hword]
      · rw [hnumber]
        dsimp only
        rw [hword, if_neg Bool.false_ne_true, hop]

/-- The kind of a word or an operator. -/
theorem wordKind_cases (word : String) : wordKind word = .keyword ∨ wordKind word = .ident := by
  rw [wordKind]
  split
  · exact .inl rfl
  · exact .inr rfl

/-- An operator is read as a semicolon when it is one, and as an operator otherwise. -/
theorem operatorKind_cases (op : String) : (if op == ";" then TokenKind.semi else .op) = .semi ∧ op = ";" ∨
    (if op == ";" then TokenKind.semi else .op) = .op := by
  split
  · next h => exact .inl ⟨rfl, beq_iff_eq.mp h⟩
  · exact .inr rfl

/-- Only numbers are read as numbers. -/
theorem unquoted_number_iff : Unquoted c rest .number n ↔ numberLength c rest = some n := by
  refine ⟨fun h => ?_, .number⟩
  generalize hkind : TokenKind.number = kind at h
  cases h with
  | number h => exact h
  | word => rcases wordKind_cases _ with h | h <;> cases hkind.trans h
  | operator => rcases operatorKind_cases _ with ⟨h, -⟩ | h <;> cases hkind.trans h

/-- Only operators are read as operators. -/
theorem exists_of_unquoted_operator (hkind : kind = .op ∨ kind = .semi) (h : Unquoted c rest kind n) : ∃ op,
    numberLength c rest = none ∧ operatorAt (c :: rest) = some op ∧ n = op.length - 1 := by
  cases h with
  | number => rcases hkind with h | h <;> cases h
  | word => rcases wordKind_cases _ with hword | hword <;> rcases hkind with h | h <;> cases hword.symm.trans h
  | operator hnumber _ h => exact ⟨_, hnumber, h, rfl⟩

/-- No number begins as a word does. -/
theorem numberLength_of_isWordStart (h : Text.isWordStart c = true) (rest : List Char) :
    numberLength c rest = none := by
  cases hnumber : numberLength c rest with
  | none => rfl
  | some n =>
    exfalso
    rcases isDigit_or_of_numberLength hnumber with hdigit | rfl
    · have hnot : Text.isWordStart c = false :=
        forall_of_isDigit (q := fun c => Text.isWordStart c = false) (by decide +kernel) hdigit
      rw [hnot] at h
      cases h
    · exact absurd h (by decide +kernel)

/-! ## Tokens between quotes -/

/-- A raw string is told by its first character. -/
theorem classify_raw (rest : List Char) :
    classify '\x60' rest = closing (.token .string) .openString 0 (rawLength rest) := by
  rw [classify, if_neg (by decide), if_neg (by decide), if_neg (by simp), if_neg (by simp), if_pos rfl]
  cases rawLength rest <;> rfl

/-- A string or a rune is told by its first character. -/
theorem classify_literal {mark : Char} (hmark : mark = '"' ∨ mark = '\'') :
    ∃ kind cause, (kind = .string ∨ kind = .char) ∧
      ∀ rest, classify mark rest = closing (.token kind) cause 0 (literalLength mark rest) := by
  rcases hmark with rfl | rfl
  · refine ⟨.string, .openString, .inl rfl, fun rest => ?_⟩
    rw [classify, if_neg (by decide), if_neg (by decide), if_neg (by simp), if_neg (by simp), if_neg (by decide),
      if_pos rfl]
    cases literalLength '"' rest <;> rfl
  · refine ⟨.char, .openRune, .inr rfl, fun rest => ?_⟩
    rw [classify, if_neg (by decide), if_neg (by decide), if_neg (by simp), if_neg (by simp), if_neg (by decide),
      if_neg (by decide), if_pos rfl]
    cases literalLength '\'' rest <;> rfl

/-- A token does not begin with a blank. -/
theorem not_isInlineBlank_of_classify (h : classify c rest = .ok (.token kind, n)) : isInlineBlank c = false := by
  rw [← Bool.not_eq_true]
  intro hblank
  rw [classify, if_neg (head_of_classify h), if_pos hblank] at h
  cases h

/-- A token that opens with quotes is a string or a rune, and is read in front of any text. -/
theorem quoted_or_isPlainHead (h : classify c (w ++ behind) = .ok (.token kind, w.length)) :
    isPlainHead c = true ∨ (kind = .string ∨ kind = .char) ∧
      ∀ u, classify c (w ++ u) = .ok (.token kind, w.length) := by
  have hclosed {x : LexemeKind} {cause : SourceCause} {f : List Char → Option Nat}
      (hf : ∀ u, f (w ++ u) = some w.length ↔ f w = some w.length)
      (hclass : ∀ rest, classify c rest = closing x cause 0 (f rest)) :
      x = .token kind ∧ ∀ u, classify c (w ++ u) = .ok (.token kind, w.length) := by
    have hsame (a : Option Nat) : a.map (· + 0) = a := by cases a <;> rfl
    rw [hclass, closing_eq_ok_iff, hsame] at h
    refine ⟨h.1, fun u => ?_⟩
    rw [hclass, closing_eq_ok_iff, hsame]
    exact ⟨h.1, (hf u).mpr ((hf behind).mp h.2)⟩
  by_cases hraw : c = '\x60'
  · subst hraw
    obtain ⟨hkind, hall⟩ := hclosed (fun u => rawLength_append (Nat.le_refl _)) classify_raw
    cases hkind
    exact .inr ⟨.inl rfl, hall⟩
  · by_cases hliteral : c = '"' ∨ c = '\''
    · obtain ⟨x, cause, hx, hclass⟩ := classify_literal hliteral
      obtain ⟨hkind, hall⟩ := hclosed (fun u => literalLength_append (Nat.le_refl _)) hclass
      cases hkind
      exact .inr ⟨hx, hall⟩
    · rw [not_or] at hliteral
      left
      rw [isPlainHead, not_isInlineBlank_of_classify h]
      simp [hraw, hliteral, head_of_classify h]

end Lexeme

namespace Token

open Lexeme

/-- Whether a token is read together with what follows it at once. -/
def fuses (t : Token) (behind : List Char) : Bool :=
  match t.kind with
  | .op => (runsInto t.text).any (·.toList.isPrefixOf behind)
  | .number => takesPoint t.text.toList && behind.head? == some '.'
  | _ => false

/-- A token as it is cut from some text. -/
def IsLexed (t : Token) : Prop :=
  ∃ c w behind, t.text.toList = c :: w ∧ classify c (w ++ behind) = .ok (.token t.kind, w.length)

variable {t : Token} {c : Char} {w behind u : List Char}

/-- A number is read as it was cut unless it takes a point that follows. -/
theorem number_seam_iff (hkind : t.kind = .number) (htext : t.text.toList = c :: w)
    (h : numberLength c (w ++ behind) = some w.length) (hu : u.head?.any Text.isWord = false) :
    beginsComment c (w ++ u) = false ∧ Unquoted c (w ++ u) .number w.length ↔ t.fuses u = false := by
  have hhead : beginsComment c (w ++ u) = false := by
    have hne : c ≠ '/' := by
      rintro rfl
      rcases isDigit_or_of_numberLength h with hdigit | hpoint
      · exact absurd hdigit (by decide)
      · exact absurd hpoint (by decide)
    rw [beginsComment, beq_eq_false_iff_ne.mpr hne, Bool.false_and]
  rw [and_iff_right hhead, unquoted_number_iff, numberLength_append_iff hu (numberLength_restrict h), fuses, hkind,
    htext, Bool.and_eq_false_iff, beq_eq_false_iff_ne, not_and_or, Bool.not_eq_true]

/-- A word is read as it was cut. -/
theorem word_seam (hnumber : numberLength c (w ++ behind) = none) (hc : Text.isWordStart c = true)
    (hlength : w.length = runLength Text.isWord (w ++ behind)) (hu : u.head?.any Text.isWord = false) :
    beginsComment c (w ++ u) = false ∧
      Unquoted c (w ++ u) (wordKind (String.ofList (c :: (w ++ behind).take (runLength Text.isWord (w ++ behind)))))
        w.length := by
  have hrun : runLength Text.isWord (w ++ u) = w.length := by
    rw [runLength_append hu, restricts_runLength _ w behind (by omega), hlength]
  have hne : c ≠ '/' := by
    rintro rfl
    exact absurd hc (by decide +kernel)
  have hpiece := Unquoted.word (numberLength_of_isWordStart hc (w ++ u)) hc
  rw [hrun, List.take_left] at hpiece
  rw [← hlength, List.take_left]
  exact ⟨by rw [beginsComment, beq_eq_false_iff_ne.mpr hne, Bool.false_and], hpiece⟩

/-- A point runs into every digit. -/
theorem runsInto_point {d : Char} (hd : d.isDigit = true) (rest : List Char) :
    (runsInto ".").any (·.toList.isPrefixOf (d :: rest)) = true := by
  have hdigits : (runsInto ".").any (·.toList == [d]) = true :=
    forall_of_isDigit (q := fun d => (runsInto ".").any (·.toList == [d]) = true) (by decide +kernel) hd
  obtain ⟨s, hs, heq⟩ := List.any_eq_true.mp hdigits
  rw [List.any_eq_true]
  exact ⟨s, hs, by rw [beq_iff_eq.mp heq]; simp⟩

/-- A stroke runs into what makes it begin a comment. -/
theorem runsInto_stroke (u : List Char) :
    (runsInto "/").any (·.toList.isPrefixOf u) = beginsComment '/' u := by
  cases u with
  | nil => rfl
  | cons d rest => simp [runsInto, beginsComment, List.isPrefixOf, eq_comm, Bool.beq_comm]

section Operator

variable {op : String} (hop : op.toList = c :: w) (hruns : (runsInto op).any (·.toList.isPrefixOf u) = false)

include hop hruns

/-- An operator that runs into nothing begins no comment. -/
theorem beginsComment_of_not_runsInto (hcomment : beginsComment c (w ++ behind) = false) :
    beginsComment c (w ++ u) = false := by
  cases w with
  | nil =>
    by_cases hstroke : c = '/'
    · subst hstroke
      obtain rfl := String.toList_inj.mp (hop.trans (by decide : ['/'] = "/".toList))
      rw [List.nil_append, ← runsInto_stroke, hruns]
    · rw [beginsComment, beq_eq_false_iff_ne.mpr hstroke, Bool.false_and]
  | cons d more => exact hcomment

/-- An operator that runs into nothing begins no number. -/
theorem numberLength_of_not_runsInto (hnumber : numberLength c (w ++ behind) = none) :
    numberLength c (w ++ u) = none := by
  by_cases hpoint : c = '.'
  · subst hpoint
    rw [numberLength_of_point] at hnumber ⊢
    cases w with
    | nil =>
      obtain rfl := String.toList_inj.mp (hop.trans (by decide : ['.'] = ".".toList))
      cases u with
      | nil => rfl
      | cons d more =>
        rw [List.nil_append, pointedLength, if_neg]
        intro hd
        exact absurd (runsInto_point hd more) (Bool.eq_false_iff.mp hruns)
    | cons d more =>
      rw [List.cons_append, pointedLength] at hnumber ⊢
      split at hnumber
      · cases hnumber
      · next hd => rw [if_neg hd]
  · by_cases hdigit : c.isDigit = true
    · rw [numberLength_of_isDigit hdigit] at hnumber
      cases hnumber
    · rw [numberLength_eq, if_neg hpoint, if_neg hdigit]

end Operator

/-- An operator that runs into what follows is not read as it was cut. -/
theorem not_runsInto_of_unquoted {op : String} (hop : op.toList = c :: w) (hmem : op ∈ operators)
    (hcomment : beginsComment c (w ++ u) = false)
    (h : Unquoted c (w ++ u) (if op == ";" then .semi else .op) w.length) :
    (runsInto op).any (·.toList.isPrefixOf u) = false := by
  rw [← Bool.not_eq_true]
  intro hruns
  obtain ⟨s, hs, hstart⟩ := List.any_eq_true.mp hruns
  have hstart := List.isPrefixOf_iff_prefix.mp hstart
  obtain ⟨longest, hnumber, hlongest, hsame⟩ := exists_of_unquoted_operator
    ((operatorKind_cases op).elim (fun h => .inr h.1) .inl) h
  rcases runsInto_sound op hmem s hs with ⟨rfl, -⟩ | ⟨rfl, hdigit⟩ | ⟨hs, hlonger⟩
  · -- A comment begins.
    obtain ⟨rfl, rfl⟩ := List.cons.inj (hop.symm.trans (by decide : "/".toList = ['/']))
    rw [runsInto_stroke] at hruns
    exact absurd hruns (Bool.eq_false_iff.mp hcomment)
  · -- A number begins.
    obtain ⟨rfl, rfl⟩ := List.cons.inj (hop.symm.trans (by decide : ".".toList = ['.']))
    obtain ⟨tail, rfl⟩ := hstart
    cases hs : s.toList with
    | nil => rw [hs] at hdigit; cases hdigit
    | cons d more =>
      rw [hs, List.head?_cons, Option.any_some] at hdigit
      rw [hs, List.nil_append, List.cons_append, numberLength_of_point, pointedLength, if_pos hdigit] at hnumber
      cases hnumber
  · -- A longer operator begins.
    have hle := length_le_of_operatorAt hlongest hlonger (by
      rw [String.toList_append, hop, List.cons_append, List.cons_prefix_cons]
      exact ⟨rfl, (List.prefix_append_right_inj w).mpr hstart⟩)
    rw [String.length_append, ← String.length_toList, hop, List.length_cons] at hle
    have hpos : s.length ≠ 0 := by simpa using hs
    omega

/-- An operator is read as it was cut unless it runs into what follows. -/
theorem operator_seam_iff {op : String} (hop : op.toList = c :: w) (hc : Text.isWordStart c = false)
    (hcomment : beginsComment c (w ++ behind) = false) (hnumber : numberLength c (w ++ behind) = none)
    (h : operatorAt (c :: (w ++ behind)) = some op) (hequals : u.head? ≠ some '=') :
    beginsComment c (w ++ u) = false ∧ Unquoted c (w ++ u) (if op == ";" then .semi else .op) w.length ↔
      (runsInto op).any (·.toList.isPrefixOf u) = false := by
  have hmem := List.mem_of_find?_eq_some h
  refine ⟨fun ⟨hnone, hpiece⟩ => not_runsInto_of_unquoted hop hmem hnone hpiece, fun hruns => ?_⟩
  have hfound : operatorAt (c :: (w ++ u)) = some op := by
    rw [← List.cons_append, ← hop]
    exact operatorAt_append_of_not_runsInto hmem hequals hruns
  have hlength : op.length - 1 = w.length := by
    rw [← String.length_toList, hop, List.length_cons, Nat.add_sub_cancel]
  exact ⟨beginsComment_of_not_runsInto hop hruns hcomment,
    hlength ▸ .operator (numberLength_of_not_runsInto hop hruns hnumber) hc hfound⟩

/-- A token is read in front of a text as it was cut exactly when it does not fuse with that, if the text begins
with no equals sign and does not go on with a word. -/
theorem classify_seam_iff (htext : t.text.toList = c :: w)
    (h : classify c (w ++ behind) = .ok (.token t.kind, w.length)) (hequals : u.head? ≠ some '=')
    (hword : t.isWordLike = true → u.head?.any Text.isWord = false) :
    classify c (w ++ u) = .ok (.token t.kind, w.length) ↔ t.fuses u = false := by
  rcases quoted_or_isPlainHead h with hplain | ⟨hkind, hall⟩
  · rw [classify_eq_token_iff hplain] at h ⊢
    obtain ⟨hcomment, hpiece⟩ := h
    generalize hkind : t.kind = kind at hpiece ⊢
    generalize hlength : w.length = n at hpiece ⊢
    cases hpiece with
    | number hnumber =>
      subst hlength
      exact number_seam_iff hkind htext hnumber (hword (by rw [isWordLike, hkind]))
    | word hnumber hc =>
      have hlike := wordKind_cases (String.ofList (c :: (w ++ behind).take (runLength Text.isWord (w ++ behind))))
      rw [← hkind] at hlike
      have hu := hword (by rw [isWordLike]; rcases hlike with h | h <;> rw [h])
      refine ⟨fun _ => ?_, fun _ => hlength ▸ word_seam hnumber hc hlength hu⟩
      rw [fuses]
      rcases hlike with h | h <;> rw [h]
    | @operator op hnumber hc hop =>
      obtain rfl := text_of_operatorAt htext hop hlength
      rw [← hlength, operator_seam_iff htext hc hcomment hnumber hop hequals, fuses]
      rcases operatorKind_cases t.text with ⟨hsemi, htext⟩ | hoperator
      · rw [hkind, hsemi, htext]
        exact ⟨fun _ => rfl, fun _ => rfl⟩
      · rw [hkind, hoperator]
  · refine ⟨fun _ => ?_, fun _ => hall u⟩
    rw [fuses]
    rcases hkind with hkind | hkind <;> rw [hkind]

end Token

end GoIdiom
