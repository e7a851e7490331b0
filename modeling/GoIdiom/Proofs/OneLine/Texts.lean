import GoIdiom.Document
import GoIdiom.Text.Letter
import GoIdiom.Text.Word

/-!
# Texts in one line

A text is in one line when it holds no character at which a reader of text ends a line. Words, numbers, dates and
quoted texts are in one line whatever they stand for. A text that is put together from such texts and from quoted
ones ends a line only where one of the latter does.
-/

namespace GoIdiom

namespace Text

/-- The characters at which readers of text end a line. -/
def lineBreaks : List Char := ['\n', '\x0b', '\x0c', '\r', '\x1c', '\x1d', '\x1e', '\x85', '\u2028', '\u2029']

/-- Whether a text is in one line. -/
def OneLine (s : String) : Prop := ∀ c ∈ s.toList, c ∉ lineBreaks

/-- Whether none of some characters ends a line. -/
theorem all_iff_forall_not_mem {cs : List Char} :
    cs.all (!lineBreaks.contains ·) = true ↔ ∀ c ∈ cs, c ∉ lineBreaks := by
  simp [List.all_eq_true]

instance (s : String) : Decidable (OneLine s) := decidable_of_iff _ all_iff_forall_not_mem

variable {s t : String} {c : Char}

/-- A character of a class that holds no line break. -/
theorem not_mem_lineBreaks {p : Char → Bool} (hp : lineBreaks.all (!p ·) = true) (hc : p c = true) :
    c ∉ lineBreaks := by
  intro hmem
  have hfalse := List.all_eq_true.mp hp c hmem
  rw [hc] at hfalse
  cases hfalse

/-- The empty text is one line. -/
theorem oneLine_empty : OneLine "" := by decide

/-- A text of given characters is one line exactly when none of them breaks lines. -/
theorem oneLine_ofList {cs : List Char} : OneLine (String.ofList cs) ↔ ∀ c ∈ cs, c ∉ lineBreaks := by
  rw [OneLine, String.toList_ofList]

/-- Two texts make one line exactly when both are in one line. -/
theorem oneLine_append : OneLine (s ++ t) ↔ OneLine s ∧ OneLine t := by
  simp only [OneLine, String.toList_append, List.forall_mem_append]

/-- Texts of one line make one line. -/
theorem OneLine.append (hs : OneLine s) (ht : OneLine t) : OneLine (s ++ t) := oneLine_append.mpr ⟨hs, ht⟩

/-- A part of a text. -/
theorem OneLine.of_subset (hs : OneLine s) (h : t.toList ⊆ s.toList) : OneLine t := fun c hc => hs c (h hc)

/-- What is left without the first characters is still one line. -/
theorem OneLine.dropChars (hs : OneLine s) (count : Nat) : OneLine (dropChars s count) :=
  oneLine_ofList.mpr fun c hc => hs c (List.mem_of_mem_drop hc)

/-- What is left without the last characters is still one line. -/
theorem OneLine.dropLastChars (hs : OneLine s) (count : Nat) : OneLine (dropLastChars s count) :=
  oneLine_ofList.mpr fun c hc => hs c (List.mem_of_mem_take hc)

/-- Texts in one line, one after the other. -/
theorem oneLine_join {parts : List String} (h : ∀ part ∈ parts, OneLine part) :
    OneLine (String.join parts) := by
  intro c hc
  rw [String.toList_join] at hc
  obtain ⟨part, hpart, hc⟩ := List.mem_flatMap.mp hc
  exact h part hpart c hc

/-- What holds of texts and a separator, and of two texts put together, holds of the texts between separators. -/
theorem joinWith_induction {P : String → Prop} (hempty : P "") (happend : ∀ {s t}, P s → P t → P (s ++ t))
    {separator : String} (hseparator : P separator) {parts : List String} (h : ∀ part ∈ parts, P part) :
    P (joinWith separator parts) := by
  induction parts with
  | nil => exact hempty
  | cons part rest ih =>
    obtain ⟨hpart, hrest⟩ := List.forall_mem_cons.mp h
    rw [joinWith]
    by_cases hnil : rest = []
    · rw [hnil, String.intercalate_singleton]
      exact hpart
    · rw [String.intercalate_cons_of_ne_nil hnil]
      exact happend (happend hpart hseparator) (ih hrest)

/-- Texts in one line between separators. -/
theorem oneLine_joinWith {separator : String} (hseparator : OneLine separator) {parts : List String}
    (h : ∀ part ∈ parts, OneLine part) : OneLine (joinWith separator parts) :=
  joinWith_induction oneLine_empty OneLine.append hseparator h

/-- A text of characters of a class that holds no line break. -/
theorem oneLine_of_all {p : Char → Bool} (hp : lineBreaks.all (!p ·) = true)
    (h : ∀ c ∈ s.toList, p c = true) :
    OneLine s := fun c hc => not_mem_lineBreaks hp (h c hc)

/-- A text of plain characters, as it is written down. -/
theorem oneLine_literal {cs : List Char} (h : cs.all (fun c => 32 ≤ c.toNat && c.toNat < 127) = true) :
    OneLine (String.ofList cs) := by
  refine oneLine_of_all (p := fun c => 32 ≤ c.toNat && c.toNat < 127) (by decide) ?_
  rw [String.toList_ofList]
  exact List.all_eq_true.mp h

/-- A word is in one line. -/
theorem oneLine_of_isWord (h : ∀ c ∈ s.toList, isWord c = true) : OneLine s :=
  oneLine_of_all (by decide +kernel) h

/-! ## Upper case -/

/-- A line break given by its code has that code. -/
theorem toNat_ofNat_of_mem {code : Nat} (h : Char.ofNat code ∈ lineBreaks) : (Char.ofNat code).toNat = code := by
  by_cases hvalid : code.isValidChar
  · rw [Char.ofNat, dif_pos hvalid]
    rfl
  · rw [Char.ofNat, dif_neg hvalid] at h
    exact absurd h (by decide)

/-- A table of shifts that moves nothing to a line break. -/
theorem not_mem_apply {shifts : List CodeShift} (hc : c ∉ lineBreaks)
    (h : ∀ shift ∈ shifts, ∀ b ∈ lineBreaks,
      shift.range.contains (b.toNat - shift.distance).toNat = false) :
    CodeShift.apply shifts c ∉ lineBreaks := by
  induction shifts with
  | nil => exact hc
  | cons shift rest ih =>
    obtain ⟨hshift, hrest⟩ := List.forall_mem_cons.mp h
    rw [CodeShift.apply]
    split
    · exact hc
    · split
      · next hin =>
        intro hmem
        have hpos : (c.toNat + shift.distance).toNat ≠ 0 := fun hzero => absurd (hzero ▸ hmem) (by decide)
        have hnot := hshift _ hmem
        rw [toNat_ofNat_of_mem hmem] at hnot
        have hback : ((c.toNat + shift.distance).toNat - shift.distance).toNat = c.toNat := by omega
        rw [hback, hin] at hnot
        cases hnot
      · exact ih hrest

/-- Upper case has no line breaks where the character was none. -/
theorem upperOf_not_mem (hc : c ∉ lineBreaks) : ∀ d ∈ upperOf c, d ∉ lineBreaks := by
  rw [upperOf]
  split
  · next codes hcodes =>
    intro d hd
    obtain ⟨code, hcode, rfl⟩ := List.mem_map.mp hd
    have hall : upperExpansions.all (fun e => e.2.all fun code => decide (Char.ofNat code ∉ lineBreaks)) =
        true := by
      decide +kernel
    obtain ⟨front, back, htable, -⟩ := List.lookup_eq_some_iff.mp hcodes
    have hentry := List.all_eq_true.mp hall (c.toNat, codes) (htable ▸ List.mem_append_right _ List.mem_cons_self)
    have hnot := List.all_eq_true.mp hentry code hcode
    exact of_decide_eq_true hnot
  · refine List.forall_mem_singleton.mpr (not_mem_apply hc ?_)
    have hall : upperShifts.all (fun shift => lineBreaks.all fun b =>
        shift.range.contains (b.toNat - shift.distance).toNat == false) = true := by
      decide +kernel
    exact fun shift hshift b hb => beq_iff_eq.mp (List.all_eq_true.mp (List.all_eq_true.mp hall shift hshift) b hb)

/-- A text of one line stays one in capitals: no character becomes a line break. -/
theorem OneLine.upper (hs : OneLine s) : OneLine (upper s) := by
  refine oneLine_ofList.mpr fun d hd => ?_
  obtain ⟨c, hc, hd⟩ := List.mem_flatMap.mp hd
  exact upperOf_not_mem (hs c hc) d hd

/-! ## Numbers, dates and quoted texts -/

/-- No digit breaks a line. -/
theorem not_mem_of_mem_toDigits {base n : Nat} (h : c ∈ Nat.toDigits base n) : c ∉ lineBreaks := by
  have hdigit (n : Nat) : Nat.digitChar n ∉ lineBreaks := by
    by_cases hn : n < 16
    · exact (by decide : ∀ n < 16, Nat.digitChar n ∉ lineBreaks) n hn
    · rw [Nat.digitChar]
      iterate 16 rw [if_neg (by omega)]
      decide
  have hcore (fuel n : Nat) (ds : List Char) (hds : ∀ d ∈ ds, d ∉ lineBreaks) :
      ∀ d ∈ Nat.toDigitsCore base fuel n ds, d ∉ lineBreaks := by
    induction fuel generalizing n ds with
    | zero => exact hds
    | succ fuel ih =>
      have hcons : ∀ d ∈ Nat.digitChar (n % base) :: ds, d ∉ lineBreaks :=
        List.forall_mem_cons.mpr ⟨hdigit (n % base), hds⟩
      rw [Nat.toDigitsCore]
      split
      · exact hcons
      · exact ih _ _ hcons
  exact hcore _ _ [] (List.forall_mem_nil _) c h

/-- A natural number is shown in one line. -/
theorem oneLine_toString (n : Nat) : OneLine (toString n) :=
  oneLine_ofList.mpr fun _ hc => not_mem_of_mem_toDigits hc

/-- A whole number is shown in one line. -/
theorem oneLine_toString_int (n : Int) : OneLine (toString n) := by
  cases n with
  | ofNat n => exact oneLine_toString n
  | negSucc n => exact OneLine.append (by decide) (oneLine_toString _)

/-- A character in quotes is written without line breaks. -/
theorem quotedChar_not_mem {mark : Char} (hmark : mark ∉ lineBreaks) :
    ∀ d ∈ quotedChar mark c, d ∉ lineBreaks := by
  have hhex (width : Nat) : ∀ d ∈ hexPadded width c.toNat, d ∉ lineBreaks := by
    refine List.forall_mem_append.mpr ⟨fun d hd => ?_, fun d hd => not_mem_of_mem_toDigits hd⟩
    rw [List.eq_of_mem_replicate hd]
    decide
  have hescape (letter : Char) (hletter : letter ∉ lineBreaks) (width : Nat) :
      ∀ d ∈ '\\' :: letter :: hexPadded width c.toNat, d ∉ lineBreaks :=
    List.forall_mem_cons.mpr ⟨by decide, List.forall_mem_cons.mpr ⟨hletter, hhex width⟩⟩
  unfold quotedChar
  split
  · next hsame =>
    refine List.forall_mem_cons.mpr ⟨by decide, List.forall_mem_singleton.mpr ?_⟩
    rcases Bool.or_eq_true_iff.mp hsame with hsame | hsame
    · exact of_decide_eq_true hsame ▸ hmark
    · exact of_decide_eq_true hsame ▸ by decide
  · split
    · exact all_iff_forall_not_mem.mp rfl
    · split
      · exact all_iff_forall_not_mem.mp rfl
      · split
        · exact all_iff_forall_not_mem.mp rfl
        · split
          · next hprintable =>
            exact List.forall_mem_singleton.mpr (not_mem_lineBreaks (by decide +kernel) hprintable)
          · split
            · exact hescape 'x' (by decide) 2
            · split
              · exact hescape 'u' (by decide) 4
              · exact hescape 'U' (by decide) 8

/-- A quoted text is in one line. -/
theorem oneLine_quoted (s : String) : OneLine (quoted s) := by
  have hmark : quoteMark s.toList ∉ lineBreaks := by
    rw [quoteMark]
    split <;> decide
  refine oneLine_ofList.mpr (List.forall_mem_append.mpr ⟨?_, List.forall_mem_singleton.mpr hmark⟩)
  refine List.forall_mem_cons.mpr ⟨hmark, fun d hd => ?_⟩
  obtain ⟨c, -, hd⟩ := List.mem_flatMap.mp hd
  exact quotedChar_not_mem hmark d hd

end Text

open Text

/-- A number in front of which zeros are filled in is in one line. -/
theorem oneLine_zeroPadded (width n : Nat) : OneLine (zeroPadded width n) := by
  refine OneLine.append (oneLine_ofList.mpr fun c hc => ?_) (oneLine_toString n)
  rw [List.eq_of_mem_replicate hc]
  decide

/-- A date is shown in one line. -/
theorem Date.oneLine_text (d : Date) : OneLine d.text :=
  ((((oneLine_zeroPadded _ _).append (by decide)).append (oneLine_zeroPadded _ _)).append (by decide)).append
    (oneLine_zeroPadded _ _)

/-- A time of day is shown in one line. -/
theorem Clock.oneLine_text (c : Clock) : OneLine c.text := by
  refine ((((oneLine_zeroPadded _ _).append (by decide)).append (oneLine_zeroPadded _ _)).append
    (by decide)).append (oneLine_zeroPadded _ _) |>.append ?_
  split
  · exact oneLine_empty
  · exact OneLine.append (by decide) (oneLine_zeroPadded _ _)

/-- A moment is shown in one line. -/
theorem Moment.oneLine_text (m : Moment) : OneLine m.text := by
  cases m with
  | date d => exact d.oneLine_text
  | time c => exact c.oneLine_text
  | dateTime d c offset =>
    refine ((d.oneLine_text.append (by decide)).append c.oneLine_text).append ?_
    cases offset with
    | none => exact oneLine_empty
    | some minutes =>
      refine (OneLine.append (.append ?_ (oneLine_zeroPadded _ _)) (by decide)).append (oneLine_zeroPadded _ _)
      split <;> decide

namespace Decimal

/-- Digits with a point among them or zeros around them. -/
theorem oneLine_layout {digits : List Char} (h : ∀ c ∈ digits, c ∉ lineBreaks) (point : Int) :
    OneLine (layout digits point) := by
  have hzeros (count : Nat) : ∀ c ∈ List.replicate count '0', c ∉ lineBreaks := fun c hc =>
    List.eq_of_mem_replicate hc ▸ by decide
  have htake (count : Nat) : OneLine (String.ofList (digits.take count)) :=
    oneLine_ofList.mpr fun c hc => h c (List.mem_of_mem_take hc)
  have hdrop (count : Nat) : OneLine (String.ofList (digits.drop count)) :=
    oneLine_ofList.mpr fun c hc => h c (List.mem_of_mem_drop hc)
  have hexponent (e : Int) : OneLine (exponentText e) := by
    refine OneLine.append (by split <;> decide) ?_
    split
    · exact OneLine.append (by decide) (oneLine_toString _)
    · exact oneLine_toString _
  unfold layout
  split
  · split
    · exact OneLine.append (by decide) (oneLine_ofList.mpr (List.forall_mem_append.mpr ⟨hzeros _, h⟩))
    · split
      · exact OneLine.append (oneLine_ofList.mpr (List.forall_mem_append.mpr ⟨h, hzeros _⟩)) (by decide)
      · exact ((htake _).append (by decide)).append (hdrop _)
  · refine ((htake 1).append ?_).append (hexponent _)
    split
    · exact oneLine_empty
    · exact OneLine.append (by decide) (hdrop 1)

/-- A double is shown in one line when infinity and the undefined double are. -/
theorem oneLine_text {special : SpecialTexts} (hinfinite : OneLine special.infinite)
    (hundefined : OneLine special.undefined) (x : Float) : OneLine (text special x) := by
  have hsigned {negative : Bool} {body : String} (hbody : OneLine body) :
      OneLine (if negative then "-" ++ body else body) := by
    split
    · exact OneLine.append (by decide) hbody
    · exact hbody
  rw [text]
  cases Binary.ofFloat x with
  | undefined => exact hundefined
  | infinite negative => exact hsigned hinfinite
  | finite negative mantissa exponent boundary =>
    refine hsigned ?_
    split
    · decide
    · refine oneLine_layout (fun c hc => ?_) _
      have hmem := (List.dropWhile_sublist _).subset (List.mem_reverse.mp hc)
      exact not_mem_of_mem_toDigits (List.mem_reverse.mp hmem)

end Decimal

namespace Document

mutual

/-- A value as messages show it is in one line. -/
theorem oneLine_shown : ∀ d : Document, OneLine d.shown
  | null => by rw [shown]; decide
  | bool value => by cases value <;> (rw [shown]; decide)
  | int value => by rw [shown]; exact oneLine_toString_int value
  | float value => by rw [shown]; exact Decimal.oneLine_text (by decide) (by decide) value
  | text value => by rw [shown]; exact oneLine_quoted value
  | moment value => by rw [shown]; exact value.oneLine_text
  | list items => by
    rw [shown]
    exact (OneLine.append (by decide) (oneLine_joinWith (by decide) (oneLine_shownList items))).append (by decide)
  | table entries => by
    rw [shown]
    exact (OneLine.append (by decide) (oneLine_joinWith (by decide) (oneLine_shownTable entries))).append
      (by decide)
  | inlineTable entries => by
    rw [shown]
    exact (OneLine.append (by decide) (oneLine_joinWith (by decide) (oneLine_shownTable entries))).append
      (by decide)

/-- The items of a shown list are in one line each. -/
theorem oneLine_shownList : ∀ items : List Document, ∀ s ∈ shownList items, OneLine s
  | [] => by rw [shownList]; exact List.forall_mem_nil _
  | item :: rest => by
    rw [shownList]
    exact List.forall_mem_cons.mpr ⟨oneLine_shown item, oneLine_shownList rest⟩

/-- The entries of a shown table are in one line each. -/
theorem oneLine_shownTable : ∀ entries : List (String × Document), ∀ s ∈ shownTable entries, OneLine s
  | [] => by rw [shownTable]; exact List.forall_mem_nil _
  | (key, value) :: rest => by
    rw [shownTable]
    exact List.forall_mem_cons.mpr
      ⟨((oneLine_quoted key).append (by decide)).append (oneLine_shown value), oneLine_shownTable rest⟩

end

/-- Inside running text only a text can break the line. -/
theorem oneLine_plain {d : Document} (h : ∀ s, d = text s → OneLine s) : OneLine d.plain := by
  cases d with
  | text s => exact h s rfl
  | _ => exact oneLine_shown _

end Document

/-! ## Texts that quote others -/

namespace Text

/-- A text that is put together from texts in one line and from some quoted ones. -/
inductive Quoting (quoted : List String) : String → Prop
  | plain {s : String} (h : OneLine s) : Quoting quoted s
  | quote {s : String} (h : s ∈ quoted) : Quoting quoted s
  | append {s t : String} (hs : Quoting quoted s) (ht : Quoting quoted t) : Quoting quoted (s ++ t)

/-- Words of its own in a text. -/
theorem Quoting.words {quoted : List String} {cs : List Char}
    (h : cs.all (fun c => 32 ≤ c.toNat && c.toNat < 127) = true) : Quoting quoted (String.ofList cs) :=
  .plain (oneLine_literal h)

/-- A line break in a text stands in one that it quotes. -/
theorem Quoting.exists_mem {quoted : List String} {s : String} (h : Quoting quoted s) {b : Char}
    (hb : b ∈ lineBreaks) (hmem : b ∈ s.toList) :
    ∃ text ∈ quoted, text.toList <:+: s.toList ∧ b ∈ text.toList := by
  induction h with
  | plain h => exact absurd hb (h b hmem)
  | quote h => exact ⟨_, h, List.infix_rfl, hmem⟩
  | append hs ht ihs iht =>
    rw [String.toList_append, List.mem_append] at hmem
    rw [String.toList_append]
    rcases hmem with hmem | hmem
    · obtain ⟨text, htext, hin, hmem⟩ := ihs hmem
      exact ⟨text, htext, hin.trans (List.prefix_append _ _).isInfix, hmem⟩
    · obtain ⟨text, htext, hin, hmem⟩ := iht hmem
      exact ⟨text, htext, hin.trans (List.suffix_append _ _).isInfix, hmem⟩

/-- More texts to quote. -/
theorem Quoting.mono {quoted more : List String} {s : String} (h : Quoting quoted s) (hsubset : quoted ⊆ more) :
    Quoting more s := by
  induction h with
  | plain h => exact .plain h
  | quote h => exact .quote (hsubset h)
  | append hs ht ihs iht => exact .append ihs iht

/-- Quoted texts between separators. -/
theorem quoting_joinWith {quoted : List String} {separator : String} (hseparator : OneLine separator)
    {parts : List String} (h : parts ⊆ quoted) : Quoting quoted (joinWith separator parts) :=
  joinWith_induction (.plain oneLine_empty) .append (.plain hseparator) fun _ hpart => .quote (h hpart)

end Text

end GoIdiom
