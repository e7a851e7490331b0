import GoIdiom.ErrorValue
import GoIdiom.Proofs.Enclosures.Paths
import GoIdiom.Proofs.Lexing.Strings

/-!
# Strings in guards

The guard of an init statement is told by tokens and by what its text begins with, and no string has a part in it.
The guard of a condition is told by a search in its text, where the contents of strings are found like code: it is
the stronger one of the guard of the condition without these contents and of what the contents look like.
-/

namespace GoIdiom

namespace Text

variable {needle : List Char} {q : Char}

/-- In front of a character that it does not have, a run is at the head of a text or not. -/
theorem isPrefixOf_append_of_not_mem (hq : q ∉ needle) (front back : List Char) :
    needle.isPrefixOf (front ++ q :: back) = needle.isPrefixOf front := by
  induction needle generalizing front with
  | nil => rw [List.isPrefixOf_nil_left, List.isPrefixOf_nil_left]
  | cons n needle ih =>
    rw [List.mem_cons, not_or] at hq
    cases front with
    | nil =>
      change (n == q && needle.isPrefixOf back) = false
      rw [beq_eq_false_iff_ne.mpr (Ne.symm hq.1), Bool.false_and]
    | cons c front => rw [List.cons_append, List.isPrefixOf, List.isPrefixOf, ih hq.2]

/-- A run is not found across a character that it does not have. -/
theorem hasRun_append_of_not_mem (hne : needle ≠ []) (hq : q ∉ needle) (front back : List Char) :
    hasRun needle (front ++ q :: back) = (hasRun needle front || hasRun needle back) := by
  have hempty : needle.isEmpty = false := List.isEmpty_eq_false_iff.mpr hne
  induction front with
  | nil =>
    have hhead := isPrefixOf_append_of_not_mem hq [] back
    rw [List.nil_append] at hhead
    rw [List.nil_append, hasRun, hasRun, hempty, hhead, Bool.false_or]
    cases needle with
    | nil => exact absurd rfl hne
    | cons n needle => rfl
  | cons c front ih =>
    have hhead := isPrefixOf_append_of_not_mem hq (c :: front) back
    rw [List.cons_append] at hhead ⊢
    rw [hasRun, hasRun, hhead, ih, Bool.or_assoc]

end Text

namespace Token

variable {t : Token} {ts : List Token} {needle front : List Char} {previous : Option Token}

/-- The token with nothing between the quotes if it is a string. -/
def blanked (t : Token) : Token := if t.kind == .string then { t with text := "\"\"" } else t

/-- If the token is a string it is written between quotes. -/
def IsQuoted (t : Token) : Prop :=
  t.kind = .string → ∃ quote held, (quote = '"' ∨ quote = '\x60') ∧
    t.text.toList = quote :: (held ++ [quote])

/-- The tokens of a source are written so. -/
theorem isQuoted_of_tokenize {source : String} {lexed : Lexed} (h : tokenize source = .ok lexed)
    (ht : t ∈ lexed.tokens) : t.IsQuoted := by
  intro hkind
  obtain ⟨quote, hquote, htext⟩ := quotes_of_tokenize h ht hkind
  exact ⟨quote, _, hquote, htext⟩

/-- A blanked literal is written as the empty string. -/
theorem text_blanked_of_string (h : t.kind = .string) : t.blanked.text = "\"\"" := by
  rw [blanked, if_pos (beq_iff_eq.mpr h)]

/-- Nothing but literals is blanked. -/
theorem blanked_of_ne (h : t.kind ≠ .string) : t.blanked = t := if_neg (fun heq => h (beq_iff_eq.mp heq))

/-- Blanking keeps the kind of a token. -/
@[simp] theorem kind_blanked (t : Token) : t.blanked.kind = t.kind := by
  rw [blanked]
  split <;> rfl

/-- Only the texts of strings are gone. -/
theorem beq_text_blanked (t : Token) {kind : TokenKind} (hkind : kind ≠ .string) (p : String → Bool) :
    (t.blanked.kind == kind && p t.blanked.text) = (t.kind == kind && p t.text) := by
  by_cases h : t.kind = .string
  · have hne : (t.kind == kind) = false := beq_eq_false_iff_ne.mpr (h ▸ hkind.symm)
    rw [kind_blanked, hne, Bool.false_and, Bool.false_and]
  · rw [blanked_of_ne h]

/-- A blanked token is the same operator. -/
@[simp] theorem isOp_blanked (t : Token) (text : String) : t.blanked.isOp text = t.isOp text :=
  beq_text_blanked t (by decide) (· == text)

/-- A blanked token is among the same operators. -/
@[simp] theorem isOpIn_blanked (t : Token) (texts : List String) : t.blanked.isOpIn texts = t.isOpIn texts :=
  beq_text_blanked t (by decide) texts.contains

/-- A blanked token is an identifier exactly when the token is. -/
@[simp] theorem isIdent_blanked (t : Token) :
    t.blanked.isIdent = t.isIdent := by rw [isIdent, isIdent, kind_blanked]

/-- A blanked token is a semicolon exactly when the token is. -/
@[simp] theorem isSemi_blanked (t : Token) : t.blanked.isSemi = t.isSemi := by rw [isSemi, isSemi, kind_blanked]

/-- A blanked token opens a bracket exactly when the token does. -/
@[simp] theorem isOpener_blanked (t : Token) : t.blanked.isOpener = t.isOpener := isOpIn_blanked t _

/-- A blanked token closes a bracket exactly when the token does. -/
@[simp] theorem isCloser_blanked (t : Token) : t.blanked.isCloser = t.isCloser := isOpIn_blanked t _

/-- A blanked token changes the depth of brackets by as much. -/
@[simp] theorem depthStep_blanked (t : Token) : t.blanked.depthStep = t.depthStep := by
  simp only [depthStep, isOpener_blanked, isCloser_blanked]

/-- Blanked tokens need a blank between them exactly when the tokens do. -/
@[simp] theorem needsBlank_blanked (t u : Token) : needsBlank t.blanked u.blanked = needsBlank t u := by
  simp only [needsBlank, isSpaced, isWordLike, isOpIn_blanked, isOp_blanked, isSemi_blanked, kind_blanked]

/-! ## What stands in the text -/

/-- The characters of a run, behind a token. -/
def chars (previous : Option Token) (ts : List Token) : List Char :=
  (renderPieces previous ts).flatMap String.toList

/-- A rendered text, character by character. -/
theorem toList_render (ts : List Token) : (render ts).toList = chars none ts := by
  rw [render, String.toList_join]
  rfl

/-- The characters in front of those of a token's text. -/
def gap (previous : Option Token) (t : Token) : List Char := if previous.any (needsBlank · t) then [' '] else []

/-- The gap before a blanked token is the gap before the token. -/
@[simp] theorem gap_blanked (previous : Option Token) (t : Token) :
    gap (previous.map blanked) t.blanked = gap previous t := by
  cases previous <;> simp [gap]

/-- A semicolon is rendered next to what stands before it. -/
theorem chars_semi (h : t.isSemi = true) : chars previous (t :: ts) = ';' :: chars (some t) ts := by
  rw [chars, renderPieces, if_pos h]
  rfl

/-- A token is rendered behind its gap. -/
theorem chars_cons (h : t.isSemi = false) :
    chars previous (t :: ts) = gap previous t ++ (t.text.toList ++ chars (some t) ts) := by
  rw [chars, renderPieces, if_neg (Bool.eq_false_iff.mp h), gap]
  split <;> rfl

/-- The text of a string in front of others, and the text that it has without its contents. -/
theorem exists_chars_string (h : t.kind = .string) (hquoted : t.IsQuoted) (previous : Option Token) :
    ∃ quote held, (quote = '"' ∨ quote = '\x60') ∧ t.text.toList = quote :: (held ++ [quote]) ∧
      (∀ ts, chars previous (t :: ts) = gap previous t ++ quote :: (held ++ quote :: chars (some t) ts)) ∧
      ∀ ts, chars (previous.map blanked) (t.blanked :: ts) =
        gap previous t ++ '"' :: '"' :: chars (some t.blanked) ts := by
  obtain ⟨quote, held, hquote, htext⟩ := hquoted h
  have hsemi : t.isSemi = false := by rw [isSemi, h]; rfl
  have hblanked : t.blanked.text.toList = ['"', '"'] := by
    rw [text_blanked_of_string h]
    decide
  refine ⟨quote, held, hquote, htext, fun ts => ?_, fun ts => ?_⟩
  · rw [chars_cons hsemi, htext, List.cons_append, List.append_assoc, List.singleton_append]
  · rw [chars_cons ((isSemi_blanked t).trans hsemi), gap_blanked, hblanked]
    rfl

/-- The text of another token in front of others. -/
theorem exists_chars_other (h : t.kind ≠ .string) (previous : Option Token) : ∃ own,
    (∀ ts, chars previous (t :: ts) = own ++ chars (some t) ts) ∧
      ∀ ts, chars (previous.map blanked) (t.blanked :: ts) = own ++ chars (some t.blanked) ts := by
  by_cases hsemi : t.isSemi = true
  · exact ⟨[';'], fun ts => chars_semi hsemi, fun ts => chars_semi ((isSemi_blanked t).trans hsemi)⟩
  · have hsemi' := Bool.eq_false_iff.mpr hsemi
    refine ⟨gap previous t ++ t.text.toList, fun ts => ?_, fun ts => ?_⟩
    · rw [chars_cons hsemi', List.append_assoc]
    · rw [chars_cons ((isSemi_blanked t).trans hsemi'), gap_blanked, blanked_of_ne h, List.append_assoc]

/-- A run without quotes is found in the text of tokens where it is found in the text without the contents of the
strings, or else in one of the strings. -/
theorem hasRun_chars (hne : needle ≠ []) (hdouble : '"' ∉ needle) (hback : '\x60' ∉ needle)
    (hts : ∀ t ∈ ts, t.IsQuoted) (previous : Option Token) (front : List Char) :
    Text.hasRun needle (front ++ chars previous ts) =
      (Text.hasRun needle (front ++ chars (previous.map blanked) (ts.map blanked)) ||
        ts.any fun t => t.kind == .string && Text.hasRun needle t.text.toList) := by
  -- On the tokens: what stands in front of a string and what stands behind it are searched apart.
  induction ts generalizing previous front with
  | nil => rw [List.any_nil, Bool.or_false]; rfl
  | cons t ts ih =>
    obtain ⟨hquoted, hrest⟩ := List.forall_mem_cons.mp hts
    rw [List.map_cons, List.any_cons]
    by_cases h : t.kind = .string
    · obtain ⟨quote, held, hquote, htext, hchars, hblanked⟩ := exists_chars_string h hquoted previous
      have hfree : quote ∉ needle := by
        obtain rfl | rfl := hquote
        · exact hdouble
        · exact hback
      have hnone : Text.hasRun needle [] = false := List.isEmpty_eq_false_iff.mpr hne
      have hempty (back : List Char) : Text.hasRun needle ('"' :: back) = Text.hasRun needle back := by
        have hopen := Text.hasRun_append_of_not_mem hne hdouble [] back
        rwa [hnone, Bool.false_or] at hopen
      have hheld : Text.hasRun needle t.text.toList = Text.hasRun needle held := by
        have hopen := Text.hasRun_append_of_not_mem hne hfree [] (held ++ [quote])
        rw [htext, ← List.nil_append (quote :: _), hopen, Text.hasRun_append_of_not_mem hne hfree, hnone,
          Bool.false_or, Bool.or_false]
      have hbehind := ih hrest (some t) []
      rw [List.nil_append, List.nil_append, Option.map_some] at hbehind
      rw [hchars, hblanked, ← List.append_assoc, Text.hasRun_append_of_not_mem hne hfree,
        Text.hasRun_append_of_not_mem hne hfree, hbehind, ← List.append_assoc,
        Text.hasRun_append_of_not_mem hne hdouble, hempty, hheld, beq_iff_eq.mpr h, Bool.true_and]
      ac_rfl
    · obtain ⟨own, hchars, hblanked⟩ := exists_chars_other h previous
      have hstring : (t.kind == .string) = false := beq_eq_false_iff_ne.mpr h
      rw [hchars, hblanked, ← List.append_assoc, ← List.append_assoc, hstring, Bool.false_and, Bool.false_or]
      exact ih hrest (some t) (front ++ own)

/-- What a text begins with, if there are no quotes in it, is told without the contents of the strings. -/
theorem isPrefixOf_chars (hdouble : '"' ∉ needle) (hback : '\x60' ∉ needle) (hts : ∀ t ∈ ts, t.IsQuoted)
    (previous : Option Token) (front : List Char) :
    needle.isPrefixOf (front ++ chars previous ts) =
      needle.isPrefixOf (front ++ chars (previous.map blanked) (ts.map blanked)) := by
  induction ts generalizing previous front with
  | nil => rfl
  | cons t ts ih =>
    obtain ⟨hquoted, hrest⟩ := List.forall_mem_cons.mp hts
    rw [List.map_cons]
    by_cases h : t.kind = .string
    · obtain ⟨quote, held, hquote, -, hchars, hblanked⟩ := exists_chars_string h hquoted previous
      have hfree : quote ∉ needle := by
        obtain rfl | rfl := hquote
        · exact hdouble
        · exact hback
      rw [hchars, hblanked, ← List.append_assoc, ← List.append_assoc, Text.isPrefixOf_append_of_not_mem hfree,
        Text.isPrefixOf_append_of_not_mem hdouble]
    · obtain ⟨own, hchars, hblanked⟩ := exists_chars_other h previous
      rw [hchars, hblanked, ← List.append_assoc, ← List.append_assoc]
      exact ih hrest (some t) (front ++ own)

/-- Whether the text of tokens is a given one, if there are no quotes in it, is told without the contents of the
strings. -/
theorem chars_eq_iff {text : List Char} (hdouble : '"' ∉ text) (hback : '\x60' ∉ text)
    (hts : ∀ t ∈ ts, t.IsQuoted) (previous : Option Token) (front : List Char) :
    front ++ chars previous ts = text ↔ front ++ chars (previous.map blanked) (ts.map blanked) = text := by
  induction ts generalizing previous front with
  | nil => rfl
  | cons t ts ih =>
    obtain ⟨hquoted, hrest⟩ := List.forall_mem_cons.mp hts
    rw [List.map_cons]
    by_cases h : t.kind = .string
    · obtain ⟨quote, held, hquote, -, hchars, hblanked⟩ := exists_chars_string h hquoted previous
      have hfree : quote ∉ text := by
        obtain rfl | rfl := hquote
        · exact hdouble
        · exact hback
      rw [hchars, hblanked]
      constructor
      · rintro rfl
        exact absurd (by simp) hfree
      · rintro rfl
        exact absurd (by simp) hdouble
    · obtain ⟨own, hchars, hblanked⟩ := exists_chars_other h previous
      rw [hchars, hblanked, ← List.append_assoc, ← List.append_assoc]
      exact ih hrest (some t) (front ++ own)

/-! ## How runs are cut -/

/-- An assignment is found without the contents of the strings. -/
theorem cutAssignmentFrom_blanked (depth : Int) (ts : List Token) :
    cutAssignmentFrom depth (ts.map blanked) =
      (cutAssignmentFrom depth ts).map fun a => ⟨a.left.map blanked, a.op.blanked, a.right.map blanked⟩ := by
  induction ts generalizing depth with
  | nil => rfl
  | cons t rest ih =>
    simp only [List.map_cons, cutAssignmentFrom, isOpIn_blanked, depthStep_blanked, ih]
    split
    · rfl
    · simp only [Option.map_map]
      rfl

/-- What is cut at an assignment is in the run. -/
theorem right_subset_of_cutAssignmentFrom {depth : Int} {a : Assignment} (h : cutAssignmentFrom depth ts = some a) :
    a.right ⊆ ts := by
  induction ts generalizing depth a with
  | nil => cases h
  | cons t rest ih =>
    rw [cutAssignmentFrom] at h
    split at h
    · obtain rfl := Option.some.inj h
      exact List.subset_cons_self t rest
    · obtain ⟨b, hb, rfl⟩ := Option.map_eq_some_iff.mp h
      exact List.subset_cons_of_subset t (ih (a := b) hb)

/-- A group is found without the contents of the strings. -/
theorem splitGroup_blanked {deeper closes : Token → Bool} (hdeeper : ∀ t, deeper (blanked t) = deeper t)
    (hcloses : ∀ t, closes (blanked t) = closes t) (depth : Nat) (ts : List Token) :
    splitGroup deeper closes depth (ts.map blanked) = (splitGroup deeper closes depth ts).map fun g =>
      ⟨g.inner.map blanked, g.closer.blanked, g.rest.map blanked⟩ := by
  induction ts generalizing depth with
  | nil => rfl
  | cons t rest ih =>
    unfold splitGroup
    simp only [List.map_cons, hcloses, hdeeper]
    split
    · cases depth with
      | zero => rfl
      | succ d => simp only [ih, Option.map_map]; rfl
    · simp only [ih, Option.map_map]; rfl

/-- The group at the end of a run is found without the contents of the strings. -/
theorem lastGroup?_blanked (ts : List Token) : lastGroup? (ts.map blanked) =
    (lastGroup? ts).map fun (before, inner) => (before.map blanked, inner.map blanked) := by
  rw [lastGroup?, lastGroup?, ← List.map_reverse]
  cases ts.reverse with
  | nil => rfl
  | cons t reversed =>
    simp only [List.map_cons, splitGroup_blanked isCloser_blanked isOpener_blanked, Option.map_map]
    congr 1
    funext g
    simp only [Function.comp_apply, List.map_reverse]

end Token

open Token

/-- Whether a run is a type assertion is told without the contents of the strings. -/
theorem Call.isTypeAssertion_blanked (ts : List Token) : isTypeAssertion (ts.map blanked) = isTypeAssertion ts := by
  simp only [isTypeAssertion, List.getLast?_map, Option.any_map, lastGroup?_blanked, isOp_blanked]

namespace Cancellation

/-- An operand is found without the contents of the strings. -/
theorem operandFrom_blanked (depth : Nat) (ts : List Token) :
    operandFrom depth (ts.map blanked) = (operandFrom depth ts).map blanked := by
  induction ts generalizing depth with
  | nil => rfl
  | cons t rest ih =>
    unfold operandFrom
    simp only [List.map_cons, isOpIn_blanked, isIdent_blanked, isOp_blanked, ih]
    split
    · rfl
    · split
      · split <;> rfl
      · rfl

/-- An operand is in the run that it is at the head of. -/
theorem operandFrom_subset (depth : Nat) (ts : List Token) : operandFrom depth ts ⊆ ts := by
  induction ts generalizing depth with
  | nil => exact List.Subset.refl _
  | cons t rest ih =>
    unfold operandFrom
    split
    · exact List.cons_subset_cons t (ih _)
    · split
      · split
        · exact List.cons_subset_cons t (ih _)
        · exact List.nil_subset _
      · exact List.cons_subset_cons t (ih _)

/-- No string is an operand by itself. -/
theorem kind_of_operand_eq_singleton {ts : List Token} {t : Token} (h : operand ts = [t]) : t.kind ≠ .string := by
  intro hkind
  have hop (texts : List String) : t.isOpIn texts = false := by rw [isOpIn, hkind]; rfl
  have hident : t.isIdent = false := by rw [isIdent, hkind]; rfl
  have hpoint : t.isOp "." = false := by rw [isOp, hkind]; rfl
  cases ts with
  | nil => cases h
  | cons u rest =>
    unfold operand operandFrom at h
    split at h
    · next hopen =>
      obtain ⟨rfl, -⟩ := List.cons.inj h
      rw [hop] at hopen
      cases hopen
    · dsimp only at h
      split at h
      · next hname =>
        obtain ⟨rfl, -⟩ := List.cons.inj h
        rw [hident, hpoint] at hname
        cases hname
      · cases h

end Cancellation

/-! ## Guards -/

namespace Comparison

variable {before ts : List Token} {t : Token}

/-- A string is not the name of no value. -/
theorem text_ne_nil_blanked (h : t.IsQuoted) : (t.blanked.text != "nil") = (t.text != "nil") := by
  by_cases hkind : t.kind = .string
  · obtain ⟨quote, held, hquote, htext⟩ := h hkind
    have hne : t.text ≠ "nil" := by
      intro heq
      rw [heq] at htext
      obtain rfl | rfl := hquote
      · exact absurd (List.cons.inj htext).1 (by decide)
      · exact absurd (List.cons.inj htext).1 (by decide)
    rw [text_blanked_of_string hkind, bne_iff_ne.mpr hne]
    decide
  · rw [blanked_of_ne hkind]

/-- Comparisons that differ in the contents of strings tell the same about an error. -/
theorem guard_congr {c c' : Comparison} (hleft : c'.left = c.left.blanked) (hright : c'.right = c.right.map blanked)
    (hquoted : c.left.IsQuoted) (hoperand : ∀ u ∈ c.right, u.IsQuoted)
    (hsingle : ∀ t, c.right = [t] → t.kind ≠ .string) : c'.guard = c.guard := by
  have hleftIsError : c'.leftIsError = c.leftIsError := by
    rw [leftIsError, leftIsError, hleft]
    exact beq_text_blanked c.left (by decide) Name.isError
  have hrightIsError : c'.rightIsError = c.rightIsError := by
    rw [rightIsError, rightIsError, hright]
    match hmatch : c.right with
    | [] => rfl
    | [t] => rw [List.map_singleton, blanked_of_ne (hsingle t hmatch)]
    | t :: u :: rest => rfl
  have htext (text : String) (hdouble : '"' ∉ text.toList) (hback : '\x60' ∉ text.toList) :
      (c'.rightText == text) = (c.rightText == text) := by
    have hiff := chars_eq_iff hdouble hback hoperand none []
    rw [List.nil_append, List.nil_append, Option.map_none, ← toList_render, ← toList_render, String.toList_inj,
      String.toList_inj] at hiff
    rw [rightText, rightText, hright, Bool.eq_iff_iff, beq_iff_eq, beq_iff_eq]
    exact hiff.symm
  have hnil := htext "nil" (by decide) (by decide)
  have hempty : (c'.rightText != "") = (c.rightText != "") := congrArg (!·) (htext "" (by decide) (by decide))
  have hleftText : (c'.left.text != "nil") = (c.left.text != "nil") := by rw [hleft, text_ne_nil_blanked hquoted]
  rw [guard, guard, hleftIsError, hrightIsError, hnil, hempty, hleftText]

/-- What a comparison with an operand tells about an error does not depend on the contents of strings. -/
theorem guard_blanked (hbefore : ∀ u ∈ before, u.IsQuoted) (hts : ∀ u ∈ ts, u.IsQuoted) (op op' : Token) :
    guard ⟨before.map blanked, op', Cancellation.operand (ts.map blanked)⟩ =
      guard ⟨before, op, Cancellation.operand ts⟩ := by
  apply guard_congr
  · cases before <;> rfl
  · exact Cancellation.operandFrom_blanked 0 ts
  · cases before with
    | nil => exact fun h => nomatch h
    | cons u rest => exact hbefore u List.mem_cons_self
  · exact fun u hu => hts u (Cancellation.operandFrom_subset 0 ts hu)
  · exact fun t => Cancellation.kind_of_operand_eq_singleton

/-- The comparisons in a run tell the same without the contents of its strings. -/
theorem map_guard_listFrom_blanked (hbefore : ∀ u ∈ before, u.IsQuoted) (hts : ∀ u ∈ ts, u.IsQuoted) :
    (listFrom (before.map blanked) (ts.map blanked)).map guard = (listFrom before ts).map guard := by
  induction ts generalizing before with
  | nil => rfl
  | cons t rest ih =>
    obtain ⟨ht, hrest⟩ := List.forall_mem_cons.mp hts
    have hmore := ih (List.forall_mem_cons.mpr ⟨ht, hbefore⟩) hrest
    rw [List.map_cons] at hmore
    rw [List.map_cons, listFrom, listFrom, isOpIn_blanked, List.isEmpty_map]
    split
    · rw [List.map_cons, List.map_cons, hmore, guard_blanked hbefore hrest t]
    · exact hmore

end Comparison

namespace Guard

variable {a b ts : List Token}

/-- What a text is taken to test, wherever it stands in a condition. -/
def ofText (text : String) : Option Guard :=
  if Text.contains text "errors.Is(" then some sentinel
  else if Text.contains text "errors.As(" || Text.contains text ".(" then some typeAssert
  else none

/-- What the strings of a run look like. -/
def ofLiterals (ts : List Token) : Option Guard :=
  strongest ((ts.filter (·.kind == .string)).map fun t => ofText t.text)

/-- What the comparisons of a run tell about an error. -/
def ofComparisons (ts : List Token) : Option Guard := strongest ((Comparison.list ts).map Comparison.guard)

/-- A sign for a sentinel is decisive, and one for a type is next. -/
def ofSigns (isSentinel isType : Bool) : Option Guard :=
  if isSentinel then some sentinel else if isType then some typeAssert else none

/-- Signs that are found in two places. -/
theorem ofSigns_or (s t s' t' : Bool) : ofSigns (s || s') (t || t') = stronger (ofSigns s t) (ofSigns s' t') := by
  cases s <;> cases t <;> cases s' <;> cases t' <;> rfl

/-- The guard of a condition is told by two signs in its text. -/
theorem ofText_eq (text : String) : ofText text =
    ofSigns (Text.contains text "errors.Is(") (Text.contains text "errors.As(" || Text.contains text ".(") := rfl

/-- No comparison tells the type of an error. -/
theorem ofComparisons_ne_typeAssert (ts : List Token) : ofComparisons ts ≠ some typeAssert := by
  intro h
  have hmem := (isStrongest_strongest ((Comparison.list ts).map Comparison.guard)).mem
  rw [← ofComparisons, h] at hmem
  obtain ⟨c, -, hc⟩ := List.mem_map.mp (hmem.resolve_left (by decide))
  rw [Comparison.guard] at hc
  split at hc
  · cases hc
  · split at hc <;> cases hc

/-- The guard of a condition is the stronger one of what its comparisons and its text tell. -/
theorem ofCondition_eq (ts : List Token) :
    ofCondition ts = stronger (ofComparisons ts) (ofText (Token.render ts)) := by
  have hcompared : (Comparison.list ts).foldl (fun g c => stronger g c.guard) none = ofComparisons ts := by
    rw [ofComparisons, strongest, List.foldl_map]
  have hne := ofComparisons_ne_typeAssert ts
  rw [ofCondition, hcompared, ofText_eq]
  generalize ofComparisons ts = compared at hne
  generalize Text.contains (Token.render ts) "errors.Is(" = s
  generalize (Text.contains (Token.render ts) "errors.As(" || Text.contains (Token.render ts) ".(") = t
  cases compared with
  | none => cases s <;> cases t <;> rfl
  | some guard =>
    cases guard with
    | typeAssert => exact absurd rfl hne
    | _ => cases s <;> cases t <;> rfl

/-- What strings look like is what stands in one of them. -/
theorem ofLiterals_eq (ts : List Token) : ofLiterals ts =
    ofSigns (ts.any fun t => t.kind == .string && Text.contains t.text "errors.Is(")
      ((ts.any fun t => t.kind == .string && Text.contains t.text "errors.As(") ||
        ts.any fun t => t.kind == .string && Text.contains t.text ".(") := by
  induction ts with
  | nil => rfl
  | cons t rest ih =>
    have hcons :
        ofLiterals (t :: rest) = stronger (if t.kind == .string then ofText t.text else none)
          (ofLiterals rest) := by
      rw [ofLiterals, List.filter_cons]
      split
      · rw [List.map_cons, strongest_cons, foldl_stronger]
        rfl
      · rw [stronger_none]
        rfl
    rw [hcons, ih, List.any_cons, List.any_cons, List.any_cons]
    cases t.kind == .string with
    | false => simp only [Bool.false_and, Bool.false_or, Bool.false_eq_true, if_false, stronger_none]
    | true =>
      rw [if_pos rfl, ofText_eq, ← ofSigns_or]
      simp only [Bool.true_and]
      congr 1
      ac_rfl

/-- The text of a run tells what it tells without the contents of its strings, or what these look like. -/
theorem ofText_render (hts : ∀ t ∈ ts, t.IsQuoted) :
    ofText (Token.render ts) = stronger (ofText (Token.render (ts.map blanked))) (ofLiterals ts) := by
  have hfound (needle : String) (hne : needle.toList ≠ []) (hdouble : '"' ∉ needle.toList)
      (hback : '\x60' ∉ needle.toList) : Text.contains (Token.render ts) needle =
        (Text.contains (Token.render (ts.map blanked)) needle ||
          ts.any fun t => t.kind == .string && Text.contains t.text needle) := by
    rw [Text.contains, Text.contains, toList_render, toList_render]
    exact hasRun_chars hne hdouble hback hts none []
  rw [ofText_eq, ofText_eq, ofLiterals_eq, ← ofSigns_or, hfound "errors.Is(" (by decide) (by decide) (by decide),
    hfound "errors.As(" (by decide) (by decide) (by decide), hfound ".(" (by decide) (by decide) (by decide)]
  congr 1
  ac_rfl

/-- The guard of a condition is the stronger one of its guard without the contents of the strings and of what these
look like. -/
theorem ofCondition_blanked (hts : ∀ t ∈ ts, t.IsQuoted) :
    ofCondition ts = stronger (ofCondition (ts.map blanked)) (ofLiterals ts) := by
  have hcompared : ofComparisons (ts.map blanked) = ofComparisons ts :=
    congrArg strongest (Comparison.map_guard_listFrom_blanked (List.forall_mem_nil _) hts)
  rw [ofCondition_eq, ofCondition_eq, hcompared, ofText_render hts, stronger_assoc]

/-- The guard of an init statement does not depend on the contents of the strings. -/
theorem ofInit_blanked (hts : ∀ t ∈ ts, t.IsQuoted) : ofInit (ts.map blanked) = ofInit ts := by
  rw [ofInit, ofInit, cutAssignment, cutAssignment, cutAssignmentFrom_blanked]
  cases hcut : cutAssignmentFrom 0 ts with
  | none => rfl
  | some a =>
    have hright : ∀ t ∈ a.right, t.IsQuoted := fun t ht => hts t (right_subset_of_cutAssignmentFrom hcut ht)
    have hbegins (needle : String) (hdouble : '"' ∉ needle.toList) (hback : '\x60' ∉ needle.toList) :
        Text.startsWith (Token.render (a.right.map blanked)) needle =
          Text.startsWith (Token.render a.right) needle := by
      rw [Text.startsWith, Text.startsWith, toList_render, toList_render]
      exact (isPrefixOf_chars hdouble hback hright none []).symm
    have hhead : ((a.right.map blanked).head?.any fun t => t.isIdent && Name.isError t.text) =
        a.right.head?.any fun t => t.isIdent && Name.isError t.text := by
      rw [List.head?_map, Option.any_map]
      congr 1
      funext t
      exact beq_text_blanked t (by decide) Name.isError
    simp only [Option.map_some, hbegins "errors.Is(" (by decide) (by decide),
      hbegins "errors.As(" (by decide) (by decide), Call.isTypeAssertion_blanked, hhead]

/-- Runs that differ in the contents of strings only, as init statements, establish the same guard. As conditions
they do exactly when the contents of their strings, which are searched like code, make no difference to it. -/
theorem guards_of_blanked (ha : ∀ t ∈ a, t.IsQuoted) (hb : ∀ t ∈ b, t.IsQuoted)
    (h : a.map blanked = b.map blanked) :
    ofInit a = ofInit b ∧
      (ofCondition a = ofCondition b ↔
        stronger (ofCondition (a.map blanked)) (ofLiterals a) =
          stronger (ofCondition (a.map blanked)) (ofLiterals b)) := by
  constructor
  · rw [← ofInit_blanked ha, ← ofInit_blanked hb, h]
  · rw [ofCondition_blanked ha, ofCondition_blanked hb, h]

/-- The name of a field in a string beside a comparison. -/
theorem guards_of_blanked_fieldName :
    let condition (text : String) : List Token :=
      [⟨.ident, "err", ⟨1, 4⟩⟩, ⟨.op, "!=", ⟨1, 8⟩⟩, ⟨.ident, "nil", ⟨1, 11⟩⟩,
      ⟨.op, "&&", ⟨1, 15⟩⟩, ⟨.ident, "name", ⟨1, 18⟩⟩, ⟨.op, "!=", ⟨1, 23⟩⟩,
      ⟨.string, text, ⟨1, 26⟩⟩]
    let a := condition "\"size\""
    let b := condition "\x60nil\x60"
    (∀ t ∈ a, t.IsQuoted) ∧ (∀ t ∈ b, t.IsQuoted) ∧ a.map blanked = b.map blanked ∧
      ofCondition a = some nilCheck ∧ ofCondition a = ofCondition b ∧ ofInit a = ofInit b := by
  intro condition a b
  have hother {t : Token} (h : t.kind ≠ .string) : t.IsQuoted := fun hkind => absurd hkind h
  have hquoted {text : String} {quote : Char} {held : List Char} (hquote : quote = '"' ∨ quote = '\x60')
      (htext : text.toList = quote :: (held ++ [quote])) : ∀ t ∈ condition text, t.IsQuoted := by
    simp only [condition, List.forall_mem_cons]
    exact ⟨hother (by decide), hother (by decide), hother (by decide), hother (by decide), hother (by decide),
      hother (by decide), fun _ => ⟨quote, held, hquote, htext⟩, List.forall_mem_nil _⟩
  have ha : ∀ t ∈ a, t.IsQuoted := hquoted (.inl rfl) (rfl : _ = '"' :: (['s', 'i', 'z', 'e'] ++ ['"']))
  have hb : ∀ t ∈ b, t.IsQuoted := hquoted (.inr rfl) (rfl : _ = '\x60' :: (['n', 'i', 'l'] ++ ['\x60']))
  have hblanked : a.map blanked = b.map blanked := by decide
  obtain ⟨hinit, hcondition⟩ := guards_of_blanked ha hb hblanked
  exact ⟨ha, hb, hblanked, by decide, hcondition.mpr (by decide), hinit⟩

/-- A string that looks like a call is taken for one. -/
theorem ofCondition_literalCall :
    let condition (text : String) : List Token :=
      [⟨.ident, "msg", ⟨1, 4⟩⟩, ⟨.op, "==", ⟨1, 8⟩⟩, ⟨.string, text, ⟨1, 11⟩⟩]
    (condition "\"errors.Is(\"").map blanked = (condition "\"errors.is(\"").map blanked ∧
      ofCondition (condition "\"errors.Is(\"") = some sentinel ∧
      ofCondition (condition "\"errors.is(\"") = none := by
  decide

end Guard

end GoIdiom
