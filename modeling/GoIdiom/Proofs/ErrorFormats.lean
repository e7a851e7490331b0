import GoIdiom.Proofs.Assignments.Parts
import GoIdiom.Proofs.Enclosures.Returns
import GoIdiom.Proofs.FormatVerbs
import GoIdiom.Proofs.Lexing.Strings

/-!
# Two readings of one format

An error that a function returns as a call of `fmt.Errorf` is read twice: as a returned value, which wraps an error
when the characters `%w` stand in its format, and as a call that makes an error, which wraps one when its format has
a verb `w`. The readings agree on formats in which no verb `w` has modifiers and no `w` follows a percent sign that
stands for itself. A modified verb `w` is overlooked by the first reading, and an escaped percent sign misleads it.
-/

namespace GoIdiom

open Token

/-! ## Calls at the end of a run -/

namespace Token

variable {ts : List Token}

/-- Counting depth from behind passes over a well bracketed run. -/
theorem Balanced.splitGroup_reverse (h : Balanced ts) (depth : Nat) (us : List Token) :
    splitGroup isCloser isOpener depth (ts.reverse ++ us) =
      (splitGroup isCloser isOpener depth us).map fun g => { g with inner := ts.reverse ++ g.inner } := by
  induction h generalizing depth us with
  | nil =>
    rw [List.reverse_nil, List.nil_append]
    cases splitGroup isCloser isOpener depth us <;> rfl
  | @plain t ts ht _ ih =>
    obtain ⟨hopen, hclose⟩ := isPlain_iff.mp ht
    rw [List.reverse_cons, List.append_assoc, ih, List.singleton_append, splitGroup_of_not_closes hopen, hclose,
      if_neg Bool.false_ne_true, Option.map_map]
    cases splitGroup isCloser isOpener depth us with
    | none => rfl
    | some g => simp only [Option.map_some, Function.comp_apply, List.append_assoc, List.singleton_append]
  | @group opener closer inner ts h _ _ ihinner ih =>
    have hall : (opener :: (inner ++ closer :: ts)).reverse ++ us =
        ts.reverse ++ (closer :: (inner.reverse ++ opener :: us)) := by simp
    rw [hall, ih, splitGroup_of_not_closes h.isOpener_closer, if_pos h.2.1, ihinner, splitGroup_succ h.1]
    cases splitGroup isCloser isOpener depth us with
    | none => rfl
    | some g => simp

/-- The group that ends a run is cut off. -/
theorem lastGroup?_append {opener closer : Token} {inner : List Token} (h : Closes opener closer)
    (hinner : Balanced inner) (front : List Token) :
    lastGroup? (front ++ opener :: (inner ++ [closer])) = some (front, inner) := by
  have hreverse : (front ++ opener :: (inner ++ [closer])).reverse =
      closer :: (inner.reverse ++ opener :: front.reverse) := by simp
  rw [lastGroup?, hreverse]
  dsimp only
  rw [hinner.splitGroup_reverse, splitGroup_zero h.1]
  simp

/-- A part between separators is preceded by nothing or by a separator. -/
theorem exists_of_mem_splitTopFrom {separates : Token → Bool} {depth : Int} {part ts : List Token}
    (h : part ∈ splitTopFrom separates depth ts) :
    ∃ front back, ts = front ++ (part ++ back) ∧ ∀ t ∈ front.getLast?, separates t = true := by
  rcases splitTopFrom_cases separates depth ts with hwhole | ⟨first, t, rest, hts, ht, hparts⟩
  · obtain rfl := List.mem_singleton.mp (hwhole ▸ h)
    exact ⟨[], [], (List.append_nil _).symm, nofun⟩
  · rcases List.mem_cons.mp (hparts ▸ h) with rfl | h
    · exact ⟨[], t :: rest, hts, nofun⟩
    · have hrest : rest.length < ts.length := by
        rw [hts, List.length_append, List.length_cons]
        omega
      obtain ⟨front, back, rfl, hfront⟩ := exists_of_mem_splitTopFrom h
      refine ⟨first ++ t :: front, back, by rw [hts, List.append_assoc, List.cons_append], fun u hu => ?_⟩
      rw [List.getLast?_append_cons, List.getLast?_cons] at hu
      rcases front.eq_nil_or_concat with rfl | ⟨others, last, rfl⟩
      · exact Option.some.inj hu ▸ ht
      · exact hfront u (by simpa using hu)
termination_by ts.length

end Token

namespace Call

/-- The call of a parenthesis is listed. -/
theorem mem_listFrom {before front : List Token} {opener closer name : Token} {inner rest : List Token}
    (hopener : opener.isOp "(" = true) (hcloses : Closes opener closer) (hinner : Balanced inner)
    (hbefore : front.reverse ++ before = name :: rest) (hname : name.isIdent = true) (back : List Token) :
    (⟨(chainBack (name :: rest)).1, commaItems inner,
      (chainBack (name :: rest)).1 ++ opener :: (inner ++ [closer]),
      (chainBack (name :: rest)).2.isEmpty && back.isEmpty⟩ : Call) ∈
        listFrom before (front ++ opener :: (inner ++ closer :: back)) := by
  induction front generalizing before with
  | nil =>
    rw [List.reverse_nil, List.nil_append] at hbefore
    rw [List.nil_append, listFrom, hbefore, List.head?_cons, Option.any_some, hopener, hname,
      Bool.and_self, if_pos rfl, hinner.closeGroup_append hcloses.2.1]
    exact List.mem_append_left _ List.mem_cons_self
  | cons t more ih =>
    rw [List.cons_append, listFrom]
    refine List.mem_append_right _ (ih ?_)
    rw [← hbefore, List.reverse_cons, List.append_assoc, List.singleton_append]

/-- A chain of two names ends behind what is no point. -/
theorem chainBack_pair {package dot name : Token} {before : List Token} (hdot : dot.isOp "." = true)
    (hpackage : package.isIdent = true) (hbefore : ∀ t ∈ before.head?, t.isOp "." = false) :
    (chainBack (name :: dot :: package :: before)).1 = [package, dot, name] := by
  have hone : (chainBack (package :: before)).1 = [package] := by
    match before with
    | [] => rfl
    | [t] => rfl
    | t :: u :: more => rw [chainBack, hbefore t rfl, Bool.false_and, if_neg Bool.false_ne_true]
  rw [chainBack, hdot, hpackage, Bool.and_self, if_pos rfl]
  dsimp only
  rw [hone]
  rfl

end Call

/-! ## Calls of `fmt.Errorf` -/

/-- The tokens of a call of `fmt.Errorf` with one string for its format: a comma follows the string, or nothing. -/
inductive CallsErrorf (package format : Token) : List Token → Prop
  | mk {dot name opener closer : Token} {more : List Token} (hpackage : package.isIdent = true)
      (hfmt : package.text = "fmt") (hdot : dot.isOp "." = true) (hname : name.isIdent = true)
      (herrorf : name.text = "Errorf") (hopener : opener.isOp "(" = true) (hcloses : Closes opener closer)
      (hformat : format.kind = .string) (hmore : Balanced more) (halone : ∀ t ∈ more.head?, t.isOp "," = true) :
      CallsErrorf package format (package :: dot :: name :: opener :: (format :: more ++ [closer]))

/-- An operator is its kind and text. -/
theorem Token.eq_of_isOp {t : Token} {text : String} (h : t.isOp text = true) : t = ⟨.op, text, t.pos⟩ := by
  obtain ⟨kind, u, pos⟩ := t
  obtain ⟨hkind, htext⟩ := Bool.and_eq_true_iff.mp h
  obtain rfl : kind = .op := beq_iff_eq.mp hkind
  obtain rfl : u = text := beq_iff_eq.mp htext
  rfl

/-- What tells another kind than that of a simple statement is a keyword. -/
theorem Token.kind_of_plainKind {t : Token} (h : Statement.plainKind t ≠ .simple) : t.kind = .keyword := by
  by_contra hkind
  exact h (if_pos (bne_iff_ne.mpr hkind))

/-- An identifier is given by its text and its place. -/
theorem Token.eq_of_isIdent {t : Token} (h : t.isIdent = true) : t = ⟨.ident, t.text, t.pos⟩ := by
  obtain ⟨kind, u, pos⟩ := t
  obtain rfl : kind = .ident := beq_iff_eq.mp h
  rfl

/-- What closes a parenthesis. -/
theorem Token.Closes.isOp_paren {opener closer : Token} (h : Closes opener closer)
    (hopener : opener.isOp "(" = true) : closer.isOp ")" = true := by
  obtain ⟨-, hcloser, hsame⟩ := h
  rw [beq_iff_eq.mp (Bool.and_eq_true_iff.mp hopener).2] at hsame
  rw [isOp, (Bool.and_eq_true_iff.mp hcloser).1, ← hsame]
  rfl

/-- Tokens are rendered from the first one on. -/
theorem Token.exists_render_cons {t : Token} (hsemi : t.isSemi = false) (rest : List Token) :
    ∃ s, render (t :: rest) = t.text ++ s := by
  rw [render, renderPieces, hsemi, if_neg Bool.false_ne_true, Option.any_none, if_neg Bool.false_ne_true]
  exact ⟨String.join (renderPieces (some t) rest), by simp⟩

namespace CallsErrorf

variable {package format : Token} {value : List Token}

/-- The format is a string inside the call, which begins with the package. -/
theorem format_mem (h : CallsErrorf package format value) :
    format.kind = .string ∧ ∃ rest, value = package :: rest ∧ format ∈ rest := by
  obtain @⟨dot, name, opener, closer, more, -, -, -, -, -, -, -, hformat, -, -⟩ := h
  exact ⟨hformat, _, rfl, by simp⟩

/-- The callee of a formatted error is rendered as `fmt.Errorf`. -/
theorem render_errorf {dot name : Token} (hpackage : package.isIdent = true) (hfmt : package.text = "fmt")
    (hdot : dot.isOp "." = true) (hname : name.isIdent = true) (herrorf : name.text = "Errorf") :
    render [package, dot, name] = "fmt.Errorf" := by
  rw [eq_of_isIdent hpackage, eq_of_isOp hdot, eq_of_isIdent hname, hfmt, herrorf]
  rfl

/-- A call is not `nil`. -/
theorem render_ne_nil (h : CallsErrorf package format value) : render value ≠ "nil" := by
  obtain @⟨dot, name, opener, closer, more, hpackage, hfmt, -⟩ := h
  have hsemi : package.isSemi = false := by rw [isSemi, beq_iff_eq.mp hpackage]; rfl
  obtain ⟨s, hs⟩ := exists_render_cons hsemi (dot :: name :: opener :: (format :: more ++ [closer]))
  intro hnil
  have hchars := congrArg String.toList (hs.symm.trans hnil)
  rw [hfmt, String.toList_append] at hchars
  cases hchars

/-- The value is the whole call. -/
theorem whole?_eq (h : CallsErrorf package format value) :
    ∃ callee more, Call.whole? value = some (callee, format :: more) ∧ render callee = "fmt.Errorf" ∧
      Call.isTypeAssertion value = false := by
  obtain @⟨dot, name, opener, closer, more, hpackage, hfmt, hdot, hname, herrorf, hopener, hcloses,
    hformat, hmore, -⟩ := h
  have hinner : Balanced (format :: more) := .plain (isPlain_of_kind (by rw [hformat]; decide)) hmore
  have hgroup := lastGroup?_append hcloses hinner [package, dot, name]
  rw [List.cons_append, List.cons_append, List.cons_append, List.nil_append] at hgroup
  have hlast : (package :: dot :: name :: opener :: (format :: more ++ [closer])).getLast? = some closer := by
    rw [← List.cons_append, ← List.cons_append, ← List.cons_append, ← List.cons_append,
      List.getLast?_concat]
  refine ⟨[package, dot, name], more, ?_, render_errorf hpackage hfmt hdot hname herrorf, ?_⟩
  · rw [Call.whole?, hlast, Option.any_some, hcloses.isOp_paren hopener, if_pos rfl, hgroup]
    simp [hname]
  · have hpoint : name.isOp "." = false := by rw [eq_of_isIdent hname]; rfl
    rw [Call.isTypeAssertion, hgroup]
    simp [hpoint]

/-- Names and points do not alternate in a call. -/
theorem isNameNext_eq (h : CallsErrorf package format value) : Handling.isNameNext value = false := by
  obtain @⟨dot, name, opener, closer, more, -, -, -, -, -, hopener, -⟩ := h
  have hpoint : opener.isOp "." = false := by rw [eq_of_isOp hopener]; rfl
  simp only [Handling.isNameNext, Handling.isPointNext, hpoint, Bool.false_and, Bool.and_false]

/-- The returned value wraps an error when its format shows `%w`. -/
theorem ofExpression_eq (h : CallsErrorf package format value) (known : String → Bool) :
    Handling.ofExpression known value = if Text.contains format.text "%w" then .wrapped else .constructed := by
  obtain ⟨callee, more, hwhole, hrender, hassertion⟩ := h.whole?_eq
  obtain ⟨hformat, rest, hvalue, hmem⟩ := h.format_mem
  obtain ⟨second, others, rfl⟩ := List.exists_cons_of_ne_nil (List.ne_nil_of_mem hmem)
  have hchain := h.isNameNext_eq
  have hnil := beq_eq_false_iff_ne.mpr h.render_ne_nil
  rw [hvalue] at hchain hnil hassertion hwhole ⊢
  rw [Handling.ofExpression, hnil, hchain, hassertion, hwhole]
  simp [Handling.ofCall, hrender, Handling.wrappingCalls, hformat]

/-- The first argument is the format. -/
theorem commaItems_eq {more : List Token} (hformat : format.kind = .string)
    (halone : ∀ t ∈ more.head?, t.isOp "," = true) :
    ∃ others, commaItems (format :: more) = [format] :: others := by
  have hplain : format.isPlain = true := isPlain_of_kind (by rw [hformat]; decide)
  have hcomma : format.isOp "," = false := by rw [isOp, hformat]; rfl
  have hfirst := (Free.plain (p := (·.isOp ",")) hplain hcomma .nil).splitTopFrom_append more
  rw [List.singleton_append] at hfirst
  rw [commaItems, splitCommas, hfirst]
  cases more with
  | nil => exact ⟨[], rfl⟩
  | cons comma rest =>
    rw [splitTopFrom, halone comma rfl, decide_eq_true rfl, Bool.and_self, if_pos rfl]
    exact ⟨_, rfl⟩

/-- The call is among those of a run that it stands in, unless it is selected from something. -/
theorem exists_call (h : CallsErrorf package format value) {before : List Token}
    (hbefore : ∀ t ∈ before.getLast?, t.isOp "." = false) (back : List Token) :
    ∃ call ∈ Call.list (before ++ (value ++ back)), call.name = "fmt.Errorf" ∧ call.first = package ∧
      ∃ others, call.arguments = [format] :: others := by
  obtain @⟨dot, name, opener, closer, more, hpackage, hfmt, hdot, hname, herrorf, hopener, hcloses,
    hformat, hmore, halone⟩ := h
  have hinner : Balanced (format :: more) := .plain (isPlain_of_kind (by rw [hformat]; decide)) hmore
  have hchain : (Call.chainBack (name :: dot :: package :: before.reverse)).1 = [package, dot, name] :=
    Call.chainBack_pair hdot hpackage (by rwa [List.head?_reverse])
  have hbehind : (before ++ [package, dot, name]).reverse ++ [] =
      name :: dot :: package :: before.reverse := by simp
  have hmem := Call.mem_listFrom hopener hcloses hinner hbehind hname back
  have hall : before ++ [package, dot, name] ++ opener :: (format :: more ++ closer :: back) =
      before ++ (package :: dot :: name :: opener :: (format :: more ++ [closer]) ++ back) := by simp
  rw [hall] at hmem
  refine ⟨_, hmem, ?_, ?_, commaItems_eq hformat halone⟩
  · rw [Call.name, hchain, render_errorf hpackage hfmt hdot hname herrorf]
  · rw [Call.first, hchain]
    rfl

end CallsErrorf

namespace Expression

/-- A call of `fmt.Errorf` makes an error. -/
theorem special_errorf (ctx : Context) {call : Call} (hname : call.name = "fmt.Errorf") :
    special ctx call = .ok (some (.errorConstruct (errorOf call ctx.function))) := by
  have hother : (call.name == "make") = false := by rw [hname]; rfl
  have hlisted : constructingCalls.contains call.name = true := by rw [hname]; decide
  unfold special
  rw [if_pos hlisted]
  cases call.arguments with
  | nil => rfl
  | cons type sizes =>
    dsimp only
    rw [hother, Bool.false_and, if_neg Bool.false_ne_true]
    rfl

/-- The error that is made wraps another one when the verbs of the format tell so. -/
theorem wraps_errorOf {call : Call} {format : Token} {others : List (List Token)} (hformat : format.kind = .string)
    (harguments : call.arguments = [format] :: others) (function : String) :
    (errorOf call function).wraps = (FormatVerb.list (Text.inner format.text)).contains "w" := by
  simp [ErrorConstructInfo.wraps, errorOf, harguments, hformat]

end Expression

/-! ## The readings of a format -/

namespace FormatVerb

/-- The first reading sees the format with its quotes. -/
theorem contains_iff {source : String} {lexed : Lexed} (hlexed : tokenize source = .ok lexed) {format : Token}
    (hmem : format ∈ lexed.tokens) (hformat : format.kind = .string) :
    Text.contains format.text "%w" = true ↔ ∃ o ∈ occurrences (Text.inner format.text).toList, o.ShowsW := by
  obtain ⟨quote, hquote, htext⟩ := quotes_of_tokenize hlexed hmem hformat
  obtain ⟨hsign, hverb⟩ : quote ≠ '%' ∧ quote ≠ 'w' := by rcases hquote with rfl | rfl <;> decide
  have hrun : Text.contains format.text "%w" = Text.hasRun ['%', 'w'] format.text.toList := rfl
  rw [hrun, htext, hasRun_cons hsign, hasRun_concat hsign hverb, hasRun_iff]

end FormatVerb

namespace SourceFile

open Statement FormatVerb

/-- An error is made at a place of a file, and it wraps another one or it does not. -/
def MakesError (file : SourceFile) (pos : Position) (wraps : Bool) : Prop :=
  (∃ c ∈ file.constructs, c.kind = .errorConstruct ∧ c.pos = pos) ∧
    ∀ c ∈ file.constructs, c.pos = pos → ∀ info, c.detail = .errorConstruct info → info.wraps = wraps

variable {source path : String} {file : SourceFile} {lexed : Lexed} {ctx : Context} {body : List Statement}
  {way : List Enclosure} {package format : Token} {value : List Token}

/-- The tokens of a statement of a function are tokens of the file, and a plain statement begins with the token that
tells its kind. -/
theorem tokens_of_within (hlexed : tokenize source = .ok lexed) (h : read source path = .ok file)
    (hbody : FunctionBody lexed.tokens ctx body) {s : Statement} (hs : Within body way s) :
    s.tokens ⊆ lexed.tokens ∧ s.IsHeaded := by
  obtain ⟨found, hinside, hmem⟩ := hs
  obtain ⟨hown, hheaded⟩ := hbody.inOrder hlexed h way found hinside
  refine ⟨fun t ht => hown.subset (List.mem_flatMap.mpr ⟨s, ?_, ht⟩), hheaded s hmem⟩
  exact mem_flattenList_of_within (within_nil.mpr hmem) nofun

/-- A call that makes an error and that a statement consists of tokens around is found. -/
theorem makesError_of_call (hlexed : tokenize source = .ok lexed) (h : read source path = .ok file)
    (hbody : FunctionBody lexed.tokens ctx body) {s : Statement} (hs : Within body way s) {call : Call}
    (hcall : call ∈ Call.list s.tokens) (hname : call.name = "fmt.Errorf") :
    file.MakesError call.first.pos (Expression.errorOf call (ctx.along way).function).wraps := by
  obtain ⟨package, hfound⟩ := mem_constructs_of_within hlexed h hbody
  have hmem := hfound way s hs _
    (.inr ⟨s.tokens, List.mem_cons_self,
      .inl ⟨call, hcall, .inr ⟨_, Expression.special_errorf _ hname, rfl⟩⟩⟩)
  refine ⟨⟨_, hmem, rfl, rfl⟩, fun c hc hpos info hinfo => ?_⟩
  have hkind : c.kind = .errorConstruct := by rw [Construct.kind, hinfo]; rfl
  obtain rfl := eq_of_kind_pos h hc hmem hkind hpos
  cases hinfo
  rfl

/-- What the readings of a returned call are computed from. -/
theorem readings_of_call (hlexed : tokenize source = .ok lexed) (h : read source path = .ok file)
    (hbody : FunctionBody lexed.tokens ctx body) (hreturn : ReturnsError ctx body way value)
    (hcall : CallsErrorf package format value) :
    format ∈ lexed.tokens ∧
      file.HandledAs package.pos (if Text.contains format.text "%w" then .wrapped else .constructed) ∧
      file.MakesError package.pos ((FormatVerb.list (Text.inner format.text)).contains "w") := by
  obtain ⟨place, tokens, literals, index, hs, hindex, hcount, hvalue⟩ := id hreturn
  obtain ⟨hsub, keyword, rest, rfl, hkind⟩ := tokens_of_within hlexed h hbody hs
  have hpart : value ∈ splitTopFrom (·.isOp ",") 0 rest := List.mem_of_mem_filter (List.mem_of_getElem? hvalue)
  obtain ⟨front, back, rfl, hfront⟩ := exists_of_mem_splitTopFrom hpart
  -- The value stands behind the keyword or behind a comma, so the call is selected from nothing.
  have hbefore : ∀ t ∈ (keyword :: front).getLast?, t.isOp "." = false := by
    intro t ht
    rcases front.eq_nil_or_concat with rfl | ⟨others, last, rfl⟩
    · obtain rfl := Option.some.inj ht
      rw [isOp, kind_of_plainKind (hkind ▸ by decide)]
      rfl
    · rw [List.concat_eq_append, List.getLast?_concat] at hfront
      rw [List.concat_eq_append, ← List.cons_append, List.getLast?_concat] at ht
      obtain rfl := Option.some.inj ht
      rw [eq_of_isOp (hfront last rfl)]
      rfl
  obtain ⟨call, hlisted, hname, rfl, others, harguments⟩ := hcall.exists_call hbefore back
  obtain ⟨hformat, more, rfl, hmem⟩ := hcall.format_mem
  have hhandled := handledAs_of_returnsError hlexed h hbody hreturn
  rw [hcall.ofExpression_eq] at hhandled
  have hmade := makesError_of_call hlexed h hbody hs hlisted hname
  rw [Expression.wraps_errorOf hformat harguments] at hmade
  refine ⟨hsub ?_, hhandled, hmade⟩
  exact List.mem_cons_of_mem _ (List.mem_append_right _ (List.mem_append_left _ (List.mem_cons_of_mem _ hmem)))

/-- In every function of an accepted file, an error that is returned as a call of `fmt.Errorf` with one string for
its format is handled as wrapped exactly when the format shows `%w`, and the call makes an error that wraps another
one exactly when a verb `w` occurs in the format, behind a percent sign and modifiers. The two agree when each verb
`w` stands right behind its percent sign and no `w` follows a percent sign that stands for itself. -/
theorem readings_of_errorf (hlexed : tokenize source = .ok lexed) (h : read source path = .ok file)
    (hbody : FunctionBody lexed.tokens ctx body) (hreturn : ReturnsError ctx body way value)
    (hcall : CallsErrorf package format value) :
    ∃ handling wraps, file.HandledAs package.pos handling ∧ file.MakesError package.pos wraps ∧
      (∀ o ∈ occurrences (Text.inner format.text).toList, o.StandsIn (Text.inner format.text).toList) ∧
      (handling = .wrapped ↔ ∃ o ∈ occurrences (Text.inner format.text).toList, o.ShowsW) ∧
      (wraps = true ↔ ∃ o ∈ occurrences (Text.inner format.text).toList, o.verb = 'w') ∧
      ((∀ o ∈ occurrences (Text.inner format.text).toList, o.Unambiguous) →
        (handling = .wrapped ↔ wraps = true)) := by
  obtain ⟨hmem, hhandled, hmade⟩ := readings_of_call hlexed h hbody hreturn hcall
  have hwrapped : (if Text.contains format.text "%w" then Handling.wrapped else .constructed) = .wrapped ↔
      ∃ o ∈ occurrences (Text.inner format.text).toList, o.ShowsW := by
    rw [← contains_iff hlexed hmem hcall.format_mem.1]
    cases Text.contains format.text "%w" <;> decide
  have hwraps := contains_list_iff (Text.inner format.text)
  refine ⟨_, _, hhandled, hmade, fun o => standsIn_of_mem_occurrences, hwrapped, hwraps, fun hplain => ?_⟩
  rw [hwrapped, hwraps]
  exact exists_congr fun o => and_congr_right fun ho => (hplain o ho).showsW_iff

end SourceFile

/-! ## Two formats -/

/-- The package and the format of a call of `fmt.Errorf`. -/
def Token.errorf? : List Token → Option (Token × Token)
  | package :: dot :: name :: opener :: format :: rest =>
    let more := rest.dropLast
    if package.isIdent && package.text == "fmt" && dot.isOp "." && name.isIdent && name.text == "Errorf" &&
        opener.isOp "(" && rest.getLast?.any (·.isOp ")") && format.kind == .string &&
        (matchBrackets more).toOption.isSome && more.head?.all (·.isOp ",") then
      some (package, format)
    else none
  | _ => none

/-- A value checked to be a formatted error calls `fmt.Errorf`. -/
theorem CallsErrorf.of_errorf? {value : List Token} {package format : Token}
    (h : errorf? value = some (package, format)) : CallsErrorf package format value := by
  unfold errorf? at h
  split at h
  · next package dot name opener format rest =>
    obtain ⟨hall, hpair⟩ := Option.ite_none_right_eq_some.mp h
    cases hpair
    simp only [Bool.and_eq_true, beq_iff_eq, Option.any_eq_true, Option.all_eq_true] at hall
    obtain ⟨⟨⟨⟨⟨⟨⟨⟨⟨hpackage, hfmt⟩, hdot⟩, hname⟩, herrorf⟩, hopener⟩, closer, hlast,
      hcloser⟩, hformat⟩, hclosed⟩, halone⟩ := hall
    have hcloses : Closes opener closer := by
      rw [eq_of_isOp hopener, eq_of_isOp hcloser]
      exact ⟨rfl, rfl, rfl⟩
    have hmore : Balanced rest.dropLast := exists_matchBrackets_iff.mp (Except.isSome_toOption_iff.mp hclosed)
    rw [← List.dropLast_append_getLast? closer hlast]
    exact .mk hpackage hfmt hdot hname herrorf hopener hcloses hformat hmore halone
  · cases h

namespace Statement

/-- Whether a statement returns a call of `fmt.Errorf` with a format from a function whose only result is an error.
-/
def returnsFormat (scope : Scope) (text : String) (s : Statement) : Bool :=
  ((s.soleError? scope).bind errorf?).any fun (_, format) => format.text == text

/-- A return checked to give a formatted error returns one with that format. -/
theorem exists_of_returnsFormat {ctx : Context} {body : List Statement} {way : List Enclosure} {s : Statement}
    {text : String} (hs : Within body way s) (h : s.returnsFormat (ctx.along way).scope text = true) :
    ∃ value package format, ReturnsError ctx body way value ∧ CallsErrorf package format value ∧
      format.text = text := by
  obtain ⟨⟨package, format⟩, hcall, htext⟩ := (Option.any_eq_true _ _).mp h
  obtain ⟨value, hvalue, hcall⟩ := Option.bind_eq_some_iff.mp hcall
  exact ⟨value, package, format, returnsError_of_soleError? hs hvalue, .of_errorf? hcall, beq_iff_eq.mp htext⟩

end Statement

namespace SourceFile

open Statement FormatVerb

/-- An error is returned with another one that it wraps. -/
def wrappedError : String :=
  "package p\n\nfunc f(err error) error \x7b\n\treturn fmt.Errorf(\"load: %w\", err)\n\x7d\n"

/-- A wrapped error is read as wrapped by both readings. -/
theorem readings_wrappedError : ∃ lexed file ctx body value package format,
    tokenize wrappedError = .ok lexed ∧ read wrappedError "p.go" = .ok file ∧
    FunctionBody lexed.tokens ctx body ∧
      ReturnsError ctx body [] value ∧ CallsErrorf package format value ∧ format.text = "\"load: %w\"" ∧
      file.HandledAs package.pos .wrapped ∧ file.MakesError package.pos true := by
  have hbegins : beginsWith wrappedError "p.go" (fun ctx body =>
      body.any (returnsFormat (ctx.along []).scope "\"load: %w\"")) = true := by decide +kernel
  have hoccurs : occurrences (Text.inner "\"load: %w\"").toList = [⟨[], 'w', []⟩] := by decide +kernel
  obtain ⟨lexed, file, ctx, body, hlexed, hread, hholds, htest⟩ := exists_of_beginsWith hbegins
  have hbody : FunctionBody lexed.tokens ctx body := .outer hholds
  obtain ⟨s, hs, htest⟩ := List.any_eq_true.mp htest
  obtain ⟨value, package, format, hreturn, hcall, htext⟩ := exists_of_returnsFormat (within_nil.mpr hs) htest
  obtain ⟨handling, wraps, hhandled, hmade, -, hwrapped, hwraps, -⟩ :=
    readings_of_errorf hlexed hread hbody hreturn hcall
  rw [htext, hoccurs] at hwrapped hwraps
  obtain rfl : handling = .wrapped := hwrapped.mpr ⟨_, List.mem_cons_self, .inl ⟨rfl, rfl⟩⟩
  obtain rfl : wraps = true := hwraps.mpr ⟨_, List.mem_cons_self, rfl⟩
  exact ⟨lexed, file, ctx, body, value, package, format, hlexed, hread, hbody, hreturn, hcall, htext,
    hhandled, hmade⟩

/-- Two errors are returned: a `w` follows a percent sign that stands for itself in the format of the first, and the
verb `w` of the second has a flag. -/
def misread : String :=
  "package p\n\nfunc f(err error) error \x7b\n\tif done \x7b\n\t\treturn fmt.Errorf(\"100%%w: %v\", err)\n" ++
    "\t\x7d\n\treturn fmt.Errorf(\"f: %+w\", err)\n\x7d\n"

/-- The first error is handled as wrapped and wraps none; the second one wraps another and is not handled so. -/
theorem readings_misread :
    ∃ lexed file ctx body e, tokenize misread = .ok lexed ∧ read misread "p.go" = .ok file ∧
    FunctionBody lexed.tokens ctx body ∧
      (∃ value package format, ReturnsError ctx body [e] value ∧ CallsErrorf package format value ∧
        format.text = "\"100%%w: %v\"" ∧ file.HandledAs package.pos .wrapped ∧
        file.MakesError package.pos false) ∧
      ∃ value package format, ReturnsError ctx body [] value ∧ CallsErrorf package format value ∧
        format.text = "\"f: %+w\"" ∧ file.HandledAs package.pos .constructed ∧
        file.MakesError package.pos true := by
  have hbegins : beginsWith misread "p.go" (fun ctx body =>
      body.any (fun s => s.enclosed.any fun (e, inner) =>
        inner.any (returnsFormat (ctx.along [e]).scope "\"100%%w: %v\"")) &&
      body.any (returnsFormat (ctx.along []).scope "\"f: %+w\"")) = true := by
    decide +kernel
  have hescaped : Text.contains "\"100%%w: %v\"" "%w" = true ∧
      (FormatVerb.list (Text.inner "\"100%%w: %v\"")).contains "w" = false := by decide +kernel
  have hflagged : Text.contains "\"f: %+w\"" "%w" = false ∧
      (FormatVerb.list (Text.inner "\"f: %+w\"")).contains "w" = true := by decide +kernel
  obtain ⟨lexed, file, ctx, body, hlexed, hread, hholds, htest⟩ := exists_of_beginsWith hbegins
  have hbody : FunctionBody lexed.tokens ctx body := .outer hholds
  obtain ⟨hfirst, hsecond⟩ := Bool.and_eq_true_iff.mp htest
  obtain ⟨s, hs, hfirst⟩ := List.any_eq_true.mp hfirst
  obtain ⟨⟨e, inner⟩, he, hfirst⟩ := List.any_eq_true.mp hfirst
  obtain ⟨r, hr, hfirst⟩ := List.any_eq_true.mp hfirst
  obtain ⟨v, p, f, hreturn, hcall, htext⟩ :=
    exists_of_returnsFormat (within_cons.mpr ⟨s, hs, inner, he, within_nil.mpr hr⟩) hfirst
  obtain ⟨-, hhandled, hmade⟩ := readings_of_call hlexed hread hbody hreturn hcall
  rw [htext, hescaped.1, if_pos rfl] at hhandled
  rw [htext, hescaped.2] at hmade
  refine ⟨lexed, file, ctx, body, e, hlexed, hread, hbody,
    ⟨v, p, f, hreturn, hcall, htext, hhandled, hmade⟩, ?_⟩
  obtain ⟨s, hs, hsecond⟩ := List.any_eq_true.mp hsecond
  obtain ⟨v, p, f, hreturn, hcall, htext⟩ := exists_of_returnsFormat (within_nil.mpr hs) hsecond
  obtain ⟨-, hhandled, hmade⟩ := readings_of_call hlexed hread hbody hreturn hcall
  rw [htext, hflagged.1, if_neg Bool.false_ne_true] at hhandled
  rw [htext, hflagged.2] at hmade
  exact ⟨v, p, f, hreturn, hcall, htext, hhandled, hmade⟩

end SourceFile

end GoIdiom
