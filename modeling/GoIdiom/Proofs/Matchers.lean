import GoIdiom.Proofs.Outcome
import GoIdiom.Proofs.Registry
import GoIdiom.Proofs.WellFormed

/-!
# When matchers of the style catalog give up

On well-formed constructs and with options of the right types, a matcher of the style catalog gives up for
one reason only: its report ends with a limit that is exceeded, and the limit is a number of so many digits
that it cannot be shown. Everything else that a matcher reads is there.
-/

namespace GoIdiom

/-- Whether a value is a number; truth values count as zero and one. -/
def Document.isNumber : Document → Bool
  | bool _ | int _ | float _ => true
  | _ => false

namespace Style

/-- The options that set limits. -/
def limitOptions : List String := ["max_lines", "max_params", "max_depth", "max_methods", "error_at", "max_size"]

/-- Options of the types that matchers expect: limits are numbers, and names are texts in a list. -/
structure OptionsFit (options : Table) : Prop where
  limits : ∀ name ∈ limitOptions, ∀ value, options.lookup name = some value → value.isNumber = true
  names : ∀ value, options.lookup "names" = some value →
    ∃ texts : List String, value = .list (texts.map .text)

/-- The limit, if a number is above it. -/
def exceeded (n : Nat) (limit : Document) : Option Document :=
  match MatchContext.above n limit with
  | .ok true => some limit
  | _ => none

/-- The limit that the report of a rule on a construct ends with, if the construct exceeds one. -/
def shownLimit? (ctx : MatchContext) (id : String) (d : Detail) : Option Document :=
  match id, d with
  | "function-too-long", .function f => exceeded f.bodyLines (ctx.option "max_lines" (.int 80))
  | "too-many-parameters", .function f => exceeded f.params.length (ctx.option "max_params" (.int 5))
  | "deep-nesting", .function f => exceeded f.maxDepth (ctx.option "max_depth" (.int 4))
  | "file-too-long", .file lineCount _ _ => exceeded lineCount (ctx.option "max_lines" (.int 1000))
  | "interface-too-large", .interface i =>
    let limit := ctx.option "max_methods" (.int 2)
    match MatchContext.reaches i.methods.length (ctx.option "error_at" (.int 5)) with
    | .ok true => some limit
    | _ => exceeded i.methods.length limit
  | _, _ => none

/-- The rules whose reports end with a limit, and what they report on. -/
def limitRules : List (String × ConstructKind) :=
  [("function-too-long", .function), ("too-many-parameters", .function), ("deep-nesting", .function),
   ("file-too-long", .file), ("interface-too-large", .interface)]

/-- What a matcher is given: a well-formed construct, an index of methods, and options of the right types. -/
structure Given (c : Construct) (ctx : MatchContext) : Prop where
  wellFormed : c.detail.WellFormed
  methods : ∀ m ∈ ctx.index.methods, m.2.info.receiver.isSome = true
  options : OptionsFit ctx.options

/-- A matcher that gives up exactly where the report of its rule ends with a limit that cannot be shown. -/
def FailsOnLimit (id : String) (p : Predicate) : Prop :=
  ∀ c ctx, Given c ctx → ∀ cause, p c ctx = .error cause ↔
    cause = .notShowable ∧ ∃ limit, shownLimit? ctx id c.detail = some limit ∧ limit.isShowable = false

/-- Only these rules show a limit, and only in reports on these constructs. -/
theorem mem_limitRules {ctx : MatchContext} {id : String} {d : Detail} {limit : Document}
    (h : shownLimit? ctx id d = some limit) : (id, d.kind) ∈ limitRules := by
  unfold shownLimit? at h
  split at h
  case h_6 => cases h
  all_goals exact List.contains_iff_mem.mp rfl

/-- Where no options are given, the limits are the small ones that stand for them. -/
theorem isShowable_of_shownLimit? {ctx : MatchContext} (hoptions : ctx.options = []) {id : String} {d : Detail}
    {limit : Document} (h : shownLimit? ctx id d = some limit) : limit.isShowable = true := by
  have hall : [2, 4, 5, 80, 1000].all (fun n => (Document.int n).isShowable) = true := by decide +kernel
  have hsmall {fallback : Int} (hfallback : [2, 4, 5, 80, 1000].contains fallback = true) (name : String) :
      (ctx.option name (.int fallback)).isShowable = true := by
    rw [MatchContext.option, hoptions]
    exact List.all_eq_true.mp hall fallback (List.contains_iff_mem.mp hfallback)
  have hexceeded {n : Nat} {shown : Document} (hshown : shown.isShowable = true)
      (h : exceeded n shown = some limit) :
      limit.isShowable = true := by
    rw [exceeded] at h
    split at h
    · exact Option.some.inj h ▸ hshown
    · cases h
  unfold shownLimit? at h
  split at h
  case h_5 =>
    have hmethods := hsmall (by decide : [2, 4, 5, 80, 1000].contains (2 : Int) = true) "max_methods"
    dsimp only at h
    split at h
    · exact Option.some.inj h ▸ hmethods
    · exact hexceeded hmethods h
  case h_6 => cases h
  all_goals exact hexceeded (hsmall (by decide) _) h

/-- Other rules show no limit. -/
theorem shownLimit?_eq_none {id : String} (hid : ∀ kind, (id, kind) ∉ limitRules) (ctx : MatchContext)
    (d : Detail) : shownLimit? ctx id d = none := by
  cases h : shownLimit? ctx id d with
  | none => rfl
  | some limit => exact absurd (mem_limitRules h) (hid d.kind)

/-- A matcher that answers whatever it is given. -/
theorem FailsOnLimit.of_answers {id : String} {p : Predicate} (hid : limitRules.all (·.1 != id) = true)
    (h : ∀ c ctx, Given c ctx → ∃ hits, p c ctx = .ok hits) : FailsOnLimit id p := by
  intro c ctx hgiven cause
  obtain ⟨hits, hhits⟩ := h c ctx hgiven
  have hnone (kind : ConstructKind) : (id, kind) ∉ limitRules := by
    intro hmem
    exact absurd rfl (bne_iff_ne.mp (List.all_eq_true.mp hid _ hmem))
  rw [hhits, shownLimit?_eq_none hnone]
  constructor
  · intro h
    cases h
  · rintro ⟨-, limit, hlimit, -⟩
    cases hlimit

/-! ## Limits -/

/-- The value of an option with a limit is a number. -/
theorem isNumber_option {ctx : MatchContext} (h : OptionsFit ctx.options) {name : String}
    (hname : name ∈ limitOptions) (fallback : Int) : (ctx.option name (.int fallback)).isNumber = true := by
  rw [MatchContext.option]
  cases hvalue : ctx.options.lookup name with
  | none => rfl
  | some value => exact h.limits name hname value hvalue

/-- Numbers can be compared with numbers. -/
theorem exists_measure {limit : Document} (h : limit.isNumber = true) (operator : String) (n : Nat) :
    ∃ order, MatchContext.measure operator n limit = .ok order := by
  unfold Document.isNumber at h
  split at h
  · exact ⟨_, rfl⟩
  · exact ⟨_, rfl⟩
  · exact ⟨_, rfl⟩
  · cases h

/-- A limit that is a number is exceeded or not. -/
theorem above_cases {limit : Document} (h : limit.isNumber = true) (n : Nat) :
    (MatchContext.above n limit = .ok true ∧ exceeded n limit = some limit) ∨
      (MatchContext.above n limit = .ok false ∧ exceeded n limit = none) := by
  obtain ⟨order, horder⟩ := exists_measure h ">" n
  have habove : MatchContext.above n limit = .ok (order == some .gt) := by
    rw [MatchContext.above, horder]
    rfl
  rw [exceeded, habove]
  cases order == some .gt
  · exact Or.inr ⟨rfl, rfl⟩
  · exact Or.inl ⟨rfl, rfl⟩

/-- The text of a limit fails exactly when the limit cannot be shown. -/
theorem limitText_eq_error_iff {limit : Document} {cause : MatchFailure} :
    limitText limit = .error cause ↔ cause = .notShowable ∧ limit.isShowable = false := by
  rw [limitText]
  cases limit.isShowable with
  | true =>
    constructor
    · intro h
      cases h
    · rintro ⟨-, h⟩
      cases h
  | false =>
    constructor
    · intro h
      cases h
      exact ⟨rfl, rfl⟩
    · rintro ⟨rfl, -⟩
      rfl

/-- A report that ends with a limit fails exactly when the limit cannot be shown. -/
theorem reported_eq_error_iff {limit : Document} {cause : MatchFailure} {g : String → List Hit} :
    (do let text ← limitText limit; report (g text)) = .error cause ↔
      cause = .notShowable ∧ limit.isShowable = false := by
  rw [Except.bind_eq_error, limitText_eq_error_iff]
  constructor
  · rintro (h | ⟨_, -, h⟩)
    · exact h
    · cases h
  · exact Or.inl

/-- A report of a number above a limit fails exactly when the limit is exceeded and cannot be shown. -/
theorem reportAbove_eq_error_iff {limit : Document} (h : limit.isNumber = true) (n : Nat) (message : String)
    (cause : MatchFailure) : reportAbove n limit message = .error cause ↔
      cause = .notShowable ∧ ∃ shown, exceeded n limit = some shown ∧ shown.isShowable = false := by
  rcases above_cases h n with ⟨habove, hexceeded⟩ | ⟨habove, hexceeded⟩
  · rw [hexceeded, reportAbove, habove]
    refine reported_eq_error_iff.trans (and_congr_right fun _ => ?_)
    constructor
    · intro hshown
      exact ⟨limit, rfl, hshown⟩
    · rintro ⟨_, ⟨⟩, hshown⟩
      exact hshown
  · rw [hexceeded, reportAbove, habove]
    constructor
    · intro h
      cases h
    · rintro ⟨-, shown, hshown, -⟩
      cases hshown

/-- A rule that reports a count above a limit fails exactly when that limit is exceeded and cannot be shown. -/
theorem FailsOnLimit.of_count {id name : String} {p : Predicate} (hname : name ∈ limitOptions) (fallback : Int)
    (count : Detail → Option Nat)
    (hp : ∀ c ctx, match count c.detail with
      | some n => ∃ message, p c ctx = reportAbove n (ctx.option name (.int fallback)) message
      | none => p c ctx = report [])
    (hshown : ∀ ctx d, shownLimit? ctx id d = (count d).bind fun n =>
      exceeded n (ctx.option name (.int fallback))) :
    FailsOnLimit id p := by
  intro c ctx hgiven cause
  have hcount := hp c ctx
  rw [hshown]
  cases hn : count c.detail with
  | some n =>
    rw [hn] at hcount
    obtain ⟨message, hreport⟩ := hcount
    rw [hreport]
    exact reportAbove_eq_error_iff (isNumber_option hgiven.options hname fallback) n message cause
  | none =>
    rw [hn] at hcount
    rw [show p c ctx = report [] from hcount]
    constructor
    · intro h
      cases h
    · rintro ⟨-, shown, hshown, -⟩
      cases hshown

/-! ## The rules by category -/

/-- A rule about errors gives up exactly at a limit that cannot be shown. -/
theorem ErrorHandling.failsOnLimit : ∀ r ∈ rules, FailsOnLimit r.id r.predicate := by
  simp only [rules, List.forall_mem_cons]
  refine ⟨?_, ?_, ?_, ?_, ?_, ?_, ?_, ?_, ?_, ?_, List.forall_mem_nil _⟩
  all_goals
    refine .of_answers (by decide) fun c ctx _ => ?_
    simp only [notWrapped, ignored, stringCompare, checkEmpty, swallowed, logAndReturn, stringFormat, wrapVerb,
      notLastResult, panicInLibrary]
    repeat' split
    all_goals exact ⟨_, rfl⟩

namespace InterfaceDesign

/-- The report of a large interface shows the limit on methods, also when it is the other limit that is met. -/
theorem failsOnLimit_tooLarge : FailsOnLimit "interface-too-large" tooLarge := by
  intro c ctx hgiven cause
  have hlimit := isNumber_option hgiven.options (by decide : "max_methods" ∈ limitOptions) 2
  have herror := isNumber_option hgiven.options (by decide : "error_at" ∈ limitOptions) 5
  rw [tooLarge]
  cases c.detail with
  | interface i =>
    obtain ⟨order, horder⟩ := exists_measure herror ">=" i.methods.length
    have hreaches : MatchContext.reaches i.methods.length (ctx.option "error_at" (.int 5)) =
        .ok (order == some .gt || order == some .eq) := by
      rw [MatchContext.reaches, horder]
      rfl
    rw [shownLimit?]
    dsimp only
    rw [hreaches]
    cases order == some .gt || order == some .eq with
    | true =>
      refine reported_eq_error_iff.trans (and_congr_right fun _ => ?_)
      constructor
      · intro hshown
        exact ⟨_, rfl, hshown⟩
      · rintro ⟨_, ⟨⟩, hshown⟩
        exact hshown
    | false => exact reportAbove_eq_error_iff hlimit _ _ cause
  | _ =>
    constructor
    · intro h
      cases h
    · rintro ⟨-, shown, hshown, -⟩
      cases hshown

/-- A rule about interfaces gives up exactly at a limit that cannot be shown. -/
theorem failsOnLimit : ∀ r ∈ rules, FailsOnLimit r.id r.predicate := by
  simp only [rules, List.forall_mem_cons]
  refine ⟨failsOnLimit_tooLarge, ?_, ?_, ?_, ?_, List.forall_mem_nil _⟩
  all_goals
    refine .of_answers (by decide) fun c ctx _ => ?_
    simp only [emptyParam, nameSuffix, returned, pointer]
    repeat' split
    all_goals exact ⟨_, rfl⟩

end InterfaceDesign

namespace Organization

/-- What is counted in functions only. -/
def functionCount (count : FunctionInfo → Nat) : Detail → Option Nat
  | .function f => some (count f)
  | _ => none

/-- The lines of a file. -/
def fileCount : Detail → Option Nat
  | .file lineCount _ _ => some lineCount
  | _ => none

/-- The rule about long functions gives up exactly at a limit that cannot be shown. -/
theorem failsOnLimit_functionTooLong : FailsOnLimit "function-too-long" functionTooLong := by
  refine .of_count (by decide : "max_lines" ∈ limitOptions) 80 (functionCount (·.bodyLines)) (fun c ctx => ?_) ?_
  · rw [functionTooLong]
    cases c.detail with
    | function f => exact ⟨_, rfl⟩
    | _ => rfl
  · intro ctx d
    cases d <;> rfl

/-- The rule about many parameters gives up exactly at a limit that cannot be shown. -/
theorem failsOnLimit_tooManyParameters : FailsOnLimit "too-many-parameters" tooManyParameters := by
  refine .of_count (by decide : "max_params" ∈ limitOptions) 5 (functionCount (·.params.length))
    (fun c ctx => ?_) ?_
  · rw [tooManyParameters]
    cases c.detail with
    | function f => exact ⟨_, rfl⟩
    | _ => rfl
  · intro ctx d
    cases d <;> rfl

/-- The rule about deep nesting gives up exactly at a limit that cannot be shown. -/
theorem failsOnLimit_deepNesting : FailsOnLimit "deep-nesting" deepNesting := by
  refine .of_count (by decide : "max_depth" ∈ limitOptions) 4 (functionCount (·.maxDepth)) (fun c ctx => ?_) ?_
  · rw [deepNesting]
    cases c.detail with
    | function f => exact ⟨_, rfl⟩
    | _ => rfl
  · intro ctx d
    cases d <;> rfl

/-- The rule about long files gives up exactly at a limit that cannot be shown. -/
theorem failsOnLimit_fileTooLong : FailsOnLimit "file-too-long" fileTooLong := by
  refine .of_count (by decide : "max_lines" ∈ limitOptions) 1000 fileCount (fun c ctx => ?_) ?_
  · rw [fileTooLong]
    cases c.detail with
    | file => exact ⟨_, rfl⟩
    | _ => rfl
  · intro ctx d
    cases d <;> rfl

/-- The report of a naked return shows no limit, so it does not fail on one. -/
theorem answers_nakedReturn {c : Construct} {ctx : MatchContext} (h : Given c ctx) :
    ∃ hits, nakedReturn c ctx = .ok hits := by
  rw [nakedReturn]
  split
  · next f _ =>
    obtain ⟨order, horder⟩ := exists_measure
      (isNumber_option h.options (by decide : "max_lines" ∈ limitOptions) 10) "<=" f.bodyLines
    split
    · exact ⟨_, rfl⟩
    · rw [MatchContext.within, horder]
      exact ⟨_, rfl⟩
  · exact ⟨_, rfl⟩

/-- A rule about the parts of a file gives up exactly at a limit that cannot be shown. -/
theorem failsOnLimit : ∀ r ∈ rules, FailsOnLimit r.id r.predicate := by
  simp only [rules, List.forall_mem_cons]
  refine ⟨?_, ?_, failsOnLimit_functionTooLong, failsOnLimit_tooManyParameters, failsOnLimit_deepNesting, ?_, ?_,
    failsOnLimit_fileTooLong, ?_, List.forall_mem_nil _⟩
  case refine_3 => exact .of_answers (by decide) fun c ctx h => answers_nakedReturn h
  all_goals
    refine .of_answers (by decide) fun c ctx _ => ?_
    simp only [initFunction, globalState, dotImport, exitOutsideMain]
    repeat' split
    all_goals exact ⟨_, rfl⟩

end Organization

namespace Testing

/-- Every word that makes a function a test has the parameters that are expected with it. -/
theorem answers_signature {c : Construct} {ctx : MatchContext} (h : Given c ctx) :
    ∃ hits, signature c ctx = .ok hits := by
  have hwell := h.wellFormed
  rw [signature]
  cases hdetail : c.detail with
  | testFunction t =>
    rw [hdetail] at hwell
    have hexpected : ∃ expected, expectedTypes t = .ok expected := by
      have hhead : t.head ∈ Name.testHeads := hwell
      simp only [Name.testHeads, List.mem_cons, List.not_mem_nil, or_false] at hhead
      rw [expectedTypes]
      split
      · exact ⟨_, rfl⟩
      · rcases hhead with hhead | hhead | hhead | hhead <;> rw [hhead] <;> exact ⟨_, rfl⟩
    obtain ⟨expected, hexpected⟩ := hexpected
    dsimp only
    split
    · exact ⟨_, rfl⟩
    · rw [hexpected]
      exact ⟨_, rfl⟩
  | _ => exact ⟨_, rfl⟩

/-- A rule about tests gives up exactly at a limit that cannot be shown. -/
theorem failsOnLimit : ∀ r ∈ rules, FailsOnLimit r.id r.predicate := by
  simp only [rules, List.forall_mem_cons]
  refine ⟨?_, ?_, ?_, ?_, ?_, ?_, List.forall_mem_nil _⟩
  case refine_2 => exact .of_answers (by decide) fun c ctx h => answers_signature h
  all_goals
    refine .of_answers (by decide) fun c ctx _ => ?_
    simp only [nameFormat, withoutAssertions, sleep, fatalInGoroutine, helperMissing]
    repeat' split
    all_goals exact ⟨_, rfl⟩

end Testing

namespace Concurrency

/-- A goroutine that runs a method of the receiver selects it from something. -/
theorem exists_target? {g : GoInfo} (h : (Detail.go g).WellFormed) (ctx : MatchContext) :
    ∃ f, target? ctx g = .ok f := by
  rw [target?]
  split
  · next type htype =>
    have hsome : g.calleeType.isSome = true := by
      obtain ⟨htype, -⟩ := Option.filter_eq_some_iff.mp htype
      rw [htype]
      rfl
    obtain ⟨callee, hcallee, hcut⟩ := h hsome
    obtain ⟨cut, hcut⟩ := Option.isSome_iff_exists.mp hcut
    have hmethod : methodName g = .ok cut.2 := by
      rw [methodName, hcallee]
      dsimp only
      rw [hcut]
    rw [hmethod]
    exact ⟨_, rfl⟩
  · exact ⟨_, rfl⟩

/-- What a goroutine runs is looked up without fail. -/
theorem answers_lifecycle {c : Construct} {ctx : MatchContext} (h : Given c ctx) :
    ∃ hits, lifecycle c ctx = .ok hits := by
  have hwell := h.wellFormed
  rw [lifecycle]
  cases hdetail : c.detail with
  | go g =>
    rw [hdetail] at hwell
    obtain ⟨f, hf⟩ := exists_target? hwell ctx
    dsimp only
    split
    · exact ⟨_, rfl⟩
    · rw [hf]
      dsimp only [bind, Except.bind]
      split <;> exact ⟨_, rfl⟩
  | _ => exact ⟨_, rfl⟩

/-- The limit on the size of a channel is not shown. -/
theorem answers_bufferSize {c : Construct} {ctx : MatchContext} (h : Given c ctx) :
    ∃ hits, bufferSize c ctx = .ok hits := by
  rw [bufferSize]
  split
  · split
    · next size _ =>
      obtain ⟨order, horder⟩ := exists_measure
        (isNumber_option h.options (by decide : "max_size" ∈ limitOptions) 1) ">" size
      rw [MatchContext.above, horder]
      exact ⟨_, rfl⟩
    · exact ⟨_, rfl⟩
  · exact ⟨_, rfl⟩

/-- A rule about concurrency gives up exactly at a limit that cannot be shown. -/
theorem failsOnLimit : ∀ r ∈ rules, FailsOnLimit r.id r.predicate := by
  simp only [rules, List.forall_mem_cons]
  refine ⟨?_, ?_, ?_, ?_, ?_, ?_, ?_, ?_, ?_, ?_, ?_, List.forall_mem_nil _⟩
  case refine_1 => exact .of_answers (by decide) fun c ctx h => answers_lifecycle h
  case refine_6 => exact .of_answers (by decide) fun c ctx h => answers_bufferSize h
  all_goals
    refine .of_answers (by decide) fun c ctx _ => ?_
    simp only [mutexCopy, waitGroupByValue, deferInLoop, loopCapture, selectSingle, selectEmpty, contextNotFirst,
      contextInStruct, mutexEmbedded]
    repeat' split
    all_goals exact ⟨_, rfl⟩

end Concurrency

namespace Naming

/-- Methods have receivers. -/
theorem exists_firstNamed {ds : List Declared} (h : ∀ d ∈ ds, d.info.receiver.isSome = true) :
    ∃ found, firstNamed ds = .ok found := by
  induction ds with
  | nil => exact ⟨_, rfl⟩
  | cons d rest ih =>
    obtain ⟨hd, hrest⟩ := List.forall_mem_cons.mp h
    have hnone : d.info.receiver.isNone = false := by rw [Option.isNone_eq_false_iff, hd]
    rw [firstNamed, hnone, if_neg Bool.false_ne_true]
    split
    · exact ⟨_, rfl⟩
    · exact ih hrest

/-- The methods of a type are methods of the index. -/
theorem answers_receiverInconsistent {c : Construct} {ctx : MatchContext} (h : Given c ctx) :
    ∃ hits, receiverInconsistent c ctx = .ok hits := by
  have hmethods (type : String) : ∀ d ∈ ctx.index.methodsOf type, d.info.receiver.isSome = true := by
    intro d hd
    obtain ⟨m, hm, rfl⟩ := List.mem_map.mp (List.mem_mergeSort.mp hd)
    exact h.methods m (List.mem_filter.mp hm).1
  rw [receiverInconsistent]
  split
  · split
    · next r name _ _ =>
      obtain ⟨found, hfound⟩ := exists_firstNamed (hmethods r.typeName)
      rw [hfound]
      cases found with
      | none => exact ⟨_, rfl⟩
      | some found => exact ⟨_, rfl⟩
    · exact ⟨_, rfl⟩
  · exact ⟨_, rfl⟩

/-- Generic names are kept in a list. -/
theorem answers_packageGeneric {c : Construct} {ctx : MatchContext} (h : Given c ctx) :
    ∃ hits, packageGeneric c ctx = .ok hits := by
  rw [packageGeneric]
  split
  · have hnames : ∃ items, ctx.option "names" (.list (genericPackageNames.map .text)) = .list items := by
      rw [MatchContext.option]
      cases hvalue : ctx.options.lookup "names" with
      | none => exact ⟨_, rfl⟩
      | some value =>
        obtain ⟨texts, rfl⟩ := h.options.names value hvalue
        exact ⟨_, rfl⟩
    obtain ⟨items, hitems⟩ := hnames
    rw [hitems]
    exact ⟨_, rfl⟩
  · exact ⟨_, rfl⟩

/-- Declared variables have names. -/
theorem exists_errorValues {names : List (String × Position)} (h : ∀ name ∈ names, name.1 ≠ "") :
    ∃ hits, errorValues names = .ok hits := by
  induction names with
  | nil => exact ⟨_, rfl⟩
  | cons name rest ih =>
    obtain ⟨hname, hrest⟩ := List.forall_mem_cons.mp h
    obtain ⟨more, hmore⟩ := ih hrest
    rw [errorValues, beq_false_of_ne hname, if_neg Bool.false_ne_true, hmore]
    exact ⟨_, rfl⟩

/-- The names of error values are looked at by their first letters. -/
theorem answers_errorNaming {c : Construct} {ctx : MatchContext} (h : Given c ctx) :
    ∃ hits, errorNaming c ctx = .ok hits := by
  have hwell := h.wellFormed
  rw [errorNaming]
  cases hdetail : c.detail with
  | global g =>
    rw [hdetail] at hwell
    dsimp only
    split
    · exact exists_errorValues hwell
    · exact ⟨_, rfl⟩
  | _ => exact ⟨_, rfl⟩

/-- A rule about names gives up exactly at a limit that cannot be shown. -/
theorem failsOnLimit : ∀ r ∈ rules, FailsOnLimit r.id r.predicate := by
  simp only [rules, List.forall_mem_cons]
  refine ⟨?_, ?_, ?_, ?_, ?_, ?_, ?_, ?_, ?_, ?_, List.forall_mem_nil _⟩
  case refine_4 => exact .of_answers (by decide) fun c ctx h => answers_receiverInconsistent h
  case refine_5 => exact .of_answers (by decide) fun c ctx h => answers_packageGeneric h
  case refine_10 => exact .of_answers (by decide) fun c ctx h => answers_errorNaming h
  all_goals
    refine .of_answers (by decide) fun c ctx _ => ?_
    simp only [methodStutter, getterHead, receiverSelf, packageFormat, underscore, initialismCase, packageStutter]
    repeat' split
    all_goals exact ⟨_, rfl⟩

end Naming

/-- Every matcher of the catalog gives up exactly where its report ends with a limit that cannot be shown. -/
theorem failsOnLimit_of_mem {category : Category} {r : StyleRule} (hr : r ∈ rulesOf category) :
    FailsOnLimit r.id r.predicate := by
  cases category with
  | errorHandling => exact ErrorHandling.failsOnLimit r hr
  | interfaceDesign => exact InterfaceDesign.failsOnLimit r hr
  | concurrency => exact Concurrency.failsOnLimit r hr
  | naming => exact Naming.failsOnLimit r hr
  | testing => exact Testing.failsOnLimit r hr
  | organization => exact Organization.failsOnLimit r hr

/-- A rule that shows a limit in a report on a construct is registered with a matcher that looks at it. -/
theorem exists_matcher_of_shownLimit? {rule : Rule} (hrule : rule ∈ registry.rules)
    {ctx : MatchContext} {d : Detail} {limit : Document} (h : shownLimit? ctx rule.id d = some limit) :
    ∃ m, rule.matcher = some m ∧ m.kinds.contains d.kind = true := by
  have hcatalog : ∀ k ∈ limitRules, ∃ category, ∃ r ∈ rulesOf category, r.id = k.1 ∧
      r.kinds.contains k.2 = true := by
    intro k hk
    have hfound : ∀ k ∈ limitRules, (Category.all.any fun category =>
        (rulesOf category).any fun r => r.id == k.1 && r.kinds.contains k.2) = true := by
      decide +kernel
    obtain ⟨category, -, hr⟩ := List.any_eq_true.mp (hfound k hk)
    obtain ⟨r, hr, hsame⟩ := List.any_eq_true.mp hr
    obtain ⟨hid, hkinds⟩ := Bool.and_eq_true_iff.mp hsame
    exact ⟨category, r, hr, beq_iff_eq.mp hid, hkinds⟩
  obtain ⟨category, r, hr, hid, hkinds⟩ := hcatalog _ (mem_limitRules h)
  obtain ⟨registered, hregistered, hsame, -, hmatcher⟩ := exists_rule_of_mem_rulesOf hr
  have heq : rule = registered :=
    List.inj_on_of_nodup_map registry_nodup hrule hregistered (hid.symm.trans hsame.symm)
  exact ⟨_, heq ▸ hmatcher, hkinds⟩

/-- No rule with a matcher reports matchers that gave up. -/
theorem id_ne_ruleInternalError {category : Category} {r : StyleRule} (hr : r ∈ rulesOf category) :
    r.id ≠ Organization.ruleInternalError :=
  id_ne_of_mem_engineEntries hr (List.getElem_mem (n := 2) (by decide))

end Style

end GoIdiom
