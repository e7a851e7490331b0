import GoIdiom.Proofs.OneLine.Messages

/-!
# Messages of matchers

Every matcher of the catalog repeats no other texts of the source than those that are written down for its rule. All
others that it shows are names, or types that it has found to be known ones or to be declared in the file.
-/

namespace GoIdiom

open Text

namespace Style

variable {c : Construct} {ctx : MatchContext} {quoted : List String}

/-! ## Error handling -/

namespace ErrorHandling

/-- The message about an error returned without context shows names only. -/
theorem reports_notWrapped (hc : c.NamesInLine) : Reports quoted (notWrapped c ctx) := by
  rw [notWrapped]
  cases hdetail : c.detail with
  | errorReturn e =>
    obtain ⟨herror, hfunction⟩ := List.forall_mem_append.mp (names_of_detail hc hdetail)
    have hname : OneLine (e.errorName.getD "None") :=
      oneLine_getD (fun s hs => herror s (Option.mem_toList.mpr hs)) (oneLine_literal rfl)
    have hfunction : OneLine (functionOr e.function "function") :=
      oneLine_functionOr (List.forall_mem_singleton.mp hfunction) (oneLine_literal rfl)
    refine .plain ?_
    simp only [oneLine_append, hname, hfunction, and_true]
    and_intros <;> exact oneLine_literal rfl
  | _ => exact .nothing

/-- The message about an ignored error repeats no text but the callee of a blank assignment. -/
theorem reports_ignored (hc : c.NamesInLine) : Reports (quotedBy "error-ignored" c.detail) (ignored c ctx) := by
  rw [ignored]
  cases hdetail : c.detail with
  | call call =>
    obtain ⟨hcallee, -⟩ := List.forall_mem_cons.mp (names_of_detail hc hdetail)
    refine .plain ?_
    simp only [oneLine_append, hcallee, and_true]
    and_intros <;> exact oneLine_literal rfl
  | errorIgnored e =>
    refine .whenAt fun _ => .append (.append (.words rfl) (.quote ?_)) (.words rfl)
    exact List.mem_singleton_self e.callee
  | _ => exact .nothing

/-- The message about a comparison of error texts repeats the comparison alone. -/
theorem reports_stringCompare : Reports (quotedBy "error-string-compare" c.detail) (stringCompare c ctx) := by
  rw [stringCompare]
  cases hdetail : c.detail with
  | errorCompare e =>
    exact .whenAt fun _ => .append (.words rfl) (.quote (List.mem_singleton_self e.expression))
  | _ => exact .nothing

/-- What is said about an empty, swallowed or logged check of an error shows its name only. -/
theorem reports_errorCheck (hc : c.NamesInLine) :
    Reports quoted (checkEmpty c ctx) ∧ Reports quoted (swallowed c ctx) ∧
    Reports quoted (logAndReturn c ctx) := by
  rw [checkEmpty, swallowed, logAndReturn]
  cases hdetail : c.detail with
  | errorCheck e =>
    have hname : OneLine e.errorName := List.forall_mem_singleton.mp (names_of_detail hc hdetail)
    refine ⟨.plain ?_, .plain ?_, .plain ?_⟩
    all_goals
      simp only [oneLine_append, hname, and_true]
      and_intros <;> exact oneLine_literal rfl
  | _ => exact ⟨.nothing, .nothing, .nothing⟩

/-- Problems of wording are told in one line. -/
theorem oneLine_wordingProblems (message : String) : ∀ problem ∈ wordingProblems message, OneLine problem := by
  have hproblem {found : Bool} {text : String} (htext : OneLine text) :
      ∀ problem ∈ (if found then [text] else []), OneLine problem := by
    split
    · exact List.forall_mem_singleton.mpr htext
    · exact List.forall_mem_nil _
  exact List.forall_mem_append.mpr ⟨hproblem (oneLine_literal rfl), hproblem (oneLine_literal rfl)⟩

/-- The message about the wording of an error repeats the error's text alone. -/
theorem reports_stringFormat : Reports (quotedBy "error-string-format" c.detail) (stringFormat c ctx) := by
  rw [stringFormat]
  cases hdetail : c.detail with
  | errorConstruct e =>
    have hmessage : Quoting (quotedBy "error-string-format" (.errorConstruct e)) (e.message.getD "") :=
      quoting_getD (List.Subset.refl _) oneLine_empty
    refine .whenAt fun _ =>
      .append (.append (.append (.append (.words rfl) (.plain ?_)) (.words rfl)) hmessage) (.words rfl)
    refine oneLine_joinWith (oneLine_literal rfl) ?_
    split
    · exact List.forall_mem_nil _
    · exact oneLine_wordingProblems _
  | _ => exact .nothing

/-- The message about a lost cause shows the names of the formatted errors only. -/
theorem reports_wrapVerb (hc : c.NamesInLine) : Reports quoted (wrapVerb c ctx) := by
  rw [wrapVerb]
  cases hdetail : c.detail with
  | errorConstruct e =>
    have harguments : OneLine (joinWith ", " e.errorArguments) :=
      oneLine_joinWith (oneLine_literal rfl) (names_of_detail hc hdetail)
    refine .plain ?_
    simp only [oneLine_append, harguments, and_true]
    and_intros <;> exact oneLine_literal rfl
  | _ => exact .nothing

/-- The message about an error that is not the last result shows the function's name only. -/
theorem reports_notLastResult (hc : c.NamesInLine) : Reports quoted (notLastResult c ctx) := by
  rw [notLastResult]
  cases hdetail : c.detail with
  | function f =>
    obtain ⟨hname, -⟩ := names_of_function hc hdetail
    dsimp only
    split
    · refine .plain ?_
      simp only [oneLine_append, hname, oneLine_toString, and_true, true_and]
      and_intros <;> exact oneLine_literal rfl
    · exact .nothing
  | _ => exact .nothing

/-- The message about a panic in a library shows names only. -/
theorem reports_panicInLibrary (hc : c.NamesInLine) : Reports quoted (panicInLibrary c ctx) := by
  rw [panicInLibrary]
  cases hdetail : c.detail with
  | call call =>
    obtain ⟨-, hmore⟩ := List.forall_mem_cons.mp (names_of_detail hc hdetail)
    obtain ⟨hfunction, hpackage⟩ := List.forall_mem_cons.mp hmore
    have hfunction : OneLine (functionOr call.function "package initialization") :=
      oneLine_functionOr hfunction (oneLine_literal rfl)
    refine .plain ?_
    simp only [oneLine_append, hfunction, List.forall_mem_singleton.mp hpackage, and_true]
    and_intros <;> exact oneLine_literal rfl
  | _ => exact .nothing

/-- Every rule about errors repeats the texts written down for it and no others. -/
theorem reports_of_mem (hc : c.NamesInLine) :
    ∀ r ∈ rules, Reports (quotedBy r.id c.detail) (r.predicate c ctx) := by
  simp only [rules, List.forall_mem_cons]
  obtain ⟨hempty, hswallowed, hlogged⟩ := reports_errorCheck hc
  exact ⟨reports_notWrapped hc, reports_ignored hc, reports_stringCompare, hempty, hswallowed, hlogged,
    reports_stringFormat, reports_wrapVerb hc, reports_notLastResult hc, reports_panicInLibrary hc,
    List.forall_mem_nil _⟩

end ErrorHandling

/-! ## Interface design -/

namespace InterfaceDesign

/-- The message about a large interface shows its name and its number of methods. -/
theorem reports_tooLarge (hc : c.NamesInLine) (hctx : ctx.InLine) : Reports quoted (tooLarge c ctx) := by
  have hlimit := oneLine_option hctx "max_methods" 2
  rw [tooLarge]
  cases hdetail : c.detail with
  | interface i =>
    obtain ⟨hname, -⟩ := List.forall_mem_cons.mp (names_of_detail hc hdetail)
    have hmessage : OneLine ("interface " ++ i.name ++ " has " ++ toString i.methods.length ++ " methods") := by
      simp only [oneLine_append, hname, oneLine_toString, and_true]
      and_intros <;> exact oneLine_literal rfl
    refine (words_reaches _ _).bind fun isError _ => ?_
    split
    · refine (words_limitText hlimit).bind fun text htext => .ok (List.forall_mem_singleton.mpr ?_)
      refine ⟨.plain (hmessage.append htext), fun s hs => ?_⟩
      cases hs
    · exact Reports.above hlimit _ hmessage
  | _ => exact .nothing

/-- The spellings of the empty interface are single lines. -/
theorem oneLine_of_mem_anyTypes {type : String} (h : type ∈ anyTypes) : OneLine type := by
  revert type
  simp only [anyTypes, List.forall_mem_cons]
  exact ⟨oneLine_literal rfl, oneLine_literal rfl, List.forall_mem_nil _⟩

/-- The message about a parameter of the empty interface shows names and the type's spelling. -/
theorem reports_emptyParam (hc : c.NamesInLine) : Reports quoted (emptyParam c ctx) := by
  rw [emptyParam]
  cases hdetail : c.detail with
  | function f =>
    obtain ⟨hname, -, hparams⟩ := names_of_function hc hdetail
    refine .each fun p hp => .plain ?_
    obtain ⟨hmem, hany⟩ := List.mem_filter.mp hp
    have hparam : OneLine (p.name.getD "parameter") := oneLine_getD (hparams p hmem) (oneLine_literal rfl)
    have htype : OneLine p.type :=
      oneLine_of_mem_anyTypes (List.contains_iff_mem.mp (Bool.and_eq_true_iff.mp hany).1)
    simp only [oneLine_append, hparam, hname, htype, and_true]
    and_intros <;> exact oneLine_literal rfl
  | _ => exact .nothing

/-- The message about an interface of one method shows names only. -/
theorem reports_nameSuffix (hc : c.NamesInLine) : Reports quoted (nameSuffix c ctx) := by
  rw [nameSuffix]
  cases hdetail : c.detail with
  | interface i =>
    obtain ⟨hname, hmethods⟩ := List.forall_mem_cons.mp (names_of_detail hc hdetail)
    dsimp only
    split
    · next method hmethod =>
      rw [hmethod] at hmethods
      have hagent : OneLine (agentName method.name) := by
        refine OneLine.append (List.forall_mem_singleton.mp hmethods) ?_
        split <;> exact oneLine_literal rfl
      refine .plain ?_
      simp only [oneLine_append, hname, hagent, and_true]
      and_intros <;> exact oneLine_literal rfl
    · exact .nothing
  | _ => exact .nothing

/-- The name of an interface that is declared. -/
theorem oneLine_of_hasInterface (hctx : ctx.InLine) {type : String} (h : ctx.index.hasInterface type = true) :
    OneLine type := by
  obtain ⟨i, hi, hname⟩ := List.any_eq_true.mp h
  exact beq_iff_eq.mp hname ▸ hctx.index.interfaces i hi

/-- The interfaces known from the standard library have names of one line. -/
theorem oneLine_of_mem_knownInterfaces {type : String} (h : type ∈ knownInterfaces) : OneLine type := by
  revert type
  simp only [knownInterfaces, List.forall_mem_cons]
  and_intros
  all_goals first | exact oneLine_literal rfl | exact List.forall_mem_nil _

/-- A pointer to an interface that is known. -/
theorem oneLine_of_pointsToInterface (hctx : ctx.InLine) {type : String} (h : pointsToInterface ctx type = true) :
    OneLine type := by
  obtain ⟨hstar, hknown⟩ := Bool.and_eq_true_iff.mp h
  have hrest : OneLine (dropChars type 1) := by
    rcases Bool.or_eq_true_iff.mp hknown with hknown | hknown
    · exact oneLine_of_mem_knownInterfaces (List.contains_iff_mem.mp hknown)
    · exact oneLine_of_hasInterface hctx hknown
  intro c hc
  obtain ⟨rest, htype⟩ := List.isPrefixOf_iff_prefix.mp hstar
  rw [OneLine, dropChars, ← htype, String.toList_ofList] at hrest
  rw [← htype] at hc
  rcases List.mem_cons.mp hc with rfl | hc
  · decide
  · exact hrest c hc

/-- A returned interface is shown by its name alone: it is a known one, or one that the file declares. -/
theorem reports_returned (hc : c.NamesInLine) (hctx : ctx.InLine) : Reports quoted (returned c ctx) := by
  rw [returned]
  cases hdetail : c.detail with
  | function f =>
    obtain ⟨hname, -⟩ := names_of_function hc hdetail
    dsimp only
    split
    · refine .each fun r hr => .plain ?_
      have htype : OneLine r.type := oneLine_of_hasInterface hctx (List.mem_filter.mp hr).2
      simp only [oneLine_append, hname, htype, and_true, true_and]
      and_intros <;> exact oneLine_literal rfl
    · exact .nothing
  | _ => exact .nothing

/-- The message about a pointer to an interface shows the interface by a known or declared name. -/
theorem reports_pointer (hc : c.NamesInLine) (hctx : ctx.InLine) : Reports quoted (pointer c ctx) := by
  rw [pointer]
  cases hdetail : c.detail with
  | struct s =>
    obtain ⟨hname, -⟩ := List.forall_mem_cons.mp (names_of_detail hc hdetail)
    refine .each fun f hf => .plain ?_
    have htype : OneLine f.type := oneLine_of_pointsToInterface hctx (List.mem_filter.mp hf).2
    simp only [oneLine_append, hname, htype, and_true]
    and_intros <;> exact oneLine_literal rfl
  | function f =>
    obtain ⟨hname, -⟩ := names_of_function hc hdetail
    refine .each fun p hp => .plain ?_
    have htype : OneLine p.type := oneLine_of_pointsToInterface hctx (List.mem_filter.mp hp).2
    simp only [oneLine_append, hname, htype, and_true, true_and]
    and_intros <;> exact oneLine_literal rfl
  | _ => exact .nothing

/-- Every rule about interfaces repeats the texts written down for it and no others. -/
theorem reports_of_mem (hc : c.NamesInLine) (hctx : ctx.InLine) :
    ∀ r ∈ rules, Reports (quotedBy r.id c.detail) (r.predicate c ctx) := by
  simp only [rules, List.forall_mem_cons]
  exact ⟨reports_tooLarge hc hctx, reports_emptyParam hc, reports_nameSuffix hc, reports_returned hc hctx,
    reports_pointer hc hctx, List.forall_mem_nil _⟩

end InterfaceDesign

/-! ## Concurrency -/

namespace Concurrency

/-- A goroutine whose function cannot be looked up. -/
theorem words_target? (g : GoInfo) : Words (fun _ => True) (target? ctx g) := by
  have hsplit : OneLine (MatchFailure.noAttribute "split").message := oneLine_noAttribute (oneLine_literal rfl)
  have hlist : OneLine (MatchFailure.outOfRange "list").message := oneLine_outOfRange (oneLine_literal rfl)
  rw [target?]
  split
  · refine Outcome.map (P := fun _ => True) ?_ fun _ _ => trivial
    rw [methodName]
    split
    · exact .error hsplit
    · split
      · exact .ok trivial
      · exact .error hlist
  · exact .ok trivial

/-- The message about a started goroutine repeats the callee alone. -/
theorem reports_lifecycle : Reports (quotedBy "goroutine-lifecycle" c.detail) (lifecycle c ctx) := by
  rw [lifecycle]
  cases hdetail : c.detail with
  | go g =>
    have hcallee : Quoting (quotedBy "goroutine-lifecycle" (.go g)) (calleeText g) :=
      quoting_getD (List.Subset.refl _) (oneLine_literal rfl)
    dsimp only
    split
    · exact .plain (oneLine_literal rfl)
    · refine (words_target? g).bind fun target _ => ?_
      split
      · exact Reports.whenAt fun _ => .append (.append (.words rfl) hcallee) (.words rfl)
      · exact Reports.whenAt fun _ => .append (.append (.words rfl) hcallee) (.words rfl)
  | _ => exact .nothing

/-- The types of locks have names of one line. -/
theorem oneLine_of_mem_mutexTypes {type : String} (h : type ∈ mutexTypes) : OneLine type := by
  revert type
  simp only [mutexTypes, List.forall_mem_cons]
  exact ⟨oneLine_literal rfl, oneLine_literal rfl, List.forall_mem_nil _⟩

/-- The name of a type that holds a lock. -/
theorem oneLine_of_holdsMutex (hctx : ctx.InLine) {type : String} (h : holdsMutex ctx type = true) :
    OneLine type := by
  rcases Bool.or_eq_true_iff.mp h with h | h
  · exact oneLine_of_mem_mutexTypes (List.contains_iff_mem.mp h)
  · obtain ⟨s, hs, -⟩ := (Option.any_eq_true _ _).mp h
    obtain ⟨hmem, hname⟩ := List.mem_filter.mp (List.mem_of_getLast? hs)
    exact beq_iff_eq.mp hname ▸ hctx.index.structs s hmem

/-- The message about a copied lock shows names and types that are locks or declared to hold one. -/
theorem reports_mutexCopy (hc : c.NamesInLine) (hctx : ctx.InLine) : Reports quoted (mutexCopy c ctx) := by
  rw [mutexCopy]
  cases hdetail : c.detail with
  | function f =>
    obtain ⟨hname, -, hparams⟩ := names_of_function hc hdetail
    refine .ok (List.forall_mem_append.mpr ⟨(Reports.each fun r hr => .plain ?_).of_ok,
      (Reports.each fun p hp => .plain ?_).of_ok⟩)
    · have htype : OneLine r.typeName :=
        oneLine_of_holdsMutex hctx (Bool.and_eq_true_iff.mp (List.mem_filter.mp hr).2).2
      simp only [oneLine_append, htype, hname, and_true]
      and_intros <;> exact oneLine_literal rfl
    · obtain ⟨hmem, hholds⟩ := List.mem_filter.mp hp
      have htype : OneLine p.type := oneLine_of_holdsMutex hctx hholds
      have hparam : OneLine (p.name.getD p.type) := oneLine_getD (hparams p hmem) htype
      simp only [oneLine_append, hparam, htype, hname, and_true]
      and_intros <;> exact oneLine_literal rfl
  | _ => exact .nothing

/-- What is said about wait groups among some parameters is in one line when the names are. -/
theorem reports_waitGroups {owner : String} (howner : OneLine owner) {params : List Param}
    (hparams : ∀ p ∈ params, p.NameInLine) : Reports quoted (report (waitGroups owner params)) := by
  refine .each fun p hp => .plain ?_
  have hparam : OneLine (p.name.getD "_") :=
    oneLine_getD (hparams p (List.mem_filter.mp hp).1) (oneLine_literal rfl)
  simp only [oneLine_append, howner, hparam, and_true, true_and]
  and_intros <;> exact oneLine_literal rfl

/-- The message about a wait group taken by value shows names only. -/
theorem reports_waitGroupByValue (hc : c.NamesInLine) : Reports quoted (waitGroupByValue c ctx) := by
  rw [waitGroupByValue]
  cases hdetail : c.detail with
  | function f =>
    obtain ⟨hname, -, hparams⟩ := names_of_function hc hdetail
    exact reports_waitGroups hname hparams
  | go g =>
    obtain ⟨-, hparams⟩ := List.forall_mem_append.mp (names_of_detail hc hdetail)
    refine reports_waitGroups (oneLine_literal rfl) fun p hp name hname => hparams name ?_
    exact List.mem_filterMap.mpr ⟨p, hp, hname⟩
  | _ => exact .nothing

/-- The message about a deferred call in a loop repeats the callee alone. -/
theorem reports_deferInLoop (hc : c.NamesInLine) :
    Reports (quotedBy "defer-in-loop" c.detail) (deferInLoop c ctx) := by
  rw [deferInLoop]
  cases hdetail : c.detail with
  | defer d =>
    have hfunction : OneLine (functionOr d.function "the function") :=
      oneLine_functionOr (List.forall_mem_singleton.mp (names_of_detail hc hdetail)) (oneLine_literal rfl)
    have hcallee : Quoting (quotedBy "defer-in-loop" (.defer d))
        (functionOr (d.callee.getD "") "function literal") := by
      rw [functionOr]
      split
      · exact .plain (oneLine_literal rfl)
      · exact quoting_getD (List.Subset.refl _) oneLine_empty
    exact .whenAt fun _ =>
      .append (.append (.append (.append (.words rfl) hcallee) (.words rfl)) (.plain hfunction)) (.words rfl)
  | _ => exact .nothing

/-- The message about a captured loop variable shows the variable only. -/
theorem reports_loopCapture (hc : c.NamesInLine) : Reports quoted (loopCapture c ctx) := by
  rw [loopCapture]
  cases hdetail : c.detail with
  | go g =>
    obtain ⟨hcaptured, -⟩ := List.forall_mem_append.mp (names_of_detail hc hdetail)
    exact .plain (OneLine.append (oneLine_literal rfl) (oneLine_joinWith (oneLine_literal rfl) hcaptured))
  | _ => exact .nothing

/-- The message about the size of a buffer repeats the type of the elements alone. -/
theorem reports_bufferSize : Reports (quotedBy "channel-buffer-size" c.detail) (bufferSize c ctx) := by
  rw [bufferSize]
  cases hdetail : c.detail with
  | channelMake ch =>
    dsimp only
    split
    · refine (words_above _ _).bind fun large _ => Reports.whenAt fun _ => ?_
      refine .append (.append (.append (.words rfl) (.quote ?_)) (.words rfl)) (.plain (oneLine_toString _))
      exact List.mem_singleton_self ch.element
    · exact .nothing
  | _ => exact .nothing

/-- The messages about selects of one case and of none repeat nothing of the source. -/
theorem reports_select :
    Reports quoted (selectSingle c ctx) ∧ Reports quoted (selectEmpty c ctx) := by
  rw [selectSingle, selectEmpty]
  cases c.detail with
  | select s => exact ⟨.plain (oneLine_literal rfl), .plain (oneLine_literal rfl)⟩
  | _ => exact ⟨.nothing, .nothing⟩

/-- The message about a context that is not first shows names only. -/
theorem reports_contextNotFirst (hc : c.NamesInLine) : Reports quoted (contextNotFirst c ctx) := by
  rw [contextNotFirst]
  cases hdetail : c.detail with
  | function f =>
    obtain ⟨hname, -⟩ := names_of_function hc hdetail
    dsimp only
    split
    · refine .plain ?_
      simp only [oneLine_append, hname, oneLine_toString, and_true]
      and_intros <;> exact oneLine_literal rfl
    · exact .nothing
  | _ => exact .nothing

/-- The message about a context kept in a struct shows names only. -/
theorem reports_contextInStruct (hc : c.NamesInLine) : Reports quoted (contextInStruct c ctx) := by
  rw [contextInStruct]
  cases hdetail : c.detail with
  | struct s =>
    obtain ⟨hname, hfields⟩ := List.forall_mem_cons.mp (names_of_detail hc hdetail)
    refine .each fun f hf => .plain ?_
    have hnames : OneLine (joinWith ", " f.names) := oneLine_joinWith (oneLine_literal rfl) fun name hmem =>
      hfields name (List.mem_flatMap.mpr ⟨f, (List.mem_filter.mp hf).1, hmem⟩)
    have hfield : OneLine (functionOr (joinWith ", " f.names) "embedded field") :=
      oneLine_functionOr hnames (oneLine_literal rfl)
    simp only [oneLine_append, hname, hfield, and_true, true_and]
    exact oneLine_literal rfl
  | _ => exact .nothing

/-- The message about an embedded lock shows the struct's name and the type of a lock. -/
theorem reports_mutexEmbedded (hc : c.NamesInLine) : Reports quoted (mutexEmbedded c ctx) := by
  rw [mutexEmbedded]
  cases hdetail : c.detail with
  | struct s =>
    obtain ⟨hname, -⟩ := List.forall_mem_cons.mp (names_of_detail hc hdetail)
    refine .each fun f hf => .plain ?_
    have htype : OneLine f.type := oneLine_of_mem_mutexTypes
      (List.contains_iff_mem.mp (Bool.and_eq_true_iff.mp (List.mem_filter.mp hf).2).2)
    simp only [oneLine_append, hname, htype, and_true, true_and]
    and_intros <;> exact oneLine_literal rfl
  | _ => exact .nothing

/-- Every rule about concurrency repeats the texts written down for it and no others. -/
theorem reports_of_mem (hc : c.NamesInLine) (hctx : ctx.InLine) :
    ∀ r ∈ rules, Reports (quotedBy r.id c.detail) (r.predicate c ctx) := by
  simp only [rules, List.forall_mem_cons]
  exact ⟨reports_lifecycle, reports_mutexCopy hc hctx, reports_waitGroupByValue hc, reports_deferInLoop hc,
    reports_loopCapture hc, reports_bufferSize, reports_select.1, reports_select.2, reports_contextNotFirst hc,
    reports_contextInStruct hc, reports_mutexEmbedded hc, List.forall_mem_nil _⟩

end Concurrency

/-! ## Naming -/

namespace Naming

/-- The message about a method that repeats its receiver's type shows names only. -/
theorem reports_methodStutter (hc : c.NamesInLine) : Reports quoted (methodStutter c ctx) := by
  rw [methodStutter]
  cases hdetail : c.detail with
  | function f =>
    obtain ⟨hname, -⟩ := names_of_function hc hdetail
    dsimp only
    split
    · next r _ =>
      refine .whenAt fun hstutter => .plain ?_
      have hbegins := List.isPrefixOf_iff_prefix.mp (Bool.and_eq_true_iff.mp hstutter).2
      have htype : OneLine r.typeName := hname.of_subset hbegins.subset
      simp only [oneLine_append, hname, htype, and_true]
      and_intros <;> exact oneLine_literal rfl
    · exact .nothing
  | _ => exact .nothing

/-- The message about a getter shows the method's name and the name without its prefix. -/
theorem reports_getterHead (hc : c.NamesInLine) : Reports quoted (getterHead c ctx) := by
  rw [getterHead]
  cases hdetail : c.detail with
  | function f =>
    obtain ⟨hname, -⟩ := names_of_function hc hdetail
    have hrest : OneLine (dropChars f.name 3) := hname.dropChars 3
    dsimp only
    split
    · refine .ok (List.forall_mem_singleton.mpr ⟨.plain ?_, fun s hs => ?_⟩)
      · change OneLine ("accessor " ++ f.name ++ " should be named " ++ dropChars f.name 3)
        simp only [oneLine_append, hname, hrest, and_true]
        and_intros <;> exact oneLine_literal rfl
      · obtain rfl := Option.some.inj hs
        simp only [oneLine_append, hname, hrest, and_true]
        and_intros <;> exact oneLine_literal rfl
    · exact .nothing
  | _ => exact .nothing

/-- The message about a receiver called `this` or `self` repeats the receiver's type alone. -/
theorem reports_receiverSelf (hc : c.NamesInLine) :
    Reports (quotedBy "receiver-name-self" c.detail) (receiverSelf c ctx) := by
  rw [receiverSelf]
  cases hdetail : c.detail with
  | function f =>
    obtain ⟨hname, hreceiver, -⟩ := names_of_function hc hdetail
    refine .ok fun hit hhit => ?_
    obtain ⟨r, hr, hhit⟩ := List.mem_flatMap.mp hhit
    have htype : r.typeName ∈ quotedBy "receiver-name-self" (.function f) := List.mem_map_of_mem hr
    have hself : OneLine (r.name.getD "") :=
      oneLine_getD (hreceiver r (Option.mem_toList.mp hr)) oneLine_empty
    refine Reports.says_when (fun _ => ?_) hit hhit
    exact .append (.append (.append (.append (.append (.append (.words rfl) (.quote htype)) (.words rfl))
      (.plain hname)) (.words rfl)) (.plain hself)) (.words rfl)
  | _ => exact .nothing

/-- The name of the first named receiver, and that of its method. -/
theorem words_firstNamed {methods : List Declared} (h : ∀ d ∈ methods, OneLine d.info.name ∧
      ∀ r ∈ d.info.receiver, ∀ name ∈ r.name, OneLine name) :
    Words (fun found => ∀ f ∈ found, OneLine f.1 ∧ OneLine f.2) (firstNamed methods) := by
  induction methods with
  | nil => exact .ok fun _ hf => nomatch hf
  | cons d rest ih =>
    obtain ⟨⟨hname, hreceiver⟩, hrest⟩ := List.forall_mem_cons.mp h
    rw [firstNamed]
    split
    · exact .error (oneLine_noAttribute (oneLine_literal rfl))
    · split
      · next other hother =>
        refine .ok fun f hf => ?_
        obtain rfl := Option.some.inj hf
        obtain ⟨r, hr, hnamed⟩ := Option.bind_eq_some_iff.mp (Option.filter_eq_some_iff.mp hother).1
        exact ⟨hreceiver r hr other hnamed, hname⟩
      · exact ih hrest

/-- The message about receivers with two names repeats the receiver's type alone. -/
theorem reports_receiverInconsistent (hc : c.NamesInLine) (hctx : ctx.InLine) :
    Reports (quotedBy "receiver-name-inconsistent" c.detail) (receiverInconsistent c ctx) := by
  rw [receiverInconsistent]
  cases hdetail : c.detail with
  | function f =>
    obtain ⟨hname, hreceiver, -⟩ := names_of_function hc hdetail
    dsimp only
    split
    · next r name hr hnamed =>
      have htype : r.typeName ∈ quotedBy "receiver-name-inconsistent" (.function f) :=
        List.mem_map_of_mem (Option.mem_toList.mpr hr)
      obtain ⟨r', hr', hnamed⟩ := Option.bind_eq_some_iff.mp (Option.filter_eq_some_iff.mp hnamed).1
      have hself : OneLine name := hreceiver r' hr' name hnamed
      refine (words_firstNamed fun d hd => ?_).bind fun found hfound => ?_
      · obtain ⟨m, hm, rfl⟩ := List.mem_map.mp (List.mem_mergeSort.mp hd)
        exact hctx.index.methods m (List.mem_filter.mp hm).1
      · split
        · next other method =>
          obtain ⟨hother, hmethod⟩ := hfound _ rfl
          refine Reports.whenAt fun _ => ?_
          -- The type is quoted twice: for the method that is reported and for the one it differs from.
          have hfirst : Quoting (quotedBy "receiver-name-inconsistent" (.function f))
              ("receiver '" ++ name ++ "' of " ++ r.typeName ++ "." ++ f.name) :=
            .append (.append (.append (.append (.append (.words rfl) (.plain hself))
              (.words rfl)) (.quote htype)) (.words rfl)) (.plain hname)
          exact .append (.append (.append (.append (.append (.append hfirst (.words rfl)) (.plain hother))
            (.words rfl)) (.quote htype)) (.words rfl)) (.plain hmethod)
        · exact Reports.nothing
    · exact .nothing
  | _ => exact .nothing

/-- The name of a package without an ending. -/
theorem oneLine_packageName {name : String} (h : OneLine name) (isTest : Bool) :
    OneLine (packageName name isTest) := by
  rw [packageName]
  split
  · exact h.dropLastChars 5
  · exact h

/-- The message about a package name that says nothing shows that name only. -/
theorem reports_packageGeneric (hc : c.NamesInLine) : Reports quoted (packageGeneric c ctx) := by
  rw [packageGeneric]
  cases hdetail : c.detail with
  | package name isTest =>
    have hname := oneLine_packageName (List.forall_mem_singleton.mp (names_of_detail hc hdetail)) isTest
    refine Outcome.bind (P := fun _ => True) ?_ fun generic _ => ?_
    · unfold MatchContext.holdsName
      split
      · exact .ok trivial
      · exact .ok trivial
      · exact .ok trivial
      · exact .ok trivial
      · exact .error (oneLine_notContainer _)
    · refine Reports.plain ?_
      simp only [oneLine_append, hname, and_true]
      and_intros <;> exact oneLine_literal rfl
  | _ => exact .nothing

/-- The message about the form of a package name shows that name only. -/
theorem reports_packageFormat (hc : c.NamesInLine) : Reports quoted (packageFormat c ctx) := by
  rw [packageFormat]
  cases hdetail : c.detail with
  | package name isTest =>
    have hname := oneLine_packageName (List.forall_mem_singleton.mp (names_of_detail hc hdetail)) isTest
    refine .plain ?_
    simp only [oneLine_append, hname, and_true]
    and_intros <;> exact oneLine_literal rfl
  | _ => exact .nothing

/-- The names that a construct declares. -/
theorem oneLine_declared (hc : c.NamesInLine) : ∀ d ∈ declared c, OneLine d.1 := by
  rw [declared]
  cases hdetail : c.detail with
  | global g =>
    intro d hd
    obtain ⟨n, hn, rfl⟩ := List.mem_map.mp hd
    exact names_of_detail hc hdetail n.1 (List.mem_map_of_mem hn)
  | function f =>
    dsimp only
    split
    · exact List.forall_mem_nil _
    · exact List.forall_mem_singleton.mpr (names_of_function hc hdetail).1
  | struct s => exact List.forall_mem_singleton.mpr (List.forall_mem_cons.mp (names_of_detail hc hdetail)).1
  | interface i => exact List.forall_mem_singleton.mpr (List.forall_mem_cons.mp (names_of_detail hc hdetail)).1
  | type t => exact List.forall_mem_singleton.mpr (List.forall_mem_cons.mp (names_of_detail hc hdetail)).1
  | _ => exact List.forall_mem_nil _

/-- A hit at a name. -/
theorem says_hitAt {pos : Option Position} {message : String} (h : OneLine message) :
    Says quoted (hitAt pos message) := by
  cases pos with
  | none => exact Reports.says_here (.plain h)
  | some p => exact Reports.says_at (.plain h)

/-- The message about an underscore in a name shows the name and how it should be written. -/
theorem reports_underscore (hc : c.NamesInLine) : Reports quoted (underscore c ctx) := by
  refine .ok fun hit hhit => ?_
  obtain ⟨d, hd, hhit⟩ := List.mem_filterMap.mp hhit
  obtain ⟨-, hhit⟩ := Option.ite_none_right_eq_some.mp hhit
  obtain rfl := Option.some.inj hhit
  refine says_hitAt ?_
  simp only [oneLine_append, oneLine_declared hc d hd, and_true]
  and_intros <;> exact oneLine_literal rfl

/-- The corrections of initialisms. -/
theorem oneLine_of_mem_mixedInitialisms {word : String} (h : word ∈ mixedInitialisms) :
    OneLine (word ++ " -> " ++ Text.upper word) := by
  have hword : OneLine word := by
    revert word
    simp only [mixedInitialisms, List.forall_mem_cons]
    and_intros
    all_goals first | exact oneLine_literal rfl | exact List.forall_mem_nil _
  exact (hword.append (oneLine_literal rfl)).append hword.upper

/-- The message about the case of an initialism shows the name and how it should be written. -/
theorem reports_initialismCase (hc : c.NamesInLine) : Reports quoted (initialismCase c ctx) := by
  refine .ok fun hit hhit => ?_
  obtain ⟨d, hd, hhit⟩ := List.mem_filterMap.mp hhit
  obtain ⟨-, hhit⟩ := Option.ite_none_left_eq_some.mp hhit
  obtain rfl := Option.some.inj hhit
  refine says_hitAt ?_
  have hfixed : OneLine (joinWith ", " (((words d.1.toList).filter mixedInitialisms.contains).map
      fun w => w ++ " -> " ++ Text.upper w)) := by
    refine oneLine_joinWith (oneLine_literal rfl) fun part hpart => ?_
    obtain ⟨w, hw, rfl⟩ := List.mem_map.mp hpart
    exact oneLine_of_mem_mixedInitialisms (List.contains_iff_mem.mp (List.mem_filter.mp hw).2)
  simp only [oneLine_append, oneLine_declared hc d hd, hfixed, and_true]
  and_intros <;> exact oneLine_literal rfl

/-- The name of a type. -/
theorem oneLine_typeName? (hc : c.NamesInLine) : ∀ name ∈ typeName? c, OneLine name := by
  rw [typeName?]
  have hfirst {d : Detail} {name : String} {more : List String} (hdetail : c.detail = d)
      (hd : d.names = name :: more) :
      ∀ shown ∈ some name, OneLine shown := fun shown hshown =>
    Option.some.inj hshown ▸ names_of_detail hc hdetail name (hd ▸ List.mem_cons_self)
  cases hdetail : c.detail with
  | struct s => exact hfirst hdetail rfl
  | interface i => exact hfirst hdetail rfl
  | type t => exact hfirst hdetail rfl
  | _ =>
    intro name hname
    cases hname

/-- The message about a name that repeats the package's shows both names only. -/
theorem reports_packageStutter (hc : c.NamesInLine) (hctx : ctx.InLine) :
    Reports quoted (packageStutter c ctx) := by
  rw [packageStutter]
  split
  · next name package hname hpackage =>
    have hname := oneLine_typeName? hc name hname
    have hpackage := hctx.index.package package hpackage
    have hrest : OneLine (dropChars name package.length) := hname.dropChars _
    refine .plain ?_
    simp only [oneLine_append, hname, hpackage, hrest, and_true, true_and]
    and_intros <;> exact oneLine_literal rfl
  · exact .nothing

/-- A name with its first character in upper case. -/
theorem oneLine_capitalized {name : String} (h : OneLine name) : OneLine (capitalized name) := by
  rw [capitalized]
  split
  · exact oneLine_empty
  · next c rest hname =>
    rw [OneLine, hname] at h
    obtain ⟨hc, hrest⟩ := List.forall_mem_cons.mp h
    exact oneLine_ofList.mpr (List.forall_mem_append.mpr ⟨upperOf_not_mem hc, hrest⟩)

/-- What is said about the names of some error values is in one line when the names are. -/
theorem reports_errorValues {names : List (String × Position)} (h : ∀ n ∈ names, OneLine n.1) :
    Reports quoted (errorValues names) := by
  induction names with
  | nil => exact .nothing
  | cons n rest ih =>
    obtain ⟨hname, hrest⟩ := List.forall_mem_cons.mp h
    have hhead : OneLine (if Name.isExported n.1 then "Err" else "err") := by
      split <;> exact oneLine_literal rfl
    rw [errorValues]
    dsimp only
    generalize (if Name.isExported n.1 then "Err" else "err") = head at hhead ⊢
    split
    · exact .error (oneLine_outOfRange (oneLine_literal rfl))
    · refine (ih hrest).bind fun more hmore => .ok ?_
      split
      · refine List.forall_mem_cons.mpr ⟨Reports.says_at (.plain ?_), hmore⟩
        simp only [oneLine_append, hname, hhead, oneLine_capitalized hname, and_true]
        and_intros <;> exact oneLine_literal rfl
      · exact hmore

/-- The message about the name of an error shows that name only. -/
theorem reports_errorNaming (hc : c.NamesInLine) : Reports quoted (errorNaming c ctx) := by
  have hname : OneLine ((typeName? c).getD "") := oneLine_getD (oneLine_typeName? hc) oneLine_empty
  have hmessage : OneLine ("error type " ++ (typeName? c).getD "" ++ " should be named " ++ (typeName? c).getD "" ++
      "Error") := by
    simp only [oneLine_append, hname, and_true]
    and_intros <;> exact oneLine_literal rfl
  rw [errorNaming]
  cases hdetail : c.detail with
  | global g =>
    dsimp only
    split
    · exact reports_errorValues fun n hn => names_of_detail hc hdetail n.1 (List.mem_map_of_mem hn)
    · exact .nothing
  | struct s => exact .plain hmessage
  | type t => exact .plain hmessage
  | _ => exact .nothing

/-- Every rule about names repeats the texts written down for it and no others. -/
theorem reports_of_mem (hc : c.NamesInLine) (hctx : ctx.InLine) :
    ∀ r ∈ rules, Reports (quotedBy r.id c.detail) (r.predicate c ctx) := by
  simp only [rules, List.forall_mem_cons]
  exact ⟨reports_methodStutter hc, reports_getterHead hc, reports_receiverSelf hc,
    reports_receiverInconsistent hc hctx, reports_packageGeneric hc, reports_packageFormat hc,
    reports_underscore hc, reports_initialismCase hc, reports_packageStutter hc hctx, reports_errorNaming hc,
    List.forall_mem_nil _⟩

end Naming

/-! ## Testing -/

namespace Testing

/-- The message about the name of a test shows that name only. -/
theorem reports_nameFormat (hc : c.NamesInLine) : Reports quoted (nameFormat c ctx) := by
  rw [nameFormat]
  cases hdetail : c.detail with
  | testFunction t =>
    obtain ⟨hname, hhead⟩ := List.forall_mem_cons.mp (names_of_detail hc hdetail)
    refine .plain ?_
    simp only [oneLine_append, hname, List.forall_mem_singleton.mp hhead, and_true, true_and]
    and_intros <;> exact oneLine_literal rfl
  | _ => exact .nothing

/-- The types that a test should have. -/
theorem words_expectedTypes (t : TestInfo) :
    Words (fun types => ∀ type ∈ types, OneLine type) (expectedTypes t) := by
  have hparams : ∀ p ∈ paramTypes, OneLine p.2 := by
    simp only [paramTypes, List.forall_mem_cons]
    exact ⟨oneLine_literal rfl, oneLine_literal rfl, oneLine_literal rfl, List.forall_mem_nil _⟩
  rw [expectedTypes]
  split
  · exact .ok (List.forall_mem_singleton.mpr (oneLine_literal rfl))
  · split
    · exact .ok (List.forall_mem_nil _)
    · split
      · next type htype =>
        obtain ⟨front, back, htable, -⟩ := List.lookup_eq_some_iff.mp htype
        have hmem : (t.head, type) ∈ paramTypes := htable ▸ List.mem_append_right _ List.mem_cons_self
        exact .ok (List.forall_mem_singleton.mpr (hparams _ hmem))
      · exact .error (oneLine_noKey t.head)

/-- The message about the signature of a test shows its name and the parameters it should have. -/
theorem reports_signature (hc : c.NamesInLine) : Reports quoted (signature c ctx) := by
  rw [signature]
  cases hdetail : c.detail with
  | testFunction t =>
    obtain ⟨hname, -⟩ := List.forall_mem_cons.mp (names_of_detail hc hdetail)
    dsimp only
    split
    · exact .nothing
    · refine (words_expectedTypes t).bind fun types htypes => Reports.plain ?_
      have hjoined := oneLine_joinWith (oneLine_literal rfl : OneLine ", ") htypes
      simp only [oneLine_append, hname, hjoined, and_true, true_and]
      and_intros <;> exact oneLine_literal rfl
  | _ => exact .nothing

/-- The message about a test without assertions shows its name only. -/
theorem reports_withoutAssertions (hc : c.NamesInLine) : Reports quoted (withoutAssertions c ctx) := by
  rw [withoutAssertions]
  cases hdetail : c.detail with
  | testFunction t =>
    obtain ⟨hname, -⟩ := List.forall_mem_cons.mp (names_of_detail hc hdetail)
    exact .plain (hname.append (oneLine_literal rfl))
  | _ => exact .nothing

/-- The message about a pause in a test shows names only. -/
theorem reports_sleep (hc : c.NamesInLine) : Reports quoted (sleep c ctx) := by
  rw [sleep]
  cases hdetail : c.detail with
  | call call =>
    obtain ⟨-, hmore⟩ := List.forall_mem_cons.mp (names_of_detail hc hdetail)
    have hfunction :=
      oneLine_functionOr (List.forall_mem_cons.mp hmore).1 (oneLine_literal rfl : OneLine "test code")
    exact .plain (OneLine.append (oneLine_literal rfl) hfunction)
  | _ => exact .nothing

/-- The message about a test ended from a goroutine shows names only. -/
theorem reports_fatalInGoroutine (hc : c.NamesInLine) : Reports quoted (fatalInGoroutine c ctx) := by
  rw [fatalInGoroutine]
  cases hdetail : c.detail with
  | call call =>
    obtain ⟨hcallee, -⟩ := List.forall_mem_cons.mp (names_of_detail hc hdetail)
    exact .plain (hcallee.append (oneLine_literal rfl))
  | _ => exact .nothing

/-- The message about a missing helper mark shows the function's name only. -/
theorem reports_helperMissing (hc : c.NamesInLine) : Reports quoted (helperMissing c ctx) := by
  rw [helperMissing]
  cases hdetail : c.detail with
  | function f =>
    obtain ⟨hname, -, hparams⟩ := names_of_function hc hdetail
    have hparam : OneLine (f.testParam.getD "") := by
      refine oneLine_getD (fun name hparam => ?_) oneLine_empty
      obtain ⟨p, hp, hnamed⟩ := List.exists_of_findSome?_eq_some hparam
      exact hparams p hp name (Option.ite_none_right_eq_some.mp hnamed).2
    refine .plain ?_
    simp only [oneLine_append, hname, hparam, and_true]
    and_intros <;> exact oneLine_literal rfl
  | _ => exact .nothing

/-- Every rule about tests repeats the texts written down for it and no others. -/
theorem reports_of_mem (hc : c.NamesInLine) :
    ∀ r ∈ rules, Reports (quotedBy r.id c.detail) (r.predicate c ctx) := by
  simp only [rules, List.forall_mem_cons]
  exact ⟨reports_nameFormat hc, reports_signature hc, reports_withoutAssertions hc, reports_sleep hc,
    reports_fatalInGoroutine hc, reports_helperMissing hc, List.forall_mem_nil _⟩

end Testing

/-! ## Organization -/

namespace Organization

/-- The message about an init function repeats nothing of the source. -/
theorem reports_initFunction : Reports quoted (initFunction c ctx) := by
  rw [initFunction]
  cases c.detail with
  | function f => exact .plain (oneLine_literal rfl)
  | _ => exact .nothing

/-- The message about state of a package shows the variables' names only. -/
theorem reports_globalState (hc : c.NamesInLine) : Reports quoted (globalState c ctx) := by
  rw [globalState]
  cases hdetail : c.detail with
  | global g =>
    exact .plain (OneLine.append (oneLine_literal rfl) (oneLine_joinWith (oneLine_literal rfl) fun name hname =>
      names_of_detail hc hdetail name (List.mem_filter.mp hname).1))
  | _ => exact .nothing

/-- The rules that compare a function with a limit. -/
theorem reports_functionLimits (hc : c.NamesInLine) (hctx : ctx.InLine) : Reports quoted (functionTooLong c ctx) ∧
    Reports quoted (tooManyParameters c ctx) ∧ Reports quoted (deepNesting c ctx) := by
  rw [functionTooLong, tooManyParameters, deepNesting]
  cases hdetail : c.detail with
  | function f =>
    obtain ⟨hname, -⟩ := names_of_function hc hdetail
    refine ⟨.above (oneLine_option hctx "max_lines" 80) _ ?_, .above (oneLine_option hctx "max_params" 5) _ ?_,
      .above (oneLine_option hctx "max_depth" 4) _ ?_⟩
    all_goals
      simp only [oneLine_append, hname, oneLine_toString, and_true, true_and]
      and_intros <;> exact oneLine_literal rfl
  | _ => exact ⟨.nothing, .nothing, .nothing⟩

/-- The message about a naked return shows the function's name and its length. -/
theorem reports_nakedReturn (hc : c.NamesInLine) : Reports quoted (nakedReturn c ctx) := by
  rw [nakedReturn]
  cases hdetail : c.detail with
  | function f =>
    obtain ⟨hname, -⟩ := names_of_function hc hdetail
    dsimp only
    split
    · exact .nothing
    · refine (words_within _ _).bind fun short _ => ?_
      split
      · exact Reports.nothing
      · refine Reports.each fun pos _ => .plain ?_
        simp only [oneLine_append, hname, oneLine_toString, and_true]
        and_intros <;> exact oneLine_literal rfl
  | _ => exact .nothing

/-- The message about a dot import repeats the imported path alone. -/
theorem reports_dotImport : Reports (quotedBy "dot-import" c.detail) (dotImport c ctx) := by
  rw [dotImport]
  cases hdetail : c.detail with
  | imported path localName =>
    exact .whenAt fun _ => .append (.append (.words rfl) (.quote (List.mem_singleton_self path)))
      (.words rfl)
  | _ => exact .nothing

/-- The message about a long file shows the file's name and its length. -/
theorem reports_fileTooLong (hctx : ctx.InLine) : Reports quoted (fileTooLong c ctx) := by
  rw [fileTooLong]
  cases c.detail with
  | file lineCount isTest package =>
    refine .above (oneLine_option hctx "max_lines" 1000) _ ?_
    simp only [oneLine_append, oneLine_toString, and_true]
    and_intros <;> exact oneLine_literal rfl
  | _ => exact .nothing

/-- The message about an exit outside main shows names only. -/
theorem reports_exitOutsideMain (hc : c.NamesInLine) : Reports quoted (exitOutsideMain c ctx) := by
  rw [exitOutsideMain]
  cases hdetail : c.detail with
  | call call =>
    obtain ⟨hcallee, hmore⟩ := List.forall_mem_cons.mp (names_of_detail hc hdetail)
    have hfunction : OneLine (functionOr call.function "package initialization") :=
      oneLine_functionOr (List.forall_mem_cons.mp hmore).1 (oneLine_literal rfl)
    exact .plain ((hcallee.append (oneLine_literal rfl)).append hfunction)
  | _ => exact .nothing

/-- Every rule about whole files and packages repeats the texts written down for it and no others. -/
theorem reports_of_mem (hc : c.NamesInLine) (hctx : ctx.InLine) :
    ∀ r ∈ rules, Reports (quotedBy r.id c.detail) (r.predicate c ctx) := by
  simp only [rules, List.forall_mem_cons]
  obtain ⟨hlong, hmany, hdeep⟩ := reports_functionLimits hc hctx
  exact ⟨reports_initFunction, reports_globalState hc, hlong, hmany, hdeep, reports_nakedReturn hc,
    reports_dotImport, reports_fileTooLong hctx, reports_exitOutsideMain hc, List.forall_mem_nil _⟩

end Organization

/-- Every matcher of the catalog quotes no other texts than those of its rule. -/
theorem reports_of_mem {category : Category} {r : StyleRule} (hr : r ∈ rulesOf category) (hc : c.NamesInLine)
    (hctx : ctx.InLine) : Reports (quotedBy r.id c.detail) (r.predicate c ctx) := by
  cases category with
  | errorHandling => exact ErrorHandling.reports_of_mem hc r hr
  | interfaceDesign => exact InterfaceDesign.reports_of_mem hc hctx r hr
  | concurrency => exact Concurrency.reports_of_mem hc hctx r hr
  | naming => exact Naming.reports_of_mem hc hctx r hr
  | testing => exact Testing.reports_of_mem hc r hr
  | organization => exact Organization.reports_of_mem hc hctx r hr

end Style

end GoIdiom
