import GoIdiom.Proofs.Outcome
import GoIdiom.Proofs.Sites.Layer
import GoIdiom.Style.Catalog

/-!
# Hits at sites

Every matcher of the style catalog reports at the sites of one layer, on a construct at most once at each site. A
matcher that looks at constructs of one kind and reports at the construct itself keeps to the layer of that kind.
The others tell apart what they report on by names, parts, returns or values.
-/

namespace GoIdiom

/-- A place in a file, as findings give it. -/
def Position.shown (p : Position) : Int × Int := (p.line, p.col)

/-- Where a hit on a construct is reported. -/
def Hit.placeIn (c : Construct) (hit : Hit) : Int × Int := (hit.line.getD c.pos.line, hit.col.getD c.pos.col)

namespace Style

/-- A report whose hits on a construct are at some of the given sites, one at each of them. -/
abbrev Spreads (sites : List Position) (c : Construct) : Except MatchFailure (List Hit) → Prop :=
  Outcome (fun hits => (hits.map (·.placeIn c)).Sublist (sites.map Position.shown)) fun _ => True

/-- A matcher that reports at the sites of one layer. -/
def KeepsToLayer (p : Predicate) : Prop :=
  ∃ layer : Layer, ∀ c ctx, Spreads (layer.sites c) c (p c ctx)

namespace Spreads

variable {sites : List Position} {c : Construct}

/-- A report without hits. -/
theorem nothing : Spreads sites c (report []) := .ok (List.nil_sublist _)

/-- A report of one hit, at the construct itself. -/
theorem once (h : c.pos ∈ sites) {hit : Hit} (hplace : hit.placeIn c = c.pos.shown) :
    Spreads sites c (report [hit]) := by
  refine .ok ?_
  rw [List.map_singleton, hplace]
  exact List.singleton_sublist.mpr (List.mem_map_of_mem h)

/-- A report at the construct itself, under a condition. -/
theorem whenAt (h : c.pos ∈ sites) (condition : Bool) (message : String) :
    Spreads sites c (report (Hit.when condition message)) := by
  rw [Hit.when]
  split
  · exact once h rfl
  · exact nothing

/-- A report at the places of some things that are sites in their order. -/
theorem each {α : Type} {xs : List α} {pos : α → Position} (h : (xs.map pos).Sublist sites)
    (message : α → String) : Spreads sites c (report (xs.map fun x => .at' (pos x) (message x))) := by
  refine .ok ?_
  rw [List.map_map]
  have hplaces := h.map Position.shown
  rwa [List.map_map] at hplaces

/-- A report that hangs on something that may fail. -/
theorem after {α : Type} {x : Except MatchFailure α} {f : α → Except MatchFailure (List Hit)}
    (h : ∀ a, Spreads sites c (f a)) : Spreads sites c (x >>= f) := by
  cases x with
  | error cause => exact .error trivial
  | ok a => exact h a

/-- Reports one after the other, at sites one after the other. -/
theorem append {more : List Position} {as bs : List Hit} (ha : Spreads sites c (report as))
    (hb : Spreads more c (report bs)) : Spreads (sites ++ more) c (report (as ++ bs)) := by
  refine .ok ?_
  rw [List.map_append, List.map_append]
  exact ha.of_ok.append hb.of_ok

/-- A report that is looked at with more sites. -/
theorem mono {more : List Position} {x : Except MatchFailure (List Hit)} (hx : Spreads sites c x)
    (h : sites.Sublist more) : Spreads more c x :=
  Outcome.mono hx fun _ hhits => hhits.trans (h.map _)

/-- A report of a number above a limit. -/
theorem above (h : c.pos ∈ sites) (n : Nat) (limit : Document) (message : String) :
    Spreads sites c (reportAbove n limit message) := by
  rw [reportAbove]
  refine after fun above => ?_
  split
  · exact after fun text => once h rfl
  · exact nothing

/-- A report on parameters and results of a function. -/
theorem params {f : FunctionInfo} (h : c.detail = .function f) {ps : List Param}
    (hps : ps.Sublist (f.params ++ f.results)) (message : Param → String) :
    Spreads (Layer.part.sites c) c (report (ps.map fun p => .at' p.pos (message p))) := by
  refine each ((hps.map _).trans ?_) message
  rw [List.map_append]
  simp only [Layer.sites, h]
  exact List.sublist_append_right ..

/-- A report on fields of a struct. -/
theorem fields {s : StructInfo} (h : c.detail = .struct s) (q : Field → Bool) (message : Field → String) :
    Spreads (Layer.part.sites c) c (report ((s.fields.filter q).map fun f => .at' f.pos (message f))) := by
  refine each ?_ message
  simp only [Layer.sites, h]
  exact List.filter_sublist.map _

end Spreads

/-- A matcher that reports at the beginnings of constructs of one kind. -/
theorem KeepsToLayer.of_kind {p : Predicate} (k : ConstructKind)
    (h : ∀ c ctx (sites : List Position), (c.kind = k → c.pos ∈ sites) → Spreads sites c (p c ctx)) :
    KeepsToLayer p :=
  ⟨.kind k, fun c ctx => h c ctx _ Layer.mem_sites_kind⟩

/-! ## The rules by category -/

namespace ErrorHandling

/-- A dropped error is reported where the call begins, or where the blank name stands. -/
theorem keepsToLayer_ignored : KeepsToLayer ignored := by
  refine ⟨.value, fun c ctx => ?_⟩
  rw [ignored]
  cases hdetail : c.detail with
  | call call => exact .whenAt (by simp [Layer.sites, hdetail]) _ _
  | errorIgnored e => exact .whenAt (by simp [Layer.sites, hdetail]) _ _
  | _ => exact .nothing

/-- Every rule about errors reports at the sites of one layer. -/
theorem keepsToLayer : ∀ r ∈ rules, KeepsToLayer r.predicate := by
  simp only [rules, List.forall_mem_cons]
  refine ⟨.of_kind .errorReturn ?_, keepsToLayer_ignored, .of_kind .errorCompare ?_, .of_kind .errorCheck ?_,
    .of_kind .errorCheck ?_, .of_kind .errorCheck ?_, .of_kind .errorConstruct ?_, .of_kind .errorConstruct ?_,
    .of_kind .function ?_, .of_kind .call ?_, List.forall_mem_nil _⟩
  all_goals
    intro c ctx sites hsites
    simp only [notWrapped, stringCompare, checkEmpty, swallowed, logAndReturn, stringFormat, wrapVerb,
      notLastResult, panicInLibrary]
    split
    · next hdetail =>
      have hpos := hsites (congrArg Detail.kind hdetail)
      repeat' split
      all_goals first | exact .whenAt hpos _ _ | exact .nothing
    · exact .nothing

end ErrorHandling

namespace InterfaceDesign

/-- A parameter of the empty interface is reported where the parameter stands. -/
theorem keepsToLayer_emptyParam : KeepsToLayer emptyParam := by
  refine ⟨.part, fun c ctx => ?_⟩
  rw [emptyParam]
  cases hdetail : c.detail with
  | function f => exact .params hdetail (List.filter_sublist.trans (List.sublist_append_left ..)) _
  | _ => exact .nothing

/-- A returned interface is reported where the result stands. -/
theorem keepsToLayer_returned : KeepsToLayer returned := by
  refine ⟨.part, fun c ctx => ?_⟩
  rw [returned]
  cases hdetail : c.detail with
  | function f =>
    dsimp only
    split
    · exact .params hdetail (List.filter_sublist.trans (List.sublist_append_right ..)) _
    · exact .nothing
  | _ => exact .nothing

/-- A pointer to an interface is reported at the field, the parameter or the result of that type. -/
theorem keepsToLayer_pointer : KeepsToLayer pointer := by
  refine ⟨.part, fun c ctx => ?_⟩
  rw [pointer]
  cases hdetail : c.detail with
  | struct s => exact .fields hdetail _ _
  | function f => exact .params hdetail List.filter_sublist _
  | _ => exact .nothing

/-- A large interface is reported where it begins. -/
theorem keepsToLayer_tooLarge : KeepsToLayer tooLarge := by
  refine .of_kind .interface fun c ctx sites hsites => ?_
  rw [tooLarge]
  cases hdetail : c.detail with
  | interface i =>
    have hpos := hsites (congrArg Detail.kind hdetail)
    refine .after fun isError => ?_
    split
    · exact .after fun text => .once hpos rfl
    · exact .above hpos _ _ _
  | _ => exact .nothing

/-- An interface of one method is reported where it begins. -/
theorem keepsToLayer_nameSuffix : KeepsToLayer nameSuffix := by
  refine .of_kind .interface fun c ctx sites hsites => ?_
  rw [nameSuffix]
  cases hdetail : c.detail with
  | interface i =>
    dsimp only
    split
    · exact .whenAt (hsites (congrArg Detail.kind hdetail)) _ _
    · exact .nothing
  | _ => exact .nothing

/-- Every rule about interfaces reports at the sites of one layer. -/
theorem keepsToLayer : ∀ r ∈ rules, KeepsToLayer r.predicate := by
  simp only [rules, List.forall_mem_cons]
  exact ⟨keepsToLayer_tooLarge, keepsToLayer_emptyParam, keepsToLayer_nameSuffix, keepsToLayer_returned,
    keepsToLayer_pointer, List.forall_mem_nil _⟩

end InterfaceDesign

namespace Organization

/-- A naked return is reported where the return stands. -/
theorem keepsToLayer_nakedReturn : KeepsToLayer nakedReturn := by
  refine ⟨.leave, fun c ctx => ?_⟩
  rw [nakedReturn]
  cases hdetail : c.detail with
  | function f =>
    dsimp only
    split
    · exact .nothing
    · refine .after fun short => ?_
      split
      · exact .nothing
      · refine .each ?_ _
        simp only [Layer.sites, hdetail, List.map_id']
        exact List.Sublist.refl _
  | _ => exact .nothing

/-- Every rule about the parts of a file reports at the sites of one layer. -/
theorem keepsToLayer : ∀ r ∈ rules, KeepsToLayer r.predicate := by
  simp only [rules, List.forall_mem_cons]
  refine ⟨.of_kind .function ?_, .of_kind .global ?_, .of_kind .function ?_, .of_kind .function ?_,
    .of_kind .function ?_, keepsToLayer_nakedReturn, .of_kind .imported ?_, .of_kind .file ?_, .of_kind .call ?_,
    List.forall_mem_nil _⟩
  all_goals
    intro c ctx sites hsites
    simp only [initFunction, globalState, functionTooLong, tooManyParameters, deepNesting, dotImport, fileTooLong,
      exitOutsideMain]
    split
    · next hdetail =>
      have hpos := hsites (congrArg Detail.kind hdetail)
      first | exact .whenAt hpos _ _ | exact .above hpos _ _ _
    · exact .nothing

end Organization

namespace Testing

/-- The signature of a test is reported where the test begins. -/
theorem keepsToLayer_signature : KeepsToLayer signature := by
  refine .of_kind .testFunction fun c ctx sites hsites => ?_
  rw [signature]
  cases hdetail : c.detail with
  | testFunction t =>
    dsimp only
    split
    · exact .nothing
    · exact .after fun expected => .whenAt (hsites (congrArg Detail.kind hdetail)) _ _
  | _ => exact .nothing

/-- Every rule about tests reports at the sites of one layer. -/
theorem keepsToLayer : ∀ r ∈ rules, KeepsToLayer r.predicate := by
  simp only [rules, List.forall_mem_cons]
  refine ⟨.of_kind .testFunction ?_, keepsToLayer_signature, .of_kind .testFunction ?_, .of_kind .call ?_,
    .of_kind .call ?_, .of_kind .function ?_, List.forall_mem_nil _⟩
  all_goals
    intro c ctx sites hsites
    simp only [nameFormat, withoutAssertions, sleep, fatalInGoroutine, helperMissing]
    split
    · next hdetail => exact .whenAt (hsites (congrArg Detail.kind hdetail)) _ _
    · exact .nothing

end Testing

namespace Concurrency

/-- A goroutine that cannot be stopped is reported where it is started. -/
theorem keepsToLayer_lifecycle : KeepsToLayer lifecycle := by
  refine .of_kind .go fun c ctx sites hsites => ?_
  rw [lifecycle]
  cases hdetail : c.detail with
  | go g =>
    have hpos := hsites (congrArg Detail.kind hdetail)
    dsimp only
    split
    · exact .whenAt hpos _ _
    · refine .after fun target => ?_
      split
      · exact .whenAt hpos _ _
      · exact .whenAt hpos _ _
  | _ => exact .nothing

/-- A copied lock is reported at the receiver or the parameter that copies it. -/
theorem keepsToLayer_mutexCopy : KeepsToLayer mutexCopy := by
  refine ⟨.part, fun c ctx => ?_⟩
  rw [mutexCopy]
  cases hdetail : c.detail with
  | function f =>
    simp only [Layer.sites, hdetail]
    refine .append (.each (List.filter_sublist.map _) _) (.mono (.each (List.filter_sublist.map _) _) ?_)
    exact List.sublist_append_left ..
  | _ => exact .nothing

/-- A wait group taken by value is reported at its parameter. -/
theorem keepsToLayer_waitGroupByValue : KeepsToLayer waitGroupByValue := by
  refine ⟨.part, fun c ctx => ?_⟩
  rw [waitGroupByValue]
  cases hdetail : c.detail with
  | function f => exact .params hdetail (List.filter_sublist.trans (List.sublist_append_left ..)) _
  | go g =>
    refine .each ?_ _
    simp only [Layer.sites, hdetail]
    exact List.filter_sublist.map _
  | _ => exact .nothing

/-- The size of a buffer is reported where the channel is made. -/
theorem keepsToLayer_bufferSize : KeepsToLayer bufferSize := by
  refine .of_kind .channelMake fun c ctx sites hsites => ?_
  rw [bufferSize]
  cases hdetail : c.detail with
  | channelMake ch =>
    dsimp only
    split
    · exact .after fun large => .whenAt (hsites (congrArg Detail.kind hdetail)) _ _
    · exact .nothing
  | _ => exact .nothing

/-- A context kept in a struct is reported at its field. -/
theorem keepsToLayer_contextInStruct : KeepsToLayer contextInStruct := by
  refine ⟨.part, fun c ctx => ?_⟩
  rw [contextInStruct]
  cases hdetail : c.detail with
  | struct s => exact .fields hdetail _ _
  | _ => exact .nothing

/-- An embedded lock is reported at its field. -/
theorem keepsToLayer_mutexEmbedded : KeepsToLayer mutexEmbedded := by
  refine ⟨.part, fun c ctx => ?_⟩
  rw [mutexEmbedded]
  cases hdetail : c.detail with
  | struct s => exact .fields hdetail _ _
  | _ => exact .nothing

/-- Every rule about concurrency reports at the sites of one layer. -/
theorem keepsToLayer : ∀ r ∈ rules, KeepsToLayer r.predicate := by
  simp only [rules, List.forall_mem_cons]
  refine ⟨keepsToLayer_lifecycle, keepsToLayer_mutexCopy, keepsToLayer_waitGroupByValue, .of_kind .defer ?_,
    .of_kind .go ?_, keepsToLayer_bufferSize, .of_kind .select ?_, .of_kind .select ?_, .of_kind .function ?_,
    keepsToLayer_contextInStruct, keepsToLayer_mutexEmbedded, List.forall_mem_nil _⟩
  all_goals
    intro c ctx sites hsites
    simp only [deferInLoop, loopCapture, selectSingle, selectEmpty, contextNotFirst]
    split
    · next hdetail =>
      have hpos := hsites (congrArg Detail.kind hdetail)
      repeat' split
      all_goals first | exact .whenAt hpos _ _ | exact .nothing
    · exact .nothing

end Concurrency

namespace Naming

/-- A method that repeats its receiver's type is reported where it begins. -/
theorem keepsToLayer_methodStutter : KeepsToLayer methodStutter := by
  refine .of_kind .function fun c ctx sites hsites => ?_
  rw [methodStutter]
  cases hdetail : c.detail with
  | function f =>
    dsimp only
    split
    · exact .whenAt (hsites (congrArg Detail.kind hdetail)) _ _
    · exact .nothing
  | _ => exact .nothing

/-- A getter with a prefix is reported where it begins. -/
theorem keepsToLayer_getterHead : KeepsToLayer getterHead := by
  refine .of_kind .function fun c ctx sites hsites => ?_
  rw [getterHead]
  cases hdetail : c.detail with
  | function f =>
    dsimp only
    split
    · exact .once (hsites (congrArg Detail.kind hdetail)) rfl
    · exact .nothing
  | _ => exact .nothing

/-- A receiver called `this` or `self` is reported where its method begins. -/
theorem keepsToLayer_receiverSelf : KeepsToLayer receiverSelf := by
  refine .of_kind .function fun c ctx sites hsites => ?_
  rw [receiverSelf]
  cases hdetail : c.detail with
  | function f =>
    dsimp only
    cases f.receiver with
    | none => exact .nothing
    | some r =>
      rw [Option.toList_some, List.flatMap_singleton]
      exact .whenAt (hsites (congrArg Detail.kind hdetail)) _ _
  | _ => exact .nothing

/-- A receiver of two names is reported where its method begins. -/
theorem keepsToLayer_receiverInconsistent : KeepsToLayer receiverInconsistent := by
  refine .of_kind .function fun c ctx sites hsites => ?_
  rw [receiverInconsistent]
  cases hdetail : c.detail with
  | function f =>
    dsimp only
    split
    · refine .after fun found => ?_
      split
      · exact .whenAt (hsites (congrArg Detail.kind hdetail)) _ _
      · exact .nothing
    · exact .nothing
  | _ => exact .nothing

/-- A package name that says nothing is reported where the package is named. -/
theorem keepsToLayer_packageGeneric : KeepsToLayer packageGeneric := by
  refine .of_kind .package fun c ctx sites hsites => ?_
  rw [packageGeneric]
  cases hdetail : c.detail with
  | package name isTest => exact .after fun generic => .whenAt (hsites (congrArg Detail.kind hdetail)) _ _
  | _ => exact .nothing

/-- The form of a package name is reported where the package is named. -/
theorem keepsToLayer_packageFormat : KeepsToLayer packageFormat := by
  refine .of_kind .package fun c ctx sites hsites => ?_
  rw [packageFormat]
  cases hdetail : c.detail with
  | package name isTest => exact .whenAt (hsites (congrArg Detail.kind hdetail)) _ _
  | _ => exact .nothing

/-- The names that a construct declares stand at sites. -/
theorem declared_sublist (c : Construct) :
    ((declared c).map fun d => d.2.getD c.pos).Sublist (Layer.name.sites c) := by
  rw [declared]
  cases hdetail : c.detail with
  | global g =>
    dsimp only
    rw [List.map_map]
    simp only [Layer.sites, hdetail]
    exact List.Sublist.refl _
  | function f =>
    simp only [Layer.sites, hdetail]
    split
    · exact List.nil_sublist _
    · exact List.Sublist.refl _
  | _ =>
    simp only [Layer.sites, hdetail]
    exact List.Sublist.refl _

/-- A report on some of the names that a construct declares. -/
theorem spreads_declared (c : Construct) {f : String × Option Position → Option Hit}
    (hf : ∀ name pos, ∀ hit ∈ f (name, pos), ∃ message, hit = hitAt pos message) :
    Spreads (Layer.name.sites c) c (report ((declared c).filterMap f)) := by
  have hplaces (ds : List (String × Option Position)) : ((ds.filterMap f).map (·.placeIn c)).Sublist
      (ds.map fun d => (d.2.getD c.pos).shown) := by
    induction ds with
    | nil => exact List.Sublist.refl _
    | cons d rest ih =>
      rw [List.filterMap_cons, List.map_cons]
      cases hhit : f d with
      | none => exact ih.cons _
      | some hit =>
        obtain ⟨message, rfl⟩ := hf d.1 d.2 hit hhit
        have hplace : (hitAt d.2 message).placeIn c = (d.2.getD c.pos).shown := by
          cases d.2 <;> rfl
        dsimp only
        rw [List.map_cons, hplace]
        exact ih.cons_cons _
  have hnames := (declared_sublist c).map Position.shown
  rw [List.map_map] at hnames
  exact .ok ((hplaces (declared c)).trans hnames)

/-- An underscore in a name is reported where the name is declared. -/
theorem keepsToLayer_underscore : KeepsToLayer underscore := by
  refine ⟨.name, fun c ctx => spreads_declared c fun name pos hit hhit => ?_⟩
  dsimp only at hhit
  obtain ⟨-, hhit⟩ := Option.ite_none_right_eq_some.mp hhit
  exact ⟨_, (Option.some.inj hhit).symm⟩

/-- The case of an initialism is reported where the name is declared. -/
theorem keepsToLayer_initialismCase : KeepsToLayer initialismCase := by
  refine ⟨.name, fun c ctx => spreads_declared c fun name pos hit hhit => ?_⟩
  dsimp only at hhit
  obtain ⟨-, hhit⟩ := Option.ite_none_left_eq_some.mp hhit
  exact ⟨_, (Option.some.inj hhit).symm⟩

/-- A type that repeats the package's name is reported where it is declared. -/
theorem keepsToLayer_packageStutter : KeepsToLayer packageStutter := by
  refine ⟨.name, fun c ctx => ?_⟩
  rw [packageStutter]
  split
  · next name package hname hpackage =>
    have hpos : c.pos ∈ Layer.name.sites c := by
      rw [typeName?] at hname
      cases hdetail : c.detail with
      | struct | interface | type => simp [Layer.sites, hdetail]
      | _ => simp [hdetail] at hname
    exact .whenAt hpos _ _
  · exact .nothing

/-- Error values are reported at their names. -/
theorem spreads_errorValues (c : Construct) (names : List (String × Position)) :
    Spreads (names.map (·.2)) c (errorValues names) := by
  induction names with
  | nil => exact .nothing
  | cons name rest ih =>
    rw [errorValues]
    dsimp only
    generalize (if Name.isExported name.1 then "Err" else "err") = head
    split
    · exact .error trivial
    · refine Outcome.bind ih fun more hmore => .ok ?_
      rw [List.map_cons, List.map_cons]
      split
      · exact hmore.cons_cons _
      · exact hmore.cons _

/-- The name of an error is reported where it is declared. -/
theorem keepsToLayer_errorNaming : KeepsToLayer errorNaming := by
  refine ⟨.name, fun c ctx => ?_⟩
  rw [errorNaming]
  cases hdetail : c.detail with
  | global g =>
    simp only [Layer.sites, hdetail]
    split
    · exact spreads_errorValues c g.names
    · exact .nothing
  | struct s => exact .whenAt (by simp [Layer.sites, hdetail]) _ _
  | type t => exact .whenAt (by simp [Layer.sites, hdetail]) _ _
  | _ => exact .nothing

/-- Every rule about names reports at the sites of one layer. -/
theorem keepsToLayer : ∀ r ∈ rules, KeepsToLayer r.predicate := by
  simp only [rules, List.forall_mem_cons]
  exact ⟨keepsToLayer_methodStutter, keepsToLayer_getterHead, keepsToLayer_receiverSelf,
    keepsToLayer_receiverInconsistent, keepsToLayer_packageGeneric, keepsToLayer_packageFormat,
    keepsToLayer_underscore, keepsToLayer_initialismCase, keepsToLayer_packageStutter, keepsToLayer_errorNaming,
    List.forall_mem_nil _⟩

end Naming

/-- Every matcher of the catalog reports at the sites of one layer. -/
theorem keepsToLayer_of_mem {category : Category} {r : StyleRule} (hr : r ∈ rulesOf category) :
    KeepsToLayer r.predicate := by
  cases category with
  | errorHandling => exact ErrorHandling.keepsToLayer r hr
  | interfaceDesign => exact InterfaceDesign.keepsToLayer r hr
  | concurrency => exact Concurrency.keepsToLayer r hr
  | naming => exact Naming.keepsToLayer r hr
  | testing => exact Testing.keepsToLayer r hr
  | organization => exact Organization.keepsToLayer r hr

end Style

end GoIdiom
