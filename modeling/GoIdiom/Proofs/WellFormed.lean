import GoIdiom.Proofs.ReadingFaults

/-!
# Well-formed constructs

Matchers take some facts about constructs for granted: that declared variables have names, that a method
which a goroutine runs is selected from something, and that a test begins with a word that makes it one.
The constructs of every file that is read have them, wherever in the file they come from.
-/

namespace GoIdiom

open Token

/-- What matchers take for granted about a construct. -/
def Detail.WellFormed : Detail → Prop
  | .global g => ∀ name ∈ g.names, name.1 ≠ ""
  | .go g =>
    g.calleeType.isSome = true → ∃ callee, g.callee = some callee ∧ (Text.cutFirst callee '.').isSome = true
  | .testFunction t => t.head ∈ Name.testHeads
  | _ => True

/-! ## Constructs in bodies -/

namespace Body

variable {file : FileInfo} {all : List Token}

/-- A goroutine runs a method of the receiver only if the method is selected from something. -/
theorem wellFormed_goInfo (ctx : Context) (tokens : List Token) (literals : List FuncLiteral) :
    (Detail.go (goInfo ctx tokens literals)).WellFormed := by
  intro htype
  obtain ⟨type, htype⟩ := Option.isSome_iff_exists.mp htype
  obtain ⟨callee, hcallee, htype⟩ := Option.bind_eq_some_iff.mp htype
  obtain ⟨cut, hcut, -⟩ := Option.bind_eq_some_iff.mp htype
  exact ⟨callee, hcallee, Option.isSome_iff_exists.mpr ⟨cut, hcut⟩⟩

/-- The construct that a return is, is well-formed. -/
theorem wellFormed_errorReturn? {ctx : Context} {pos : Position} {values : List (List Token)} {c : Construct}
    (h : errorReturn? file ctx pos values = some c) : c.detail.WellFormed := by
  rw [errorReturn?_eq] at h
  obtain ⟨_, -, h⟩ := Option.bind_eq_some_iff.mp h
  obtain ⟨_, -, rfl⟩ := Option.map_eq_some_iff.mp h
  trivial

/-- The construct that a statement is which drops the last result of a call, is well-formed. -/
theorem wellFormed_ignored? {tokens : List Token} {c : Construct} (h : ignored? file tokens = some c) :
    c.detail.WellFormed := by
  unfold ignored? at h
  obtain ⟨_, -, h⟩ := Option.bind_eq_some_iff.mp h
  dsimp only at h
  split at h
  · obtain ⟨_, -, h⟩ := Option.bind_eq_some_iff.mp h
    obtain ⟨_, -, h⟩ := Option.bind_eq_some_iff.mp h
    obtain ⟨_, -, h⟩ := Option.bind_eq_some_iff.mp h
    obtain ⟨_, -, h⟩ := Option.bind_eq_some_iff.mp h
    obtain ⟨-, h⟩ := Option.ite_none_right_eq_some.mp h
    obtain rfl := Option.some.inj h
    trivial
  · cases h

/-- What a plain statement is besides its expressions is well-formed. -/
theorem wellFormed_plainTrace (ctx : Context) (place : Place) (kind : PlainKind) (tokens : List Token)
    (literals : List FuncLiteral) :
    ∀ c ∈ (plainTrace file ctx place kind tokens literals).constructs, c.detail.WellFormed := by
  intro c hc
  cases kind with
  | go =>
    obtain rfl := List.mem_singleton.mp hc
    exact wellFormed_goInfo ctx tokens literals
  | defer =>
    obtain rfl := List.mem_singleton.mp hc
    trivial
  | «return» =>
    change c ∈ (returnTrace file ctx place.pos tokens).constructs at hc
    rw [returnTrace] at hc
    dsimp only at hc
    split at hc
    · cases hc
    · exact wellFormed_errorReturn? (Option.mem_toList.mp hc)
  | simple => exact wellFormed_ignored? (Option.mem_toList.mp hc)
  | _ => cases hc

/-- What is special about a call is well-formed. -/
theorem wellFormed_special {ctx : Context} {c : Call} {d : Detail} (h : Expression.special ctx c = .ok (some d)) :
    d.WellFormed := by
  have hfound {d' : Detail} (h : (pure (some d') : Except SizeFault (Option Detail)) = .ok (some d))
      (hd' : d'.WellFormed) : d.WellFormed := by
    cases h
    exact hd'
  unfold Expression.special at h
  cases harguments : c.arguments with
  | nil =>
    simp only [harguments] at h
    repeat' split at h
    all_goals first | exact hfound h trivial | cases h
  | cons type sizes =>
    simp only [harguments] at h
    split at h
    · obtain ⟨channel, -, h⟩ := Except.bind_eq_ok.mp h
      exact hfound h trivial
    · repeat' split at h
      all_goals first | exact hfound h trivial | cases h

/-- The constructs in bodies are well-formed. -/
theorem wellFormed_of_emits {c : Construct} (h : Emits file all c) : c.detail.WellFormed := by
  cases h with
  | plain ctx place kind literals _ hc => exact wellFormed_plainTrace ctx place kind _ literals _ hc
  | special ctx _ _ hdetail => exact wellFormed_special hdetail
  | comparison ctx _ hc =>
    obtain ⟨_, _, hinfo⟩ := List.mem_filterMap.mp hc
    obtain ⟨info, -, rfl⟩ := Option.map_eq_some_iff.mp hinfo
    trivial
  | _ => trivial

end Body

/-! ## Constructs of declarations -/

namespace Declaration

variable {file : FileInfo} {all : List Token}

/-- What is told of a type is well-formed. -/
theorem wellFormed_typeDetail (name : String) (typeParams : List Param) (isAlias : Bool) (type : List Token) :
    (typeDetail name typeParams isAlias type).WellFormed := by
  rw [typeDetail]
  split <;> trivial

/-- A test begins with a word that makes it one. -/
theorem head_mem_of_testOf? {head : FunctionHead} {statements : List Statement} {info : FunctionInfo}
    {test : TestInfo} (h : testOf? file head statements info = some test) : test.head ∈ Name.testHeads := by
  rw [testOf?] at h
  split at h
  · obtain ⟨word, hword, rfl⟩ := Option.map_eq_some_iff.mp h
    exact List.mem_of_find?_eq_some hword
  · cases h

/-- The constructs of declarations are well-formed when no token is empty. -/
theorem wellFormed_of_emits (hall : ∀ t ∈ all, t.text ≠ "") {c : Construct} (h : Emits file all c) :
    c.detail.WellFormed := by
  cases h with
  | type => exact wellFormed_typeDetail _ _ _ _
  | global first last hnames =>
    intro name hname
    obtain ⟨t, ht, rfl⟩ := List.mem_map.mp hname
    exact hall t (hnames t ht).1
  | body h => exact Body.wellFormed_of_emits h
  | test keyword endLine h => exact head_mem_of_testOf? h
  | _ => trivial

end Declaration

/-- The constructs of a file that is read are well-formed. -/
theorem SourceFile.wellFormed_of_read {source path : String} {file : SourceFile} (h : read source path = .ok file) :
    ∀ c ∈ file.constructs, c.detail.WellFormed := by
  obtain ⟨lexed, package, constructs, hlexed, hread, rfl⟩ := read_eq_ok_iff.mp h
  have hall : ∀ t ∈ lexed.tokens, t.text ≠ "" := fun t ht => text_ne_empty_of_tokenize hlexed ht
  have hpackage := (hread ▸ emitsPackage_readTokens path lexed.tokens).of_ok
  refine List.forall_mem_cons.mpr ⟨trivial, ?_⟩
  generalize hr : (package, constructs) = r at hpackage
  cases hpackage with
  | mk name _ hfound =>
    obtain ⟨rfl, rfl⟩ := Prod.mk.inj hr
    exact List.forall_mem_cons.mpr ⟨trivial, fun c hc => Declaration.wellFormed_of_emits hall (hfound c hc)⟩

end GoIdiom
