import GoIdiom.Proofs.Enclosures.Files
import GoIdiom.Proofs.Lexing.Positions
import Mathlib.Data.List.Flatten

/-!
# The latest assignment

A frame lists the assignments of its body in the order of the source, so their positions increase strictly and
the last one listed before a place is the latest one before it. The origin of a name at a place is therefore that
of the latest assignment before the place in the innermost frame that has one, unless a frame further in declares
the name as a parameter or a result.
-/

namespace GoIdiom

open Token

/-! ## Assignments in source order -/

/-- The parts between separators, one after the other. -/
theorem Token.flatten_splitTopFrom_sublist (separates : Token → Bool) (depth : Int) (ts : List Token) :
    (splitTopFrom separates depth ts).flatten.Sublist ts := by
  rcases splitTopFrom_cases separates depth ts with hwhole | ⟨part, t, rest, hts, -, hparts⟩
  · rw [hwhole, List.flatten_singleton]
  · have hrest : rest.length < ts.length := by
      rw [hts, List.length_append, List.length_cons]
      omega
    rw [hparts, List.flatten_cons, hts]
    exact (List.Sublist.refl part).append ((flatten_splitTopFrom_sublist separates 0 rest).cons t)
termination_by ts.length

/-- A part between semicolons. -/
theorem Token.sublist_of_mem_splitSemis {part ts : List Token} (h : part ∈ splitSemis ts) : part.Sublist ts :=
  (List.sublist_flatten_of_mem h).trans (flatten_splitTopFrom_sublist _ 0 ts)

namespace Assigned

/-- The assignment of a value to one target. -/
def ofPair : List Token × List Token → Option Assigned
  | ([t], value) => if t.isIdent && t.text != "_" then some ⟨t.text, t.pos, .ofExpression value⟩ else none
  | _ => none

/-- The assignments of some targets are those of their pairs with values. -/
theorem ofTargets_eq (targets values : List (List Token)) :
    ofTargets targets values = (pairs targets values).filterMap ofPair := by
  rw [ofTargets]
  refine congrArg (List.filterMap · _) (funext fun pair => ?_)
  obtain ⟨_ | ⟨t, _ | _⟩, value⟩ := pair <;> rfl

/-- The names of a declaration stand in its tokens. -/
theorem declaredNames_sublist (ts : List Token) : (declaredNames ts).Sublist ts := by
  fun_induction declaredNames ts with
  | case1 name comma rest _ _ ih => exact (ih.cons comma).cons_cons name
  | case2 name comma rest _ _ => exact (List.nil_sublist _).cons_cons name
  | case3 => exact List.nil_sublist _
  | case4 name _ => exact List.Sublist.refl _
  | case5 => exact List.nil_sublist _
  | case6 => exact List.Sublist.refl _

/-- The paired targets are targets, in their order. -/
theorem fst_pairs_sublist (targets values : List (List Token)) :
    ((pairs targets values).map (·.1)).Sublist targets := by
  unfold pairs
  split
  · next h => rw [List.map_fst_zip h.ge]
  · split
    · next value _ =>
      have hsame : targets.map ((·.1) ∘ fun target => (target, value)) = targets := List.map_id targets
      rw [List.map_map, hsame]
    · exact List.nil_sublist _

/-- Assignments stand at targets, in their order. -/
theorem pos_ofPairs_sublist (ps : List (List Token × List Token)) :
    ((ps.filterMap ofPair).map (·.pos)).Sublist ((ps.map (·.1)).flatten.map (·.pos)) := by
  induction ps with
  | nil => exact List.Sublist.refl _
  | cons pair rest ih =>
    rw [List.map_cons, List.flatten_cons, List.map_append]
    cases hpair : ofPair pair with
    | none =>
      rw [List.filterMap_cons_none hpair]
      exact ih.trans (List.sublist_append_right ..)
    | some a =>
      rw [List.filterMap_cons_some hpair]
      obtain ⟨_ | ⟨t, _ | _⟩, value⟩ := pair
      · cases hpair
      · rw [ofPair] at hpair
        split at hpair
        · obtain rfl := Option.some.inj hpair
          exact ih.cons_cons t.pos
        · cases hpair
      · cases hpair

/-- The targets' assignments are at the places of the targets, in their order. -/
theorem pos_ofTargets_sublist (targets values : List (List Token)) :
    ((ofTargets targets values).map (·.pos)).Sublist (targets.flatten.map (·.pos)) := by
  rw [ofTargets_eq]
  exact (pos_ofPairs_sublist _).trans ((fst_pairs_sublist targets values).flatten.map _)

/-- The assignments of a token run are in its order. -/
theorem pos_ofTokens_sublist (ts : List Token) : ((ofTokens ts).map (·.pos)).Sublist (ts.map (·.pos)) := by
  cases ts with
  | nil => exact List.Sublist.refl _
  | cons first rest =>
    rw [ofTokens]
    split
    · have hnames : ((declaredNames rest).map (·.pos)).Sublist ((first :: rest).map (·.pos)) :=
        ((declaredNames_sublist rest).map _).trans (List.sublist_cons_self ..)
      dsimp only
      split
      · rw [List.map_map]
        exact hnames
      · refine (pos_ofTargets_sublist _ _).trans ?_
        rw [← List.flatMap_def, List.flatMap_singleton']
        exact hnames
    · split
      · exact List.nil_sublist _
      · next a ha =>
        obtain ⟨happend, -⟩ := append_of_cutAssignmentFrom ha
        rw [← happend]
        refine (pos_ofTargets_sublist _ _).trans (List.Sublist.map _ ?_)
        exact (flatten_splitTopFrom_sublist _ 0 a.left).trans (List.sublist_append_left ..)

/-- The assignments of a statement are in the order of its tokens. -/
theorem pos_ofStatement_sublist (s : Statement) :
    ((ofStatement s).map (·.pos)).Sublist (s.tokens.map (·.pos)) := by
  -- A header is assigned from as a whole, or from the first of its parts.
  have hfirst {init : List Token} {more : List (List Token)} {header : List Token}
      (h : splitSemis header = init :: more) : ((ofTokens init).map (·.pos)).Sublist (header.map (·.pos)) :=
    (pos_ofTokens_sublist init).trans ((sublist_of_mem_splitSemis (h ▸ List.mem_cons_self)).map _)
  unfold ofStatement
  split
  · exact pos_ofTokens_sublist _
  · exact pos_ofTokens_sublist _
  · split
    · next h => exact hfirst h
    · exact List.nil_sublist _
  · split
    · next h => exact hfirst h
    · exact pos_ofTokens_sublist _
  · split
    · next h => exact hfirst h
    · exact pos_ofTokens_sublist _
  · exact List.nil_sublist _

end Assigned

namespace Frame

/-- The positions of the assignments to a name, as listed. -/
def positions (f : Frame) (name : String) : List Position :=
  (f.assignments.filter (·.name == name)).map (·.pos)

/-- The assignments of a frame stand one behind the other. -/
def Ordered (f : Frame) : Prop := f.assignments.Pairwise fun a b => a.pos.before b.pos = true

/-- A frame of a body whose own tokens are in the order of increasing tokens. -/
theorem ReadFrom.ordered {ts : List Token} {f : Frame} (h : f.ReadFrom ts)
    (hts : ts.Pairwise fun t u => t.pos.before u.pos = true) : f.Ordered := by
  obtain ⟨body, hf, horder⟩ := h
  have hown : (f.assignments.map (·.pos)).Sublist (ts.map (·.pos)) := by
    rw [hf, ofBody, List.map_flatMap]
    refine List.Sublist.trans ?_ (horder.sublist.map _)
    rw [Statement.ownTokens, List.map_flatMap]
    exact List.Sublist.flatMap_right _ fun s _ => Assigned.pos_ofStatement_sublist s
  have hpos : (ts.map (·.pos)).Pairwise fun p q => p.before q = true := List.pairwise_map.mpr hts
  exact List.pairwise_map.mp (hpos.sublist hown)

/-- The places where a frame assigns a name are in order. -/
theorem Ordered.positions {f : Frame} (h : f.Ordered) (name : String) :
    (f.positions name).Pairwise fun p q => p.before q = true :=
  List.pairwise_map.mpr (h.filter _)

/-- The latest assignment to a name before a place. -/
structure IsLatest (f : Frame) (name : String) (pos : Position) (a : Assigned) : Prop where
  mem : a ∈ f.assignments
  name_eq : a.name = name
  before : a.pos.before pos = true
  latest : ∀ b ∈ f.assignments, b.name = name → b.pos.before pos = true →
    b = a ∨ b.pos.before a.pos = true

/-- No assignment to a name stands before a place. -/
def Unassigned (f : Frame) (name : String) (pos : Position) : Prop :=
  ∀ a ∈ f.assignments, a.name = name → a.pos.before pos = false

/-- A frame without an assignment to a name before a place that does not declare the name either. -/
structure Silent (f : Frame) (name : String) (pos : Position) : Prop where
  unassigned : f.Unassigned name pos
  param : f.hasParam name = false
  result : f.hasResult name = false

variable {f : Frame} {name : String} {pos : Position} {a : Assigned}

/-- An assignment before a place is one of the frame's, to the name and before the place. -/
theorem mem_before_iff : (a ∈ f.assignments.filter fun a => a.name == name && a.pos.before pos) ↔
    a ∈ f.assignments ∧ a.name = name ∧ a.pos.before pos = true := by
  rw [List.mem_filter, Bool.and_eq_true, beq_iff_eq]

/-- No assignment is the last before a place exactly when the frame has none there. -/
theorem lastBefore_eq_none_iff : f.lastBefore name pos = none ↔ f.Unassigned name pos := by
  rw [lastBefore, List.getLast?_eq_none_iff, List.filter_eq_nil_iff]
  refine forall₂_congr fun a _ => ?_
  rw [Bool.and_eq_true, beq_iff_eq, not_and, Bool.not_eq_true]

/-- Where assignments stand one behind the other, the last one is the latest. -/
theorem Ordered.isLatest_of_lastBefore (h : f.Ordered) (ha : f.lastBefore name pos = some a) :
    f.IsLatest name pos a := by
  obtain ⟨front, hfront⟩ := List.getLast?_eq_some_iff.mp ha
  obtain ⟨hmem, hname, hbefore⟩ := mem_before_iff.mp (hfront ▸ List.mem_append_right front List.mem_cons_self)
  refine ⟨hmem, hname, hbefore, fun b hb hbname hbpos => ?_⟩
  have hordered := h.filter fun a => a.name == name && a.pos.before pos
  have hlisted := mem_before_iff.mpr ⟨hb, hbname, hbpos⟩
  rw [hfront] at hordered hlisted
  rcases List.mem_append.mp hlisted with hlisted | hlisted
  · exact .inr ((List.pairwise_append.mp hordered).2.2 b hlisted a List.mem_cons_self)
  · exact .inl (List.mem_singleton.mp hlisted)

end Frame

namespace Scope

/-- The origin of a name at a place, as told from the frames of a scope. -/
structure Resolves (s : Scope) (name : String) (pos : Position) : Prop where
  assigned : ∀ {inner outer f}, s.frames = inner ++ f :: outer → (∀ g ∈ inner, g.Silent name pos) →
    ¬ f.Unassigned name pos → ∃ a, f.IsLatest name pos a ∧ s.origin name pos = a.origin
  param : ∀ {inner outer f}, s.frames = inner ++ f :: outer → (∀ g ∈ inner, g.Silent name pos) →
    f.Unassigned name pos → f.hasParam name = true → s.origin name pos = .param
  result : ∀ {inner outer f}, s.frames = inner ++ f :: outer → (∀ g ∈ inner, g.Silent name pos) →
    f.Unassigned name pos → f.hasParam name = false → f.hasResult name = true → s.origin name pos = .result
  silent : (∀ g ∈ s.frames, g.Silent name pos) → s.origin name pos = .unknown
  unknown : s.knows name = false → s.origin name pos = .unknown

/-- A silent frame is passed over. -/
theorem originIn_cons_of_silent {f : Frame} {name : String} {pos : Position} (h : f.Silent name pos)
    (outer : List Frame) : originIn name pos (f :: outer) = originIn name pos outer := by
  rw [originIn, Frame.lastBefore_eq_none_iff.mpr h.unassigned, h.param, h.result, if_neg Bool.false_ne_true,
    if_neg Bool.false_ne_true]

/-- Frames that say nothing about a name leave it to the outer ones. -/
theorem originIn_append_of_silent {inner : List Frame} {name : String} {pos : Position}
    (h : ∀ g ∈ inner, g.Silent name pos) (outer : List Frame) :
    originIn name pos (inner ++ outer) = originIn name pos outer := by
  induction inner with
  | nil => rfl
  | cons f rest ih =>
    obtain ⟨hf, hrest⟩ := List.forall_mem_cons.mp h
    rw [List.cons_append, originIn_cons_of_silent hf, ih hrest]

/-- A frame that does not know a name is silent about it everywhere. -/
theorem silent_of_not_knows {f : Frame} {name : String} (h : f.knows name = false) (pos : Position) :
    f.Silent name pos := by
  obtain ⟨hboth, hresult⟩ := Bool.or_eq_false_iff.mp h
  obtain ⟨hassigned, hparam⟩ := Bool.or_eq_false_iff.mp hboth
  refine ⟨fun a ha hname => ?_, hparam, hresult⟩
  exact absurd (beq_iff_eq.mpr hname) (List.any_eq_false.mp hassigned a ha)

/-- In ordered frames the origin is that of the latest assignment. -/
theorem resolves_of_ordered {s : Scope} (h : ∀ f ∈ s.frames, f.Ordered) (name : String) (pos : Position) :
    s.Resolves name pos := by
  have hsilent (hall : ∀ g ∈ s.frames, g.Silent name pos) : s.origin name pos = .unknown := by
    have hpassed := originIn_append_of_silent hall []
    rwa [List.append_nil] at hpassed
  refine ⟨@fun inner outer f hframes hinner hsome => ?_, fun hframes hinner hnone hparam => ?_,
    fun hframes hinner hnone hparam hresult => ?_, hsilent, fun hknows => hsilent fun g hg => ?_⟩
  · obtain ⟨a, ha⟩ := Option.ne_none_iff_exists'.mp fun hnone => hsome (Frame.lastBefore_eq_none_iff.mp hnone)
    have hordered := h f (hframes ▸ List.mem_append_right _ List.mem_cons_self)
    refine ⟨a, hordered.isLatest_of_lastBefore ha, ?_⟩
    rw [origin, hframes, originIn_append_of_silent hinner, originIn, ha]
  · rw [origin, hframes, originIn_append_of_silent hinner, originIn,
      Frame.lastBefore_eq_none_iff.mpr hnone, hparam, if_pos rfl]
  · rw [origin, hframes, originIn_append_of_silent hinner, originIn,
      Frame.lastBefore_eq_none_iff.mpr hnone, hparam, hresult, if_neg Bool.false_ne_true, if_pos rfl]
  · exact silent_of_not_knows (Bool.eq_false_iff.mpr fun hg' => Bool.eq_false_iff.mp hknows
      (List.any_eq_true.mpr ⟨g, hg, hg'⟩)) pos

end Scope

namespace SourceFile

open Statement

variable {source path : String} {file : SourceFile} {lexed : Lexed} {ctx : Context} {body found : List Statement}
  {way : List Enclosure}

/-- At every statement of an accepted file, the frames around it list the assignments to a name at increasing
positions, and the origin of the name at a place is told by the latest assignment before the place. -/
theorem resolves_of_read (hlexed : tokenize source = .ok lexed) (h : read source path = .ok file)
    (hbody : Holds lexed.tokens ctx body) (hinside : Inside body way found) (name : String) :
    (∀ f ∈ (ctx.along way).scope.frames, (f.positions name).Pairwise fun p q => p.before q = true) ∧
      ∀ pos, (ctx.along way).scope.Resolves name pos := by
  obtain ⟨horder, hframes, -⟩ := walked_of_holds hlexed h hbody
  have hordered : ∀ f ∈ (ctx.along way).scope.frames, f.Ordered := by
    rw [Context.scope_along, Scope.along]
    refine List.forall_mem_append.mpr ⟨fun f hf => ?_, fun f hf => ?_⟩
    · exact (hinside.readFrom horder f hf).ordered (tokens_increasing hlexed)
    · exact (hframes f hf).ordered (tokens_increasing hlexed)
  exact ⟨fun f hf => (hordered f hf).positions name, Scope.resolves_of_ordered hordered name⟩

/-- A goroutine that uses a variable between two assignments to it. -/
def usedBetween : String :=
  "package p\n\nfunc f(err error) error \x7b\n\terr = g()\n\tgo func(e error) \x7b\n\t\th(err, e)\n\t\x7d(nil)\n" ++
    "\terr = nil\n\treturn err\n\x7d\n"

/-- In the goroutine the variable comes from the call before it, its parameter from the caller, and nothing is known
of the function that it calls. -/
theorem resolves_usedBetween : ∃ lexed file ctx body e found,
    tokenize usedBetween = .ok lexed ∧ read usedBetween "p.go" = .ok file ∧ Holds lexed.tokens ctx body ∧
      Inside body [e] found ∧
      (["err", "e", "h"].map fun name => (ctx.along [e]).scope.origin name ⟨6, 5⟩) =
        [.call, .param, .unknown] ∧
      (∀ f ∈ (ctx.along [e]).scope.frames, (f.positions "err").Pairwise fun p q => p.before q = true) ∧
        ∀ pos, (ctx.along [e]).scope.Resolves "err" pos := by
  have hbegins : beginsWith usedBetween "p.go" (fun ctx body =>
      (body.flatMap (·.enclosed)).head?.any fun (e, _) =>
        (["err", "e", "h"].map fun name => (ctx.along [e]).scope.origin name ⟨6, 5⟩) ==
          [.call, .param, .unknown]) =
      true := by decide +kernel
  obtain ⟨lexed, file, ctx, body, hlexed, hread, hholds, htest⟩ := exists_of_beginsWith hbegins
  obtain ⟨⟨e, found⟩, henclosed, horigins⟩ := (Option.any_eq_true _ _).mp htest
  obtain ⟨s, hs, he⟩ := List.mem_flatMap.mp (List.mem_of_mem_head? henclosed)
  have hinside : Inside body [e] found := .deeper hs he (.here found)
  exact ⟨lexed, file, ctx, body, e, found, hlexed, hread, hholds, hinside, beq_iff_eq.mp horigins,
    resolves_of_read hlexed hread hholds hinside "err"⟩

end SourceFile

end GoIdiom
