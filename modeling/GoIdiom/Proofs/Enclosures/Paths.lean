import GoIdiom.Construct.Body
import GoIdiom.Proofs.Cancellation.Runs
import Mathlib.Data.List.DropRight

/-!
# What stands around statements

The way from a body down to a statement is the list of what is entered on it: blocks, loops, branches, clauses
and function literals, the outermost first. A walk threads a context along this way. What the context holds at
its end is read off the way: the function that the statement belongs to is the last function literal, and only
what is entered after it counts for loops and guards.
-/

namespace GoIdiom

namespace Guard

/-- A guard is its rank. -/
theorem rank_injective : Function.Injective rank := by
  intro a b h
  rcases a with _ | a <;> rcases b with _ | b
  · rfl
  · cases b <;> cases h
  · cases a <;> cases h
  · cases a <;> cases b <;> first | rfl | cases h

/-- Nothing is stronger than both guards. -/
theorem rank_stronger (a b : Option Guard) : rank (stronger a b) = max (rank a) (rank b) := by
  unfold stronger
  split <;> omega

/-- No guard adds nothing behind a guard. -/
@[simp]
theorem stronger_none_right (g : Option Guard) : stronger g none = g :=
  rank_injective ((rank_stronger g none).trans (Nat.max_zero _))

/-- No guard adds nothing before a guard. -/
@[simp]
theorem stronger_none (g : Option Guard) : stronger none g = g :=
  rank_injective ((rank_stronger none g).trans (Nat.zero_max _))

/-- The stronger of three guards is found in either order. -/
theorem stronger_assoc (a b c : Option Guard) : stronger (stronger a b) c = stronger a (stronger b c) :=
  rank_injective (by simp only [rank_stronger, Nat.max_assoc])

/-- The strongest of some guards. -/
def strongest (gs : List (Option Guard)) : Option Guard := gs.foldl stronger none

/-- Guards taken one after the other leave the strongest of them. -/
theorem foldl_stronger (g : Option Guard) (gs : List (Option Guard)) :
    gs.foldl stronger g = stronger g (strongest gs) := by
  induction gs generalizing g with
  | nil => exact (stronger_none_right g).symm
  | cons a rest ih =>
    calc (a :: rest).foldl stronger g
        = stronger (stronger g a) (strongest rest) := ih (stronger g a)
      _ = stronger g (stronger a (strongest rest)) := stronger_assoc g a _
      _ = stronger g (strongest (a :: rest)) := by
        conv => rhs; rw [strongest, List.foldl_cons, stronger_none, ih a]

/-- There is no strongest guard among none. -/
@[simp]
theorem strongest_nil : strongest [] = none := rfl

/-- The only guard is the strongest one. -/
@[simp]
theorem strongest_singleton (g : Option Guard) : strongest [g] = g := stronger_none g

/-- The strongest guard is found from the first one on. -/
theorem strongest_cons (g : Option Guard) (gs : List (Option Guard)) :
    strongest (g :: gs) = gs.foldl stronger g := by
  rw [strongest, List.foldl_cons, stronger_none]

/-- More guards. -/
theorem strongest_append (gs hs : List (Option Guard)) :
    strongest (gs ++ hs) = stronger (strongest gs) (strongest hs) := by
  rw [strongest, List.foldl_append, foldl_stronger]
  rfl

/-- A guard is one of some guards, none of which is stronger, or there is none among them. -/
structure IsStrongest (g : Option Guard) (gs : List (Option Guard)) : Prop where
  mem : g = none ∨ g ∈ gs
  le : ∀ x ∈ gs, rank x ≤ rank g

/-- The strongest of some guards is one of them, and as strong as each. -/
theorem isStrongest_strongest (gs : List (Option Guard)) : IsStrongest (strongest gs) gs := by
  induction gs with
  | nil => exact ⟨Or.inl rfl, fun x hx => absurd hx List.not_mem_nil⟩
  | cons a rest ih =>
    have hcons : strongest (a :: rest) = stronger a (strongest rest) := by rw [strongest_cons, foldl_stronger]
    refine ⟨?_, List.forall_mem_cons.mpr ⟨?_, fun x hx => ?_⟩⟩
    · rw [hcons, stronger]
      split
      · exact Or.inr List.mem_cons_self
      · exact ih.mem.imp_right (List.mem_cons_of_mem a)
    · rw [hcons, rank_stronger]
      exact Nat.le_max_left _ _
    · rw [hcons, rank_stronger]
      exact (ih.le x hx).trans (Nat.le_max_right _ _)

/-- There is one strongest guard. -/
theorem IsStrongest.eq_strongest {g : Option Guard} {gs : List (Option Guard)} (h : IsStrongest g gs) :
    g = strongest gs := by
  have hstrongest := isStrongest_strongest gs
  refine rank_injective (Nat.le_antisymm ?_ ?_)
  · rcases h.mem with rfl | hg
    · exact Nat.zero_le _
    · exact hstrongest.le g hg
  · rcases hstrongest.mem with hnone | hg
    · rw [hnone]
      exact Nat.zero_le _
    · exact h.le _ hg

end Guard

/-- What statements stand directly in: a block of its own, the body of a loop or of a branch, the other branch, a
clause of a switch or of a select, or the body of a function literal, which a go statement may run. -/
inductive Enclosure where
  | block
  | loop (header : List Token)
  | branch (header : List Token)
  | otherwise (isBranch : Bool)
  | clause (subject : Body.Subject) (isDefault : Bool) (header : List Token)
  | communication
  | literal (frame : Frame) (launched : Bool)
deriving DecidableEq, Repr

namespace Enclosure

/-- Whether statements are in a function literal. -/
@[simp]
def isLiteral : Enclosure → Bool
  | literal .. => true
  | _ => false

/-- Whether statements are in the body of a loop. -/
@[simp]
def isLoop : Enclosure → Bool
  | loop _ => true
  | _ => false

/-- Whether statements are in a function literal that a go statement runs. -/
@[simp]
def isLaunched : Enclosure → Bool
  | literal _ launched => launched
  | _ => false

/-- The frame of a function literal. -/
@[simp]
def frame? : Enclosure → Option Frame
  | literal frame _ => some frame
  | _ => none

/-- The variables that a loop declares. -/
@[simp]
def loopVars : Enclosure → List String
  | loop header => (Body.loopForm header).2
  | _ => []

/-- The guards of the parts of a header: of the condition, and of what stands before it. -/
def headerGuards (header : List Token) : List (Option Guard) :=
  Guard.ofCondition ((Token.splitSemis header).getLastD []) ::
    (Token.splitSemis header).dropLast.map Guard.ofInit

/-- What the body of a branch and a clause of a switch are guarded by. The other branch is guarded by nothing. -/
@[simp]
def guards : Enclosure → List (Option Guard)
  | branch header => headerGuards header
  | clause subject isDefault header => [Body.clauseGuard subject isDefault header]
  | _ => []

/-- Whether statements are one level deeper. A block of its own and one more branch are not. -/
@[simp]
def isDeeper : Enclosure → Bool
  | block => false
  | otherwise isBranch => !isBranch
  | _ => true

/-- The context inside. -/
@[simp]
def into (ctx : Context) : Enclosure → Context
  | block => ctx
  | loop header => ctx.enterLoop (Body.loopForm header).2
  | branch header => ctx.enterGuarded (Guard.strongest (headerGuards header))
  | otherwise isBranch => if isBranch then ctx else ctx.enter
  | clause subject isDefault header => ctx.enterGuarded (Body.clauseGuard subject isDefault header)
  | communication => ctx.enterGuarded none
  | literal frame launched => ctx.enterLiteral frame launched

/-- What is entered in the innermost function literal on a way, or in the declared function. -/
def ofFunction (path : List Enclosure) : List Enclosure := path.rtakeWhile (!·.isLiteral)

/-- A literal at the end of a way begins a function of its own. -/
theorem ofFunction_concat (path : List Enclosure) (e : Enclosure) :
    ofFunction (path ++ [e]) = if e.isLiteral then [] else ofFunction path ++ [e] := by
  rw [ofFunction, List.rtakeWhile_concat]
  cases e <;> rfl

/-- The number of loops around a statement in its function. -/
def loops (path : List Enclosure) : Nat := (ofFunction path).countP (·.isLoop)

/-- The guards on a statement in its function. -/
def guardsOf (path : List Enclosure) : List (Option Guard) := (ofFunction path).flatMap (·.guards)

/-- The frames of the function literals on a way, innermost first. -/
def frames (path : List Enclosure) : List Frame := (path.filterMap (·.frame?)).reverse

end Enclosure

namespace Scope

/-- The scope inside the function literals on a way. -/
def along (scope : Scope) (path : List Enclosure) : Scope :=
  { scope with frames := Enclosure.frames path ++ scope.frames }

/-- The frame of the function that a statement belongs to: the last literal on the way to it, or the one given. -/
def innermost (frame : Frame) (path : List Enclosure) : Frame := (path.filterMap (·.frame?)).getLastD frame

/-- The frame that a way leads to is that of the innermost function. -/
theorem head?_frames_along (name : String) (receiver : Option Receiver) (frame : Frame) (path : List Enclosure) :
    (along ⟨name, receiver, [frame]⟩ path).frames.head? = some (innermost frame path) := by
  rw [along, innermost, Enclosure.frames, List.head?_append, List.head?_reverse, List.getLastD_eq_getLast?]
  cases (path.filterMap (·.frame?)).getLast? <;> rfl

/-- Outside function literals the scope is that of the function. -/
theorem along_of_open {scope : Scope} {path : List Enclosure} (h : ∀ e ∈ path, e.isLiteral = false) :
    scope.along path = scope := by
  have hnone : path.filterMap (·.frame?) = [] := by
    refine List.filterMap_eq_nil_iff.mpr fun e he => ?_
    have hopen := h e he
    cases e with
    | literal => cases hopen
    | _ => rfl
  rw [along, Enclosure.frames, hnone]
  rfl

end Scope

namespace Context

/-- The context at the end of a way. -/
def along (ctx : Context) (path : List Enclosure) : Context := path.foldl Enclosure.into ctx

/-- The scope at the end of a way. -/
theorem scope_along (ctx : Context) (path : List Enclosure) : (ctx.along path).scope = ctx.scope.along path := by
  induction path generalizing ctx with
  | nil => rfl
  | cons e rest ih =>
    refine (ih (e.into ctx)).trans ?_
    cases e with
    | literal frame launched =>
      simp [Scope.along, Enclosure.frames, enterLiteral, enter, Scope.enter]
    | otherwise isBranch => cases isBranch <;> rfl
    | _ => rfl

/-- The context of a statement of a function, read off the way to the statement. -/
def around (scope : Scope) (path : List Enclosure) : Context where
  scope := scope.along path
  depth := path.countP (·.isDeeper)
  loopDepth := Enclosure.loops path
  loopVars := path.flatMap (·.loopVars)
  guard := Guard.strongest (Enclosure.guardsOf path)
  inGoroutine := path.any (·.isLaunched)

/-- What is read off a way changes with a step as the context does. -/
theorem around_concat (scope : Scope) (path : List Enclosure) (e : Enclosure) :
    around scope (path ++ [e]) = e.into (around scope path) := by
  -- A function literal forgets the loops and guards before it, any other enclosure is one more of its function.
  have hfunction := Enclosure.ofFunction_concat path e
  cases e with
  | literal frame launched =>
    simp [around, Scope.along, Enclosure.frames, Enclosure.loops, Enclosure.guardsOf, hfunction,
      enterLiteral, enter, Scope.enter]
  | otherwise isBranch =>
    cases isBranch <;>
      simp [around, Scope.along, Enclosure.frames, Enclosure.loops, Enclosure.guardsOf, hfunction, enter]
  | _ =>
    simp [around, Scope.along, Enclosure.frames, Enclosure.loops, Enclosure.guardsOf, hfunction, enterGuarded,
      enterLoop, enter, Guard.strongest_append]

/-- The context that a walk threads is the one that is read off the way. -/
theorem along_ofScope (scope : Scope) (path : List Enclosure) :
    (ofScope scope).along path = around scope path := by
  induction path using List.reverseRecOn with
  | nil => rfl
  | append_singleton path e ih => rw [around_concat, ← ih, along, List.foldl_append]; rfl

end Context

namespace Statement

/-- The bodies of function literals, of which a go statement may run the first. -/
def literalBodies (launchesFirst : Bool) : List FuncLiteral → List (Enclosure × List Statement)
  | [] => []
  | .mk _ _ params results body :: rest =>
    (.literal (Frame.ofBody params results body) launchesFirst, body) :: literalBodies false rest

/-- The body of the other branch. -/
def otherBodies : Option (List Statement) → List (Enclosure × List Statement)
  | none => []
  | some body => [(.otherwise (Body.isElseIf body), body)]

/-- The bodies of clauses, whose enclosures are told from whether they are the default and from their headers. -/
def clauseBodies (enclosure : Bool → List Token → Enclosure) :
    List Clause → List (Enclosure × List Statement)
  | [] => []
  | .mk _ isDefault header body :: rest => (enclosure isDefault header, body) :: clauseBodies enclosure rest

/-- The token runs of a statement itself: its own tokens, and the headers of its clauses. -/
def ownRuns (s : Statement) : List (List Token) := s.tokens :: s.clauses.map (·.header)

/-- The statement lists directly inside a statement, each with what it is enclosed by. -/
def enclosed : Statement → List (Enclosure × List Statement)
  | plain _ kind tokens literals =>
    literalBodies (kind == .go && (Body.launched tokens literals).isSome) literals
  | block _ body => [(.block, body)]
  | branch _ header literals body otherwise =>
    literalBodies false literals ++ (.branch header, body) :: otherBodies otherwise
  | loop _ header literals body => literalBodies false literals ++ [(.loop header, body)]
  | switch _ header literals clauses =>
    literalBodies false literals ++ clauseBodies (.clause (Body.subject header)) clauses
  | select _ _ literals clauses => literalBodies false literals ++ clauseBodies (fun _ _ => .communication) clauses

/-- The statement lists inside a body, each with the way to it. -/
inductive Inside : List Statement → List Enclosure → List Statement → Prop
  | here (body : List Statement) : Inside body [] body
  | deeper {body inner found : List Statement} {s : Statement} {e : Enclosure} {path : List Enclosure}
      (hs : s ∈ body) (he : (e, inner) ∈ s.enclosed) (h : Inside inner path found) :
      Inside body (e :: path) found

/-- The statements of a body at every depth, each with the way to it. -/
def Within (body : List Statement) (path : List Enclosure) (s : Statement) : Prop :=
  ∃ found, Inside body path found ∧ s ∈ found

variable {body : List Statement} {path : List Enclosure} {s t : Statement} {e : Enclosure}

/-- Directly in a body are its statements. -/
theorem within_nil : Within body [] s ↔ s ∈ body := by
  constructor
  · rintro ⟨_, ⟨⟩, hs⟩
    exact hs
  · intro hs
    exact ⟨body, .here body, hs⟩

/-- A way into a body begins with something that one of its statements encloses. -/
theorem within_cons :
    Within body (e :: path) s ↔ ∃ t ∈ body, ∃ inner, (e, inner) ∈ t.enclosed ∧ Within inner path s := by
  constructor
  · rintro ⟨found, ⟨⟩ | ⟨ht, he, h⟩, hs⟩
    exact ⟨_, ht, _, he, found, h, hs⟩
  · rintro ⟨t, ht, inner, he, found, h, hs⟩
    exact ⟨found, .deeper ht he h, hs⟩

/-- A way goes on inside the statement list that it ends in. -/
theorem inside_append {found : List Statement} {more : List Enclosure} :
    Inside body (path ++ more) found ↔ ∃ inner, Inside body path inner ∧ Inside inner more found := by
  constructor
  · intro h
    induction path generalizing body with
    | nil => exact ⟨body, .here body, h⟩
    | cons e rest ih =>
      cases h with
      | deeper hs he h =>
        obtain ⟨inner, hinner, hmore⟩ := ih h
        exact ⟨inner, .deeper hs he hinner, hmore⟩
  · rintro ⟨inner, hinner, hmore⟩
    induction hinner with
    | here => exact hmore
    | deeper hs he _ ih => exact .deeper hs he (ih hmore)

/-- A way into an inner list and a way on from there are one way. -/
theorem within_append {found : List Statement} {more : List Enclosure} (h : Inside body path found)
    (hs : Within found more s) : Within body (path ++ more) s := by
  obtain ⟨inner, hinner, hmem⟩ := hs
  exact ⟨inner, inside_append.mpr ⟨found, h, hinner⟩, hmem⟩

/-! ## The statements of a function -/

/-- The body of a function literal is entered as a literal. -/
theorem isLiteral_of_literalBodies {launchesFirst : Bool} {literals : List FuncLiteral} {inner : List Statement}
    (h : (e, inner) ∈ literalBodies launchesFirst literals) : e.isLiteral = true := by
  induction literals generalizing launchesFirst with
  | nil => cases h
  | cons l rest ih =>
    obtain ⟨_, _, params, results, body⟩ := l
    rcases List.mem_cons.mp h with h | h
    · rw [(Prod.mk.inj h).1]
      rfl
    · exact ih h

/-- The body of a clause is entered as that clause. -/
theorem exists_of_clauseBodies {enclosure : Bool → List Token → Enclosure} {clauses : List Clause}
    {inner : List Statement} (h : (e, inner) ∈ clauseBodies enclosure clauses) :
    ∃ c ∈ clauses, e = enclosure c.isDefault c.header ∧ inner = c.body := by
  induction clauses with
  | nil => cases h
  | cons c rest ih =>
    obtain ⟨pos, isDefault, header, body⟩ := c
    rcases List.mem_cons.mp h with h | h
    · exact ⟨_, List.mem_cons_self, Prod.mk.inj h⟩
    · obtain ⟨c, hc, hboth⟩ := ih h
      exact ⟨c, List.mem_cons_of_mem _ hc, hboth⟩

/-- What a statement encloses other than in a function literal is flattened with it. -/
theorem flattenList_subset_flatten {inner : List Statement} (h : (e, inner) ∈ s.enclosed)
    (hopen : e.isLiteral = false) : flattenList inner ⊆ s.flatten := by
  have hliteral {launchesFirst : Bool} {literals : List FuncLiteral}
      (h : (e, inner) ∈ literalBodies launchesFirst literals) : False :=
    Bool.eq_false_iff.mp hopen (isLiteral_of_literalBodies h)
  cases s with
  | plain => exact (hliteral h).elim
  | block =>
    rw [flatten, (Prod.mk.inj (List.mem_singleton.mp h)).2]
    exact List.subset_cons_self ..
  | branch _ _ _ _ otherwise =>
    rw [flatten, List.cons_append]
    rcases List.mem_append.mp h with h | h
    · exact (hliteral h).elim
    · rcases List.mem_cons.mp h with h | h
      · rw [(Prod.mk.inj h).2]
        exact List.Subset.trans (List.subset_append_left ..) (List.subset_cons_self ..)
      · cases otherwise with
        | none => cases h
        | some other =>
          rw [(Prod.mk.inj (List.mem_singleton.mp h)).2]
          exact List.Subset.trans (List.subset_append_right ..) (List.subset_cons_self ..)
  | loop =>
    rw [flatten]
    rcases List.mem_append.mp h with h | h
    · exact (hliteral h).elim
    · rw [(Prod.mk.inj (List.mem_singleton.mp h)).2]
      exact List.subset_cons_self ..
  | switch | select =>
    rw [flatten]
    rcases List.mem_append.mp h with h | h
    · exact (hliteral h).elim
    · obtain ⟨c, hc, -, rfl⟩ := exists_of_clauseBodies h
      exact List.Subset.trans (Cancellation.flattenList_subset_flattenClauses hc) (List.subset_cons_self ..)

/-- The statements of a body outside function literals are those that it is flattened to. -/
theorem mem_flattenList_of_within (hs : Within body path s) (hopen : ∀ e ∈ path, e.isLiteral = false) :
    s ∈ flattenList body := by
  induction path generalizing body with
  | nil => exact Cancellation.mem_flattenList.mpr ⟨s, within_nil.mp hs, Cancellation.mem_flatten_self s⟩
  | cons e rest ih =>
    obtain ⟨t, ht, inner, he, hs⟩ := within_cons.mp hs
    obtain ⟨hfirst, hrest⟩ := List.forall_mem_cons.mp hopen
    exact Cancellation.mem_flattenList.mpr ⟨t, ht, flattenList_subset_flatten he hfirst (ih hs hrest)⟩

end Statement

end GoIdiom
