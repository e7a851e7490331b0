import GoIdiom.Proofs.Enclosures.Files
import GoIdiom.Proofs.Sites.Files

/-!
# The errors that a file returns

A value that a return statement gives for the last result that is an error is one construct of the file: it is
found, and no other returned error is found at its place. The value is told by what it is in the scope of its
statement.
-/

namespace GoIdiom

open Token Statement

/-- A return statement at the end of a way gives a value for the last result that is an error. -/
def Statement.ReturnsError (ctx : Context) (body : List Statement) (way : List Enclosure) (value : List Token) :
    Prop :=
  ∃ place tokens literals index, Within body way (.plain place .return tokens literals) ∧
    (ctx.along way).scope.errorIndex = some index ∧
    (commaItems (tokens.drop 1)).length = (ctx.along way).scope.results.length ∧
    (commaItems (tokens.drop 1))[index]? = some value

/-- The value that a statement returns from a function whose only result is an error. -/
def Statement.soleError? (scope : Scope) : Statement → Option (List Token)
  | .plain _ .return tokens _ =>
    match scope.errorIndex, scope.results.length, commaItems (tokens.drop 1) with
    | some 0, 1, [value] => some value
    | _, _, _ => none
  | _ => none

/-- A return whose only value is an error returns that error. -/
theorem Statement.returnsError_of_soleError? {ctx : Context} {body : List Statement} {way : List Enclosure}
    {s : Statement} {value : List Token} (hs : Within body way s)
    (h : s.soleError? (ctx.along way).scope = some value) : ReturnsError ctx body way value := by
  unfold soleError? at h
  split at h
  · next place tokens literals =>
    split at h
    · next value hindex hresults hvalues =>
      obtain rfl := Option.some.inj h
      exact ⟨place, tokens, literals, 0, hs, hindex, by rw [hvalues, hresults]; rfl, by rw [hvalues]; rfl⟩
    · cases h
  · cases h

/-- A way and a way on from there lead to the same context as the whole way. -/
theorem Context.along_append (ctx : Context) (way more : List Enclosure) :
    ctx.along (way ++ more) = (ctx.along way).along more := List.foldl_append

/-- The innermost frame of a body that declarations hold is the one of the body. -/
theorem Declaration.frames_of_holds {ts : List Token} {ctx : Context} {body : List Statement}
    (h : Declaration.Holds ts ctx body) :
    ∃ params results outer, ctx.scope.frames = Frame.ofBody params results body :: outer := by
  induction h with
  | function => exact ⟨_, _, _, rfl⟩
  | value => exact ⟨_, _, _, rfl⟩
  | semi _ _ ih | afterFunction _ _ _ ih | afterDeclared _ _ ih => exact ih

namespace SourceFile

variable {source path : String} {file : SourceFile} {lexed : Lexed} {ctx : Context} {body : List Statement}
  {way : List Enclosure} {s : Statement} {c d : Construct}

/-- The bodies of the functions of a file and of the function literals in them, each with the context that it begins
in. -/
inductive FunctionBody (tokens : List Token) : Context → List Statement → Prop
  | outer {ctx : Context} {body : List Statement} (h : Holds tokens ctx body) : FunctionBody tokens ctx body
  | literal {ctx : Context} {body found : List Statement} {way : List Enclosure} {frame : Frame} {launched : Bool}
      (h : Holds tokens ctx body) (hinside : Inside body (way ++ [.literal frame launched]) found) :
      FunctionBody tokens (ctx.along (way ++ [.literal frame launched])) found

/-- The innermost frame of a function is the one of its body. -/
theorem FunctionBody.frames {tokens : List Token} (h : FunctionBody tokens ctx body) :
    ∃ params results outer, ctx.scope.frames = Frame.ofBody params results body :: outer := by
  cases h with
  | outer h => exact Declaration.frames_of_holds h
  | @literal ctx _ _ way frame launched _ hinside =>
    obtain ⟨inner, -, hlast⟩ := inside_append.mp hinside
    cases hlast with
    | deeper hs he hhere =>
      cases hhere
      refine ⟨frame.params, frame.results, (ctx.along way).scope.frames, ?_⟩
      rw [Context.along_append, ← frame_of_enclosed he]
      rfl

/-- The body of a function is in the order of the tokens of its file. -/
theorem FunctionBody.inOrder (hlexed : tokenize source = .ok lexed) (h : read source path = .ok file)
    (hbody : FunctionBody lexed.tokens ctx body) : InOrder lexed.tokens body := by
  cases hbody with
  | outer hholds => exact (walked_of_holds hlexed h hholds).1
  | literal hholds hinside =>
    exact fun more found hfound =>
      (walked_of_holds hlexed h hholds).1 _ found (inside_append.mpr ⟨body, hinside, hfound⟩)

/-- What a statement of a function is, is found in its file. -/
theorem mem_constructs_of_within (hlexed : tokenize source = .ok lexed) (h : read source path = .ok file)
    (hbody : FunctionBody lexed.tokens ctx body) : ∃ package, ∀ way s, Within body way s →
      ∀ c, Body.OfStatement ⟨path, isTestPath path, package⟩ (ctx.along way) s c →
        c ∈ file.constructs := by
  cases hbody with
  | outer hholds =>
    obtain ⟨-, -, package, t, hwalk, hsub⟩ := walked_of_holds hlexed h hholds
    exact ⟨package, fun way s hs c hc => hsub ((Body.mem_constructs_iff hwalk c).mpr ⟨way, s, hs, hc⟩)⟩
  | literal hholds hinside =>
    obtain ⟨-, -, package, t, hwalk, hsub⟩ := walked_of_holds hlexed h hholds
    refine ⟨package, fun way s hs c hc => hsub ((Body.mem_constructs_iff hwalk c).mpr ?_)⟩
    exact ⟨_, s, within_append hinside hs, (Context.along_append ..).symm ▸ hc⟩

/-- A file has one construct of a kind at a place. -/
theorem eq_of_kind_pos (h : read source path = .ok file) (hc : c ∈ file.constructs) (hd : d ∈ file.constructs)
    (hkind : c.kind = d.kind) (hpos : c.pos = d.pos) : c = d :=
  List.inj_on_of_nodup_map (kinds_nodup h) hc hd (by rw [hkind, hpos])

/-- An error is returned at a place of a file, and it is handled in a way. -/
def HandledAs (file : SourceFile) (pos : Position) (handling : Handling) : Prop :=
  (∃ c ∈ file.constructs, c.kind = .errorReturn ∧ c.pos = pos) ∧
    ∀ c ∈ file.constructs, c.pos = pos → ∀ info, c.detail = .errorReturn info → info.handling = handling

/-- A returned error is handled as its expression tells. -/
theorem handledAs_of_returnsError (hlexed : tokenize source = .ok lexed) (h : read source path = .ok file)
    (hbody : FunctionBody lexed.tokens ctx body) {first : Token} {more : List Token}
    (hreturn : ReturnsError ctx body way (first :: more)) :
    file.HandledAs first.pos (Handling.ofExpression (ctx.along way).scope.knows (first :: more)) := by
  obtain ⟨package, hfound⟩ := mem_constructs_of_within hlexed h hbody
  obtain ⟨place, tokens, literals, index, hs, hindex, hcount, hvalue⟩ := hreturn
  have hformed : Body.errorReturn? ⟨path, isTestPath path, package⟩ (ctx.along way) place.pos
      (commaItems (tokens.drop 1)) = some (Body.returned ⟨path, isTestPath path, package⟩ (ctx.along way).scope
        (ctx.along way).guard place.pos first (first :: more)
        (Handling.ofExpression (ctx.along way).scope.knows (first :: more))) := by
    rw [Body.errorReturn?_eq, hindex, Option.bind_some]
    unfold Body.errorValue?
    rw [if_pos hcount, hvalue]
    rfl
  have hvalues : commaItems (tokens.drop 1) ≠ [] := List.ne_nil_of_mem (List.mem_of_getElem? hvalue)
  have hmem := hfound way _ hs _ (.inl (Body.forms_iff.mpr (.return hvalues hformed)))
  refine ⟨⟨_, hmem, rfl, rfl⟩, fun c hc hpos info hinfo => ?_⟩
  have hkind : c.kind = .errorReturn := by rw [Construct.kind, hinfo]; rfl
  obtain rfl := eq_of_kind_pos h hc hmem hkind hpos
  cases hinfo
  rfl

end SourceFile

end GoIdiom
