import GoIdiom.Construct.Expression
import GoIdiom.Proofs.Relocation.Scope
import Mathlib.Data.List.Basic

/-!
# Constructs of moved expressions

The constructs of moved tokens are the constructs of the original tokens, moved.
-/

namespace GoIdiom.Relocation

variable (m : Relocation)

section Calls

variable (ctx : Context) (c : Call)

/-- A moved channel type is described as before. -/
@[simp] theorem channelOf_map (type : List Token) (sizes : List (List Token)) :
    Expression.channelOf (type.map m.token) (sizes.map (List.map m.token)) = Expression.channelOf type sizes := by
  have hshown : sizes.map (Token.render ∘ List.map m.token) = sizes.map Token.render :=
    List.map_congr_left fun size _ => m.render_map size
  unfold Expression.channelOf
  rw [← List.map_drop, render_map, ← List.head?_map, List.map_map, hshown, ← List.head?_map]
  match sizes with
  | [] => rfl
  | [] :: _ => rfl
  | [_] :: _ => rfl
  | (_ :: _ :: _) :: _ => rfl

/-- The errors among the arguments of a call. -/
theorem errorArguments_map (arguments : List (List Token)) :
    (arguments.map (List.map m.token)).filterMap (fun argument =>
      match argument with
      | [t] => if Name.isError t.text then some (Token.render [t]) else none
      | _ => none) = arguments.filterMap fun argument =>
      match argument with
      | [t] => if Name.isError t.text then some (Token.render [t]) else none
      | _ => none := by
  rw [List.filterMap_map]
  congr 1
  funext argument
  match argument with
  | [] => rfl
  | [t] =>
    have h := m.render_map [t]
    rw [List.map_cons, List.map_nil] at h
    simp only [Function.comp_apply, List.map_cons, List.map_nil, text_token, h]
  | _ :: _ :: _ => rfl

/-- A moved call that builds an error is described as before. -/
@[simp] theorem errorOf_call (function : String) :
    Expression.errorOf (m.call c) function = Expression.errorOf c function := by
  obtain ⟨callee, arguments, tokens, isWholeRun⟩ := c
  have hname := m.name_call ⟨callee, arguments, tokens, isWholeRun⟩
  have harguments := m.errorArguments_map (arguments.drop 1)
  rw [List.map_drop] at harguments
  rw [Expression.errorOf, Expression.errorOf, ErrorConstructInfo.mk.injEq]
  refine ⟨hname, ?_, ?_, ?_, harguments, rfl⟩
  all_goals
    match arguments with
    | [] => rfl
    | [] :: _ => rfl
    | [t] :: _ =>
      simp only [call, List.map_cons, List.map_nil, kind_token]
      split <;> rfl
    | (_ :: _ :: _) :: _ => rfl

/-- What is special about a call is the same after the move. -/
@[simp] theorem special_call : Expression.special (m.context ctx) (m.call c) = Expression.special ctx c := by
  have hrender : Token.render (m.call c).tokens = Token.render c.tokens := m.render_map c.tokens
  have harguments : (m.call c).arguments = c.arguments.map (List.map m.token) := rfl
  unfold Expression.special
  rw [harguments]
  cases c.arguments with
  | nil => simp only [List.map_nil, name_call, errorOf_call, function_context, hrender]
  | cons type sizes =>
    simp only [List.map_cons, name_call, errorOf_call, function_context, hrender, List.head?_map, List.head?_cons,
      Option.any_map, isKeyword_token, channelOf_map, render_map, Option.any_some]

/-- A moved call is described as before. -/
@[simp] theorem callInfo_call (f : FileInfo) (b : Bool) :
    Expression.callInfo (m.file f) (m.context ctx) b (m.call c) = Expression.callInfo f ctx b c := by
  have harguments : (m.call c).arguments.map Token.render = c.arguments.map Token.render := by
    rw [call, List.map_map]
    exact List.map_congr_left fun a _ => m.render_map a
  unfold Expression.callInfo
  rw [harguments, name_call, lastName_call, receiver_call, scope_context, testParam_scope]
  rfl

/-- What a call is besides a call holds no place. -/
theorem detail_special {d : Detail} (h : Expression.special ctx c = .ok (some d)) : m.detail d = d := by
  have hfound {d' : Detail} (h : (pure (some d') : Except SizeFault (Option Detail)) = .ok (some d))
      (hd' : m.detail d' = d') : m.detail d = d := by
    cases h
    exact hd'
  have hchannel {type : List Token} {sizes : List (List Token)}
      (h : (do let channel ← Expression.channelOf type sizes; pure (some (Detail.channelMake channel))) =
        Except.ok (some d)) : m.detail d = d := by
    cases hc : Expression.channelOf type sizes with
    | error e => rw [hc] at h; cases h
    | ok channel => rw [hc] at h; exact hfound h rfl
  unfold Expression.special at h
  cases hc : c.arguments with
  | nil =>
    simp only [hc] at h
    split at h
    · exact hfound h rfl
    split at h
    · exact hfound h rfl
    split at h
    · exact hfound h rfl
    split at h
    · exact hfound h rfl
    · cases h
  | cons type sizes =>
    simp only [hc] at h
    split at h
    · exact hchannel h
    split at h
    · exact hfound h rfl
    split at h
    · exact hfound h rfl
    split at h
    · exact hfound h rfl
    split at h
    · exact hfound h rfl
    · cases h

/-- A call of a moved run. -/
theorem walkCall_call (f : FileInfo) (b : Bool) {ts : List Token} (h : c ∈ Call.list ts) :
    Expression.walkCall (m.file f) (m.context ctx) b (m.call c) =
      (Expression.walkCall f ctx b c).map m.trace := by
  obtain ⟨hpos, hline⟩ := m.first_call h
  rw [Expression.walkCall, special_call, hpos, hline, name_call, callInfo_call, Expression.walkCall]
  cases hmore : Expression.special ctx c with
  | error e => rfl
  | ok more =>
    have hcall : m.detail (.call (Expression.callInfo f ctx b c)) = .call (Expression.callInfo f ctx b c) := rfl
    refine congrArg Except.ok ?_
    cases more with
    | none => rfl
    | some d =>
      simp only [trace, construct, List.map_cons, Option.toList, List.map_nil, m.detail_special ctx c hmore, hcall]
      rfl

end Calls

section Comparisons

/-- Moved tokens end in a call of `Error` exactly when the tokens do. -/
@[simp] theorem endsInErrorCall_map (ts : List Token) :
    Expression.endsInErrorCall (ts.map m.token) = Expression.endsInErrorCall ts := by
  match ts with
  | [] => rfl
  | [_] => rfl
  | [_, _] => rfl
  | [_, _, _] => rfl
  | _ :: _ :: _ :: _ :: _ => rfl

/-- Moved tokens are a selection exactly when the tokens are. -/
@[simp] theorem isSelected_map (ts : List Token) :
    Expression.isSelected (ts.map m.token) = Expression.isSelected ts := by
  match ts with
  | [] => rfl
  | [_] => rfl
  | _ :: _ :: _ => rfl

/-- A moved comparison of errors is described as before. -/
@[simp] theorem comparisonInfo_comparison (function : String) (c : Comparison) :
    Expression.comparisonInfo function (m.comparison c) = Expression.comparisonInfo function c := by
  have hshown (n : Nat) : ((m.comparison c).before.take n).reverse ++ [(m.comparison c).op] ++
      (m.comparison c).right = ((c.before.take n).reverse ++ [c.op] ++ c.right).map m.token := by
    simp only [comparison, List.map_append, List.map_reverse, List.map_take, List.map_cons, List.map_nil]
  have hbefore : (m.comparison c).before = c.before.map m.token := rfl
  have hop : (m.comparison c).op.text = c.op.text := rfl
  unfold Expression.comparisonInfo
  simp only [hshown, render_map, hop, rightText_comparison, leftIsError_comparison, rightIsError_comparison,
    text_left_comparison]
  rw [hbefore, endsInErrorCall_map, isSelected_map]

/-- A listed comparison stands at `==` or `!=`. -/
theorem isOpIn_of_mem_comparisonsFrom {before ts : List Token} {c : Comparison}
    (h : c ∈ Comparison.listFrom before ts) : c.op.isOpIn ["==", "!="] = true := by
  induction ts generalizing before with
  | nil => exact absurd h List.not_mem_nil
  | cons t rest ih =>
    rw [Comparison.listFrom] at h
    split at h
    · next hop =>
      rcases List.mem_cons.mp h with rfl | h
      · exact (Bool.and_eq_true_iff.mp hop).1
      · exact ih h
    · exact ih h

/-- The constructs of comparisons move with the tokens. -/
theorem comparisonConstructs_map (f : FileInfo) (ctx : Context) (ts : List Token) :
    Expression.comparisons (m.file f) (m.context ctx) (ts.map m.token) =
      (Expression.comparisons f ctx ts).map m.construct := by
  rw [Expression.comparisons, comparisons_map, List.filterMap_map, Expression.comparisons, List.map_filterMap]
  refine List.filterMap_congr fun c hc => ?_
  have hop := isOpIn_of_mem_comparisonsFrom hc
  rw [Token.isOpIn, Bool.and_eq_true, beq_iff_eq] at hop
  have hpos := m.pos_token_of_kind hop.1 (by decide)
  rw [Function.comp_apply, comparisonInfo_comparison, function_context, Option.map_map]
  congr 1
  funext info
  simp only [comparison, hpos, line_token]
  rfl

end Comparisons

/-- The constructs of a moved run. -/
@[simp] theorem walk_map (f : FileInfo) (ctx : Context) (b : Bool) (ts : List Token) :
    Expression.walk (m.file f) (m.context ctx) b (ts.map m.token) =
      (Expression.walk f ctx b ts).map m.trace := by
  have hcalls : (Call.list ts).map (Expression.walkCall (m.file f) (m.context ctx) b ∘ m.call) =
      (Call.list ts).map (Except.map m.trace ∘ Expression.walkCall f ctx b) :=
    List.map_congr_left fun c hc => m.walkCall_call ctx c f b hc
  rw [Expression.walk, calls_map, List.map_map, hcalls, ← List.map_map, all_map, comparisonConstructs_map,
    found_map, andThen_map, Expression.walk]

end GoIdiom.Relocation
