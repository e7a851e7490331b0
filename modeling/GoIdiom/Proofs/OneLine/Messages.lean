import GoIdiom.Proofs.OneLine.Declarations
import GoIdiom.Style.Catalog

/-!
# What messages are made of

A matcher puts its messages together from words of its own, from names, numbers and limits, and from texts of the
source that it repeats as they stand. Only the last can break a line, and which of them a rule repeats is written
down here. Suggestions, and the wording of failures, are in one line.
-/

namespace GoIdiom

open Text

/-- What a matcher may consult, with names and texts in one line. -/
structure MatchContext.InLine (ctx : MatchContext) : Prop where
  index : ctx.index.NamesInLine
  options : ∀ name s, ctx.options.lookup name = some (.text s) → OneLine s

namespace Style

/-- The texts of a construct that the messages of a rule repeat as they stand in the source. -/
def quotedBy (id : String) : Detail → List String
  | .errorCompare e => if id = "error-string-compare" then [e.expression] else []
  | .errorIgnored e => if id = "error-ignored" then [e.callee] else []
  | .errorConstruct e => if id = "error-string-format" then e.message.toList else []
  | .go g => if id = "goroutine-lifecycle" then g.callee.toList else []
  | .defer d => if id = "defer-in-loop" then d.callee.toList else []
  | .channelMake ch => if id = "channel-buffer-size" then [ch.element] else []
  | .imported path _ => if id = "dot-import" then [path] else []
  | .function f =>
    if id = "receiver-name-self" ∨ id = "receiver-name-inconsistent" then
      f.receiver.toList.map (·.typeName) else []
  | _ => []

/-- A hit whose message quotes some texts, with everything else in one line. -/
structure Says (quoted : List String) (h : Hit) : Prop where
  message : Quoting quoted h.message
  suggestion : ∀ s ∈ h.suggestion, OneLine s

/-- A computation of a matcher whose failures are worded in one line. -/
abbrev Words {α : Type} (P : α → Prop) : Except MatchFailure α → Prop :=
  Outcome P fun cause => OneLine cause.message

/-- A report whose messages quote some texts. -/
abbrev Reports (quoted : List String) : Except MatchFailure (List Hit) → Prop :=
  Words fun hits => ∀ h ∈ hits, Says quoted h

namespace Reports

variable {quoted : List String}

/-- A report without hits. -/
theorem nothing : Reports quoted (report []) := .ok (List.forall_mem_nil _)

/-- A hit without a suggestion of its own. -/
theorem says_here {message : String} (h : Quoting quoted message) : Says quoted (.here message) :=
  ⟨h, fun _ hs => nomatch hs⟩

/-- A hit at a place, without a suggestion of its own. -/
theorem says_at {pos : Position} {message : String} (h : Quoting quoted message) : Says quoted (.at' pos message) :=
  ⟨h, fun _ hs => nomatch hs⟩

/-- A hit under a condition. -/
theorem says_when {condition : Bool} {message : String} (h : condition = true → Quoting quoted message) :
    ∀ hit ∈ Hit.when condition message, Says quoted hit := by
  rw [Hit.when]
  split
  · next hcondition => exact List.forall_mem_singleton.mpr (says_here (h hcondition))
  · exact List.forall_mem_nil _

/-- A report under a condition. -/
theorem whenAt {condition : Bool} {message : String} (h : condition = true → Quoting quoted message) :
    Reports quoted (report (Hit.when condition message)) := .ok (says_when h)

/-- A report under a condition, in one line. -/
theorem plain {condition : Bool} {message : String} (h : OneLine message) :
    Reports quoted (report (Hit.when condition message)) := whenAt fun _ => .plain h

/-- A report on several things. -/
theorem each {α : Type} {xs : List α} {pos : α → Position} {message : α → String}
    (h : ∀ x ∈ xs, Quoting quoted (message x)) :
    Reports quoted (report (xs.map fun x => .at' (pos x) (message x))) := by
  refine .ok fun hit hhit => ?_
  obtain ⟨x, hx, rfl⟩ := List.mem_map.mp hhit
  exact says_at (h x hx)

end Reports

/-! ## Options and limits -/

/-- The types of values are words. -/
theorem oneLine_qualifiedName (d : Document) : OneLine d.qualifiedName := by
  cases d with
  | moment m => cases m <;> exact .append (oneLine_literal rfl) (oneLine_literal rfl)
  | _ => exact oneLine_literal rfl

/-! ## Failures -/

/-- The message about a missing attribute is one line when the attribute's name is. -/
theorem oneLine_noAttribute {name : String} (h : OneLine name) : OneLine (MatchFailure.noAttribute name).message :=
  (OneLine.append (oneLine_literal rfl) h).append (oneLine_literal rfl)

/-- The message about an index out of range is one line when the sequence's name is. -/
theorem oneLine_outOfRange {sequence : String} (h : OneLine sequence) :
    OneLine (MatchFailure.outOfRange sequence).message :=
  (OneLine.append (oneLine_literal rfl) h).append (oneLine_literal rfl)

/-- The message about a missing key is one line, whatever the key. -/
theorem oneLine_noKey (key : String) : OneLine (MatchFailure.noKey key).message :=
  OneLine.append (oneLine_literal rfl) (oneLine_quoted key)

/-- The message about a value that holds nothing is one line, whatever the value. -/
theorem oneLine_notContainer (d : Document) : OneLine (MatchFailure.notContainer d.qualifiedName).message :=
  (OneLine.append (oneLine_literal rfl) (oneLine_qualifiedName d)).append (oneLine_literal rfl)

/-- The value of an option that is a number by default. -/
theorem oneLine_option {ctx : MatchContext} (hctx : ctx.InLine) (name : String) (limit : Int) :
    ∀ s, ctx.option name (.int limit) = .text s → OneLine s := by
  intro s hs
  rw [MatchContext.option] at hs
  cases hvalue : ctx.options.lookup name with
  | none => rw [hvalue] at hs; cases hs
  | some value =>
    rw [hvalue, Option.getD_some] at hs
    exact hctx.options name s (hvalue.trans (congrArg some hs))

/-- A comparison with a limit. -/
theorem words_measure {operator : String} (hoperator : OneLine operator) (n : Nat) (limit : Document) :
    Words (fun _ => True) (MatchContext.measure operator n limit) := by
  rw [MatchContext.measure]
  split
  · exact .ok trivial
  · refine .error ?_
    unfold MatchFailure.message
    simp only [oneLine_append, hoperator, oneLine_qualifiedName, and_true]
    and_intros <;> exact oneLine_literal rfl

/-- Comparing a count with an upper limit fails with a message of one line, if it fails. -/
theorem words_above (n : Nat) (limit : Document) : Words (fun _ => True) (MatchContext.above n limit) := by
  have hoperator : OneLine ">" := oneLine_literal rfl
  rw [MatchContext.above]
  exact (words_measure hoperator n limit).map fun _ _ => trivial

/-- Comparing a count with a limit to be reached fails with a message of one line, if it fails. -/
theorem words_reaches (n : Nat) (limit : Document) : Words (fun _ => True) (MatchContext.reaches n limit) := by
  have hoperator : OneLine ">=" := oneLine_literal rfl
  rw [MatchContext.reaches]
  exact (words_measure hoperator n limit).map fun _ _ => trivial

/-- Comparing a count with a limit to keep fails with a message of one line, if it fails. -/
theorem words_within (n : Nat) (limit : Document) : Words (fun _ => True) (MatchContext.within n limit) := by
  have hoperator : OneLine "<=" := oneLine_literal rfl
  rw [MatchContext.within]
  exact (words_measure hoperator n limit).map fun _ _ => trivial

/-- The end of a message that names a limit. -/
theorem words_limitText {limit : Document} (h : ∀ s, limit = .text s → OneLine s) :
    Words OneLine (limitText limit) := by
  rw [limitText]
  split
  · refine .ok ?_
    simp only [oneLine_append, Document.oneLine_plain h, and_true]
    and_intros <;> exact oneLine_literal rfl
  · refine .error ?_
    unfold MatchFailure.message
    simp only [oneLine_append, oneLine_toString, and_true]
    and_intros <;> exact oneLine_literal rfl

/-- A report of a number above a limit. -/
theorem Reports.above {quoted : List String} {limit : Document}
    (hlimit : ∀ s, limit = .text s → OneLine s) (n : Nat) {message : String} (h : OneLine message) :
    Reports quoted (reportAbove n limit message) := by
  rw [reportAbove]
  refine (words_above n limit).bind fun above _ => ?_
  split
  · refine (words_limitText hlimit).bind fun text htext => .ok ?_
    exact List.forall_mem_singleton.mpr (says_here (.plain (h.append htext)))
  · exact nothing

/-- The name of a function, or what stands for it. -/
theorem oneLine_functionOr {function fallback : String} (h : OneLine function) (hfallback : OneLine fallback) :
    OneLine (functionOr function fallback) := by
  rw [functionOr]
  split
  · exact hfallback
  · exact h

/-- A text, or what stands for it. -/
theorem oneLine_getD {text : Option String} {fallback : String} (h : ∀ s ∈ text, OneLine s)
    (hfallback : OneLine fallback) : OneLine (text.getD fallback) := by
  cases text with
  | none => exact hfallback
  | some s => exact h s rfl

/-- A quoted text, or what stands for it. -/
theorem quoting_getD {quoted : List String} {text : Option String} {fallback : String} (h : text.toList ⊆ quoted)
    (hfallback : OneLine fallback) : Quoting quoted (text.getD fallback) := by
  cases text with
  | none => exact .plain hfallback
  | some s => exact .quote (h (List.mem_singleton_self s))

variable {c : Construct} {ctx : MatchContext}

/-- The names of a construct. -/
theorem names_of_detail (hc : c.NamesInLine) {d : Detail} (hdetail : c.detail = d) :
    ∀ name ∈ d.names, OneLine name :=
  hdetail ▸ hc

/-- The names of a function. -/
theorem names_of_function (hc : c.NamesInLine) {f : FunctionInfo} (hdetail : c.detail = .function f) :
    OneLine f.name ∧ (∀ r ∈ f.receiver, ∀ name ∈ r.name, OneLine name) ∧
    ∀ p ∈ f.params, p.NameInLine := by
  obtain ⟨hname, hmore⟩ := List.forall_mem_cons.mp (names_of_detail hc hdetail)
  obtain ⟨hreceiver, hparams⟩ := List.forall_mem_append.mp hmore
  refine ⟨hname, fun r hr name hn => hreceiver name ?_, fun p hp name hn => hparams name ?_⟩
  · exact Option.mem_toList.mpr (Option.mem_def.mpr (Option.bind_eq_some_iff.mpr ⟨r, hr, hn⟩))
  · exact List.mem_filterMap.mpr ⟨p, hp, hn⟩

end Style

end GoIdiom
