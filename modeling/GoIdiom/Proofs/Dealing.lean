import GoIdiom.Proofs.Derivation
import GoIdiom.Proofs.Runs.Statements
import Mathlib.Data.List.Forall2
import Mathlib.Data.List.Nodup

/-!
# The readers hand out every token once

A token list may hold equal tokens, so that runs are cut out of it without overlap is said of places: each run
takes its tokens from increasing places of the list, and no place is taken twice. The readers of statements deal
the tokens of a list to the runs of the tree in this way. A function literal leaves its braces in the run around
it, so its tokens go to two runs in turn; the law that joins the first runs of two dealings covers this.
-/

namespace GoIdiom

namespace Token

/-- A run stands at the given places of a list, in their order. -/
structure StandsAt (all run : List Token) (places : List Nat) : Prop where
  increasing : places.Pairwise (· < ·)
  tokens : places.map (all[·]?) = run.map some

/-- Runs that stand in a list without sharing a place, and each of them in the order of the list. -/
def Dealt (all : List Token) (runs : List (List Token)) : Prop :=
  ∃ places : List (List Nat), List.Forall₂ (StandsAt all) runs places ∧ places.flatten.Nodup

namespace StandsAt

variable {ts us run more : List Token} {places later : List Nat}

/-- The places are places of the list. -/
theorem lt_length (h : StandsAt ts run places) {i : Nat} (hi : i ∈ places) : i < ts.length := by
  have hmem : ts[i]? ∈ run.map some := h.tokens ▸ List.mem_map_of_mem hi
  obtain ⟨t, -, ht⟩ := List.mem_map.mp hmem
  exact (List.getElem?_eq_some_iff.mp ht.symm).1

/-- A run of a list stands at the same places when the list is continued. -/
theorem append_right (h : StandsAt ts run places) (us : List Token) : StandsAt (ts ++ us) run places := by
  refine ⟨h.increasing, ?_⟩
  rw [← h.tokens]
  exact List.map_congr_left fun i hi => List.getElem?_append_left (h.lt_length hi)

/-- A run of a list stands at later places when others come before the list. -/
theorem append_left (h : StandsAt us run places) (ts : List Token) :
    StandsAt (ts ++ us) run (places.map (ts.length + ·)) := by
  constructor
  · rw [List.pairwise_map]
    exact h.increasing.imp fun hij => Nat.add_lt_add_left hij _
  · rw [List.map_map, ← h.tokens]
    refine List.map_congr_left fun i _ => ?_
    rw [Function.comp_apply, List.getElem?_append_right (Nat.le_add_right ..), Nat.add_sub_cancel_left]

/-- A run of a list and a run of the tokens after it make one run. -/
theorem append (h : StandsAt ts run places) (hlater : StandsAt us more later) :
    StandsAt (ts ++ us) (run ++ more) (places ++ later.map (ts.length + ·)) := by
  have hfirst := h.append_right us
  have hsecond := hlater.append_left ts
  constructor
  · refine List.pairwise_append.mpr ⟨hfirst.increasing, hsecond.increasing, fun i hi j hj => ?_⟩
    obtain ⟨k, -, rfl⟩ := List.mem_map.mp hj
    have := h.lt_length hi
    omega
  · rw [List.map_append, List.map_append, hfirst.tokens, hsecond.tokens]

end StandsAt

namespace Dealt

variable {ts us first second : List Token} {runs more : List (List Token)} {places later : List (List Nat)}

/-- No place before the end of a list is one behind it. -/
theorem nodup_append (h : List.Forall₂ (StandsAt ts) runs places) (hplaces : places.flatten.Nodup)
    (hlater : later.flatten.Nodup) :
    (places.flatten ++ (later.map (List.map (ts.length + ·))).flatten).Nodup := by
  have hlt : ∀ i ∈ places.flatten, i < ts.length := by
    induction h with
    | nil => exact fun i hi => absurd hi List.not_mem_nil
    | cons hrun _ ih =>
      rw [List.flatten_cons, List.nodup_append] at hplaces
      rw [List.flatten_cons]
      exact List.forall_mem_append.mpr ⟨fun i hi => hrun.lt_length hi, ih hplaces.2.1⟩
  rw [← List.map_flatten]
  refine List.nodup_append.mpr ⟨hplaces, hlater.map fun i j hij => Nat.add_left_cancel hij, ?_⟩
  intro i hi j hj
  obtain ⟨k, -, rfl⟩ := List.mem_map.mp hj
  have := hlt i hi
  omega

/-- No tokens are dealt to no runs. -/
theorem none (ts : List Token) : Dealt ts [] := ⟨[], .nil, List.nodup_nil⟩

/-- A list is its own only run. -/
theorem whole (ts : List Token) : Dealt ts [ts] := by
  refine ⟨[List.range ts.length], .cons ⟨List.pairwise_lt_range, ?_⟩ .nil, ?_⟩
  · apply List.ext_getElem
    · simp only [List.length_map, List.length_range]
    · intro i hi _
      rw [List.length_map, List.length_range] at hi
      simp only [List.getElem_map, List.getElem_range]
      exact List.getElem?_eq_getElem hi
  · rw [List.flatten_singleton]
    exact List.nodup_range

/-- Runs of a list and runs of the tokens after it. -/
theorem append (h : Dealt ts runs) (hmore : Dealt us more) : Dealt (ts ++ us) (runs ++ more) := by
  obtain ⟨places, hplaces, hnodup⟩ := h
  obtain ⟨later, hlater, hnodupLater⟩ := hmore
  refine ⟨places ++ later.map (List.map (ts.length + ·)), ?_, ?_⟩
  · refine List.rel_append (hplaces.imp fun _ _ hrun => hrun.append_right us) ?_
    rw [List.forall₂_map_right_iff]
    exact hlater.imp fun _ _ hrun => hrun.append_left ts
  · rw [List.flatten_append]
    exact nodup_append hplaces hnodup hnodupLater

/-- The first run of a list is continued by the first run of the tokens after it. -/
theorem join (h : Dealt ts (first :: runs)) (hmore : Dealt us (second :: more)) :
    Dealt (ts ++ us) ((first ++ second) :: (runs ++ more)) := by
  obtain ⟨_, hplaces, hnodup⟩ := h
  obtain ⟨_, hlater, hnodupLater⟩ := hmore
  have hall := nodup_append hplaces hnodup hnodupLater
  cases hplaces with
  | @cons _ place _ places hfirst hruns =>
    cases hlater with
    | @cons _ next _ later hsecond hlater =>
      refine ⟨(place ++ next.map (ts.length + ·)) :: (places ++ later.map (List.map (ts.length + ·))), ?_, ?_⟩
      · refine .cons (hfirst.append hsecond) (List.rel_append (hruns.imp fun _ _ hrun => hrun.append_right us) ?_)
        rw [List.forall₂_map_right_iff]
        exact hlater.imp fun _ _ hrun => hrun.append_left ts
      · refine List.Perm.nodup ?_ hall
        simp only [List.map_cons, List.flatten_cons, List.flatten_append, List.append_assoc]
        refine List.Perm.append_left place ?_
        rw [← List.append_assoc, ← List.append_assoc]
        exact List.perm_append_comm.append_right _

/-- Tokens that no run takes come before the list. -/
theorem skip (h : Dealt us runs) (ts : List Token) : Dealt (ts ++ us) runs := (none ts).append h

/-- Tokens that no run takes come after the list. -/
theorem stop (h : Dealt ts runs) (us : List Token) : Dealt (ts ++ us) runs := by
  have hall := h.append (none us)
  rwa [List.append_nil] at hall

/-- A run without tokens. -/
theorem blank (h : Dealt ts runs) : Dealt ts ([] :: runs) := (whole []).append h

end Dealt

end Token

namespace Statement

open Token

/-- The tokens of a block and of those before it are dealt to the runs of both. -/
theorem dealt_block {keyword : Token} {ts : List Token} {b : Block} {runs more : List (List Token)}
    (hb : Block.afterHeader? keyword ts = some b) (hbefore : Dealt b.before runs) (hinner : Dealt b.inner more) :
    ∃ own, own ++ b.rest = ts ∧ Dealt own (runs ++ more) := by
  refine ⟨b.before ++ b.opener :: (b.inner ++ [b.closer]), ?_, ?_⟩
  · rw [← Block.run_afterHeader? hb, Block.run]
    simp
  · exact hbefore.append ((hinner.stop [b.closer]).skip [b.opener])

mutual

/-- The tokens of a statement list are dealt to its runs. -/
theorem dealt_list {ts : List Token} {ss : List Statement} : DerivesList ts ss → Dealt ts (listRuns ss)
  | .nil => .none []
  | .semi _ hrest => (dealt_list hrest).skip [_]
  | .label _ _ hrest => (dealt_list hrest).skip [_, _]
  | .compound label _ hs hrest => by
    obtain ⟨own, rfl, hown⟩ := dealt_compound hs
    rw [listRuns, runs_withLabel]
    exact (hown.append (dealt_list hrest)).skip [_]
  | .block (g := g) label _ hg hbody hrest => by
    rw [← splitGroup_eq_append hg, listRuns, runs]
    exact ((dealt_list hbody).append ((dealt_list hrest).skip [g.closer])).skip [_]
  | .plain label _ hcut hrest => by
    rw [← takeRun_append, listRuns, runs]
    exact (dealt_cut hcut).append (dealt_list hrest)

/-- The tokens of a compound statement are dealt to its runs. -/
theorem dealt_compound {keyword : Token} {ts rest : List Token} {s : Statement} :
    DerivesCompound keyword ts s rest → ∃ own, own ++ rest = ts ∧ Dealt own s.runs
  | .loop _ hb hcut hbody => by
    rw [runs]
    exact dealt_block hb (dealt_cut hcut) (dealt_list hbody)
  | .switch _ hb hcut hclauses => by
    rw [runs]
    exact dealt_block hb (dealt_cut hcut) (dealt_clauses hclauses)
  | .select _ hb hcut hclauses => by
    rw [runs]
    exact dealt_block hb (dealt_cut hcut) (dealt_clauses hclauses)
  | .branch _ hb hcut hbody hother => by
    obtain ⟨after, hafter, hdealt⟩ := dealt_other hother
    obtain ⟨own, hown, hblock⟩ := dealt_block hb (dealt_cut hcut) (dealt_list hbody)
    refine ⟨own ++ after, ?_, ?_⟩
    · rw [← hown, ← hafter, List.append_assoc]
    · rw [runs]
      have hall := hblock.append hdealt
      rwa [List.cons_append, List.cons_append, List.append_assoc] at hall

/-- The tokens of the other branch are dealt to its runs. -/
theorem dealt_other {line endLine : Nat} {ts rest : List Token} {other : Option (List Statement)} :
    DerivesOther line ts other endLine rest → ∃ own, own ++ rest = ts ∧ Dealt own (otherRuns other)
  | .none => ⟨[], rfl, .none []⟩
  | @DerivesOther.block _ word brace _ g _ _ _ hg hbody => by
    refine ⟨word :: brace :: (g.inner ++ [g.closer]), ?_,
      ((dealt_list hbody).stop [g.closer]).skip [word, brace]⟩
    rw [← splitGroup_eq_append hg]
    simp
  | @DerivesOther.branch _ word keyword _ _ _ _ _ hs => by
    obtain ⟨own, rfl, hown⟩ := dealt_compound hs
    refine ⟨word :: keyword :: own, rfl, ?_⟩
    rw [otherRuns, listRuns, listRuns, List.append_nil]
    exact hown.skip [word, keyword]

/-- The tokens of clauses are dealt to their runs. -/
theorem dealt_clauses {ts : List Token} {cs : List Clause} : DerivesClauses ts cs → Dealt ts (clauseRuns cs)
  | .nil _ => .none ts
  | @DerivesClauses.cons ts rest header _ keyword colon _ _ hkeyword hheader hbody hmore => by
    have hclause := spanTop_append (·.isOp ":") (spanTop startsClause rest).1
    rw [hheader] at hclause
    rw [clauseRuns, ← spanTop_append startsClause ts, hkeyword, ← spanTop_append startsClause rest, ← hclause]
    have hown : Dealt (header ++ [colon]) [header] := (Dealt.whole header).stop [colon]
    have hall := hown.append ((dealt_list hbody).append (dealt_clauses hmore))
    have hskipped := (hall.skip [keyword]).skip (spanTop startsClause ts).1
    simpa only [List.append_assoc, List.cons_append, List.nil_append] using hskipped

/-- The tokens of a run are dealt to what is left of it and to the runs of its function literals. -/
theorem dealt_cut {ts own : List Token} {literals : List FuncLiteral} :
    DerivesCut ts literals own → Dealt ts (own :: literalRuns literals)
  | .nil => .whole []
  | .keep (t := t) _ hrest => (Dealt.whole [t]).join (dealt_cut hrest)
  | .literal (c := c) hc hbody hrest => by
    rw [← LiteralCut.all_append_rest hc, literalRuns]
    have hopened : Dealt (c.signature ++ [c.body.opener]) [c.signature ++ [c.body.opener]] := .whole _
    have hafter := (Dealt.whole [c.body.closer]).join (dealt_cut hrest)
    have hall := hopened.join ((dealt_list hbody).blank.join hafter)
    simpa only [LiteralCut.all, LiteralCut.shell, List.append_assoc, List.cons_append, List.nil_append] using hall

end

/-- Every run of a statement tree is well bracketed, and the tokens of the list are dealt to the runs: each run
keeps their order, and no token stands in two runs or twice in one. -/
theorem runs_ofTokens {ts : List Token} {ss : List Statement} (h : ofTokens ts = .ok ss) :
    (∀ r ∈ listRuns ss, ∃ pairs, matchBrackets r = .ok pairs) ∧ Dealt ts (listRuns ss) := by
  refine ⟨fun r hr => ?_, dealt_list (derives_of_ofTokens h)⟩
  obtain ⟨pairs, hpairs, hread⟩ := Except.bind_eq_ok.mp h
  have hts : Run ts ts := ⟨List.Sublist.refl ts, exists_matchBrackets_iff.mp ⟨pairs, hpairs⟩⟩
  have hruns := (hread ▸ runs_readList none (fun _ ht => by cases ht) none ts hts).of_ok
  exact exists_matchBrackets_iff.mpr (hruns r hr).balanced

/-- `f(func() int) { y }`: the search for the body of the function literal leaves the parentheses around it. -/
def literalLeavingCall : List Token :=
  [⟨.ident, "f", ⟨1, 1⟩⟩, ⟨.op, "(", ⟨1, 2⟩⟩, ⟨.keyword, "func", ⟨1, 3⟩⟩,
    ⟨.op, "(", ⟨1, 7⟩⟩, ⟨.op, ")", ⟨1, 8⟩⟩, ⟨.ident, "int", ⟨1, 10⟩⟩,
    ⟨.op, ")", ⟨1, 13⟩⟩, ⟨.op, "\x7b", ⟨1, 15⟩⟩, ⟨.ident, "y", ⟨1, 17⟩⟩,
    ⟨.op, "\x7d", ⟨1, 19⟩⟩]

/-- A call with a literal among its arguments is dealt to two runs, both with matching brackets. -/
theorem runs_ofTokens_literalLeavingCall :
    ∃ ss, ofTokens literalLeavingCall = .ok ss ∧
      (listRuns ss).map (List.map Token.text) =
        [["f", "(", "func", "(", ")", "int", ")", "\x7b", "\x7d"], ["y"]] ∧
      (∀ r ∈ listRuns ss, ∃ pairs, matchBrackets r = .ok pairs) ∧
      Dealt literalLeavingCall (listRuns ss) := by
  have hread : (ofTokens literalLeavingCall).map (fun ss => (listRuns ss).map (List.map Token.text)) =
      .ok [["f", "(", "func", "(", ")", "int", ")", "\x7b", "\x7d"], ["y"]] := by decide +kernel
  cases hss : ofTokens literalLeavingCall with
  | error f =>
    rw [hss] at hread
    cases hread
  | ok ss =>
    rw [hss] at hread
    exact ⟨ss, rfl, Except.ok.inj hread, runs_ofTokens hss⟩

end Statement

end GoIdiom
