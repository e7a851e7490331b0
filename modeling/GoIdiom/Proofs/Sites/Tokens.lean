import GoIdiom.Proofs.ReadingFaults

/-!
# Tokens at a place

Everything is counted at one place: how many tokens of a run stand there. What is cut out of a run, such as
its parts, its parameters, or the first tokens of its calls together with its comparison operators, never
counts more than the run.
-/

namespace GoIdiom

namespace Token

/-- How many tokens of a run stand at a place. -/
def countAt (p : Position) (ts : List Token) : Nat := (ts.map (·.pos)).count p

variable {p : Position} {ts us : List Token} {t : Token}

/-- No token of an empty run stands anywhere. -/
theorem countAt_nil : countAt p [] = 0 := rfl

/-- The first token counts where it stands, the rest as before. -/
theorem countAt_cons (t : Token) (ts : List Token) : countAt p (t :: ts) = [t.pos].count p + countAt p ts := by
  change ([t.pos] ++ ts.map (·.pos)).count p = _
  rw [List.count_append]
  rfl

/-- The tokens of two runs are counted in each. -/
theorem countAt_append (ts us : List Token) : countAt p (ts ++ us) = countAt p ts + countAt p us := by
  rw [countAt, List.map_append, List.count_append]
  rfl

/-- Part of a run has no more tokens at a place than the run. -/
theorem countAt_le_of_sublist (h : ts.Sublist us) : countAt p ts ≤ countAt p us := (h.map _).count_le p

/-- A token of a run counts no more than the run. -/
theorem count_pos_le (h : t ∈ ts) : [t.pos].count p ≤ countAt p ts :=
  countAt_le_of_sublist (List.singleton_sublist.mpr h)

/-- Tokens of one sort and tokens of no such sort, both kept in their order, count together no more than the run. -/
theorem countAt_add_le {q : Token → Bool} {vs : List Token} (hts : ts.Sublist vs) (hus : us.Sublist vs)
    (hq : ∀ t ∈ ts, q t = true) (hnot : ∀ t ∈ us, q t = false) :
    countAt p ts + countAt p us ≤ countAt p vs := by
  have hsort : ts.Sublist (vs.filter q) := List.filter_eq_self.mpr hq ▸ hts.filter q
  have hother : us.Sublist (vs.filter fun t => !q t) := by
    have hself : us.filter (fun t => !q t) = us := List.filter_eq_self.mpr fun t ht => by rw [hnot t ht]; rfl
    exact hself ▸ hus.filter _
  have hsplit : countAt p (vs.filter q) + countAt p (vs.filter fun t => !q t) = countAt p vs := by
    rw [← countAt_append]
    exact ((List.filter_append_perm q vs).map _).count_eq p
  have := countAt_le_of_sublist (p := p) hsort
  have := countAt_le_of_sublist (p := p) hother
  omega

/-! ## Parts of a run -/

/-- The parts between separators, one after the other, leave out the separators only. -/
theorem flatMap_endedParts_sublist (separates : Token → Bool) (ts : List Token) :
    ((endedParts separates ts).flatMap (·.1)).Sublist ts := by
  fun_induction endedParts separates ts with
  | case1 ts part hpart =>
    have happend := spanTop_append separates ts
    rw [hpart] at happend
    rw [List.flatMap_singleton, ← happend]
    exact List.sublist_append_left ..
  | case2 ts part t rest hpart ih =>
    have happend := spanTop_append separates ts
    rw [hpart] at happend
    rw [List.flatMap_cons, ← happend]
    exact (List.Sublist.refl part).append (ih.cons t)

/-- The non-empty parts between separators, one after the other. -/
theorem flatten_splitParts_sublist (separates : Token → Bool) (ts : List Token) :
    (splitParts separates ts).flatten.Sublist ts := by
  rw [splitParts, List.flatten_filter_not_isEmpty, ← List.flatMap_def]
  exact flatMap_endedParts_sublist separates ts

/-- The first tokens of parts that stand one after the other. -/
theorem heads_sublist (parts : List (List Token)) : (parts.filterMap (·.head?)).Sublist parts.flatten := by
  induction parts with
  | nil => exact List.Sublist.slnil
  | cons part rest ih =>
    cases part with
    | nil => exact ih
    | cons t more => exact (ih.trans (List.sublist_append_right more _)).cons_cons t

/-- A run has no separator outside brackets, or is cut at the first one. -/
theorem splitTopFrom_cases (separates : Token → Bool) (depth : Int) (ts : List Token) :
    splitTopFrom separates depth ts = [ts] ∨ ∃ part t rest, ts = part ++ t :: rest ∧ separates t = true ∧
      splitTopFrom separates depth ts = part :: splitTopFrom separates 0 rest := by
  induction ts generalizing depth with
  | nil => exact Or.inl rfl
  | cons t rest ih =>
    rw [splitTopFrom]
    split
    · next hseparates =>
      obtain ⟨hdepth, ht⟩ := Bool.and_eq_true_iff.mp hseparates
      exact Or.inr ⟨[], t, rest, rfl, ht, by rw [of_decide_eq_true hdepth]⟩
    · rcases ih (depth + t.depthStep) with hwhole | ⟨part, u, after, rfl, hu, hparts⟩
      · exact Or.inl (by rw [hwhole, consFirst])
      · exact Or.inr ⟨t :: part, u, after, rfl, hu, by rw [hparts, consFirst]⟩

/-- The last part between separators ends the run. -/
theorem suffix_of_getLast?_splitTopFrom {separates : Token → Bool} {depth : Int} {ts last : List Token}
    (h : (splitTopFrom separates depth ts).getLast? = some last) : last <:+ ts := by
  rcases splitTopFrom_cases separates depth ts with hwhole | ⟨part, t, rest, hts, -, hparts⟩
  · rw [hwhole] at h
    exact Option.some.inj h ▸ List.suffix_refl _
  · have hne : splitTopFrom separates 0 rest ≠ [] := by
      rcases splitTopFrom_cases separates 0 rest with
        h | ⟨_, _, _, -, -, h⟩ <;> rw [h] <;> exact List.cons_ne_nil _ _
    rw [hparts, List.getLast?_cons_of_ne_nil hne] at h
    have hlast := suffix_of_getLast?_splitTopFrom h
    rw [hts]
    exact hlast.trans ((List.suffix_cons t rest).trans (List.suffix_append part _))
termination_by ts.length
decreasing_by
  rw [hts, List.length_append, List.length_cons]
  omega

/-- An assignment is its targets, the sign and the value. -/
theorem append_of_cutAssignmentFrom {depth : Int} {ts : List Token} {a : Assignment}
    (h : cutAssignmentFrom depth ts = some a) :
    a.left ++ a.op :: a.right = ts ∧ a.op.isOpIn [":=", "="] = true := by
  induction ts generalizing depth a with
  | nil => cases h
  | cons t rest ih =>
    rw [cutAssignmentFrom] at h
    split at h
    · next hsign =>
      obtain rfl := Option.some.inj h
      exact ⟨rfl, (Bool.and_eq_true_iff.mp hsign).2⟩
    · obtain ⟨a, ha, rfl⟩ := Option.map_eq_some_iff.mp h
      obtain ⟨happend, hsign⟩ := ih ha
      exact ⟨congrArg (t :: ·) happend, hsign⟩

end Token

/-! ## Parameters and results -/

namespace Signature

/-- The parameter of an entry stands at the first token of the entry. -/
theorem pos_paramOf (e : ParamEntry) : (paramOf e).pos = e.first.pos := by
  rw [paramOf]
  split
  · split <;> rfl
  · rfl

/-- Entries that share types keep their first tokens. -/
theorem first_shareTypes (entries : List ParamEntry) :
    (shareTypes entries).2.map (·.first) = entries.map (·.first) := by
  induction entries with
  | nil => rfl
  | cons e rest ih =>
    rw [shareTypes, List.map_cons, ← ih]
    cases shareTypes rest with
    | mk pending done =>
      dsimp only
      split
      · split <;> rfl
      · rfl

/-- An entry begins with the first token of its part. -/
theorem first_entryOf (part : List Token) : (entryOf part).map (·.first) = part.head? := by
  cases part with
  | nil => rfl
  | cons first rest =>
    rw [entryOf]
    split <;> rfl

/-- Parameters stand at different tokens of the brackets around them. -/
theorem pos_params_sublist (inner : List Token) :
    ((params inner).map (·.pos)).Sublist (inner.map (·.pos)) := by
  have hentries : ((Token.splitParts (·.isOp ",") inner).filterMap entryOf).map (·.first) =
      (Token.splitParts (·.isOp ",") inner).filterMap (·.head?) := by
    rw [List.map_filterMap]
    exact List.filterMap_congr fun part _ => first_entryOf part
  have hfirsts : (params inner).map (·.pos) =
      ((Token.splitParts (·.isOp ",") inner).filterMap (·.head?)).map (·.pos) := by
    rw [params, List.map_map, ← hentries, List.map_map]
    have hpos : (·.pos) ∘ paramOf = (·.pos) ∘ ParamEntry.first := funext pos_paramOf
    rw [hpos]
    split
    · rw [← List.map_map, first_shareTypes, List.map_map]
    · rfl
  rw [hfirsts]
  exact ((Token.heads_sublist _).trans (Token.flatten_splitParts_sublist _ inner)).map _

/-- Results stand at different tokens of what follows the parameters. -/
theorem pos_results_sublist (ts : List Token) : ((results ts).map (·.pos)).Sublist (ts.map (·.pos)) := by
  cases ts with
  | nil => exact List.Sublist.slnil
  | cons t rest =>
    rw [results]
    split
    · split
      · next g hg =>
        have hgroup : g.inner.Sublist (t :: rest) := by
          rw [← Token.splitGroup_eq_append hg]
          exact (List.sublist_append_left ..).cons t
        exact (pos_params_sublist g.inner).trans (hgroup.map _)
      · exact List.nil_sublist _
    · exact (List.nil_sublist _).cons_cons _

end Signature

/-! ## Calls and comparisons -/

namespace Call

/-- Whether a token may stand in a selector chain. -/
def inChain (t : Token) : Bool := t.isIdent || t.isOp "."

/-- A parenthesis stands in no selector chain. -/
theorem isOp_of_inChain {t : Token} (h : inChain t = true) : t.isOp "(" = false := by
  rw [Token.isOp, Bool.and_eq_false_iff]
  rcases Bool.or_eq_true_iff.mp h with hident | hpoint
  · rw [beq_iff_eq.mp hident]
    exact Or.inl (by decide)
  · rw [beq_iff_eq.mp (Bool.and_eq_true_iff.mp hpoint).2]
    exact Or.inr (by decide)

/-- The first tokens of the chains in front of parentheses; `before` is what stands before the run, in reverse. -/
def firstsFrom (before : List Token) : List Token → List Token
  | [] => []
  | t :: rest =>
    (if t.isOp "(" && before.head?.any (·.isIdent) then [(chainBack before).1.headD default] else []) ++
      firstsFrom (t :: before) rest

/-- A chain begins with one of the names and points that end the run. -/
theorem first_mem_takeWhile {name : Token} (rest : List Token) (h : name.isIdent = true) :
    (chainBack (name :: rest)).1.headD default ∈ (name :: rest).takeWhile inChain := by
  have hname : inChain name = true := by rw [inChain, h, Bool.true_or]
  have hself (more : List Token) : name ∈ (name :: more).takeWhile inChain := by
    rw [List.takeWhile_cons_of_pos hname]
    exact List.mem_cons_self
  match rest with
  | [] => exact hself []
  | [t] => exact hself [t]
  | dot :: selected :: rest =>
    rw [chainBack]
    split
    · next hcond =>
      obtain ⟨hdot, hselected⟩ := Bool.and_eq_true_iff.mp hcond
      obtain ⟨first, more, hchain, -⟩ := Relocation.chainBack_eq_cons rest hselected
      have hmem := first_mem_takeWhile rest hselected
      have hpoint : inChain dot = true := by rw [inChain, hdot, Bool.or_true]
      rw [hchain] at hmem
      simp only [hchain, List.takeWhile_cons_of_pos hname, List.takeWhile_cons_of_pos hpoint]
      exact List.mem_cons_of_mem _ (List.mem_cons_of_mem _ hmem)
    · exact hself _

/-- The chains in front of parentheses stand one after the other. -/
theorem firstsFrom_sublist (before ts : List Token) :
    (firstsFrom before ts).Sublist ((before.takeWhile inChain).reverse ++ ts) := by
  induction ts generalizing before with
  | nil => exact List.nil_sublist _
  | cons t rest ih =>
    have hrest := ih (t :: before)
    rw [firstsFrom]
    cases hchain : inChain t with
    | true =>
      rw [isOp_of_inChain hchain, Bool.false_and, if_neg Bool.false_ne_true, List.nil_append]
      rw [List.takeWhile_cons_of_pos hchain, List.reverse_cons, List.append_assoc] at hrest
      exact hrest
    | false =>
      rw [List.takeWhile_cons_of_neg (by rw [hchain]; exact Bool.false_ne_true), List.reverse_nil,
        List.nil_append] at hrest
      refine List.Sublist.append ?_ (hrest.cons t)
      split
      · next hopen =>
        match before with
        | [] => cases (Bool.and_eq_true_iff.mp hopen).2
        | name :: before =>
          rw [List.singleton_sublist, List.mem_reverse]
          exact first_mem_takeWhile before (Bool.and_eq_true_iff.mp hopen).2
      · exact List.nil_sublist _

/-- The first tokens of chains in two runs are those of each, where the second goes on after the first. -/
theorem firstsFrom_append (before ts us : List Token) :
    firstsFrom before (ts ++ us) = firstsFrom before ts ++ firstsFrom (ts.reverse ++ before) us := by
  induction ts generalizing before with
  | nil => rfl
  | cons t rest ih =>
    rw [List.cons_append, firstsFrom, firstsFrom, ih, List.reverse_cons, List.append_assoc, List.append_assoc]
    rfl

/-- The first tokens of calls are among those of the chains in front of parentheses. -/
theorem first_listFrom_sublist (before ts : List Token) :
    ((listFrom before ts).map (·.first)).Sublist (firstsFrom before ts) := by
  induction ts generalizing before with
  | nil => exact List.Sublist.slnil
  | cons t rest ih =>
    rw [listFrom, firstsFrom, List.map_append]
    refine List.Sublist.append ?_ (ih (t :: before))
    split
    · split
      · exact List.Sublist.refl _
      · exact List.nil_sublist _
    · exact List.Sublist.slnil

/-- Calls begin at different tokens of their run. -/
theorem first_list_sublist (ts : List Token) : ((list ts).map (·.first)).Sublist ts :=
  (first_listFrom_sublist [] ts).trans (firstsFrom_sublist [] ts)

/-- A call begins with a name. -/
theorem isIdent_first {ts : List Token} {c : Call} (h : c ∈ list ts) : c.first.isIdent = true := by
  obtain ⟨name, more, hcallee, hname⟩ := Relocation.isIdent_first_of_mem h
  rwa [first, hcallee]

end Call

/-- Comparison operators are different tokens of their run. -/
theorem Comparison.op_listFrom_sublist (before ts : List Token) :
    ((listFrom before ts).map (·.op)).Sublist ts := by
  induction ts generalizing before with
  | nil => exact List.Sublist.slnil
  | cons t rest ih =>
    rw [listFrom]
    split
    · exact (ih (t :: before)).cons_cons t
    · exact (ih (t :: before)).cons t

/-- The first tokens of calls and the comparison operators of a run are different tokens of it. -/
theorem Call.countAt_firsts_add_ops (p : Position) (ts : List Token) :
    Token.countAt p ((list ts).map (·.first)) + Token.countAt p ((Comparison.list ts).map (·.op)) ≤
      Token.countAt p ts := by
  refine Token.countAt_add_le (q := (·.isIdent)) (first_list_sublist ts)
    (Comparison.op_listFrom_sublist [] ts) ?_ ?_
  · intro t ht
    obtain ⟨c, hc, rfl⟩ := List.mem_map.mp ht
    exact isIdent_first hc
  · intro t ht
    obtain ⟨c, hc, rfl⟩ := List.mem_map.mp ht
    have hop := Relocation.isOpIn_of_mem_comparisonsFrom hc
    rw [Token.isIdent, beq_iff_eq.mp (Bool.and_eq_true_iff.mp hop).1]
    decide

/-- No call begins at the target in front of an assignment sign. -/
theorem Call.countAt_firsts_add_target (p : Position) {target sign : Token} (htarget : target.isOp "(" = false)
    (hsign : sign.isOpIn [":=", "="] = true) (front value : List Token) :
    [target.pos].count p + Token.countAt p ((list (front ++ target :: sign :: value)).map (·.first)) ≤
      Token.countAt p (front ++ target :: sign :: value) := by
  have hnot : sign.isOp "(" = false ∧ inChain sign = false := by
    obtain ⟨hkind, htext⟩ := Bool.and_eq_true_iff.mp hsign
    rw [inChain, Token.isOp, Token.isOp, Token.isIdent, beq_iff_eq.mp hkind]
    have htext := List.contains_iff_mem.mp htext
    simp only [List.mem_cons, List.not_mem_nil, or_false] at htext
    rcases htext with htext | htext <;> rw [htext] <;> decide
  have hfirsts : firstsFrom [] (front ++ target :: sign :: value) =
      firstsFrom [] front ++ firstsFrom (sign :: target :: (front.reverse ++ [])) value := by
    rw [firstsFrom_append, firstsFrom, htarget, firstsFrom, hnot.1]
    rfl
  have hfront := firstsFrom_sublist [] front
  have hvalue := firstsFrom_sublist (sign :: target :: (front.reverse ++ [])) value
  rw [List.takeWhile_cons_of_neg (by rw [hnot.2]; exact Bool.false_ne_true)] at hvalue
  have hcalls := Token.countAt_le_of_sublist (p := p) (first_listFrom_sublist [] (front ++ target :: sign :: value))
  have hfront := Token.countAt_le_of_sublist (p := p) hfront
  have hvalue := Token.countAt_le_of_sublist (p := p) hvalue
  simp only [hfirsts, list, Token.countAt_append, Token.countAt_cons, List.takeWhile_nil, List.reverse_nil,
    Token.countAt_nil] at hcalls hfront hvalue ⊢
  omega

end GoIdiom
