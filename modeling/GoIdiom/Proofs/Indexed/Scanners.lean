import GoIdiom.Proofs.Assignments.Parts
import GoIdiom.Proofs.Indexed.Braces
import GoIdiom.Proofs.NamedLists

/-!
# Four scanners of brackets and separators

Brackets are paired with a stack that checks their types, with a stack that does not, and by counting depth; runs
are cut at separators by counting depth and by jumping over groups. On a range of a well bracketed list that has the
partners of all its brackets, all of them see the same groups. The stack that the type-checking scanner brings into
such a range is never touched there, so the range is well bracketed by itself, and its pairs are those of the list.
-/

namespace GoIdiom

namespace Token

/-! ## Pairing whatever the types -/

/-- Pairs openers with closers of any type, given the indices of the openers still open, innermost first. A closer
without an opener is passed over, and so is an opener without a closer. -/
def pairsFrom (index : Nat) (opened : List Nat) : List Token → List (Nat × Nat)
  | [] => []
  | t :: rest =>
    if t.isOpener then pairsFrom (index + 1) (index :: opened) rest
    else if t.isCloser then
      match opened with
      | [] => pairsFrom (index + 1) [] rest
      | i :: outer => (i, index) :: pairsFrom (index + 1) outer rest
    else pairsFrom (index + 1) opened rest

/-- The pairs of brackets of any type in a run. -/
def pairsIn (ts : List Token) : List (Nat × Nat) := pairsFrom 0 [] ts

/-- Where all brackets match, the types make no difference. -/
theorem pairsFrom_of_matchBracketsFrom {index : Nat} {opened : List (Nat × Token)} {ts : List Token}
    {pairs : List (Nat × Nat)} (h : matchBracketsFrom index opened ts = .ok pairs) :
    pairsFrom index (opened.map Prod.fst) ts = pairs := by
  induction ts generalizing index opened pairs with
  | nil =>
    cases opened with
    | nil => exact Except.ok.inj h
    | cons o outer => cases h
  | cons t rest ih =>
    rw [pairsFrom.eq_def]
    dsimp only
    rcases matchBracketsFrom_cons h with ⟨hopen, h⟩ | ⟨hplain, h⟩ |
      ⟨i, o, outer, more, rfl, hclose, hopen, -, hmore, rfl⟩
    · rw [if_pos hopen]
      exact ih h
    · obtain ⟨hopen, hclose⟩ := isPlain_iff.mp hplain
      rw [hopen, hclose, if_neg Bool.false_ne_true, if_neg Bool.false_ne_true]
      exact ih h
    · rw [hopen, hclose, if_neg Bool.false_ne_true, if_pos rfl]
      exact congrArg _ (ih hmore)

/-- Indices counted from a later start are later by as much. -/
theorem pairsFrom_add (offset index : Nat) (opened : List Nat) (ts : List Token) :
    pairsFrom (index + offset) (opened.map (· + offset)) ts =
      (pairsFrom index opened ts).map fun q => (q.1 + offset, q.2 + offset) := by
  induction ts generalizing index opened with
  | nil => rfl
  | cons t rest ih =>
    rw [pairsFrom.eq_def, pairsFrom.eq_def index]
    dsimp only
    rw [Nat.add_right_comm]
    split
    · exact ih (index + 1) (index :: opened)
    · split
      · cases opened with
        | nil => exact ih (index + 1) []
        | cons i outer => exact congrArg ((i + offset, index + offset) :: ·) (ih (index + 1) outer)
      · exact ih (index + 1) opened

/-- The pairs of a run by itself are those at an index, moved to the beginning. -/
theorem pairsIn_of_matchBracketsFrom {index : Nat} {ts : List Token} {pairs : List (Nat × Nat)}
    (h : matchBracketsFrom index [] ts = .ok pairs) :
    pairsIn ts = pairs.map fun q => (q.1 - index, q.2 - index) := by
  have hpairs : pairsFrom index [] ts = pairs := pairsFrom_of_matchBracketsFrom h
  have hmoved := pairsFrom_add index 0 [] ts
  rw [Nat.zero_add, List.map_nil, hpairs] at hmoved
  rw [hmoved, List.map_map, pairsIn]
  simp [Function.comp_def]

/-- The closer of every token of a well bracketed run is the one that counting depth finds. -/
theorem Balanced.pairsOf_pairsIn {ts : List Token} (h : Balanced ts) : PairsOf 0 ts (pairsIn ts) := by
  obtain ⟨pairs, hpairs, -⟩ := h.exists_pairsOf 0
  have hmatched : matchBracketsFrom 0 [] ts = .ok pairs := by
    have hwhole := hpairs.matched [] []
    rw [List.append_nil] at hwhole
    rw [hwhole, matchBracketsFrom, Except.map, List.append_nil]
  have hsame := pairsIn_of_matchBracketsFrom hmatched
  simp only [Nat.sub_zero, List.map_id'] at hsame
  rwa [hsame]

/-! ## Pairing a part of a list -/

/-- Every pair is opened in the run, or was open before it. -/
theorem bounds_of_matchBracketsFrom {index : Nat} {opened : List (Nat × Token)} {ts : List Token}
    {pairs : List (Nat × Nat)} (h : matchBracketsFrom index opened ts = .ok pairs) :
    ∀ q ∈ pairs, q.1 ∈ opened.map Prod.fst ∨ index ≤ q.1 ∧ q.1 < index + ts.length := by
  induction ts generalizing index opened pairs with
  | nil =>
    cases opened with
    | nil => cases h; exact fun q hq => absurd hq List.not_mem_nil
    | cons o outer => cases h
  | cons t rest ih =>
    intro q hq
    rw [List.length_cons]
    rcases matchBracketsFrom_cons h with ⟨-, h⟩ | ⟨-, h⟩ | ⟨i, o, outer, more, rfl, -, -, -, hmore, rfl⟩
    · rcases ih h q hq with hopened | hrange
      · rcases List.mem_cons.mp hopened with heq | hopened
        · dsimp only at heq
          exact .inr (by omega)
        · exact .inl hopened
      · exact .inr (by omega)
    · rcases ih h q hq with hopened | hrange
      · exact .inl hopened
      · exact .inr (by omega)
    · rcases List.mem_cons.mp hq with rfl | hq
      · exact .inl List.mem_cons_self
      · rcases ih hmore q hq with hopened | hrange
        · exact .inl (List.mem_cons_of_mem _ hopened)
        · exact .inr (by omega)

/-- Pairing a front leaves openers open in it, with which the rest is paired. -/
theorem exists_opened_of_matchBracketsFrom {index : Nat} {opened : List (Nat × Token)} {front rest : List Token}
    {pairs : List (Nat × Nat)} (h : matchBracketsFrom index opened (front ++ rest) = .ok pairs)
    (hopened : ∀ o ∈ opened, o.1 < index) : ∃ opened' before behind,
      matchBracketsFrom (index + front.length) opened' rest = .ok behind ∧ pairs = before ++ behind ∧
        (∀ o ∈ opened', o.1 < index + front.length) ∧ ∀ q ∈ before, q.1 < index + front.length := by
  induction front generalizing index opened pairs with
  | nil => exact ⟨opened, [], pairs, h, rfl, hopened, fun q hq => absurd hq List.not_mem_nil⟩
  | cons t front ih =>
    have hlength : index + (t :: front).length = index + 1 + front.length := by
      rw [List.length_cons]
      omega
    rw [hlength]
    rcases matchBracketsFrom_cons h with ⟨-, h⟩ | ⟨-, h⟩ | ⟨i, o, outer, more, rfl, -, -, -, hmore, rfl⟩
    · refine ih h fun o ho => ?_
      rcases List.mem_cons.mp ho with rfl | ho
      · exact Nat.lt_succ_self index
      · exact Nat.lt_succ_of_lt (hopened o ho)
    · exact ih h fun o ho => Nat.lt_succ_of_lt (hopened o ho)
    · obtain ⟨opened', before, behind, hbehind, rfl, hopened', hbefore⟩ :=
        ih hmore fun o' ho' => Nat.lt_succ_of_lt (hopened o' (List.mem_cons_of_mem _ ho'))
      refine ⟨opened', (i, index) :: before, behind, hbehind, rfl, hopened', fun q hq => ?_⟩
      rcases List.mem_cons.mp hq with rfl | hq
      · have hlt : i < index := hopened _ List.mem_cons_self
        dsimp only
        omega
      · exact hbefore q hq

/-- Pairing the inside of a range that has the partners of its brackets never touches the openers from before it. -/
theorem exists_within_of_matchBracketsFrom {first index : Nat} (inside : List (Nat × Token))
    {outer : List (Nat × Token)} {run beyond : List Token} {pairs : List (Nat × Nat)}
    (h : matchBracketsFrom index (inside ++ outer) (run ++ beyond) = .ok pairs)
    (hinside : ∀ o ∈ inside, first ≤ o.1 ∧ o.1 < index) (houter : ∀ o ∈ outer, o.1 < first)
    (hfirst : first ≤ index) (hpartners : ∀ q ∈ pairs, (first ≤ q.1 ∧ q.1 < index + run.length) ↔
      (first ≤ q.2 ∧ q.2 < index + run.length)) :
    ∃ within behind, pairs = within ++ behind ∧ matchBracketsFrom index inside run = .ok within ∧
      matchBracketsFrom (index + run.length) outer beyond = .ok behind := by
  induction run generalizing index inside pairs with
  | nil =>
    cases inside with
    | nil => exact ⟨[], pairs, rfl, rfl, h⟩
    | cons o inside =>
      -- An opener left open in the range would be closed behind it.
      obtain ⟨j, hj, hlater, -⟩ := (exists_pair_of_matchBracketsFrom h).1 o List.mem_cons_self
      have hpair := hpartners _ hj
      have hopen := hinside o List.mem_cons_self
      rw [List.length_nil] at hpair
      dsimp only at hpair
      omega
  | cons t run ih =>
    have hlength : index + (t :: run).length = index + 1 + run.length := by
      rw [List.length_cons]
      omega
    rw [hlength] at hpartners ⊢
    rcases matchBracketsFrom_cons h with ⟨hopen, h⟩ | ⟨hplain, h⟩ |
      ⟨i, o, rest, more, hopened, hclose, hopen, htext, h, rfl⟩
    · rw [matchBracketsFrom_opener hopen]
      refine ih ((index, t) :: inside) h (fun o ho => ?_) (by omega) hpartners
      rcases List.mem_cons.mp ho with rfl | ho
      · exact ⟨hfirst, Nat.lt_succ_self index⟩
      · have hlt := hinside o ho
        omega
    · rw [matchBracketsFrom_plain hplain]
      exact ih inside h (fun o ho => ⟨(hinside o ho).1, Nat.lt_succ_of_lt (hinside o ho).2⟩)
        (by omega) hpartners
    · cases inside with
      | nil =>
        -- A closer in the range would close an opener from before it.
        rw [List.nil_append] at hopened
        subst hopened
        have hbefore : i < first := houter _ List.mem_cons_self
        have hpair := hpartners _ List.mem_cons_self
        dsimp only at hpair
        omega
      | cons o' inside =>
        obtain ⟨rfl, rfl⟩ := List.cons.inj hopened
        obtain ⟨within, behind, rfl, hwithin, hbehind⟩ := ih inside h
          (fun o ho => ⟨(hinside o (List.mem_cons_of_mem _ ho)).1,
            Nat.lt_succ_of_lt (hinside o (List.mem_cons_of_mem _ ho)).2⟩) (by omega)
          fun q hq => hpartners q (List.mem_cons_of_mem _ hq)
        refine ⟨(i, index) :: within, behind, rfl, ?_, hbehind⟩
        rw [matchBracketsFrom.eq_def]
        simp only [hopen, hclose, htext, hwithin, Bool.false_eq_true, ↓reduceIte, Except.map]

/-! ## Cutting at separators -/

/-- Whether a token is a separator: the operator, or for semicolons also one that ends a statement. -/
def separatorOf (separator : String) (t : Token) : Bool := t.isOp separator || (separator == ";" && t.isSemi)

/-- Cut at commas, only commas are separators. -/
theorem separatorOf_comma : separatorOf "," = (·.isOp ",") := by
  funext t
  exact Bool.or_false _

/-- The semicolons of source text are no operators. -/
theorem splitSemis_eq {ts : List Token} (h : ∀ t ∈ ts, t.isOp ";" = false) :
    splitSemis ts = splitTopFrom (separatorOf ";") 0 ts := by
  have hfrom (depth : Int) : splitTopFrom (·.isSemi) depth ts = splitTopFrom (separatorOf ";") depth ts := by
    induction ts generalizing depth with
    | nil => rfl
    | cons t rest ih =>
      obtain ⟨ht, hrest⟩ := List.forall_mem_cons.mp h
      rw [splitTopFrom, splitTopFrom, ih hrest, ih hrest, separatorOf, ht, Bool.false_or]
      rfl
  exact hfrom 0

/-- Groups with the separators put back between them. -/
def rejoin : List (List Token) → List Token → List Token
  | groups, [] => groups.flatten
  | [], _ :: _ => []
  | group :: groups, t :: separators => group ++ t :: rejoin groups separators

/-- A separator is no bracket. -/
theorem isPlain_of_separatorOf {separator : String} (hseparator : separator ∈ [",", ";"]) {t : Token}
    (ht : separatorOf separator t = true) : t.isPlain = true := by
  rcases Bool.or_eq_true_iff.mp ht with hop | hsemi
  · refine isPlain_of_isOp hop ?_
    revert hseparator
    simp only [List.mem_cons, List.not_mem_nil, or_false]
    rintro (rfl | rfl) <;> decide
  · exact isPlain_of_isSemi (Bool.and_eq_true_iff.mp hsemi).2

/-- A token in front of rejoined groups goes to the first group. -/
theorem rejoin_consFirst {groups : List (List Token)} {separators : List Token}
    (hlength : groups.length = separators.length + 1) (t : Token) :
    rejoin (consFirst t groups) separators = t :: rejoin groups separators := by
  cases groups with
  | nil => cases hlength
  | cons group groups =>
    cases separators with
    | nil => rfl
    | cons s separators => rfl

/-- The groups of any run, at any depth, give the run again with one separator put back between each two. -/
theorem exists_rejoin_splitTopFrom (separates : Token → Bool) (depth : Int) (ts : List Token) :
    ∃ separators, (splitTopFrom separates depth ts).length = separators.length + 1 ∧
      (∀ t ∈ separators, separates t = true) ∧ rejoin (splitTopFrom separates depth ts) separators = ts := by
  induction ts generalizing depth with
  | nil => exact ⟨[], rfl, fun t ht => absurd ht List.not_mem_nil, rfl⟩
  | cons t rest ih =>
    rw [splitTopFrom]
    split
    · next hcut =>
      obtain ⟨separators, hlength, hseparates, hrest⟩ := ih depth
      refine ⟨t :: separators, by rw [List.length_cons, List.length_cons, hlength], ?_, ?_⟩
      · exact List.forall_mem_cons.mpr ⟨(Bool.and_eq_true_iff.mp hcut).2, hseparates⟩
      · rw [rejoin, List.nil_append, hrest]
    · obtain ⟨separators, hlength, hseparates, hrest⟩ := ih (depth + t.depthStep)
      refine ⟨separators, ?_, hseparates, by rw [rejoin_consFirst hlength, hrest]⟩
      cases hgroups : splitTopFrom separates (depth + t.depthStep) rest with
      | nil => exact absurd hgroups (splitTopFrom_ne_nil separates _ rest)
      | cons group groups => rwa [hgroups] at hlength

/-- Jumping over groups cuts a run into its parts. -/
theorem Parted.endedParts_eq {separates : Token → Bool} {parts : List (List Token)} {ts : List Token}
    (h : Parted separates parts ts) : (endedParts separates ts).map (·.1) = parts := by
  induction h with
  | last hpart => rw [endedParts_last hpart]; rfl
  | cons hpart ht _ ih => rw [endedParts_cons hpart ht, List.map_cons, ih]

end Token

open Token

namespace Range

/-- Whether an index is in a range. -/
def contains (r : Range) (index : Nat) : Bool := r.first ≤ index && index < r.stop

/-- A range contains the indices from its first one up to its end. -/
theorem contains_iff {r : Range} {index : Nat} :
    r.contains index = true ↔ r.first ≤ index ∧ index < r.stop := by
  rw [contains, Bool.and_eq_true, decide_eq_true_iff, decide_eq_true_iff]

end Range

namespace Pairing

/-- A range of a list that has both or none of the brackets of every pair. -/
structure Encloses (p : Pairing) (r : Range) : Prop where
  ordered : r.first ≤ r.stop
  inside : r.stop ≤ p.tokens.length
  partners : ∀ q ∈ p.pairs, r.contains q.1 = r.contains q.2

/-- The ranges of groups that begin at an index, with one separator between each two. -/
def groupRanges (index : Nat) : List (List Token) → List Range
  | [] => []
  | group :: groups => ⟨index, index + group.length⟩ :: groupRanges (index + group.length + 1) groups

/-- The ranges of the parts of a list are those of groups with one separator between each two. -/
theorem rangesOf_eq_groupRanges (index : Nat) (parts : List (List Token × Option Token)) :
    rangesOf index index parts = groupRanges index (parts.map (·.1)) := by
  induction parts generalizing index with
  | nil => rfl
  | cons part parts ih => rw [rangesOf, List.map_cons, groupRanges, ih]

variable {p : Pairing}

/-- The ranges of the groups of a run cut the groups out of the list. -/
theorem Spans.slice_groupRanges {index : Nat} {groups : List (List Token)} {separators : List Token}
    (h : p.Spans index (rejoin groups separators)) (hlength : groups.length = separators.length + 1) :
    (groupRanges index groups).map (fun r => p.slice r.first r.stop) = groups := by
  induction groups generalizing index separators with
  | nil => cases hlength
  | cons group groups ih =>
    cases separators with
    | nil =>
      obtain rfl : groups = [] := List.length_eq_zero_iff.mp (Nat.succ.inj hlength)
      rw [rejoin, List.flatten_cons] at h
      rw [groupRanges, List.map_cons, h.slice_eq rfl]
      rfl
    | cons t separators =>
      rw [rejoin] at h
      rw [groupRanges, List.map_cons, h.slice_eq rfl, ih h.right.tail (Nat.succ.inj hlength)]

namespace Encloses

variable {r : Range}

/-- A slice is as long as its range. -/
theorem first_add_length (h : p.Encloses r) : r.first + (p.slice r.first r.stop).length = r.stop := by
  have hordered := h.ordered
  have hinside := h.inside
  rw [slice, List.length_take, List.length_drop]
  omega

/-- The tokens of a range with all partners are well bracketed by themselves, and their pairs are those of the list
that are in the range. -/
theorem spans_slice (h : p.Encloses r) : p.Spans r.first (p.slice r.first r.stop) ∧
    matchBracketsFrom r.first [] (p.slice r.first r.stop) = .ok (p.pairs.filter (r.contains ·.1)) := by
  have hstop := h.first_add_length
  have hfront : (p.tokens.take r.first).length = r.first := by
    have hordered := h.ordered
    have hinside := h.inside
    rw [List.length_take]
    omega
  have htokens : p.tokens = p.tokens.take r.first ++ (p.slice r.first r.stop ++ p.tokens.drop r.stop) := by
    have hdrop : p.tokens.drop r.stop = (p.tokens.drop r.first).drop (r.stop - r.first) := by
      rw [List.drop_drop, Nat.add_sub_cancel' h.ordered]
    rw [hdrop, slice, List.take_append_drop, List.take_append_drop]
  have hmatched : matchBracketsFrom 0 [] p.tokens = .ok p.pairs := p.matched
  rw [htokens] at hmatched
  obtain ⟨opened, before, behind, hbehind, hpairs, hopened, hbefore⟩ :=
    exists_opened_of_matchBracketsFrom hmatched fun o ho => absurd ho List.not_mem_nil
  rw [Nat.zero_add, hfront] at hbehind hopened hbefore
  obtain ⟨within, after, rfl, hwithin, hafter⟩ := exists_within_of_matchBracketsFrom [] hbehind
    (fun o ho => absurd ho List.not_mem_nil) hopened (Nat.le_refl _) fun q hq => by
      have hpartner := h.partners q (hpairs ▸ List.mem_append_right _ hq)
      rw [hstop, ← Range.contains_iff, ← Range.contains_iff, hpartner]
  rw [hstop] at hafter
  refine ⟨⟨⟨_, _, htokens, hfront⟩, [], closesAll_of_matchBracketsFrom hwithin⟩, ?_⟩
  -- The pairs from before the range are opened before it, those behind are opened before it or behind it.
  have hfilter : p.pairs.filter (r.contains ·.1) = within := by
    rw [hpairs, List.filter_append, List.filter_append]
    have hnone₁ : before.filter (r.contains ·.1) = [] := by
      rw [List.filter_eq_nil_iff]
      intro q hq
      have hlt := hbefore q hq
      rw [Range.contains_iff]
      omega
    have hall : within.filter (r.contains ·.1) = within := by
      rw [List.filter_eq_self]
      intro q hq
      rcases bounds_of_matchBracketsFrom hwithin q hq with hopened | hrange
      · exact absurd hopened List.not_mem_nil
      · rw [Range.contains_iff]
        omega
    have hnone₂ : after.filter (r.contains ·.1) = [] := by
      rw [List.filter_eq_nil_iff]
      intro q hq
      rw [Range.contains_iff]
      rcases bounds_of_matchBracketsFrom hafter q hq with hopen | hrange
      · obtain ⟨o, ho, heq⟩ := List.mem_map.mp hopen
        have hlt := hopened o ho
        omega
      · omega
    rw [hnone₁, hall, hnone₂, List.nil_append, List.append_nil]
  rw [hfilter, hwithin]

end Encloses

/-- On a range that has both or none of the brackets of every pair, the scanners agree: pairing without types gives
the pairs of the list that are in the range, counted from its beginning, and finds the closers that counting depth
finds; jumping over groups from index to index cuts the ranges of the groups that counting depth cuts, those without
tokens left out; and the groups with the separators put back between them are the tokens of the range. -/
theorem scanners_agree (p : Pairing) {r : Range} (hr : p.Encloses r) :
    pairsIn (p.slice r.first r.stop) =
        (p.pairs.filter (r.contains ·.1)).map (fun q => (q.1 - r.first, q.2 - r.first)) ∧
      (∀ before t after, p.slice r.first r.stop = before ++ t :: after →
        (pairsIn (p.slice r.first r.stop)).lookup before.length = closerIndex before.length t after) ∧
      (∀ separator ∈ [",", ";"], ∀ groups, groups =
        splitTopFrom (separatorOf separator) 0 (p.slice r.first r.stop) →
        p.split (separatorOf separator) r.first r.stop =
            .ok ((groupRanges r.first groups).filter fun g => g.first < g.stop) ∧
          (groupRanges r.first groups).map (fun g => p.slice g.first g.stop) = groups ∧
          (endedParts (separatorOf separator) (p.slice r.first r.stop)).map (·.1) = groups ∧
          ∃ separators, groups.length = separators.length + 1 ∧
            (∀ t ∈ separators, separatorOf separator t = true) ∧
            rejoin groups separators = p.slice r.first r.stop) ∧
      splitCommas (p.slice r.first r.stop) = splitTopFrom (separatorOf ",") 0 (p.slice r.first r.stop) ∧
      ((∀ t ∈ p.slice r.first r.stop, t.isOp ";" = false) →
        splitSemis (p.slice r.first r.stop) = splitTopFrom (separatorOf ";") 0 (p.slice r.first r.stop)) := by
  obtain ⟨hspans, hmatched⟩ := hr.spans_slice
  have hbalanced : Balanced (p.slice r.first r.stop) := closesAll_of_matchBracketsFrom hmatched
  refine ⟨pairsIn_of_matchBracketsFrom hmatched, fun before t after hsplit => ?_, ?_, ?_, splitSemis_eq⟩
  · have hlookup := hbalanced.pairsOf_pairsIn.lookup hsplit
    rwa [Nat.zero_add] at hlookup
  · rintro separator hseparator groups rfl
    have hended := (hbalanced.parted fun t => isPlain_of_separatorOf hseparator (t := t)).endedParts_eq
    obtain ⟨separators, hlength, hseparates, hrejoin⟩ :=
      exists_rejoin_splitTopFrom (separatorOf separator) 0 (p.slice r.first r.stop)
    refine ⟨?_, ?_, hended, separators, hlength, hseparates, hrejoin⟩
    · rw [split, hspans.ranges_eq hr.first_add_length, Except.ok_bind, rangesOf_eq_groupRanges, hended]
      rfl
    · rw [← hrejoin] at hspans
      exact hspans.slice_groupRanges hlength
  · rw [splitCommas, separatorOf_comma]

/-- The list `(a, , [b; c]); d`, in which one item between the parentheses has no tokens. -/
def itemLeftOut : Pairing where
  tokens := [⟨.op, "(", 1, 1⟩, ⟨.ident, "a", 1, 2⟩, ⟨.op, ",", 1, 3⟩, ⟨.op, ",", 1, 5⟩,
    ⟨.op, "[", 1, 7⟩, ⟨.ident, "b", 1, 8⟩, ⟨.semi, ";", 1, 9⟩, ⟨.ident, "c", 1, 11⟩,
    ⟨.op, "]", 1, 12⟩, ⟨.op, ")", 1, 13⟩, ⟨.semi, ";", 1, 14⟩, ⟨.ident, "d", 1, 16⟩]
  pairs := [(4, 8), (0, 9)]
  matched := by decide

/-- Between its parentheses there are a pair of brackets and three groups, one of them without tokens; the semicolon
in the brackets cuts nothing. -/
theorem scanners_agree_itemLeftOut :
    itemLeftOut.Encloses ⟨1, 9⟩ ∧ pairsIn (itemLeftOut.slice 1 9) = [(3, 7)] ∧
    itemLeftOut.split (separatorOf ",") 1 9 = .ok [⟨1, 2⟩, ⟨4, 9⟩] ∧
      itemLeftOut.split (separatorOf ";") 1 9 = .ok [⟨1, 9⟩] := by
  have hrange : itemLeftOut.Encloses ⟨1, 9⟩ := ⟨by decide, by decide, by decide⟩
  obtain ⟨hpairs, -, hsplit, -⟩ := scanners_agree itemLeftOut hrange
  refine ⟨hrange, hpairs.trans (by decide), ?_, ?_⟩
  · exact (hsplit "," (by decide) _ rfl).1.trans (congrArg Except.ok (by decide))
  · exact (hsplit ";" (by decide) _ rfl).1.trans (congrArg Except.ok (by decide))

end Pairing

end GoIdiom
