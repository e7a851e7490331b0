import GoIdiom.Proofs.Indexed.Spans
import Mathlib.Data.List.Induction
import Mathlib.Logic.ExistsUnique

/-!
# Bracket words and their faults

Pairing brackets with a stack accepts a token list exactly when its brackets form a word of the grammar of well
bracketed runs. The pairs are then the groups of the list. In any other list there is a first closer that no opener
waits for, or else openers are left open at the end; the fault is placed at that closer, or at the opener left open
last.
-/

namespace GoIdiom.Token

variable {ts us front opened outer : List Token} {o c : Token} {i j : Nat}

/-! ## Groups -/

/-- The token at an index, and what stands around it. -/
theorem exists_append_of_getElem? {t : Token} (h : ts[i]? = some t) :
    ∃ before after, ts = before ++ t :: after ∧ before.length = i := by
  obtain ⟨hlt, rfl⟩ := List.getElem?_eq_some_iff.mp h
  exact ⟨ts.take i, ts.drop (i + 1), by simp, List.length_take_of_le (Nat.le_of_lt hlt)⟩

/-- A well bracketed run closes no bracket that was opened before it. -/
theorem Balanced.closeGroup_eq_none (h : Balanced ts) : closeGroup ts = none := by
  have hgroup := h.splitGroup_append 0 []
  rwa [List.append_nil] at hgroup

/-- Two indices where the brackets of one group stand. -/
def Grouped (ts : List Token) (i j : Nat) : Prop :=
  ∃ before opener inner closer after, ts = before ++ opener :: (inner ++ closer :: after) ∧
    Closes opener closer ∧ Balanced inner ∧ i = before.length ∧ j = before.length + 1 + inner.length

/-- The pairs of a well bracketed list are looked up as its groups. -/
theorem PairsOf.lookup_eq_some_iff {pairs : List (Nat × Nat)} (h : PairsOf 0 ts pairs) (hts : Balanced ts) :
    pairs.lookup i = some j ↔ Grouped ts i j := by
  constructor
  · intro hlookup
    have hlt : i < ts.length := by
      refine Nat.lt_of_not_le fun hbeyond => ?_
      rw [h.lookup_eq_none (.inr (by omega))] at hlookup
      cases hlookup
    obtain ⟨before, after, hsplit, rfl⟩ := exists_append_of_getElem? (List.getElem?_eq_getElem hlt)
    have hclose := h.lookup hsplit
    rw [Nat.zero_add, hlookup, closerIndex] at hclose
    obtain ⟨hopen, hclose⟩ := Option.ite_none_right_eq_some.mp hclose.symm
    obtain ⟨g, hg, rfl⟩ := Option.map_eq_some_iff.mp hclose
    obtain ⟨g', hg', hcloses, hinner, -⟩ := (hsplit ▸ hts).exists_closeGroup_append hopen
    obtain rfl := Option.some.inj (hg.symm.trans hg')
    rw [← splitGroup_eq_append hg] at hsplit
    exact ⟨before, _, g.inner, g.closer, g.rest, hsplit, hcloses, hinner, rfl, rfl⟩
  · rintro ⟨before, opener, inner, closer, after, hsplit, hcloses, hinner, rfl, rfl⟩
    have hclose := h.lookup hsplit
    rwa [Nat.zero_add, closerIndex, if_pos hcloses.1, hinner.closeGroup_append hcloses.2.1] at hclose

/-- A group has one opener only: what stands between a closer and an opener of it that is farther away closes the
nearer one. -/
theorem eq_of_append_opener {before before' inner inner' : List Token} {o' : Token} (hinner : Balanced inner)
    (hinner' : Balanced inner') (ho : o.isOpener = true) (ho' : o'.isOpener = true)
    (h : before ++ o :: inner = before' ++ o' :: inner') : before = before' := by
  have hnearer {between far near : List Token} {opener : Token} (hopen : opener.isOpener = true)
      (hfar : Balanced far) (hnear : Balanced near) : far ≠ between ++ opener :: near := by
    rintro rfl
    obtain ⟨g, hg, -⟩ := hfar.exists_closeGroup_append hopen
    rw [hnear.closeGroup_eq_none] at hg
    cases hg
  rcases List.append_eq_append_iff.mp h with ⟨between, rfl, hbetween⟩ | ⟨between, rfl, hbetween⟩
  · rcases List.cons_eq_append_iff.mp hbetween with ⟨rfl, -⟩ | ⟨between, rfl, hfar⟩
    · exact (List.append_nil before).symm
    · exact absurd hfar (hnearer ho' hinner hinner')
  · rcases List.cons_eq_append_iff.mp hbetween with ⟨rfl, -⟩ | ⟨between, rfl, hfar⟩
    · exact List.append_nil before'
    · exact absurd hfar (hnearer ho hinner' hinner)

/-! ## Openers left open -/

/-- A run that is well bracketed but for openers that are left open, the last of them first. -/
inductive Opens : List Token → List Token → Prop
  | closed {ts : List Token} (hts : Balanced ts) : Opens ts []
  | opener {front ts outer : List Token} {o : Token} (hfront : Opens front outer) (ho : o.isOpener = true)
      (hts : Balanced ts) : Opens (front ++ o :: ts) (o :: outer)

/-- A closer that no opener waits for: none is left open, or the last one is of another type. -/
def Rejects (opened : List Token) (c : Token) : Prop :=
  c.isCloser = true ∧ ∀ o ∈ opened.head?, closerOf o.text ≠ c.text

namespace Opens

/-- More well bracketed tokens leave the same openers open. -/
theorem append (h : Opens ts opened) (hus : Balanced us) : Opens (ts ++ us) opened := by
  cases h with
  | closed hts => exact .closed (hts.append hus)
  | opener hfront ho hts =>
    rw [List.append_assoc, List.cons_append]
    exact .opener hfront ho (hts.append hus)

/-- A closer closes the opener left open last. -/
theorem close (h : Opens ts (o :: outer)) (hc : c.isCloser = true) (htext : closerOf o.text = c.text) :
    Opens (ts ++ [c]) outer := by
  cases h with
  | opener hfront ho hts =>
    rw [List.append_assoc, List.cons_append]
    exact hfront.append (.enclosed ⟨ho, hc, htext⟩ hts)

/-- Pairing goes on behind the run with the openers on its stack. -/
theorem matchBracketsFrom_append (h : Opens front opened) :
    ∃ (stack : List (Nat × Token)) (pairs : List (Nat × Nat)), stack.map Prod.snd = opened ∧
      ∀ us, matchBrackets (front ++ us) = (matchBracketsFrom front.length stack us).map (pairs ++ ·) := by
  induction h with
  | closed hts =>
    obtain ⟨pairs, hpairs, -⟩ := hts.exists_pairsOf 0
    refine ⟨[], pairs, rfl, fun us => ?_⟩
    rw [matchBrackets, hpairs.matched, Nat.zero_add]
  | @opener front ts outer o _ ho hts ih =>
    obtain ⟨stack, pairs, rfl, hfront⟩ := ih
    obtain ⟨more, hmore, -⟩ := hts.exists_pairsOf (front.length + 1)
    refine ⟨(front.length, o) :: stack, pairs ++ more, rfl, fun us => ?_⟩
    have hlength : front.length + 1 + ts.length = (front ++ o :: ts).length := by
      rw [List.length_append, List.length_cons]
      omega
    rw [List.append_assoc, List.cons_append, hfront, matchBracketsFrom_opener ho, hmore.matched, hlength]
    cases matchBracketsFrom (front ++ o :: ts).length ((front.length, o) :: stack) us with
    | error e => rfl
    | ok last => simp only [Except.map, List.append_assoc]

end Opens

/-- Every list leaves some openers open, unless it has a first closer that none of them waits for. -/
theorem exists_opens_or_rejects (ts : List Token) : (∃ opened, Opens ts opened) ∨
    ∃ front c rest opened, ts = front ++ c :: rest ∧ Opens front opened ∧ Rejects opened c := by
  induction ts using List.reverseRecOn with
  | nil => exact .inl ⟨[], .closed .nil⟩
  | append_singleton ts t ih =>
    rcases ih with ⟨opened, hopens⟩ | ⟨front, c, rest, opened, rfl, hopens, hrejects⟩
    · cases hopen : t.isOpener with
      | true => exact .inl ⟨t :: opened, .opener hopens hopen .nil⟩
      | false =>
        cases hclose : t.isCloser with
        | false => exact .inl ⟨opened, hopens.append (.single (isPlain_iff.mpr ⟨hopen, hclose⟩))⟩
        | true =>
          by_cases hwaits : ∃ o outer, opened = o :: outer ∧ closerOf o.text = t.text
          · obtain ⟨o, outer, rfl, htext⟩ := hwaits
            exact .inl ⟨outer, hopens.close hclose htext⟩
          · refine .inr ⟨ts, t, [], opened, rfl, hopens, hclose, fun o ho htext => hwaits ?_⟩
            obtain ⟨outer, rfl⟩ := List.head?_eq_some_iff.mp ho
            exact ⟨o, outer, rfl, htext⟩
    · exact .inr ⟨front, c, rest ++ [t], opened, by simp only [List.append_assoc, List.cons_append],
        hopens, hrejects⟩

/-! ## Faults -/

/-- Where a list is not well bracketed: at its first closer that no opener waits for, and if there is none, at the
opener left open last. -/
inductive BracketFault (ts : List Token) : SourceFault → Prop
  | stray {front rest : List Token} {c : Token} (hts : ts = front ++ c :: rest) (hfront : Opens front [])
      (hc : c.isCloser = true) : BracketFault ts ⟨.strayCloser c.text, c.pos⟩
  | mismatched {front rest outer : List Token} {o c : Token} (hts : ts = front ++ c :: rest)
      (hfront : Opens front (o :: outer)) (hc : c.isCloser = true) (hother : closerOf o.text ≠ c.text) :
      BracketFault ts ⟨.mismatchedCloser o.text o.pos c.text, c.pos⟩
  | unclosed {outer : List Token} {o : Token} (hts : Opens ts (o :: outer)) :
      BracketFault ts ⟨.unclosedBracket o.text, o.pos⟩

/-- A closer that no opener waits for is a fault. -/
theorem Opens.exists_fault (h : Opens front opened) (hrejects : Rejects opened c) (rest : List Token) :
    ∃ f, BracketFault (front ++ c :: rest) f := by
  cases opened with
  | nil => exact ⟨_, .stray rfl h hrejects.1⟩
  | cons o outer => exact ⟨_, .mismatched rfl h hrejects.1 (hrejects.2 o rfl)⟩

/-- Every list that is not well bracketed has a fault. -/
theorem balanced_or_exists_fault (ts : List Token) : Balanced ts ∨ ∃ f, BracketFault ts f := by
  rcases exists_opens_or_rejects ts with ⟨_ | ⟨o, outer⟩, hopens⟩ | ⟨front, c, rest, opened, rfl,
    hopens, hrejects⟩
  · cases hopens with
    | closed hts => exact .inl hts
  · exact .inr ⟨_, .unclosed hopens⟩
  · exact .inr (hopens.exists_fault hrejects rest)

/-- A closing bracket opens nothing. -/
theorem isOpener_of_isCloser (h : c.isCloser = true) : c.isOpener = false := by
  cases hopen : c.isOpener with
  | false => rfl
  | true =>
    rw [isCloser_of_isOpener hopen] at h
    cases h

/-- Pairing fails with the fault of the list. -/
theorem BracketFault.matchBrackets_eq {f : SourceFault} (h : BracketFault ts f) : matchBrackets ts = .error f := by
  cases h with
  | stray hts hfront hc =>
    obtain ⟨stack, pairs, hstack, hmatch⟩ := hfront.matchBracketsFrom_append
    obtain rfl := List.map_eq_nil_iff.mp hstack
    rw [hts, hmatch, matchBracketsFrom, isOpener_of_isCloser hc, if_neg Bool.false_ne_true, if_pos hc]
    rfl
  | mismatched hts hfront hc hother =>
    obtain ⟨stack, pairs, hstack, hmatch⟩ := hfront.matchBracketsFrom_append
    obtain ⟨⟨index, o⟩, stack, rfl, rfl, -⟩ := List.map_eq_cons_iff.mp hstack
    rw [hts, hmatch, matchBracketsFrom, isOpener_of_isCloser hc, if_neg Bool.false_ne_true, if_pos hc]
    dsimp only
    rw [if_neg hother]
    rfl
  | unclosed hts =>
    obtain ⟨stack, pairs, hstack, hmatch⟩ := hts.matchBracketsFrom_append
    obtain ⟨⟨index, o⟩, stack, rfl, rfl, -⟩ := List.map_eq_cons_iff.mp hstack
    have hmatch := hmatch []
    rw [List.append_nil] at hmatch
    rw [hmatch]
    rfl

/-- The matcher fails with a fault exactly when the list has that fault. -/
theorem matchBrackets_eq_error_iff {f : SourceFault} : matchBrackets ts = .error f ↔ BracketFault ts f := by
  refine ⟨fun h => ?_, BracketFault.matchBrackets_eq⟩
  rcases balanced_or_exists_fault ts with hts | ⟨f', hf'⟩
  · obtain ⟨pairs, hpairs⟩ := exists_matchBrackets_iff.mpr hts
    rw [hpairs] at h
    cases h
  · obtain rfl := Except.error.inj (hf'.matchBrackets_eq.symm.trans h)
    exact hf'

/-- A list with a fault is not well bracketed. -/
theorem BracketFault.not_balanced {f : SourceFault} (h : BracketFault ts f) : ¬Balanced ts := by
  intro hts
  obtain ⟨pairs, hpairs⟩ := exists_matchBrackets_iff.mpr hts
  rw [h.matchBrackets_eq] at hpairs
  cases hpairs

/-- Every closer in a well bracketed run has an opener in it. -/
theorem Balanced.exists_opener {rest : List Token} (h : Balanced (front ++ c :: rest)) (hc : c.isCloser = true) :
    ∃ before o inner, front = before ++ o :: inner ∧ Closes o c ∧ Balanced inner := by
  rcases exists_opens_or_rejects front with ⟨_ | ⟨o, outer⟩, hopens⟩ | ⟨front, c', rest', opened, rfl,
    hopens, hrejects⟩
  · exact absurd h (BracketFault.stray rfl hopens hc).not_balanced
  · by_cases htext : closerOf o.text = c.text
    · cases hopens with
      | @opener before inner _ _ _ ho hinner => exact ⟨before, o, inner, rfl, ⟨ho, hc, htext⟩, hinner⟩
    · exact absurd h (BracketFault.mismatched rfl hopens hc htext).not_balanced
  · rw [List.append_assoc, List.cons_append] at h
    obtain ⟨f, hf⟩ := hopens.exists_fault hrejects (rest' ++ c :: rest)
    exact absurd h hf.not_balanced

/-! ## The word of the brackets -/

/-- The brackets of a list. -/
def brackets (ts : List Token) : List Token := ts.filter (!·.isPlain)

/-- The brackets of two lists in a row are those of each. -/
theorem brackets_append (ts us : List Token) : brackets (ts ++ us) = brackets ts ++ brackets us :=
  List.filter_append ..

/-- A plain token adds no bracket. -/
theorem brackets_plain (ht : o.isPlain = true) (ts : List Token) : brackets (o :: ts) = brackets ts := by
  rw [brackets, List.filter_cons, ht]
  rfl

/-- A bracket is kept. -/
theorem brackets_bracket (ht : o.isPlain = false) (ts : List Token) : brackets (o :: ts) = o :: brackets ts := by
  rw [brackets, List.filter_cons, ht]
  rfl

/-- An opening bracket is not plain. -/
theorem isPlain_of_isOpener (h : o.isOpener = true) : o.isPlain = false := by
  rw [isPlain, h]
  rfl

/-- A closing bracket is not plain. -/
theorem isPlain_of_isCloser (h : c.isCloser = true) : c.isPlain = false := by
  rw [isPlain, h, Bool.not_true, Bool.and_false]

/-- The brackets of a well bracketed list are well bracketed. -/
theorem Balanced.brackets (h : Balanced ts) : Balanced (brackets ts) := by
  induction h with
  | nil => exact .nil
  | plain ht _ ih => rwa [brackets_plain ht]
  | group h _ _ ihinner ih =>
    rw [brackets_bracket (isPlain_of_isOpener h.1), brackets_append, brackets_bracket (isPlain_of_isCloser h.2.1)]
    exact .group h ihinner ih

/-- The brackets of a list that leaves some open leave the same open. -/
theorem Opens.brackets (h : Opens ts opened) : Opens (brackets ts) opened := by
  induction h with
  | closed hts => exact .closed hts.brackets
  | opener _ ho hts ih =>
    rw [brackets_append, brackets_bracket (isPlain_of_isOpener ho)]
    exact .opener ih ho hts.brackets

/-- A fault among the tokens is the same fault among the brackets. -/
theorem BracketFault.brackets {f : SourceFault} (h : BracketFault ts f) : BracketFault (brackets ts) f := by
  have hsplit {front rest : List Token} {c : Token} (hts : ts = front ++ c :: rest) (hc : c.isCloser = true) :
      Token.brackets ts = Token.brackets front ++ c :: Token.brackets rest := by
    rw [hts, brackets_append, brackets_bracket (isPlain_of_isCloser hc)]
  cases h with
  | stray hts hfront hc => exact .stray (hsplit hts hc) hfront.brackets hc
  | mismatched hts hfront hc hother => exact .mismatched (hsplit hts hc) hfront.brackets hc hother
  | unclosed hts => exact .unclosed hts.brackets

/-- Only the brackets of a list decide whether it is well bracketed. -/
theorem balanced_brackets_iff : Balanced (brackets ts) ↔ Balanced ts := by
  refine ⟨fun h => ?_, Balanced.brackets⟩
  rcases balanced_or_exists_fault ts with hts | ⟨f, hf⟩
  · exact hts
  · exact absurd h hf.brackets.not_balanced

/-! ## Pairing -/

/-- A map from the openers of a list to their closers, and from no other index. An opener is sent to a later closer
of its own type with a well bracketed run between them, and every closer is hit once. -/
structure PairsUp (ts : List Token) (pairs : List (Nat × Nat)) : Prop where
  keys : (pairs.map Prod.fst).Nodup
  opener {i : Nat} {o : Token} (ho : ts[i]? = some o) (hopen : o.isOpener = true) : ∃ j, pairs.lookup i = some j
  pair {i j : Nat} (h : pairs.lookup i = some j) :
    i < j ∧ ∃ o c, ts[i]? = some o ∧ ts[j]? = some c ∧ Closes o c ∧
    Balanced ((ts.take j).drop (i + 1))
  closer {j : Nat} {c : Token} (hc : ts[j]? = some c) (hclose : c.isCloser = true) :
    ∃! i, pairs.lookup i = some j

/-- What the matcher pairs are opening brackets with the brackets that close them. -/
theorem pairsUp_of_matchBrackets {pairs : List (Nat × Nat)} (h : matchBrackets ts = .ok pairs) :
    PairsUp ts pairs := by
  have hts : Balanced ts := exists_matchBrackets_iff.mp ⟨pairs, h⟩
  obtain ⟨hpairs, hkeys⟩ := Pairing.pairsOf_and_nodup ⟨ts, pairs, h⟩
  have hgrouped {i j : Nat} : pairs.lookup i = some j ↔ Grouped ts i j := hpairs.lookup_eq_some_iff hts
  refine ⟨hkeys, fun ho hopen => ?_, fun hlookup => ?_, fun {_ c} hc hclose => ?_⟩
  · obtain ⟨before, after, rfl, rfl⟩ := exists_append_of_getElem? ho
    obtain ⟨g, hg, hcloses, hinner, -⟩ := hts.exists_closeGroup_append hopen
    refine ⟨_, hgrouped.mpr ⟨before, _, g.inner, g.closer, g.rest, ?_, hcloses, hinner, rfl, rfl⟩⟩
    rw [splitGroup_eq_append hg]
  · obtain ⟨before, o, inner, c, after, rfl, hcloses, hinner, rfl, rfl⟩ := hgrouped.mp hlookup
    refine ⟨by omega, o, c, by simp, ?_, hcloses, ?_⟩
    · rw [Nat.add_assoc, List.getElem?_append_right (Nat.le_add_right ..), Nat.add_sub_cancel_left, Nat.add_comm 1]
      simp
    · have htake : (before ++ o :: (inner ++ c :: after)).take (before.length + 1 + inner.length) =
          before ++ o :: inner := by
        rw [Nat.add_assoc, List.take_length_add_append, Nat.add_comm 1, List.take_succ_cons, List.take_left]
      rw [htake, List.drop_length_add_append, List.drop_one, List.tail_cons]
      exact hinner
  · obtain ⟨front, rest, rfl, rfl⟩ := exists_append_of_getElem? hc
    obtain ⟨before, o, inner, rfl, hcloses, hinner⟩ := hts.exists_opener hclose
    refine ⟨before.length, hgrouped.mpr ⟨before, o, inner, c, rest, ?_, hcloses, hinner, rfl, ?_⟩,
      fun i hlookup => ?_⟩
    · rw [List.append_assoc, List.cons_append]
    · rw [List.length_append, List.length_cons]
      omega
    · obtain ⟨before', o', inner', c', rest', hsplit, hcloses', hinner', rfl, hlength⟩ := hgrouped.mp hlookup
      rw [← List.cons_append, ← List.append_assoc] at hsplit
      have hfront := (List.append_inj hsplit (by simp at hlength ⊢; omega)).1
      rw [eq_of_append_opener hinner hinner' hcloses.1 hcloses'.1 hfront]

/-- Pairing accepts exactly the lists whose brackets form a word of the grammar. It then pairs every opener with a
later closer of its own type, every closer once, and well bracketed tokens stand between them. Any other list is
refused at its first closer that no opener waits for, and else at the opener left open last. -/
theorem matchBrackets_recognizes (ts : List Token) :
    ((∃ pairs, matchBrackets ts = .ok pairs) ↔ Balanced (brackets ts)) ∧
      (∀ pairs, matchBrackets ts = .ok pairs → PairsUp ts pairs) ∧
        ∀ f, matchBrackets ts = .error f ↔ BracketFault ts f :=
  ⟨exists_matchBrackets_iff.trans balanced_brackets_iff.symm, fun _ => pairsUp_of_matchBrackets,
    fun _ => matchBrackets_eq_error_iff⟩

end GoIdiom.Token
