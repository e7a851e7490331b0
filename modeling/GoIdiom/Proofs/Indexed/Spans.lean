import GoIdiom.Proofs.Indexed.Reader
import GoIdiom.Proofs.Runs

/-!
# Runs at an index

A run of tokens spans indices of the list when it stands there and every opener in it is closed in it. What the list
readers cut off a run is what look-ups and loops find at its index: the closer of an opener is the one that counting
depth finds, a jump goes over one piece, and a loop ends where a run ends outside brackets.
-/

namespace GoIdiom

namespace Token

/-- The index of the closer of a token at an index, if the token is an opener. -/
def closerIndex (index : Nat) (t : Token) (after : List Token) : Option Nat :=
  if t.isOpener then (closeGroup after).map fun g => index + 1 + g.inner.length else none

/-- The pairs of a run at an index. They are what pairing adds there, they begin inside the run, and the closer of a
token of the run is looked up among them. -/
structure PairsOf (index : Nat) (ts : List Token) (pairs : List (Nat × Nat)) : Prop where
  matched (opened : List (Nat × Token)) (us : List Token) : matchBracketsFrom index opened (ts ++ us) =
    (matchBracketsFrom (index + ts.length) opened us).map (pairs ++ ·)
  bounds : ∀ q ∈ pairs, index ≤ q.1 ∧ q.1 < index + ts.length
  lookup {before : List Token} {t : Token} {after : List Token} (h : ts = before ++ t :: after) :
    pairs.lookup (index + before.length) = closerIndex (index + before.length) t after

variable {index : Nat} {ts : List Token} {pairs : List (Nat × Nat)}

/-- No pair of a run begins outside it. -/
theorem PairsOf.lookup_eq_none (h : PairsOf index ts pairs) {k : Nat} (hk : k < index ∨ index + ts.length ≤ k) :
    pairs.lookup k = none := by
  rw [List.lookup_eq_none_iff]
  intro q hq
  have hbounds := h.bounds q hq
  apply bne_iff_ne.mpr
  omega

/-- The closer of a token stays its closer when more tokens follow. -/
theorem closerIndex_append {t : Token} {after : List Token}
    (h : t.isOpener = true → (closeGroup after).isSome = true) (us : List Token) :
    closerIndex index t (after ++ us) = closerIndex index t after := by
  rw [closerIndex, closerIndex]
  split
  · next hopen =>
    obtain ⟨g, hg⟩ := Option.isSome_iff_exists.mp (h hopen)
    have happend : closeGroup (after ++ us) = some { g with rest := g.rest ++ us } := splitGroup_append_right hg us
    rw [happend, hg]
    rfl
  · rfl

/-- What follows a token that is no bracket is well bracketed. -/
theorem Balanced.of_plain {t : Token} (h : Balanced (t :: ts)) (ht : t.isPlain = true) : Balanced ts :=
  (h.tail (isPlain_iff.mp ht).1).2

/-- Every opener in a well bracketed run is closed in it. -/
theorem Balanced.isSome_closeGroup {before : List Token} {t : Token} {after : List Token}
    (h : Balanced (before ++ t :: after)) (ht : t.isOpener = true) : (closeGroup after).isSome = true := by
  obtain ⟨g, hg, -⟩ := h.exists_closeGroup_append ht
  rw [hg]
  rfl

/-- A run without tokens has no pairs. -/
theorem pairsOf_nil (index : Nat) : PairsOf index [] [] where
  matched opened us := by
    rw [List.nil_append, List.length_nil, Nat.add_zero]
    cases matchBracketsFrom index opened us <;> rfl
  bounds q hq := absurd hq List.not_mem_nil
  lookup h := absurd h.symm (by simp)

/-- A token that is no bracket adds no pair. -/
theorem PairsOf.plain {t : Token} (ht : t.isPlain = true) (h : PairsOf (index + 1) ts pairs) :
    PairsOf index (t :: ts) pairs where
  matched opened us := by
    rw [List.cons_append, matchBracketsFrom_plain ht, h.matched, List.length_cons, Nat.add_assoc, Nat.add_comm 1]
  bounds q hq := by
    have hbounds := h.bounds q hq
    rw [List.length_cons]
    omega
  lookup {before u after} hsplit := by
    rcases List.cons_eq_append_iff.mp hsplit with ⟨rfl, hcons⟩ | ⟨before, rfl, hrest⟩
    · rw [(List.cons.inj hcons).1, closerIndex, (isPlain_iff.mp ht).1, List.length_nil, Nat.add_zero]
      exact h.lookup_eq_none (.inl (Nat.lt_succ_self _))
    · have hindex : index + (t :: before).length = index + 1 + before.length := by
        rw [List.length_cons]
        omega
      rw [hindex]
      exact h.lookup hrest

/-- A group adds the pair of its brackets behind those of its contents. -/
theorem PairsOf.group {opener closer : Token} {inner : List Token} {inside : List (Nat × Nat)}
    (hcloses : Closes opener closer) (hinner : Balanced inner) (hinside : PairsOf (index + 1) inner inside)
    (h : PairsOf (index + 1 + inner.length + 1) ts pairs) :
    PairsOf index (opener :: (inner ++ closer :: ts)) (inside ++ (index, index + 1 + inner.length) :: pairs) where
  matched opened us := by
    have hlength : index + (opener :: (inner ++ closer :: ts)).length =
        index + 1 + inner.length + 1 + ts.length := by
      simp only [List.length_cons, List.length_append]
      omega
    rw [List.cons_append, List.append_assoc, List.cons_append, matchBracketsFrom_opener hcloses.1, hinside.matched,
      matchBracketsFrom_closer hcloses, h.matched, hlength]
    cases matchBracketsFrom (index + 1 + inner.length + 1 + ts.length) opened us with
    | error e => rfl
    | ok more => simp only [Except.map, List.append_assoc, List.cons_append]
  bounds q hq := by
    simp only [List.length_cons, List.length_append]
    rcases List.mem_append.mp hq with hq | hq
    · have hbounds := hinside.bounds q hq
      omega
    · rcases List.mem_cons.mp hq with rfl | hq
      · dsimp only
        omega
      · have hbounds := h.bounds q hq
        omega
  lookup {before t after} hsplit := by
    rw [List.lookup_append, List.lookup_cons]
    rcases List.cons_eq_append_iff.mp hsplit with ⟨rfl, hcons⟩ | ⟨before, rfl, hrest⟩
    · obtain ⟨rfl, rfl⟩ := List.cons.inj hcons
      rw [closerIndex, if_pos hcloses.1, hinner.closeGroup_append hcloses.2.1, List.length_nil, Nat.add_zero,
        hinside.lookup_eq_none (.inl (Nat.lt_succ_self _)), beq_self_eq_true]
      rfl
    · have hne : (index + (opener :: before).length == index) = false := by
        rw [List.length_cons]
        exact beq_eq_false_iff_ne.mpr (by omega)
      rw [hne, List.length_cons]
      have hindex : index + (before.length + 1) = index + 1 + before.length := by omega
      rw [hindex]
      -- The token stands inside the group, closes it, or stands behind it.
      rcases List.append_eq_append_iff.mp hrest with ⟨between, hbefore, hafter⟩ | ⟨between,
        hinside', hafter⟩
      · rcases List.cons_eq_append_iff.mp hafter with ⟨rfl, hcons⟩ | ⟨between, rfl, hbehind⟩
        · rw [List.append_nil] at hbefore
          subst hbefore
          obtain ⟨rfl, rfl⟩ := List.cons.inj hcons
          rw [closerIndex, hcloses.isOpener_closer, hinside.lookup_eq_none (.inr (Nat.le_refl _)),
            h.lookup_eq_none (.inl (Nat.lt_succ_self _))]
          rfl
        · subst hbefore
          have hlength : index + 1 + (inner ++ closer :: between).length =
              index + 1 + inner.length + 1 + between.length := by
            simp only [List.length_append, List.length_cons]
            omega
          rw [hlength, hinside.lookup_eq_none (.inr (by omega)), h.lookup hbehind]
          rfl
      · subst hinside'
        cases between with
        | nil =>
          rw [List.nil_append] at hafter
          obtain ⟨rfl, rfl⟩ := List.cons.inj hafter
          rw [List.append_nil] at hinside h ⊢
          rw [closerIndex, hcloses.isOpener_closer, hinside.lookup_eq_none (.inr (Nat.le_refl _)),
            h.lookup_eq_none (.inl (Nat.lt_succ_self _))]
          rfl
        | cons u between =>
          obtain ⟨rfl, rfl⟩ := List.cons.inj hafter
          change _ = closerIndex _ t (between ++ closer :: ts)
          rw [hinside.lookup rfl, closerIndex_append hinner.isSome_closeGroup]
          have hlater : pairs.lookup (index + 1 + before.length) = none := by
            apply h.lookup_eq_none
            left
            simp only [List.length_append]
            omega
          rw [hlater, Option.or_none]

/-- Every well bracketed run has its pairs, and no opener of it is paired twice. -/
theorem Balanced.exists_pairsOf (h : Balanced ts) (index : Nat) :
    ∃ pairs, PairsOf index ts pairs ∧ (pairs.map Prod.fst).Nodup := by
  induction h generalizing index with
  | nil => exact ⟨[], pairsOf_nil index, List.nodup_nil⟩
  | plain ht _ ih =>
    obtain ⟨pairs, hpairs, hnodup⟩ := ih (index + 1)
    exact ⟨pairs, hpairs.plain ht, hnodup⟩
  | @group opener closer inner ts hcloses hinner _ ihinner ih =>
    obtain ⟨inside, hinside, hnodupInside⟩ := ihinner (index + 1)
    obtain ⟨pairs, hpairs, hnodup⟩ := ih (index + 1 + inner.length + 1)
    refine ⟨_, .group hcloses hinner hinside hpairs, ?_⟩
    have hbefore : ∀ k ∈ inside.map Prod.fst, index < k ∧ k ≤ index + inner.length := by
      intro k hk
      obtain ⟨q, hq, rfl⟩ := List.mem_map.mp hk
      have hbounds := hinside.bounds q hq
      omega
    have hbehind : ∀ k ∈ pairs.map Prod.fst, index + inner.length + 1 < k := by
      intro k hk
      obtain ⟨q, hq, rfl⟩ := List.mem_map.mp hk
      have hbounds := hpairs.bounds q hq
      omega
    rw [List.map_append, List.map_cons, List.nodup_append]
    refine ⟨hnodupInside, List.nodup_cons.mpr ⟨fun hmem => ?_, hnodup⟩, fun k hk l hl => ?_⟩
    · have hlt := hbehind index hmem
      omega
    · have hbounds := hbefore k hk
      rcases List.mem_cons.mp hl with rfl | hl
      · omega
      · have hlt := hbehind l hl
        omega

end Token

open Token

namespace Pairing

variable {p : Pairing}

/-- The whole list is well bracketed. -/
theorem balanced (p : Pairing) : Balanced p.tokens := exists_matchBrackets_iff.mp ⟨p.pairs, p.matched⟩

/-- The pairs are those of the whole list, and no index begins two of them. -/
theorem pairsOf_and_nodup (p : Pairing) : PairsOf 0 p.tokens p.pairs ∧ (p.pairs.map Prod.fst).Nodup := by
  obtain ⟨pairs, hpairs, hnodup⟩ := p.balanced.exists_pairsOf 0
  have hmatched := hpairs.matched [] []
  rw [List.append_nil] at hmatched
  have hpaired := p.matched.symm.trans hmatched
  change Except.ok p.pairs = .ok (pairs ++ []) at hpaired
  rw [List.append_nil] at hpaired
  rw [Except.ok.inj hpaired]
  exact ⟨hpairs, hnodup⟩

/-- What the matcher paired are the pairs of the list. -/
theorem pairsOf (p : Pairing) : PairsOf 0 p.tokens p.pairs := p.pairsOf_and_nodup.1

/-- A run that stands at an index, and in which all openers are closed. -/
structure Spans (p : Pairing) (index : Nat) (run : List Token) : Prop where
  stands : ∃ front beyond, p.tokens = front ++ (run ++ beyond) ∧ front.length = index
  closing : ∃ before, Balanced (before ++ run)

/-- The token before an index. -/
def Follows (p : Pairing) (index : Nat) (previous : Token) : Prop :=
  0 < index ∧ p.tokens[index - 1]? = some previous

/-- The whole list is a run at its beginning. -/
theorem spans_tokens (p : Pairing) : p.Spans 0 p.tokens where
  stands := ⟨[], [], (List.append_nil _).symm, rfl⟩
  closing := ⟨[], p.balanced⟩

namespace Spans

variable {index : Nat} {t : Token} {run rest : List Token}

/-- The tokens of a run are those at its indices. -/
theorem getElem? (h : p.Spans index run) {k : Nat} (hk : k < run.length) : p.tokens[index + k]? = run[k]? := by
  obtain ⟨front, beyond, htokens, rfl⟩ := h.stands
  rw [htokens, List.getElem?_append_right (Nat.le_add_right _ _), Nat.add_sub_cancel_left,
    List.getElem?_append_left hk]

/-- The tokens of a run are looked up at its indices. -/
theorem token_eq (h : p.Spans index run) {k : Nat} (hk : run[k]? = some t) : p.token (index + k) = .ok t := by
  have hlength : k < run.length := (List.getElem?_eq_some_iff.mp hk).1
  rw [token, h.getElem? hlength, hk]

/-- The first token of a run is at its index. -/
theorem token_head (h : p.Spans index (t :: rest)) : p.token index = .ok t := h.token_eq (k := 0) rfl

/-- The token before the rest of a run. -/
theorem follows (h : p.Spans index run) {k : Nat} (hk : run[k]? = some t) : p.Follows (index + k + 1) t := by
  have hlength : k < run.length := (List.getElem?_eq_some_iff.mp hk).1
  refine ⟨Nat.succ_pos _, ?_⟩
  rw [Nat.add_sub_cancel, h.getElem? hlength, hk]

/-- The last part of a run is a run. -/
theorem right {front : List Token} (h : p.Spans index (front ++ run)) : p.Spans (index + front.length) run where
  stands := by
    obtain ⟨before, beyond, htokens, rfl⟩ := h.stands
    exact ⟨before ++ front, beyond, by rw [htokens, List.append_assoc, List.append_assoc], List.length_append⟩
  closing := by
    obtain ⟨before, hbefore⟩ := h.closing
    exact ⟨before ++ front, by rwa [List.append_assoc]⟩

/-- What follows the first token of a run is a run. -/
theorem tail (h : p.Spans index (t :: rest)) : p.Spans (index + 1) rest := by
  rw [← List.singleton_append] at h
  exact h.right

/-- The first part of a run is a run when all openers in it are closed in it. -/
theorem left {last : List Token} (h : p.Spans index (run ++ last)) (hrun : ∃ before, Balanced (before ++ run)) :
    p.Spans index run where
  stands := by
    obtain ⟨before, beyond, htokens, hindex⟩ := h.stands
    exact ⟨before, last ++ beyond, by rw [htokens, List.append_assoc], hindex⟩
  closing := hrun

/-- The group that an opener begins in a run. -/
theorem exists_closeGroup (h : p.Spans index (t :: rest)) (ht : t.isOpener = true) :
    ∃ g, closeGroup rest = some g ∧ Closes t g.closer ∧ Balanced g.inner := by
  obtain ⟨before, hbefore⟩ := h.closing
  obtain ⟨g, hg, hcloses, hinner, -⟩ := hbefore.exists_closeGroup_append ht
  exact ⟨g, hg, hcloses, hinner⟩

/-- The pair of the first token of a run. -/
theorem lookup_pairs (h : p.Spans index (t :: rest)) : p.pairs.lookup index = closerIndex index t rest := by
  obtain ⟨front, beyond, htokens, rfl⟩ := h.stands
  obtain ⟨before, hbefore⟩ := h.closing
  have hlookup := p.pairsOf.lookup (htokens.trans (by rw [List.cons_append]))
  rw [Nat.zero_add] at hlookup
  rw [hlookup]
  exact closerIndex_append hbefore.isSome_closeGroup beyond

/-- What a run is made of that begins with a group: the closer is found by its opener, and contents and rest are
runs. -/
structure GroupAt (p : Pairing) (index : Nat) (t : Token) (rest : List Token) (g : Group) : Prop where
  closeGroup : closeGroup rest = some g
  append : rest = g.inner ++ g.closer :: g.rest
  closes : Closes t g.closer
  balanced : Balanced g.inner
  closer : p.closer index = .ok (index + 1 + g.inner.length)
  inner : p.Spans (index + 1) g.inner
  token : p.token (index + 1 + g.inner.length) = .ok g.closer
  rest : p.Spans (index + 1 + g.inner.length + 1) g.rest
  follows : p.Follows (index + 1 + g.inner.length + 1) g.closer

/-- The lengths of the parts of a group. -/
theorem GroupAt.length_eq {g : Group} (hg : GroupAt p index t rest g) :
    rest.length = g.inner.length + (g.rest.length + 1) := by
  have hlength := congrArg List.length hg.append
  rwa [List.length_append, List.length_cons] at hlength

/-- A run that begins with an opener begins with a group. -/
theorem exists_groupAt (h : p.Spans index (t :: rest)) (ht : t.isOpener = true) :
    ∃ g, GroupAt p index t rest g := by
  obtain ⟨g, hg, hcloses, hinner⟩ := h.exists_closeGroup ht
  have happend := (splitGroup_eq_append hg).symm
  have htail := h.tail
  rw [happend] at htail
  have hclosing := htail.right
  have hlookup := h.lookup_pairs
  rw [closerIndex, if_pos ht, hg] at hlookup
  refine ⟨g, hg, happend, hcloses, hinner, ?_, htail.left ⟨[], hinner⟩, hclosing.token_head, hclosing.tail,
    hclosing.follows (k := 0) rfl⟩
  rw [Pairing.closer, hlookup]
  rfl

/-- The group at an index is the one that counting depth finds. -/
theorem groupAt (h : p.Spans index (t :: rest)) (ht : t.isOpener = true) {g : Group}
    (hg : Token.closeGroup rest = some g) : GroupAt p index t rest g := by
  obtain ⟨g', hg'⟩ := h.exists_groupAt ht
  obtain rfl := Option.some.inj (hg'.closeGroup.symm.trans hg)
  exact hg'

/-! ## Jumps -/

/-- What is after the first piece of a run: a jump goes there, and it is a later index. -/
structure PieceAt (p : Pairing) (index : Nat) (t : Token) (rest : List Token) : Prop where
  skip : p.skip index = index + (takePiece t rest).1.length
  lt : index < index + (takePiece t rest).1.length
  closer : t.isOpener = true →
    ∃ close, p.closer index = .ok close ∧ close + 1 = index + (takePiece t rest).1.length
  after : p.Spans (index + (takePiece t rest).1.length) (takePiece t rest).2
  follows : p.Follows (index + (takePiece t rest).1.length) ((takePiece t rest).1.getLastD t)

/-- The first piece of a run is the one that a jump goes over. -/
theorem pieceAt (h : p.Spans index (t :: rest)) : PieceAt p index t rest := by
  rw [← takePiece_append t rest] at h
  have hrest := h.right
  obtain ⟨more, hpiece⟩ := takePiece_eq_cons t rest
  have hlength : (takePiece t rest).1.length = more.length + 1 := by rw [hpiece, List.length_cons]
  have hlast : (takePiece t rest).1[more.length]? = some ((takePiece t rest).1.getLastD t) := by
    rw [hpiece, List.getLastD_eq_getLast?, List.getLast?_eq_getElem?, List.length_cons, Nat.add_sub_cancel]
    simp
  have hfollows := h.follows (k := more.length) (t := (takePiece t rest).1.getLastD t) (by
    rw [List.getElem?_append_left (by omega), hlast])
  rw [Nat.add_assoc, ← hlength] at hfollows
  rw [takePiece_append] at h
  by_cases hopen : t.isOpener = true
  · obtain ⟨g, hg⟩ := h.exists_groupAt hopen
    have hgroup : (takePiece t rest).1.length = g.inner.length + 2 := by
      rw [takePiece, if_pos hopen, hg.closeGroup]
      simp only [List.length_cons, List.length_append, List.length_nil]
    refine ⟨?_, by omega, fun _ => ⟨_, hg.closer, by omega⟩, hrest, hfollows⟩
    rw [Pairing.skip, h.lookup_pairs, closerIndex, if_pos hopen, hg.closeGroup, hgroup]
    dsimp only [Option.map_some]
    omega
  · refine ⟨?_, by omega, fun h => absurd h hopen, hrest, hfollows⟩
    rw [Pairing.skip, h.lookup_pairs, closerIndex, if_neg hopen, takePiece, if_neg hopen]
    rfl

end Spans

end Pairing

end GoIdiom
