import GoIdiom.Token.Split

/-!
# Well bracketed runs

A run is well bracketed when every opener in it has a closer of its own type, with a well bracketed run
between them. These are the runs on which pairing brackets succeeds. Counting depth finds the closer of
an opener in them, so the readers, which jump over groups and cut at tokens outside brackets, only ever
see well bracketed runs.
-/

namespace GoIdiom.Token

section Cuts

variable {ts : List Token}

/-- The rest of a run begins with a token that stops it. -/
theorem spanTop_stops {stops : Token → Bool} {t : Token} {rest : List Token}
    (h : (spanTop stops ts).2 = t :: rest) : stops t = true := by
  fun_induction spanTop stops ts with
  | case1 => exact absurd h.symm (List.cons_ne_nil _ _)
  | case2 u us hu => rw [List.cons.inj h |>.1] at hu; exact hu
  | case3 u us hu piece more ih => exact ih h

/-- A piece begins with its first token. -/
theorem takePiece_eq_cons (t : Token) (rest : List Token) : ∃ more, (takePiece t rest).1 = t :: more := by
  rw [takePiece]
  split
  · split
    · exact ⟨_, rfl⟩
    · exact ⟨_, rfl⟩
  · exact ⟨_, rfl⟩

/-- A run begins with a token that does not stop it. -/
theorem not_stops_of_spanTop {stops : Token → Bool} {t : Token} {run : List Token}
    (h : (spanTop stops ts).1 = t :: run) : stops t = false := by
  rw [spanTop.eq_def] at h
  split at h
  · exact absurd h.symm (List.cons_ne_nil _ _)
  · next u us =>
    split at h
    · exact absurd h.symm (List.cons_ne_nil _ _)
    · next hu =>
      obtain ⟨more, hpiece⟩ := takePiece_eq_cons u us
      dsimp only at h
      rw [hpiece, List.cons_append] at h
      rw [← (List.cons.inj h).1]
      exact Bool.eq_false_iff.mpr hu

end Cuts

section Groups

variable {deeper closes : Token → Bool} {t : Token}

/-- A token that does not close goes into the group. -/
theorem splitGroup_of_not_closes (ht : closes t = false) (depth : Nat) (ts : List Token) :
    splitGroup deeper closes depth (t :: ts) =
      (splitGroup deeper closes (if deeper t then depth + 1 else depth) ts).map fun g =>
        { g with inner := t :: g.inner } := by
  rw [splitGroup.eq_def]
  simp only [ht, Bool.false_eq_true, ↓reduceIte]

/-- A token that closes at depth zero ends the group. -/
theorem splitGroup_zero (ht : closes t = true) (ts : List Token) :
    splitGroup deeper closes 0 (t :: ts) = some ⟨[], t, ts⟩ := by
  rw [splitGroup.eq_def]
  simp only [ht, ↓reduceIte]

/-- Tokens behind the end of a group follow it. -/
theorem splitGroup_append_right {depth : Nat} {ts : List Token} {g : Group}
    (h : splitGroup deeper closes depth ts = some g) (us : List Token) :
    splitGroup deeper closes depth (ts ++ us) = some { g with rest := g.rest ++ us } := by
  induction ts generalizing depth g with
  | nil => cases h
  | cons t rest ih =>
    unfold splitGroup at h
    rw [List.cons_append, splitGroup.eq_def]
    dsimp only
    split at h
    · next ht =>
      rw [if_pos ht]
      cases depth with
      | zero =>
        obtain rfl := Option.some.inj h
        rfl
      | succ d =>
        obtain ⟨g', hg, rfl⟩ := Option.map_eq_some_iff.mp h
        dsimp only
        rw [ih hg]
        rfl
    · next ht =>
      rw [if_neg ht]
      obtain ⟨g', hg, rfl⟩ := Option.map_eq_some_iff.mp h
      rw [ih hg]
      rfl

/-- A token that closes deeper inside goes into the group. -/
theorem splitGroup_succ (ht : closes t = true) (depth : Nat) (ts : List Token) :
    splitGroup deeper closes (depth + 1) (t :: ts) =
      (splitGroup deeper closes depth ts).map fun g => { g with inner := t :: g.inner } := by
  rw [splitGroup.eq_def]
  simp only [ht, ↓reduceIte]

end Groups

/-- No token is a bracket of both directions. -/
theorem isCloser_of_isOpener {t : Token} (h : t.isOpener = true) : t.isCloser = false := by
  rw [isOpener, isOpIn, Bool.and_eq_true] at h
  have htext : t.text ∈ ["(", "[", "\x7b"] := List.contains_iff_mem.mp h.2
  rw [isCloser, isOpIn, Bool.and_eq_false_iff]
  right
  revert htext
  simp only [List.mem_cons, List.not_mem_nil, or_false]
  rintro (h | h | h) <;> rw [h] <;> decide

/-- A token that is no bracket. -/
def isPlain (t : Token) : Bool := !t.isOpener && !t.isCloser

/-- Whether the second token closes what the first one opens. -/
def Closes (opener closer : Token) : Prop :=
  opener.isOpener = true ∧ closer.isCloser = true ∧ closerOf opener.text = closer.text

instance (opener closer : Token) : Decidable (Closes opener closer) := inferInstanceAs (Decidable (_ ∧ _))

/-- What closes a bracket opens none. -/
theorem Closes.isOpener_closer {opener closer : Token} (h : Closes opener closer) : closer.isOpener = false := by
  cases hboth : closer.isOpener with
  | false => rfl
  | true =>
    have hclose := h.2.1
    rw [isCloser_of_isOpener hboth] at hclose
    cases hclose

/-- A well bracketed run. -/
inductive Balanced : List Token → Prop
  | nil : Balanced []
  | plain {t : Token} {ts : List Token} (ht : t.isPlain = true) (hts : Balanced ts) : Balanced (t :: ts)
  | group {opener closer : Token} {inner ts : List Token} (h : Closes opener closer) (hinner : Balanced inner)
      (hts : Balanced ts) : Balanced (opener :: (inner ++ closer :: ts))

/-- A token is plain when it neither opens nor closes a bracket. -/
theorem isPlain_iff {t : Token} : t.isPlain = true ↔ t.isOpener = false ∧ t.isCloser = false := by
  simp only [isPlain, Bool.and_eq_true, Bool.not_eq_true']

namespace Balanced

variable {ts us : List Token}

/-- A token that is no bracket is a well bracketed run. -/
theorem single {t : Token} (ht : t.isPlain = true) : Balanced [t] := plain ht nil

/-- A group is a well bracketed run. -/
theorem enclosed {opener closer : Token} (h : Closes opener closer) (hts : Balanced ts) :
    Balanced (opener :: (ts ++ [closer])) := group h hts nil

/-- Well bracketed runs may follow each other. -/
theorem append (hts : Balanced ts) (hus : Balanced us) : Balanced (ts ++ us) := by
  induction hts with
  | nil => exact hus
  | plain ht _ ih => exact plain ht ih
  | group h hinner _ _ ih =>
    rw [List.cons_append, List.append_assoc, List.cons_append]
    exact group h hinner ih

/-- Counting depth passes over a well bracketed run. -/
theorem splitGroup_append (hts : Balanced ts) (depth : Nat) (us : List Token) :
    splitGroup isOpener isCloser depth (ts ++ us) =
      (splitGroup isOpener isCloser depth us).map fun g => { g with inner := ts ++ g.inner } := by
  induction hts generalizing depth us with
  | nil =>
    rw [List.nil_append]
    cases splitGroup isOpener isCloser depth us <;> rfl
  | plain ht _ ih =>
    obtain ⟨hopen, hclose⟩ := isPlain_iff.mp ht
    rw [List.cons_append, splitGroup_of_not_closes hclose, hopen, if_neg Bool.false_ne_true, ih, Option.map_map]
    rfl
  | @group opener closer inner ts h _ _ ihinner ih =>
    obtain ⟨hopen, hclose, -⟩ := h
    rw [List.cons_append, List.append_assoc, List.cons_append,
      splitGroup_of_not_closes (isCloser_of_isOpener hopen), if_pos hopen, ihinner, splitGroup_succ hclose, ih]
    cases splitGroup isOpener isCloser depth us with
    | none => rfl
    | some g => simp only [Option.map_some, List.append_assoc, List.cons_append]

/-- The closer after a well bracketed run ends the group. -/
theorem closeGroup_append (hts : Balanced ts) {closer : Token} (hclose : closer.isCloser = true)
    (us : List Token) : closeGroup (ts ++ closer :: us) = some ⟨ts, closer, us⟩ := by
  rw [closeGroup, hts.splitGroup_append, splitGroup_zero hclose]
  simp only [Option.map_some, List.append_nil]

/-- A well bracketed run that begins with no bracket is one after it. -/
theorem tail {t : Token} (h : Balanced (t :: ts)) (ht : t.isOpener = false) : t.isPlain = true ∧ Balanced ts := by
  cases h with
  | plain hplain hts => exact ⟨hplain, hts⟩
  | group hcloses =>
    rw [hcloses.1] at ht
    cases ht

/-- A well bracketed run that begins with an opener begins with a group. -/
theorem exists_closeGroup {opener : Token} (h : Balanced (opener :: ts)) (hopen : opener.isOpener = true) :
    ∃ g, closeGroup ts = some g ∧ Closes opener g.closer ∧ Balanced g.inner ∧ Balanced g.rest := by
  cases h with
  | plain hplain =>
    rw [(isPlain_iff.mp hplain).1] at hopen
    cases hopen
  | group hcloses hinner hts => exact ⟨_, hinner.closeGroup_append hcloses.2.1 _, hcloses, hinner, hts⟩

/-- The parts of the group that a well bracketed run begins with are well bracketed. -/
theorem of_closeGroup {opener : Token} (h : Balanced (opener :: ts)) (hopen : opener.isOpener = true) {g : Group}
    (hg : closeGroup ts = some g) : Closes opener g.closer ∧ Balanced g.inner ∧ Balanced g.rest := by
  obtain ⟨g', hg', hparts⟩ := h.exists_closeGroup hopen
  obtain rfl := Option.some.inj (hg'.symm.trans hg)
  exact hparts

/-- The group of any opener in a well bracketed run, for which another well bracketed run may stand. -/
theorem exists_closeGroup_append {before : List Token} {opener : Token} (h : Balanced (before ++ opener :: ts))
    (hopen : opener.isOpener = true) :
    ∃ g, closeGroup ts = some g ∧ Closes opener g.closer ∧ Balanced g.inner ∧
      ∀ us, Balanced us → Balanced (before ++ (us ++ g.rest)) := by
  generalize hall : before ++ opener :: ts = all at h
  induction h generalizing before ts with
  | nil => cases (List.append_eq_nil_iff.mp hall).2
  | plain ht hrest ih =>
    cases before with
    | nil =>
      obtain ⟨rfl, -⟩ := List.cons.inj hall
      rw [(isPlain_iff.mp ht).1] at hopen
      cases hopen
    | cons t before =>
      obtain ⟨rfl, htail⟩ := List.cons.inj hall
      obtain ⟨g, hg, hcloses, hinner, hfill⟩ := ih htail
      exact ⟨g, hg, hcloses, hinner, fun us hus => plain ht (hfill us hus)⟩
  | @group outer closer inner rest hcloses hinner hrest ihinner ih =>
    cases before with
    | nil =>
      obtain ⟨rfl, rfl⟩ := List.cons.inj hall
      exact ⟨_, hinner.closeGroup_append hcloses.2.1 _, hcloses, hinner, fun us hus => hus.append hrest⟩
    | cons t before =>
      obtain ⟨rfl, htail⟩ := List.cons.inj hall
      -- The opener stands behind the first group, or inside it.
      rcases List.append_eq_append_iff.mp htail with ⟨between, hinside, hafter⟩ | ⟨between, hbefore, hafter⟩
      · cases between with
        | nil =>
          obtain ⟨rfl, -⟩ := List.cons.inj hafter
          rw [hcloses.isOpener_closer] at hopen
          cases hopen
        | cons u between =>
          obtain ⟨rfl, rfl⟩ := List.cons.inj hafter
          obtain ⟨g, hg, hcloses', hinner', hfill⟩ := ihinner hinside.symm
          refine ⟨{ g with rest := g.rest ++ closer :: rest }, splitGroup_append_right hg _, hcloses',
            hinner', ?_⟩
          intro us hus
          have hgroup := group hcloses (hfill us hus) hrest
          simpa only [List.cons_append, List.append_assoc] using hgroup
      · cases between with
        | nil =>
          obtain ⟨rfl, -⟩ := List.cons.inj hafter
          rw [hcloses.isOpener_closer] at hopen
          cases hopen
        | cons u between =>
          obtain ⟨rfl, hrest'⟩ := List.cons.inj hafter
          obtain ⟨g, hg, hcloses', hinner', hfill⟩ := ih hrest'.symm
          refine ⟨g, hg, hcloses', hinner', fun us hus => ?_⟩
          rw [hbefore, List.cons_append, List.append_assoc, List.cons_append]
          exact group hcloses hinner (hfill us hus)

/-! ## Cutting at tokens outside brackets -/

/-- The first piece of a well bracketed run, and what follows it. -/
theorem takePiece {t : Token} (h : Balanced (t :: ts)) :
    Balanced (Token.takePiece t ts).1 ∧ Balanced (Token.takePiece t ts).2 := by
  unfold Token.takePiece
  split
  · next hopen =>
    obtain ⟨g, hg, hcloses, hinner, hrest⟩ := h.exists_closeGroup hopen
    rw [hg]
    exact ⟨enclosed hcloses hinner, hrest⟩
  · next hopen =>
    obtain ⟨hplain, hts⟩ := h.tail (Bool.eq_false_iff.mpr hopen)
    exact ⟨single hplain, hts⟩

/-- A cut outside brackets leaves well bracketed runs on both sides. -/
theorem spanTop (stops : Token → Bool) (h : Balanced ts) :
    Balanced (Token.spanTop stops ts).1 ∧ Balanced (Token.spanTop stops ts).2 := by
  fun_induction Token.spanTop stops ts with
  | case1 => exact ⟨nil, nil⟩
  | case2 => exact ⟨nil, h⟩
  | case3 t rest _ piece more ih =>
    obtain ⟨hpiece, hrest⟩ := h.takePiece
    obtain ⟨hmore, hafter⟩ := ih hrest
    exact ⟨hpiece.append hmore, hafter⟩

end Balanced

/-! ## Pairing brackets -/

/-- Whether a run closes the given openers, innermost first, and is well bracketed apart from that. -/
def ClosesAll : List (Nat × Token) → List Token → Prop
  | [], ts => Balanced ts
  | (_, opener) :: outer, ts =>
    ∃ inner closer rest, ts = inner ++ closer :: rest ∧ Balanced inner ∧ closer.isCloser = true ∧
      closerOf opener.text = closer.text ∧ ClosesAll outer rest

/-- A well bracketed run in front closes no openers. -/
theorem ClosesAll.prepend {opened : List (Nat × Token)} {ts us : List Token} (h : ClosesAll opened ts)
    (hus : Balanced us) : ClosesAll opened (us ++ ts) := by
  cases opened with
  | nil => exact hus.append h
  | cons o outer =>
    obtain ⟨inner, closer, rest, rfl, hinner, hcloser, htext, houter⟩ := h
    exact ⟨us ++ inner, closer, rest, (List.append_assoc ..).symm, hus.append hinner, hcloser, htext, houter⟩

section Steps

variable {t : Token} {ts : List Token} {index : Nat} {opened : List (Nat × Token)}

/-- An opener stays open. -/
theorem matchBracketsFrom_opener (ht : t.isOpener = true) :
    matchBracketsFrom index opened (t :: ts) = matchBracketsFrom (index + 1) ((index, t) :: opened) ts := by
  rw [matchBracketsFrom.eq_def]
  simp only [ht, ↓reduceIte]

/-- A token that is no bracket is passed over. -/
theorem matchBracketsFrom_plain (ht : t.isPlain = true) :
    matchBracketsFrom index opened (t :: ts) = matchBracketsFrom (index + 1) opened ts := by
  obtain ⟨hopen, hclose⟩ := isPlain_iff.mp ht
  rw [matchBracketsFrom.eq_def]
  simp only [hopen, hclose, Bool.false_eq_true, ↓reduceIte]

/-- A closer is paired with the innermost opener. -/
theorem matchBracketsFrom_closer {i : Nat} {opener closer : Token} (h : Closes opener closer) :
    matchBracketsFrom index ((i, opener) :: opened) (closer :: ts) =
      (matchBracketsFrom (index + 1) opened ts).map ((i, index) :: ·) := by
  have hopen := h.isOpener_closer
  obtain ⟨-, hclose, htext⟩ := h
  rw [matchBracketsFrom.eq_def]
  simp only [hopen, hclose, htext, Bool.false_eq_true, ↓reduceIte]

/-- What one step of a successful pairing does. -/
theorem matchBracketsFrom_cons {pairs : List (Nat × Nat)}
    (h : matchBracketsFrom index opened (t :: ts) = .ok pairs) :
    (t.isOpener = true ∧ matchBracketsFrom (index + 1) ((index, t) :: opened) ts = .ok pairs) ∨
      (t.isPlain = true ∧ matchBracketsFrom (index + 1) opened ts = .ok pairs) ∨
        ∃ i opener outer more, opened = (i, opener) :: outer ∧ t.isCloser = true ∧ t.isOpener = false ∧
          closerOf opener.text = t.text ∧ matchBracketsFrom (index + 1) outer ts = .ok more ∧
            pairs = (i, index) :: more := by
  rw [matchBracketsFrom.eq_def] at h
  dsimp only at h
  split at h
  · next hopen => exact .inl ⟨hopen, h⟩
  · next hopen =>
    have hopen := Bool.eq_false_iff.mpr hopen
    split at h
    · next hclose =>
      split at h
      · cases h
      · next i opener outer =>
        split at h
        · next htext =>
          cases hmore : matchBracketsFrom (index + 1) outer ts with
          | error e =>
            rw [hmore] at h
            cases h
          | ok more =>
            rw [hmore] at h
            exact .inr (.inr ⟨i, opener, outer, more, rfl, hclose, hopen, htext, hmore, (Except.ok.inj h).symm⟩)
        · cases h
    · next hclose => exact .inr (.inl ⟨isPlain_iff.mpr ⟨hopen, Bool.eq_false_iff.mpr hclose⟩, h⟩)

end Steps

/-- Pairing succeeds only on runs that close all openers. -/
theorem closesAll_of_matchBracketsFrom {index : Nat} {opened : List (Nat × Token)} {ts : List Token}
    {pairs : List (Nat × Nat)} (h : matchBracketsFrom index opened ts = .ok pairs) : ClosesAll opened ts := by
  induction ts generalizing index opened pairs with
  | nil =>
    cases opened with
    | nil => exact .nil
    | cons o outer => cases h
  | cons t rest ih =>
    rcases matchBracketsFrom_cons h with ⟨hopen, h⟩ | ⟨hplain, h⟩ | ⟨i, o, outer, more, rfl, hclose, -,
      htext, h, -⟩
    · obtain ⟨inner, closer, rest, rfl, hinner, hcloser, htext, houter⟩ := ih h
      have hclosed := houter.prepend (Balanced.enclosed ⟨hopen, hcloser, htext⟩ hinner)
      rwa [List.cons_append, List.append_assoc, List.singleton_append] at hclosed
    · exact (ih h).prepend (.single hplain)
    · exact ⟨[], t, rest, rfl, .nil, hclose, htext, ih h⟩

/-- Pairing passes over a well bracketed run and adds its pairs. -/
theorem Balanced.matchBracketsFrom_append {ts : List Token} (hts : Balanced ts) (index : Nat)
    (opened : List (Nat × Token)) (us : List Token) : ∃ pairs,
      matchBracketsFrom index opened (ts ++ us) =
        (matchBracketsFrom (index + ts.length) opened us).map (pairs ++ ·) := by
  induction hts generalizing index opened us with
  | nil =>
    refine ⟨[], ?_⟩
    rw [List.nil_append, List.length_nil, Nat.add_zero]
    cases matchBracketsFrom index opened us <;> rfl
  | @plain t ts ht _ ih =>
    obtain ⟨pairs, hpairs⟩ := ih (index + 1) opened us
    refine ⟨pairs, ?_⟩
    rw [List.cons_append, matchBracketsFrom_plain ht, hpairs, List.length_cons, Nat.add_assoc, Nat.add_comm 1]
  | @group opener closer inner ts h _ _ ihinner ih =>
    obtain ⟨inside, hinside⟩ := ihinner (index + 1) ((index, opener) :: opened) (closer :: (ts ++ us))
    obtain ⟨pairs, hpairs⟩ := ih (index + 1 + inner.length + 1) opened us
    refine ⟨inside ++ (index, index + 1 + inner.length) :: pairs, ?_⟩
    have hlength : index + (opener :: (inner ++ closer :: ts)).length =
        index + 1 + inner.length + 1 + ts.length := by
      simp only [List.length_cons, List.length_append]
      omega
    rw [List.cons_append, List.append_assoc, List.cons_append, matchBracketsFrom_opener h.1, hinside,
      matchBracketsFrom_closer h, hpairs, hlength]
    cases matchBracketsFrom (index + 1 + inner.length + 1 + ts.length) opened us with
    | error e => rfl
    | ok more => simp only [Except.map, List.append_assoc, List.cons_append]

/-- Pairing brackets succeeds exactly on well bracketed runs. -/
theorem exists_matchBrackets_iff {ts : List Token} : (∃ pairs, matchBrackets ts = .ok pairs) ↔ Balanced ts := by
  constructor
  · rintro ⟨pairs, h⟩
    exact closesAll_of_matchBracketsFrom h
  · intro h
    obtain ⟨pairs, hpairs⟩ := h.matchBracketsFrom_append 0 [] []
    rw [List.append_nil] at hpairs
    exact ⟨pairs ++ [], hpairs⟩

/-- Every opener is paired with a later index: those still open, and those of the run. -/
theorem exists_pair_of_matchBracketsFrom {index : Nat} {opened : List (Nat × Token)} {ts : List Token}
    {pairs : List (Nat × Nat)} (h : matchBracketsFrom index opened ts = .ok pairs) :
    (∀ o ∈ opened, ∃ j, (o.1, j) ∈ pairs ∧ index ≤ j ∧ j < index + ts.length) ∧
      ∀ i t, ts[i]? = some t → t.isOpener = true →
        ∃ j, (index + i, j) ∈ pairs ∧ index + i < j ∧ j < index + ts.length := by
  induction ts generalizing index opened pairs with
  | nil =>
    cases opened with
    | nil => exact ⟨fun o ho => absurd ho List.not_mem_nil, fun i t ht => by cases ht⟩
    | cons o outer => cases h
  | cons t rest ih =>
    -- The indices of the tail are those of the whole run, less one.
    have hshift {pairs : List (Nat × Nat)} (hhead : t.isOpener = true →
          ∃ j, (index, j) ∈ pairs ∧ index < j ∧ j < index + 1 + rest.length)
        (hrest : ∀ i u, rest[i]? = some u → u.isOpener = true →
          ∃ j, (index + 1 + i, j) ∈ pairs ∧ index + 1 + i < j ∧ j < index + 1 + rest.length) :
        ∀ i u, (t :: rest)[i]? = some u → u.isOpener = true →
          ∃ j, (index + i, j) ∈ pairs ∧ index + i < j ∧ j < index + (rest.length + 1) := by
      intro i u hu hopen
      cases i with
      | zero =>
        obtain rfl := Option.some.inj hu
        obtain ⟨j, hj, hafter, hbound⟩ := hhead hopen
        exact ⟨j, hj, by omega, by omega⟩
      | succ i =>
        obtain ⟨j, hj, hafter, hbound⟩ := hrest i u hu hopen
        have hindex : index + 1 + i = index + (i + 1) := by omega
        exact ⟨j, hindex ▸ hj, by omega, by omega⟩
    rw [List.length_cons]
    rcases matchBracketsFrom_cons h with ⟨hopen, h⟩ | ⟨hplain, h⟩ | ⟨i, o, outer, more, rfl, -, hopen, -,
      hmore, rfl⟩
    · obtain ⟨hopened, hrest⟩ := ih h
      refine ⟨fun o ho => ?_, hshift (fun _ => ?_) hrest⟩
      · obtain ⟨j, hj, hafter, hbound⟩ := hopened o (List.mem_cons_of_mem _ ho)
        exact ⟨j, hj, by omega, by omega⟩
      · obtain ⟨j, hj, hafter, hbound⟩ := hopened (index, t) List.mem_cons_self
        exact ⟨j, hj, by omega, by omega⟩
    · obtain ⟨hopened, hrest⟩ := ih h
      refine ⟨fun o ho => ?_, hshift (fun hopen => ?_) hrest⟩
      · obtain ⟨j, hj, hafter, hbound⟩ := hopened o ho
        exact ⟨j, hj, by omega, by omega⟩
      · rw [(isPlain_iff.mp hplain).1] at hopen
        cases hopen
    · obtain ⟨hopened, hrest⟩ := ih hmore
      refine ⟨fun o' ho' => ?_, hshift (fun hopen' => ?_) fun i' u hu hopen' => ?_⟩
      · rcases List.mem_cons.mp ho' with rfl | ho'
        · exact ⟨index, List.mem_cons_self, Nat.le_refl _, by omega⟩
        · obtain ⟨j, hj, hafter, hbound⟩ := hopened o' ho'
          exact ⟨j, List.mem_cons_of_mem _ hj, by omega, by omega⟩
      · rw [hopen] at hopen'
        cases hopen'
      · obtain ⟨j, hj, hbounds⟩ := hrest i' u hu hopen'
        exact ⟨j, List.mem_cons_of_mem _ hj, hbounds⟩

end GoIdiom.Token
