import GoIdiom.Proofs.Lexing.Breaks

/-!
# Pieces of a text

What a piece is does not depend on the text behind a break after it, so the text behind a token that ends
at a break may be exchanged for another one that begins with a break: the pieces before it stay.
-/

namespace GoIdiom.Lexeme

/-- What pieces begin with a character that stands before a text, and how long they go on. -/
inductive Piece (c : Char) (rest : List Char) : LexemeKind → Nat → Prop where
  | lineFeed (h : c = '\n') : Piece c rest .lineFeed 0
  | blank (h : isInlineBlank c = true) : Piece c rest .blank (runLength isInlineBlank rest)
  | lineComment : Piece c rest .lineComment (runLength (· != '\n') rest)
  | blockComment {n : Nat} (hrest : rest.head? = some '*') (h : blockLength (rest.drop 1) = some n) :
    Piece c rest .blockComment (n + 1)
  | raw {n : Nat} (h : rawLength rest = some n) : Piece c rest (.token .string) n
  | literal {mark : Char} {kind : TokenKind} {n : Nat} (hmark : mark ≠ '\n')
      (hkind : kind = .string ∨ kind = .char) (h : literalLength mark rest = some n) :
      Piece c rest (.token kind) n
  | number {n : Nat} (h : numberLength c rest = some n) : Piece c rest (.token .number) n
  | word : Piece c rest (.token (wordKind (String.ofList (c :: rest.take (runLength Text.isWord rest)))))
      (runLength Text.isWord rest)
  | operator {op : String} (h : operatorAt (c :: rest) = some op) :
    Piece c rest (.token (if op == ";" then .semi else .op)) (op.length - 1)

section Classify

variable {c : Char} {rest : List Char} {kind : LexemeKind} {n : Nat}

/-- A piece up to a closing mark, of `k` characters more than the length tells, or an open one. -/
def closing (kind : LexemeKind) (cause : SourceCause) (k : Nat) :
    Option Nat → Except SourceCause (LexemeKind × Nat)
  | some j => .ok (kind, j + k)
  | none => .error cause

/-- A piece is closed when its length is known. -/
theorem closing_eq_ok_iff {x : LexemeKind} {cause : SourceCause} {k : Nat} {a : Option Nat} :
    closing x cause k a = .ok (kind, n) ↔ x = kind ∧ a.map (· + k) = some n := by
  cases a with
  | none => simp [closing]
  | some j => simp [closing]

/-- Two lengths that agree as far as they count close the same piece. -/
theorem closing_iff {x : LexemeKind} {cause : SourceCause} {k : Nat} {a b : Option Nat}
    (h : a.map (· + k) = some n ↔ b.map (· + k) = some n) :
    closing x cause k a = .ok (kind, n) ↔ closing x cause k b = .ok (kind, n) := by
  rw [closing_eq_ok_iff, closing_eq_ok_iff, h]

/-- The length of a closed piece. -/
theorem exists_of_closing {x : LexemeKind} {cause : SourceCause} {k : Nat} {a : Option Nat}
    (h : closing x cause k a = .ok (kind, n)) : ∃ j, a = some j ∧ kind = x ∧ n = j + k := by
  obtain ⟨hkind, hlength⟩ := closing_eq_ok_iff.mp h
  obtain ⟨j, hj, rfl⟩ := Option.map_eq_some_iff.mp hlength
  exact ⟨j, hj, hkind.symm, rfl⟩

/-- A character is classified as the head of a piece. -/
theorem piece_of_classify (h : classify c rest = .ok (kind, n)) : Piece c rest kind n := by
  unfold classify at h
  by_cases hline : c = '\n'
  · rw [if_pos hline] at h
    cases h
    exact .lineFeed hline
  rw [if_neg hline] at h
  by_cases hblank : isInlineBlank c = true
  · rw [if_pos hblank] at h
    cases h
    exact .blank hblank
  rw [if_neg hblank] at h
  by_cases hslash : (c = '/' && rest.head? == some '/') = true
  · rw [if_pos hslash] at h
    cases h
    exact .lineComment
  rw [if_neg hslash] at h
  by_cases hstar : (c = '/' && rest.head? == some '*') = true
  · rw [if_pos hstar] at h
    rw [Bool.and_eq_true, beq_iff_eq] at hstar
    obtain ⟨j, hj, rfl, rfl⟩ := exists_of_closing (k := 1) h
    exact .blockComment hstar.2 hj
  rw [if_neg hstar] at h
  by_cases hraw : c = '\x60'
  · rw [if_pos hraw] at h
    obtain ⟨j, hj, rfl, rfl⟩ := exists_of_closing (k := 0) h
    exact .raw hj
  rw [if_neg hraw] at h
  by_cases hquote : c = '"'
  · rw [if_pos hquote] at h
    obtain ⟨j, hj, rfl, rfl⟩ := exists_of_closing (k := 0) h
    exact .literal (by decide) (.inl rfl) hj
  rw [if_neg hquote] at h
  by_cases hrune : c = '\''
  · rw [if_pos hrune] at h
    obtain ⟨j, hj, rfl, rfl⟩ := exists_of_closing (k := 0) h
    exact .literal (by decide) (.inr rfl) hj
  rw [if_neg hrune] at h
  cases hn : numberLength c rest with
  | some n => rw [hn] at h; cases h; exact .number hn
  | none =>
    rw [hn] at h
    by_cases hword : Text.isWordStart c = true
    · dsimp only at h
      rw [if_pos hword] at h
      cases h
      exact .word
    · dsimp only at h
      rw [if_neg hword] at h
      cases hop : operatorAt (c :: rest) with
      | none => rw [hop] at h; cases h
      | some op => rw [hop] at h; cases h; exact .operator hop

/-- An operator stands at the head of the text it is found in. -/
theorem prefix_of_operatorAt {cs : List Char} {op : String} (h : operatorAt cs = some op) : op.toList <+: cs :=
  List.isPrefixOf_iff_prefix.mp (List.find?_some (p := fun op : String => op.toList.isPrefixOf cs) h)

/-- The text of an operator. -/
theorem take_of_operatorAt {c : Char} {rest : List Char} {op : String} (h : operatorAt (c :: rest) = some op) :
    op.toList = c :: rest.take (op.length - 1) := by
  have hne : operators.all (fun op => op.toList != []) = true := by decide
  have hop := List.all_eq_true.mp hne op (List.mem_of_find?_eq_some h)
  have htake := List.prefix_iff_eq_take.mp (prefix_of_operatorAt h)
  cases hlist : op.toList with
  | nil => rw [hlist] at hop; cases hop
  | cons d more =>
    have hlength : op.length = more.length + 1 := by rw [← String.length_toList, hlist, List.length_cons]
    rw [hlist, List.length_cons, List.take_succ_cons] at htake
    rw [htake, hlength, Nat.add_sub_cancel]

/-- A piece does not go on beyond its text. -/
theorem Piece.length_le (h : Piece c rest kind n) : n ≤ rest.length := by
  cases h with
  | lineFeed => exact Nat.zero_le _
  | blank => exact runLength_le _ rest
  | lineComment => exact runLength_le _ rest
  | blockComment hrest h =>
    cases rest with
    | nil => cases hrest
    | cons _ more => exact Nat.succ_le_succ (blockLength_le h).2
  | raw h => exact (rawLength_le h).2
  | literal _ _ h => exact (literalLength_le h).2
  | number h => exact numberLength_le h
  | word => exact runLength_le _ rest
  | operator h =>
    have := (prefix_of_operatorAt h).length_le
    rw [String.length_toList, List.length_cons] at this
    omega

/-- A character that is no break stands before a break only if it stands in the text before. -/
theorem head?_append_of_breaks {w u : List Char} {x : Char} (hu : breaks u = true)
    (hx : breakChars.contains x = false) : ((w ++ u).head? == some x) = (w.head? == some x) := by
  cases w with
  | cons c rest => rfl
  | nil =>
    cases u with
    | nil => rfl
    | cons c rest =>
      have hne : c ≠ x := by
        rintro rfl
        exact absurd hu (Bool.eq_false_iff.mp hx)
      simpa using hne

/-- A text without breaks begins a text up to a break or not at all. -/
theorem isPrefixOf_append {x w u : List Char} (hu : breaks u = true) (hx : x.all (!breakChars.contains ·) = true) :
    x.isPrefixOf (w ++ u) = x.isPrefixOf w := by
  induction x generalizing w with
  | nil => simp
  | cons d more ih =>
    rw [List.all_cons, Bool.and_eq_true, Bool.not_eq_true'] at hx
    cases w with
    | cons c rest => rw [List.cons_append, List.isPrefixOf, List.isPrefixOf, ih hx.2]
    | nil =>
      cases u with
      | nil => rfl
      | cons c rest =>
        have hne : (d == c) = false := by
          rw [beq_eq_false_iff_ne]
          rintro rfl
          exact absurd hu (Bool.eq_false_iff.mp hx.1)
        rw [List.nil_append]
        exact Bool.and_eq_false_imp.mpr fun h => absurd h (Bool.eq_false_iff.mp hne)

/-- The operator at the head of a text is the same before a break as at the end. -/
theorem operatorAt_append {c : Char} {w u : List Char} (hu : breaks u = true) :
    operatorAt (c :: (w ++ u)) = operatorAt (c :: w) := by
  have hoperators : operators.all (fun op => op.toList.all (!breakChars.contains ·)) = true := by decide
  rw [List.all_eq_true] at hoperators
  unfold operatorAt
  generalize operators = ops at hoperators
  induction ops with
  | nil => rfl
  | cons op rest ih =>
    rw [List.forall_mem_cons] at hoperators
    rw [List.find?_cons, List.find?_cons, ih hoperators.2, ← List.cons_append, isPrefixOf_append hu hoperators.1]

/-- Two choices by one condition give the same at once when they do by cases. -/
theorem ite_eq_iff_ite_eq {α : Type} {q : Prop} [Decidable q] {a a' b b' r : α} (ha : q → (a = r ↔ a' = r))
    (hb : ¬q → (b = r ↔ b' = r)) : (if q then a else b) = r ↔ (if q then a' else b') = r := by
  by_cases hq : q
  · rw [if_pos hq, if_pos hq]
    exact ha hq
  · rw [if_neg hq, if_neg hq]
    exact hb hq

/-- A piece that ends in a text, and before its end unless it is a token or the line ends there too, is there
the same whatever stands behind a break. -/
theorem classify_append {w u : List Char} (hu : breaks u = true) (hn : n ≤ w.length)
    (hkind : (∃ k, kind = .token k) ∨ n < w.length ∨ breaksLine u = true) :
    classify c (w ++ u) = .ok (kind, n) ↔ classify c w = .ok (kind, n) := by
  have hrun {p : Char → Bool} {k : LexemeKind} (hp : p '\n' = false) (hk : ∀ t, k ≠ .token t) :
      (.ok (k, runLength p (w ++ u)) : Except SourceCause (LexemeKind × Nat)) = .ok (kind, n) ↔
        (.ok (k, runLength p w) : Except SourceCause (LexemeKind × Nat)) = .ok (kind, n) := by
    simp only [Except.ok.injEq, Prod.mk.injEq]
    refine and_congr_right fun heq => ?_
    rcases hkind with ⟨t, rfl⟩ | hlt | hline
    · exact absurd heq (hk t)
    · exact runLength_append_of_lt hlt
    · rw [runLength_append_of_breaksLine hp hline]
  have hclosed {x : LexemeKind} {cause : SourceCause} {a b : Option Nat} (h : a = some n ↔ b = some n) :
      closing x cause 0 a = .ok (kind, n) ↔ closing x cause 0 b = .ok (kind, n) :=
    closing_iff (map_add_iff fun j hj => by rw [← hj] at h; exact h)
  obtain ⟨hword, hwordLe⟩ := local_runLength (p := Text.isWord) (by decide +kernel) w u hu
  have htake : (w ++ u).take (runLength Text.isWord w) = w.take (runLength Text.isWord w) :=
    List.take_append_of_le_length hwordLe
  unfold classify
  rw [head?_append_of_breaks hu (by decide), head?_append_of_breaks hu (by decide),
    numberLength_append c w hu, hword, operatorAt_append hu]
  simp only [htake]
  refine ite_eq_iff_ite_eq (fun _ => Iff.rfl) fun _ => ?_
  refine ite_eq_iff_ite_eq (fun _ => hrun (by decide) (by simp)) fun _ => ?_
  refine ite_eq_iff_ite_eq (fun _ => hrun (by decide) (by simp)) fun _ => ?_
  refine ite_eq_iff_ite_eq (fun hstar => ?_) fun _ => ?_
  · rw [Bool.and_eq_true, beq_iff_eq] at hstar
    cases w with
    | nil => exact absurd hstar.2 (by simp)
    | cons d more =>
      rw [List.length_cons] at hn
      exact closing_iff (k := 1) (map_add_iff fun j hj => blockLength_append (w := more) (by omega))
  refine ite_eq_iff_ite_eq (fun _ => hclosed (rawLength_append hn)) fun _ => ?_
  refine ite_eq_iff_ite_eq (fun _ => hclosed (literalLength_append hn)) fun _ => ?_
  exact ite_eq_iff_ite_eq (fun _ => hclosed (literalLength_append hn)) fun _ => Iff.rfl

/-- A token begins with no line feed. -/
theorem head_of_classify {k : TokenKind} (h : classify c rest = .ok (.token k, n)) : c ≠ '\n' := by
  rintro rfl
  rw [classify, if_pos rfl] at h
  cases h

/-- Only strings and runes hold line feeds among the tokens. -/
theorem not_mem_of_classify {k : TokenKind} (h : classify c rest = .ok (.token k, n)) (hstring : k ≠ .string)
    (hchar : k ≠ .char) : '\n' ∉ c :: rest.take n := by
  have hhead := head_of_classify h
  have hmem (hrest : '\n' ∉ rest.take n) : '\n' ∉ c :: rest.take n := fun hfeed =>
    (List.mem_cons.mp hfeed).elim (fun heq => hhead heq.symm) hrest
  cases piece_of_classify h with
  | raw => exact absurd rfl hstring
  | literal _ hkind => exact absurd hkind (not_or.mpr ⟨hstring, hchar⟩)
  | number hnumber =>
    have := (local_numberLength c).not_mem_take rest
    simp only [hnumber, Option.getD_some] at this
    exact hmem this
  | word => exact hmem ((local_runLength (by decide +kernel)).not_mem_take rest)
  | operator hop =>
    have hoperators : operators.all (fun op => op.toList.all (· != '\n')) = true := by decide
    have hno := List.all_eq_true.mp hoperators _ (List.mem_of_find?_eq_some hop)
    rw [← take_of_operatorAt hop]
    exact fun hfeed => absurd rfl (bne_iff_ne.mp (List.all_eq_true.mp hno _ hfeed))

/-- A token ends with no line feed. -/
theorem getLast?_of_classify {k : TokenKind} (h : classify c rest = .ok (.token k, n)) :
    (c :: rest.take n).getLast? ≠ some '\n' := by
  have hnone (hstring : k ≠ .string) (hchar : k ≠ .char) :
      (c :: rest.take n).getLast? ≠ some '\n' := fun hlast =>
    not_mem_of_classify h hstring hchar (List.mem_of_getLast? hlast)
  have hword (w : String) : wordKind w ≠ .string ∧ wordKind w ≠ .char := by
    rw [wordKind]
    split <;> decide
  have hoperator (op : String) : (if op == ";" then TokenKind.semi else .op) ≠ .string ∧
      (if op == ";" then TokenKind.semi else .op) ≠ .char := by
    split <;> decide
  cases piece_of_classify h with
  | raw hraw =>
    rw [List.getLast?_cons, getLast?_rawLength hraw]
    exact fun heq => absurd (show '\x60' = '\n' from Option.some.inj heq) (by decide)
  | literal hmark _ hliteral =>
    rw [List.getLast?_cons, getLast?_literalLength hliteral]
    exact fun heq => hmark (Option.some.inj heq)
  | number => exact hnone (by decide) (by decide)
  | word => exact hnone (hword _).1 (hword _).2
  | operator hop => exact hnone (hoperator _).1 (hoperator _).2

end Classify

section Scan

/-- The text of pieces. -/
def joined (ls : List Lexeme) : List Char := ls.flatMap (·.chars)

/-- The text of some pieces begins with the first one. -/
theorem joined_cons (l : Lexeme) (ls : List Lexeme) : joined (l :: ls) = l.chars ++ joined ls := List.flatMap_cons

/-- A text is cut into its first piece, as classified, and the pieces of what is left. -/
theorem scan_cons (c : Char) (rest : List Char) :
    scan (c :: rest) =
      match classify c rest with
      | .error cause => ([], some cause)
      | .ok (kind, n) => (⟨kind, c :: rest.take n⟩ :: (scan (rest.drop n)).1, (scan (rest.drop n)).2) :=
  scan.eq_def (c :: rest)

/-- The first piece of a text, and the pieces of what follows it. -/
theorem scan_eq_cons {cs : List Char} {l : Lexeme} {more : List Lexeme} {cause : Option SourceCause}
    (h : scan cs = (l :: more, cause)) : ∃ c rest n, cs = c :: rest ∧ classify c rest = .ok (l.kind, n) ∧
      l.chars = c :: rest.take n ∧ n ≤ rest.length ∧ scan (rest.drop n) = (more, cause) := by
  cases cs with
  | nil => rw [scan] at h; cases h
  | cons c rest =>
    rw [scan_cons] at h
    cases hclass : classify c rest with
    | error e => rw [hclass] at h; cases h
    | ok r =>
      rw [hclass] at h
      cases h
      exact ⟨c, rest, r.2, rfl, hclass, rfl, (piece_of_classify hclass).length_le, rfl⟩

/-- Only the empty text has no pieces. -/
theorem scan_eq_nil {cs : List Char} (h : scan cs = ([], none)) : cs = [] := by
  cases cs with
  | nil => rfl
  | cons c rest =>
    rw [scan_cons] at h
    cases hclass : classify c rest with
    | error e => rw [hclass] at h; cases h
    | ok r => rw [hclass] at h; cases h

/-- Every piece has been classified. -/
theorem exists_classify_of_mem {cs : List Char} {ls : List Lexeme} {cause : Option SourceCause}
    (h : scan cs = (ls, cause)) {l : Lexeme} (hl : l ∈ ls) :
    ∃ c rest n, classify c rest = .ok (l.kind, n) ∧ l.chars = c :: rest.take n := by
  induction ls generalizing cs with
  | nil => exact absurd hl List.not_mem_nil
  | cons first more ih =>
    obtain ⟨c, rest, n, -, hclass, hchars, -, hmore⟩ := scan_eq_cons h
    rcases List.mem_cons.mp hl with rfl | hl
    · exact ⟨c, rest, n, hclass, hchars⟩
    · exact ih hmore hl

/-- The pieces make up the text. -/
theorem joined_of_scan {cs : List Char} {ls : List Lexeme} (h : scan cs = (ls, none)) : joined ls = cs := by
  induction ls generalizing cs with
  | nil => rw [scan_eq_nil h]; rfl
  | cons l more ih =>
    obtain ⟨c, rest, n, rfl, -, hchars, -, hmore⟩ := scan_eq_cons h
    rw [joined_cons, ih hmore, hchars, List.cons_append, List.take_append_drop]

/-- The last pieces are those of the text they make up. -/
theorem scan_joined_of_append {cs : List Char} {front rest : List Lexeme} (h : scan cs = (front ++ rest, none)) :
    scan (joined rest) = (rest, none) := by
  induction front generalizing cs with
  | nil =>
    rw [List.nil_append] at h
    rwa [joined_of_scan h]
  | cons l more ih =>
    obtain ⟨_, _, _, -, -, -, -, hmore⟩ := scan_eq_cons h
    exact ih hmore

/-- The first piece stays when the text behind a later break is exchanged. -/
theorem scan_exchange_cons {l : Lexeme} {more : List Lexeme} {cause : Option SourceCause} {x u v : List Char}
    (hu : breaks u = true) (hv : breaks v = true) (hl : (∃ k, l.kind = .token k) ∨ x ≠ [])
    (h : scan (l.chars ++ (x ++ u)) = (l :: more, cause)) :
    scan (l.chars ++ (x ++ v)) = (l :: (scan (x ++ v)).1, (scan (x ++ v)).2) ∧ scan (x ++ u) = (more, cause) := by
  obtain ⟨c, rest, n, hcs, hclass, hchars, hle, hmore⟩ := scan_eq_cons h
  have hn : (rest.take n).length = n := List.length_take_of_le hle
  rw [hchars, List.cons_append] at hcs
  have hrest := (List.cons.inj hcs).2
  generalize rest.take n = w at hn hchars hrest
  subst hrest
  have hbound : n ≤ (w ++ x).length := by
    rw [List.length_append]
    omega
  have hbefore : (∃ k, l.kind = .token k) ∨ n < (w ++ x).length := by
    refine hl.imp_right fun hx => ?_
    have := List.length_pos_iff.mpr hx
    rw [List.length_append]
    omega
  rw [← List.append_assoc, classify_append hu hbound (hbefore.imp_right .inl),
    ← classify_append hv hbound (hbefore.imp_right .inl), List.append_assoc] at hclass
  rw [List.drop_append_of_le_length (Nat.le_of_eq hn.symm), List.drop_of_length_le (Nat.le_of_eq hn),
    List.nil_append] at hmore
  refine ⟨?_, hmore⟩
  rw [hchars, List.cons_append, scan_cons, hclass]
  dsimp only
  rw [List.take_append_of_le_length (Nat.le_of_eq hn.symm), List.take_of_length_le (Nat.le_of_eq hn),
    List.drop_append_of_le_length (Nat.le_of_eq hn.symm), List.drop_of_length_le (Nat.le_of_eq hn),
    List.nil_append, ← hchars]

/-- The text behind a token that ends at a break may be exchanged for another one that begins with a break. -/
theorem scan_exchange {front rest : List Lexeme} {t : Lexeme} {kind : TokenKind} {cause : Option SourceCause}
    {u v : List Char} (ht : t.kind = .token kind) (hu : breaks u = true) (hv : breaks v = true)
    (h : scan (joined (front ++ [t]) ++ u) = (front ++ t :: rest, cause)) :
    scan (joined (front ++ [t]) ++ v) = (front ++ t :: (scan v).1, (scan v).2) := by
  induction front with
  | nil =>
    rw [List.nil_append, joined, List.flatMap_singleton] at h ⊢
    exact (scan_exchange_cons (x := []) hu hv (.inl ⟨kind, ht⟩) h).1
  | cons l more ih =>
    have hcons (y : List Char) :
        joined (l :: more ++ [t]) ++ y = l.chars ++ (joined (more ++ [t]) ++ y) := by
      rw [List.cons_append, joined, List.flatMap_cons, List.append_assoc, joined]
    obtain ⟨c, rest', n, -, hchars⟩ := exists_classify_of_mem h (List.mem_append_right _ List.mem_cons_self)
    have hne : joined (more ++ [t]) ≠ [] := by
      rw [joined, List.flatMap_append, List.flatMap_singleton, hchars]
      simp
    rw [hcons] at h ⊢
    obtain ⟨hfirst, hmore⟩ := scan_exchange_cons hu hv (.inr hne) h
    rw [hfirst, ih hmore]
    rfl

end Scan

end GoIdiom.Lexeme
