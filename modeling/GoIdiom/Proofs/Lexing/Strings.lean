import GoIdiom.Proofs.Lexing.Positions
import GoIdiom.Text.Search

/-!
# The quotes of strings

A string token is written between two quotes of one kind, and what it holds is what stands between them.
-/

namespace GoIdiom

namespace Lexeme

variable {c : Char} {rest : List Char} {n : Nat}

/-- A string begins and ends with the same quote. -/
theorem quotes_of_classify (h : classify c rest = .ok (.token .string, n)) :
    (c = '"' ∨ c = '\x60') ∧ (rest.take n).getLast? = some c := by
  have hword (w : String) : wordKind w ≠ .string := by
    rw [wordKind]
    split <;> decide
  have hoperator (op : String) : (if op == ";" then TokenKind.semi else .op) ≠ .string := by
    split <;> decide
  have hkind {kind : TokenKind} {m : Nat} (hne : kind ≠ .string)
      (h : (.ok (.token kind, m) : Except SourceCause (LexemeKind × Nat)) = .ok (.token .string, n)) : False :=
    hne (LexemeKind.token.inj (Prod.mk.inj (Except.ok.inj h)).1)
  unfold classify at h
  split at h
  · cases h
  split at h
  · cases h
  split at h
  · cases h
  split at h
  · split at h <;> cases h
  split at h
  · next hraw =>
    split at h
    · next m hm =>
      cases h
      exact ⟨.inr hraw, hraw ▸ getLast?_rawLength hm⟩
    · cases h
  split at h
  · next hquote =>
    split at h
    · next m hm =>
      cases h
      exact ⟨.inl hquote, hquote ▸ getLast?_literalLength hm⟩
    · cases h
  split at h
  · split at h <;> cases h
  split at h
  · cases h
  split at h
  · exact (hkind (hword _) h).elim
  split at h
  · exact (hkind (hoperator _) h).elim
  · cases h

end Lexeme

/-- A placed token is a piece, unless a line break inserted it. -/
theorem Lexed.exists_of_mem_place {pos : Position} {last : Option Token} {ls : List Lexeme} {t : Token}
    (ht : t ∈ (place pos last ls).tokens) (hwritten : t.isInserted = false) :
    ∃ l ∈ ls, l.kind = .token t.kind ∧ t.text = l.text := by
  have hbreak {last : Option Token} {pos : Position} (ht : t ∈ lineBreak last pos) : False := by
    cases last with
    | none => exact absurd ht List.not_mem_nil
    | some u =>
      rw [lineBreak] at ht
      split at ht
      · rw [List.mem_singleton.mp ht] at hwritten
        cases hwritten.symm.trans (rfl : Token.isInserted ⟨.semi, "\n", pos⟩ = true)
      · exact absurd ht List.not_mem_nil
  induction ls generalizing pos last with
  | nil => exact (hbreak ht).elim
  | cons l rest ih =>
    rw [place_cons] at ht
    rcases List.mem_append.mp ht with ht | ht
    · rw [step] at ht
      split at ht
      · exact (hbreak ht).elim
      · exact absurd ht List.not_mem_nil
      · exact absurd ht List.not_mem_nil
      · dsimp only at ht
        split at ht
        · exact (hbreak ht).elim
        · exact absurd ht List.not_mem_nil
      · next kind hl =>
        obtain rfl := List.mem_singleton.mp ht
        exact ⟨l, List.mem_cons_self, hl, rfl⟩
    · obtain ⟨found, hfound, h⟩ := ih ht
      exact ⟨found, List.mem_cons_of_mem l hfound, h⟩

/-- The text without its first and its last character. -/
theorem Text.toList_inner (s : String) : (inner s).toList = s.toList.tail.dropLast := by
  rw [inner, dropLastChars, dropChars, String.toList_ofList, String.toList_ofList, String.length_ofList,
    List.dropLast_eq_take, List.drop_one]

/-- A string token is written between quotes. -/
theorem quotes_of_tokenize {source : String} {lexed : Lexed} (h : tokenize source = .ok lexed) {t : Token}
    (ht : t ∈ lexed.tokens) (hkind : t.kind = .string) :
    ∃ quote, (quote = '"' ∨ quote = '\x60') ∧
    t.text.toList = quote :: ((Text.inner t.text).toList ++ [quote]) := by
  obtain ⟨pieces, hscan, rfl⟩ := place_of_tokenize h
  have hwritten : t.isInserted = false := Token.isInserted_of_isSemi (by rw [Token.isSemi, hkind]; rfl)
  obtain ⟨l, hl, hstring, htext⟩ := Lexed.exists_of_mem_place ht hwritten
  obtain ⟨quote, rest, n, hclass, hchars⟩ := Lexeme.exists_classify_of_mem hscan hl
  rw [hstring, hkind] at hclass
  obtain ⟨hquote, hlast⟩ := Lexeme.quotes_of_classify hclass
  obtain ⟨body, hbody⟩ := List.getLast?_eq_some_iff.mp hlast
  have hall : t.text.toList = quote :: (body ++ [quote]) := by
    rw [htext, Lexeme.text, String.toList_ofList, hchars, hbody]
  refine ⟨quote, hquote, ?_⟩
  rw [Text.toList_inner, hall, List.tail_cons, List.dropLast_concat]

end GoIdiom
