import GoIdiom.Proofs.Lexing.Comment
import GoIdiom.Proofs.Outcome
import GoIdiom.Proofs.Relocation.Declaration
import GoIdiom.SourceFile

/-!
# Files with a comment more

A file with a comment behind the last token of a line has the constructs, the lines and the other comments
of the file without it.
-/

namespace GoIdiom

namespace Relocation

variable (path : String)

/-- A token that is not moved stays as it is. -/
theorem token_still : (still path).token = id := by
  funext t
  have hpos : (if t.isInserted then id t.pos else id t.pos) = t.pos := ite_self _
  rw [token, still, hpos, id]

/-- Settling the semicolons that line breaks stand for moves no construct. -/
theorem construct_settled : (settled path).construct = (still path).construct := by
  funext c
  rfl

end Relocation

namespace SourceFile

variable {source path : String} {ts us : List Token}

/-- A package with its constructs settled. -/
def settled (path : String) (read : String × List Construct) : String × List Construct :=
  (read.1, read.2.map (Relocation.settled path).construct)

/-- Settled constructs are as they were read. -/
theorem settled_readTokens (h : Token.laid true ts = true) :
    (readTokens path ts).toOption.map (settled path) = (readTokens path ts).toOption := by
  have hmoved := (Relocation.moved_readTokens (Relocation.still path) ts h rfl).toOption_eq
  rw [Relocation.token_still, List.map_id] at hmoved
  have hsettled : settled path = fun found => (found.1, found.2.map (Relocation.still path).construct) := by
    funext found
    rw [settled, Relocation.construct_settled]
  rw [hsettled]
  exact hmoved.symm

/-- Tokens whose inserted semicolons have no columns are read as those with columns. -/
theorem readTokens_map_settled (h : Token.laid true ts = true) :
    (readTokens path (ts.map (Relocation.settled path).token)).toOption = (readTokens path ts).toOption := by
  rw [← settled_readTokens h]
  exact (Relocation.moved_readTokens (Relocation.settled path) ts h rfl).toOption_eq

/-- What tokens are read as does not depend on the columns of inserted semicolons. -/
theorem readTokens_settled (hts : Token.laid true ts = true) (hus : Token.laid true us = true)
    (h : us.map (Relocation.settled path).token = ts.map (Relocation.settled path).token) :
    (readTokens path us).toOption = (readTokens path ts).toOption := by
  rw [← readTokens_map_settled hus, h, readTokens_map_settled hts]

/-- The lines that hold code. -/
def codeLinesOf (ts : List Token) : List Nat := (ts.filter (!·.isSemi)).map (·.line)

/-- Moving inserted semicolons in their lines leaves the lines that hold code. -/
theorem codeLinesOf_settled (path : String) (ts : List Token) :
    codeLinesOf (ts.map (Relocation.settled path).token) = codeLinesOf ts := by
  rw [codeLinesOf, codeLinesOf, List.filter_map, List.map_map]
  congr 1
  funext t
  exact Relocation.line_token _ t

/-- A text in the middle of a line changes no number of lines. -/
theorem countLines_insert {front text rest : List Char} (hfront : front.getLast?.any (· != '\n') = true)
    (htext : '\n' ∉ text) (hne : text ≠ []) :
    countLines (front ++ (text ++ rest)) = countLines (front ++ rest) := by
  have hlast : (front ++ (text ++ rest)).getLast?.any (· != '\n') = (front ++ rest).getLast?.any (· != '\n') := by
    rw [List.getLast?_append, List.getLast?_append, List.getLast?_append]
    cases rest.getLast? with
    | some c => rfl
    | none =>
      have hc : text.getLast hne ≠ '\n' := fun hc => htext (hc ▸ List.getLast_mem hne)
      rw [List.getLast?_eq_some_getLast hne, Option.none_or, Option.some_or, Option.none_or, hfront]
      exact bne_iff_ne.mpr hc
  rw [countLines, countLines, hlast, List.count_append, List.count_append, List.count_append,
    List.count_eq_zero.mpr htext, Nat.zero_add]

/-- The file of the tokens, comments and constructs of a text. -/
def ofParts (source path : String) (lexed : Lexed) (package : String) (constructs : List Construct) : SourceFile :=
  let lineCount := countLines source.toList
  ⟨path, ⟨path, .start, max lineCount 1, .file lineCount (isTestPath path) package⟩ :: constructs,
    lexed.comments, package, lineCount, isTestPath path, codeLinesOf lexed.tokens⟩

/-- A file is read when its text is cut into tokens and these are read. -/
theorem read_eq_ok_iff {file : SourceFile} : read source path = .ok file ↔
    ∃ lexed package constructs, tokenize source = .ok lexed ∧
      readTokens path lexed.tokens = .ok (package, constructs) ∧
      file = ofParts source path lexed package constructs := by
  rw [read]
  cases tokenize source with
  | error e =>
    constructor
    · intro h
      cases h
    · rintro ⟨lexed, package, constructs, h, -⟩
      cases h
  | ok lexed =>
    change (readTokens path lexed.tokens >>= fun found =>
      .ok (ofParts source path lexed found.1 found.2)) = _ ↔ _
    constructor
    · intro h
      cases hread : readTokens path lexed.tokens with
      | error e =>
        rw [hread] at h
        cases h
      | ok found =>
        rw [hread] at h
        exact ⟨lexed, found.1, found.2, rfl, hread, (Except.ok.inj h).symm⟩
    · rintro ⟨_, package, constructs, ⟨⟩, hread, rfl⟩
      rw [hread]
      rfl

/-- The tokens of a text are laid. -/
theorem laid_of_tokenize {lexed : Lexed} (h : tokenize source = .ok lexed) :
    Token.laid true lexed.tokens = true := by
  rw [tokenize] at h
  split at h
  · next pieces hscan =>
    obtain rfl := Except.ok.inj h
    exact Token.laid_mono (Lexed.laid_place .start none fun l hl kind => Lexeme.head?_of_token hscan hl)
  · cases h

/-- The constructs of a file are in that file. -/
theorem path_of_read {file : SourceFile} (h : read source path = .ok file) :
    file.path = path ∧ ∀ c ∈ file.constructs, c.path = path := by
  obtain ⟨lexed, package, constructs, hlexed, hread, rfl⟩ := read_eq_ok_iff.mp h
  have hsettled : (readTokens path lexed.tokens).toOption.map (settled path) = _ :=
    settled_readTokens (laid_of_tokenize hlexed)
  rw [hread] at hsettled
  have hconstructs : constructs.map (Relocation.settled path).construct = constructs :=
    (Prod.mk.inj (Option.some.inj hsettled)).2
  refine ⟨rfl, fun c hc => ?_⟩
  rcases List.mem_cons.mp hc with rfl | hc
  · rfl
  · rw [← hconstructs] at hc
    obtain ⟨d, -, rfl⟩ := List.mem_map.mp hc
    rfl

section Insert

open Lexeme

variable {front rest : List Lexeme} {t : Lexeme} {body : List Char} {kind : TokenKind}

/-- A text of pieces with a comment behind the piece `t`. -/
def commented (front : List Lexeme) (t : Lexeme) (rest : List Lexeme) (body : List Char) : String :=
  String.ofList (joined (front ++ [t]) ++ (' ' :: '/' :: '/' :: body ++ joined rest))

/-- A comment behind the last token of a line moves inserted semicolons in their lines at most. -/
theorem tokenize_commented (h : scan source.toList = (front ++ t :: rest, none)) (ht : t.kind = .token kind)
    (hends : endsLine rest = true) (hbody : '\n' ∉ body) (path : String) :
    ∃ a b, tokenize source = .ok a ∧ tokenize (commented front t rest body) = .ok b ∧
      Lexed.Adds path (Lexed.trailing body rest (endOf .start (front ++ [t]))) a b := by
  have hscan := scan_insert h ht hends hbody
  have hfeed : ∀ l ∈ (rest.dropWhile isBlankPiece).head?, l.kind = .lineFeed ∧ l.chars = ['\n'] := by
    intro l hl
    rw [endsLine, hl, Option.all_some, beq_iff_eq] at hends
    have hmem : l ∈ rest := (List.dropWhile_sublist _).subset (List.mem_of_mem_head? hl)
    exact ⟨hends, chars_of_lineFeed h (List.mem_append_right _ (List.mem_cons_of_mem _ hmem)) hends⟩
  refine ⟨_, _, ?_, ?_, Lexed.adds_insert path .start none front body ht hfeed⟩
  · rw [tokenize, h]
  · rw [tokenize, commented, String.toList_ofList, hscan]

/-- A comment behind the last token of a line is all that a file has more. -/
theorem read_commented {file : SourceFile} (hfile : read source path = .ok file)
    (h : scan source.toList = (front ++ t :: rest, none)) (ht : t.kind = .token kind) (hends : endsLine rest = true)
    (hbody : '\n' ∉ body) :
    ∃ before after, file.comments = before ++ after ∧
      read (commented front t rest body) path = .ok
        { file with comments := before ++ Lexed.trailing body rest (endOf .start (front ++ [t])) :: after } := by
  obtain ⟨a, b, ha, hb, htokens, before, after, hbefore, hafter⟩ := tokenize_commented h ht hends hbody path
  obtain ⟨lexed, package, constructs, hlexed, hread, rfl⟩ := read_eq_ok_iff.mp hfile
  obtain rfl := Except.ok.inj (ha.symm.trans hlexed)
  have hread' : readTokens path b.tokens = .ok (package, constructs) :=
    Except.eq_ok_of_toOption_eq (readTokens_settled (laid_of_tokenize ha) (laid_of_tokenize hb) htokens) hread
  have hlines : codeLinesOf b.tokens = codeLinesOf a.tokens := by
    rw [← codeLinesOf_settled path, htokens, codeLinesOf_settled]
  have hsource : source.toList = joined (front ++ [t]) ++ joined rest := by
    apply eq_joined
    rwa [List.append_assoc, List.singleton_append]
  -- Where nothing follows, one text ends with the token and the other with the comment: neither with a line feed.
  have hcount : countLines (commented front t rest body).toList = countLines source.toList := by
    have htext : '\n' ∉ ' ' :: '/' :: '/' :: body := by
      simp only [List.mem_cons, not_or]
      exact ⟨by decide, by decide, by decide, hbody⟩
    rw [hsource, commented, String.toList_ofList]
    exact countLines_insert (getLast?_joined h ht) htext (List.cons_ne_nil _ _)
  refine ⟨before, after, hbefore, read_eq_ok_iff.mpr ⟨b, package, constructs, hb, hread', ?_⟩⟩
  rw [ofParts, ofParts, hcount, hlines, hafter]

end Insert

end SourceFile

end GoIdiom
