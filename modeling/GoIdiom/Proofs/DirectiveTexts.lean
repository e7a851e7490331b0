import GoIdiom.Proofs.Directive
import GoIdiom.Proofs.Lexing.Positions

/-!
# Directives read back from their texts

A directive is written with its word, its rules between commas, a colon and its reason. Behind the word the first
comma and the first colon are separators, so a reason may hold as many of them as it likes, and the text of another
directive besides. Whatever such a directive says, it is read back from a line comment, and from a block comment
that its text does not end too early.
-/

namespace GoIdiom

namespace Text

variable {p : Char → Bool}

/-- Characters of the class around others are dropped. -/
theorem stripChars_append {front back : List Char} (hfront : ∀ c ∈ front, p c = true)
    (hback : ∀ c ∈ back, p c = true) (cs : List Char) :
    stripChars p (front ++ (cs ++ back)) = stripChars p cs := by
  simp only [stripChars, trimLeftChars, trimRightChars]
  rw [List.dropWhile_append_of_pos hfront, List.dropWhile_append]
  split
  · next hnil =>
    rw [List.isEmpty_iff] at hnil
    rw [hnil, List.dropWhile_eq_nil_iff.mpr hback]
  · have hreverse : ∀ c ∈ back.reverse, p c = true := fun c hc => hback c (List.mem_reverse.mp hc)
    rw [List.reverse_append, List.dropWhile_append_of_pos hreverse]

/-- Blanks around a trimmed text are trimmed. -/
theorem trim_append {s : String} (h : trim s = s) {front back : List Char}
    (hfront : ∀ c ∈ front, isBlank c = true) (hback : ∀ c ∈ back, isBlank c = true) :
    trim (String.ofList (front ++ (s.toList ++ back))) = s := by
  rw [trim, String.toList_ofList, stripChars_append hfront hback]
  exact h

/-- A text is split at its first separator. -/
theorem splitChars_append {separator : Char} {front : List Char} (h : separator ∉ front) (back : List Char) :
    splitChars separator (front ++ separator :: back) = front :: splitChars separator back := by
  rw [splitChars_append_separator, splitChars_of_not_mem h, List.singleton_append]

end Text

namespace Lexeme

/-- A block comment ends at the first end marker. -/
theorem blockLength_of_not_infix {body : List Char} (h : ¬['*', '/'] <:+: body) :
    blockLength (body ++ ['*', '/']) = some (body.length + 2) := by
  induction body with
  | nil => rfl
  | cons c rest ih =>
    rw [List.cons_append, blockLength.eq_def]
    split
    · next heq => exact absurd heq (List.cons_ne_nil _ _)
    · next tail heq =>
      obtain ⟨rfl, htail⟩ := List.cons.inj heq
      cases rest with
      | nil => cases htail
      | cons d more =>
        obtain ⟨rfl, -⟩ := List.cons.inj htail
        exact absurd ⟨[], more, rfl⟩ h
    · next heq =>
      obtain ⟨rfl, rfl⟩ := List.cons.inj heq
      rw [ih fun hin => h (hin.trans (List.suffix_cons _ _).isInfix)]
      rfl

/-- A text with the marker of line comments in front is one piece. -/
theorem scan_lineComment {body : List Char} (h : '\n' ∉ body) :
    scan ('/' :: '/' :: body) = ([⟨.lineComment, '/' :: '/' :: body⟩], none) := by
  have hrun : runLength (· != '\n') body = body.length := by simpa using @runLength_line body [] h rfl
  have hclass : classify '/' ('/' :: body) = .ok (.lineComment, body.length + 1) := by
    rw [← hrun]
    rfl
  rw [scan_cons, hclass]
  simp [scan]

/-- A text between the markers of block comments is one piece when it has no end marker of its own. -/
theorem scan_blockComment {body : List Char} (h : ¬['*', '/'] <:+: body) :
    scan ('/' :: '*' :: (body ++ ['*', '/'])) =
      ([⟨.blockComment, '/' :: '*' :: (body ++ ['*', '/'])⟩], none) := by
  have hclass : classify '/' ('*' :: (body ++ ['*', '/'])) = .ok (.blockComment, body.length + 2 + 1) := by
    have hlength := blockLength_of_not_infix h
    simp [classify, isInlineBlank, hlength]
  rw [scan_cons, hclass]
  simp [scan]

end Lexeme

/-- A text that is a line comment is nothing besides. -/
theorem tokenize_lineComment {text : String} {body : List Char} (htext : text.toList = '/' :: '/' :: body)
    (h : '\n' ∉ body) : tokenize text = .ok ⟨[], [⟨text, .start, 1, false⟩]⟩ := by
  have hplace : Lexed.place .start none [⟨.lineComment, '/' :: '/' :: body⟩] =
      ⟨[], [⟨String.ofList ('/' :: '/' :: body), .start, 1, false⟩]⟩ := rfl
  obtain rfl : text = String.ofList ('/' :: '/' :: body) := by rw [← htext, String.ofList_toList]
  rw [tokenize, htext, Lexeme.scan_lineComment h]
  exact congrArg Except.ok hplace

/-- A text that is a block comment in one line is nothing besides. -/
theorem tokenize_blockComment {text : String} {body : List Char}
    (htext : text.toList = '/' :: '*' :: (body ++ ['*', '/'])) (h : ¬['*', '/'] <:+: body)
    (hline : '\n' ∉ body) : tokenize text = .ok ⟨[], [⟨text, .start, 1, false⟩]⟩ := by
  have hfeed : '\n' ∉ '/' :: '*' :: (body ++ ['*', '/']) := by simp [hline]
  have hplace : Lexed.place .start none [⟨.blockComment, '/' :: '*' :: (body ++ ['*', '/'])⟩] =
      ⟨[], [⟨String.ofList ('/' :: '*' :: (body ++ ['*', '/'])), .start, 1, false⟩]⟩ := by
    have hnone : ('/' :: '*' :: (body ++ ['*', '/'])).contains '\n' = false := by
      rw [← Bool.not_eq_true, List.contains_iff_mem]
      exact hfeed
    have hpos := congrArg Position.line (Position.after_of_not_mem (p := .start) hfeed)
    have hend : (Lexeme.endPos ⟨.blockComment, '/' :: '*' :: (body ++ ['*', '/'])⟩ .start).line = 1 := hpos
    simp only [Lexed.place, hnone, hend, Lexed.lineBreak, Lexeme.text, Option.isSome_none, Bool.false_eq_true,
      if_false]
  obtain rfl : text = String.ofList ('/' :: '*' :: (body ++ ['*', '/'])) := by rw [← htext, String.ofList_toList]
  rw [tokenize, htext, Lexeme.scan_blockComment h]
  exact congrArg Except.ok hplace

namespace Comment

variable {c : Comment} {body : List Char}

/-- The text of a line comment behind its marker. -/
theorem body_line (h : c.text.toList = '/' :: '/' :: body) : c.body = String.ofList body := by
  rw [Comment.body, h]
  rfl

/-- The text of a block comment between its markers. -/
theorem body_block (h : c.text.toList = '/' :: '*' :: (body ++ ['*', '/'])) : c.body = String.ofList body := by
  have hlength : ('/' :: '*' :: (body ++ ['*', '/'])).length - 4 = body.length := by simp
  rw [Comment.body, h]
  change String.ofList ((body ++ ['*', '/']).take (('/' :: '*' :: (body ++ ['*', '/'])).length - 4)) = _
  rw [hlength, List.take_left]

end Comment

namespace Directive

variable {d : Directive} {c : Comment} {blanks : List Char}

/-- The name of a rule, or the wildcard, in the list of a directive. -/
structure IsListed (r : String) : Prop where
  trimmed : Text.trim r = r
  given : r ≠ ""
  comma : ',' ∉ r.toList
  colon : ':' ∉ r.toList
  lineFeed : '\n' ∉ r.toList

/-- A directive that can be written in a line: it lists rules, and its reason is trimmed or empty. -/
structure IsWritable (d : Directive) : Prop where
  given : d.rules ≠ []
  listed : ∀ r ∈ d.rules, IsListed r
  trimmed : Text.trim d.justification = d.justification
  lineFeed : '\n' ∉ d.justification.toList

/-- The text of a directive between the markers of its comment. -/
def text (d : Directive) : String :=
  " " ++ marker ++ d.kind.word ++ " " ++ Text.joinWith ", " d.rules ++ ": " ++ d.justification

/-- The characters that list the rules. -/
def listChars (rules : List String) : List Char := (Text.joinWith ", " rules).toList

/-- One more rule in front of others. -/
theorem listChars_cons {r : String} {rules : List String} (h : rules ≠ []) :
    listChars (r :: rules) = r.toList ++ ',' :: ' ' :: listChars rules := by
  rw [listChars, Text.joinWith, String.intercalate_cons_of_ne_nil h, String.toList_append, String.toList_append,
    List.append_assoc]
  rfl

/-- A character in a list of rules is a separator or stands in a rule. -/
theorem mem_listChars {rules : List String} {x : Char} (h : x ∈ listChars rules) :
    x = ',' ∨ x = ' ' ∨ ∃ r ∈ rules, x ∈ r.toList := by
  induction rules with
  | nil => simp [listChars, Text.joinWith] at h
  | cons r rest ih =>
    by_cases hrest : rest = []
    · subst hrest
      rw [listChars, Text.joinWith, String.intercalate_singleton] at h
      exact .inr (.inr ⟨r, List.mem_cons_self, h⟩)
    · rw [listChars_cons hrest, List.mem_append, List.mem_cons, List.mem_cons] at h
      rcases h with h | h | h | h
      · exact .inr (.inr ⟨r, List.mem_cons_self, h⟩)
      · exact .inl h
      · exact .inr (.inl h)
      · rcases ih h with h | h | ⟨r', hr', h⟩
        · exact .inl h
        · exact .inr (.inl h)
        · exact .inr (.inr ⟨r', List.mem_cons_of_mem _ hr', h⟩)

/-- Rules between commas are split into the rules. -/
theorem splitChars_listChars {rules : List String} (hne : rules ≠ []) (h : ∀ r ∈ rules, ',' ∉ r.toList) :
    Text.splitChars ',' (' ' :: listChars rules) = rules.map fun r => ' ' :: r.toList := by
  induction rules with
  | nil => exact absurd rfl hne
  | cons r rest ih =>
    obtain ⟨hr, hrest⟩ := List.forall_mem_cons.mp h
    have hfront : ',' ∉ ' ' :: r.toList := by
      rw [List.mem_cons, not_or]
      exact ⟨by decide, hr⟩
    by_cases hnil : rest = []
    · subst hnil
      rw [listChars, Text.joinWith, String.intercalate_singleton, Text.splitChars_of_not_mem hfront]
      rfl
    · rw [listChars_cons hnil, ← List.cons_append, Text.splitChars_append hfront, ih hnil hrest]
      rfl

/-- Listed rules are read back from their list. -/
theorem ruleNames_listChars {rules : List String} (hne : rules ≠ []) (h : ∀ r ∈ rules, IsListed r) :
    ruleNames (String.ofList (' ' :: listChars rules)) = rules := by
  have htrim : ∀ r ∈ rules, ((Text.trim ∘ String.ofList) ∘ fun r => ' ' :: r.toList) r = id r := by
    intro r hr
    simp only [Function.comp_apply, Text.trim_blank_cons, String.ofList_toList, (h r hr).trimmed, id_eq]
  have hkeep : ∀ r ∈ rules, (r != "") = true := fun r hr => bne_iff_ne.mpr (h r hr).given
  rw [ruleNames, Text.splitOn, String.toList_ofList, splitChars_listChars hne fun r hr => (h r hr).comma,
    List.map_map, List.map_map, List.map_congr_left htrim, List.map_id, List.filter_eq_self.mpr hkeep]

/-- The characters of the text, with others behind them. -/
theorem toList_text (d : Directive) (cs : List Char) : d.text.toList ++ cs =
    ' ' :: marker.toList ++ d.kind.word.toList ++
      ((' ' :: listChars d.rules) ++ ':' :: ([' '] ++ (d.justification.toList ++ cs))) := by
  have hblank : " ".toList = [' '] := rfl
  have hcolon : ": ".toList = [':', ' '] := rfl
  simp only [text, listChars, String.toList_append, hblank, hcolon, List.append_assoc, List.cons_append,
    List.nil_append]

/-- Behind the marker and the word of a directive stand its rules and its reason. -/
theorem ofBody?_word (kind : DirectiveKind) (cs : List Char) :
    ofBody? (String.ofList (' ' :: marker.toList ++ kind.word.toList ++ ' ' :: cs)) =
      some (ofRest kind (String.ofList (' ' :: cs))) := by
  rw [ofBody?, String.toList_ofList]
  cases kind <;> rfl

/-- A directive is read back from its text, with blanks behind it or without. -/
theorem ofBody?_text (hd : d.IsWritable) (hblanks : ∀ x ∈ blanks, Text.isBlank x = true) :
    ofBody? (String.ofList (d.text.toList ++ blanks)) = some d := by
  have hcolon : ':' ∉ ' ' :: listChars d.rules := by
    rw [List.mem_cons, not_or]
    refine ⟨by decide, fun hmem => ?_⟩
    rcases mem_listChars hmem with h | h | ⟨r, hr, h⟩
    · exact absurd h (by decide)
    · exact absurd h (by decide)
    · exact (hd.listed r hr).colon h
  have hfront : ∀ x ∈ [' '], Text.isBlank x = true := List.forall_mem_singleton.mpr rfl
  have hreason := Text.trim_append hd.trimmed hfront hblanks
  have hrules := ruleNames_listChars hd.given hd.listed
  have hgiven : d.rules.isEmpty = false := by
    rw [List.isEmpty_eq_false_iff]
    exact hd.given
  rw [toList_text]
  refine (ofBody?_word d.kind (listChars d.rules ++ ':' :: ([' '] ++ (d.justification.toList ++ blanks)))).trans ?_
  rw [ofRest, ← List.cons_append, Text.cutFirst_append hcolon, Option.getD_some]
  simp only [hrules, hreason, hgiven, Bool.false_eq_true, if_false]

/-- The text stays in its line. -/
theorem lineFeed_not_mem_text (hd : d.IsWritable) : '\n' ∉ d.text.toList := by
  have htext := toList_text d []
  rw [List.append_nil] at htext
  rw [htext]
  simp only [List.mem_append, List.mem_cons, List.not_mem_nil, not_or]
  have hword : '\n' ∉ d.kind.word.toList := by cases d.kind <;> decide
  have hlist : '\n' ∉ listChars d.rules := by
    intro hmem
    rcases mem_listChars hmem with h | h | ⟨r, hr, h⟩
    · exact absurd h (by decide)
    · exact absurd h (by decide)
    · exact (hd.listed r hr).lineFeed h
  exact ⟨⟨⟨by decide, by decide⟩, hword⟩, ⟨by decide, hlist⟩, by decide, ⟨by decide, not_false⟩,
    hd.lineFeed, not_false⟩

/-- Blanks hold no end marker, and bring none about. -/
theorem not_infix_append {cs : List Char} (h : ¬['*', '/'] <:+: cs)
    (hblanks : ∀ x ∈ blanks, Text.isBlank x = true) : ¬['*', '/'] <:+: cs ++ blanks := by
  have hslash : '/' ∉ blanks := fun hmem => absurd (hblanks _ hmem) (by decide)
  rintro ⟨front, back, hsplit⟩
  rcases List.append_eq_append_iff.mp hsplit with ⟨more, hcs, -⟩ | ⟨more, hfront, hmore⟩
  · exact h ⟨front, more, hcs.symm⟩
  · cases more using List.reverseRecOn with
    | nil =>
      rw [List.append_nil] at hfront
      exact h ⟨front, [], by rw [List.append_nil, hfront]⟩
    | append_singleton more x =>
      -- The marker ends among the blanks, so its slash is one of them.
      have hlast := congrArg List.getLast? hfront
      simp only [← List.append_assoc, List.getLast?_append, List.getLast?_cons_cons, List.getLast?_singleton,
        Option.some_or, Option.some.injEq] at hlast
      apply hslash
      rw [hmore, hlast]
      simp

/-! ## Directives in comments -/

/-- The suppression that a directive makes when it stands alone among the comments, by its kind. A directive for a
line is for the line it stands on or before, one that begins a block reaches to the last line, one for a file to its
end. -/
structure StandsIn (d : Directive) (c : Comment) : Prop where
  read : ofComment? c = some d
  line (hkind : d.kind = .line) (path : String) (codeLines : List Nat) (lastLine : Int) :
    (Suppression.ofComments path codeLines lastLine [c]).suppressions =
      [d.suppression path c (Suppression.lineOf (codeLines.mergeSort (· ≤ ·)) c)
        (Suppression.lineOf (codeLines.mergeSort (· ≤ ·)) c)]
  blockStart (hkind : d.kind = .blockStart) (path : String) (codeLines : List Nat) (lastLine : Int) :
    (Suppression.ofComments path codeLines lastLine [c]).suppressions = [d.suppression path c c.pos.line lastLine]
  file (hkind : d.kind = .file) (path : String) (codeLines : List Nat) (lastLine : Int) :
    (Suppression.ofComments path codeLines lastLine [c]).suppressions =
      [d.suppression path c 1 Suppression.endOfFile]

/-- A directive that is read in a comment makes its suppression there. -/
theorem StandsIn.of_read (h : ofComment? c = some d) : StandsIn d c where
  read := h
  line hkind path codeLines lastLine := by
    rw [Suppression.ofComments, Suppression.scan_cons_line h hkind]
    simp [Suppression.scan, Suppression.ofOpenBlocks, Suppression.Found.add]
  blockStart hkind path codeLines lastLine := by
    simp [Suppression.ofComments, Suppression.scan, h, hkind, Suppression.ofOpenBlocks, Suppression.Found.add,
      Suppression.Found.remark]
  file hkind path codeLines lastLine := by
    simp [Suppression.ofComments, Suppression.scan, h, hkind, Suppression.ofOpenBlocks, Suppression.Found.add]

/-- A text that is one comment, in which a directive is read wherever the comment stands. -/
structure IsReadFrom (d : Directive) (text : String) : Prop where
  tokenize : tokenize text = .ok ⟨[], [⟨text, .start, 1, false⟩]⟩
  standsIn (c : Comment) (hc : c.text = text) : StandsIn d c

/-- A directive is read from a line comment with its text, with blanks behind it or without. -/
theorem isReadFrom_lineComment (hd : d.IsWritable) (hblanks : ∀ x ∈ blanks, Text.isBlank x = true)
    (hline : '\n' ∉ blanks) : IsReadFrom d ("//" ++ d.text ++ String.ofList blanks) := by
  have hchars : ("//" ++ d.text ++ String.ofList blanks).toList = '/' :: '/' :: (d.text.toList ++ blanks) := by simp
  have hfeed : '\n' ∉ d.text.toList ++ blanks := by
    rw [List.mem_append, not_or]
    exact ⟨lineFeed_not_mem_text hd, hline⟩
  refine ⟨tokenize_lineComment hchars hfeed, fun c hc => .of_read ?_⟩
  rw [← hc] at hchars
  rw [ofComment?, Comment.body_line hchars]
  exact ofBody?_text hd hblanks

/-- A directive is read from a block comment with its text, with blanks behind it or without. -/
theorem isReadFrom_blockComment (hd : d.IsWritable) (hend : ¬['*', '/'] <:+: d.text.toList)
    (hblanks : ∀ x ∈ blanks, Text.isBlank x = true) (hline : '\n' ∉ blanks) :
    IsReadFrom d ("/*" ++ d.text ++ String.ofList blanks ++ "*/") := by
  have hchars : ("/*" ++ d.text ++ String.ofList blanks ++ "*/").toList =
      '/' :: '*' :: (d.text.toList ++ blanks ++ ['*', '/']) := by simp
  have hfeed : '\n' ∉ d.text.toList ++ blanks := by
    rw [List.mem_append, not_or]
    exact ⟨lineFeed_not_mem_text hd, hline⟩
  refine ⟨tokenize_blockComment hchars (not_infix_append hend hblanks) hfeed, fun c hc => .of_read ?_⟩
  rw [← hc] at hchars
  rw [ofComment?, Comment.body_block hchars]
  exact ofBody?_text hd hblanks

/-- Directives are read back from their texts. -/
theorem isReadFrom_text (hd : d.IsWritable) (hblanks : ∀ x ∈ blanks, Text.isBlank x = true)
    (hline : '\n' ∉ blanks) :
    IsReadFrom d ("//" ++ d.text ++ String.ofList blanks) ∧
      (¬['*', '/'] <:+: d.text.toList → IsReadFrom d ("/*" ++ d.text ++ String.ofList blanks ++ "*/")) :=
  ⟨isReadFrom_lineComment hd hblanks hline, fun hend => isReadFrom_blockComment hd hend hblanks hline⟩

/-- Two rules with a reason that holds the text of another directive are read back, from either comment. -/
theorem isReadFrom_text_nested :
    IsReadFrom ⟨.file, ["a-rule", "*"], "see gostyle:ignore-end x, y: z"⟩
        "// gostyle:ignore-file a-rule, *: see gostyle:ignore-end x, y: z" ∧
      IsReadFrom ⟨.file, ["a-rule", "*"], "see gostyle:ignore-end x, y: z"⟩
        "/* gostyle:ignore-file a-rule, *: see gostyle:ignore-end x, y: z */" := by
  have hd : IsWritable ⟨.file, ["a-rule", "*"], "see gostyle:ignore-end x, y: z"⟩ := by
    refine ⟨by decide, ?_, by decide +kernel, by decide +kernel⟩
    intro r hr
    rcases List.mem_cons.mp hr with rfl | hr
    · constructor <;> decide +kernel
    · obtain rfl := List.mem_singleton.mp hr
      constructor <;> decide +kernel
  have hline := @isReadFrom_text _ [] hd (by simp) (by simp)
  have hblock := @isReadFrom_text _ [' '] hd (List.forall_mem_singleton.mpr rfl) (by decide)
  exact ⟨hline.1, hblock.2 (by decide +kernel)⟩

end Directive

end GoIdiom
