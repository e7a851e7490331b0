import GoIdiom.Token
import Mathlib.Algebra.Order.Ring.Int
import Mathlib.Data.List.Infix
import Mathlib.Order.Bounds.Basic

/-!
# Nested braces around a point

In a text whose tokens are marked by the levels that they open and close, the levels around a point are those that
have been opened in front of it and not been closed. A level may be one that a walk enters or one that it does not,
and a count may be of all of them or of some.
-/

namespace GoIdiom.Nesting

/-- What a token does to the levels around a point: the braces of a level open and close it. -/
inductive Mark where
  | none
  | opens (entered : Bool)
  | closes (entered : Bool)
deriving DecidableEq, Repr

namespace Mark

/-- By how much the number of levels that count changes. -/
def step (counts : Bool → Bool) : Mark → Int
  | none => 0
  | opens entered => if counts entered then 1 else 0
  | closes entered => if counts entered then -1 else 0

/-- The mark of a level that is not entered. -/
def hide : Mark → Mark
  | none => none
  | opens _ => opens false
  | closes _ => closes false

end Mark

/-- A text with the marks of its tokens. -/
abbrev Marked := List (Token × Mark)

/-- The tokens of a text. -/
def tokens (ms : Marked) : List Token := ms.map Prod.fst

/-- Tokens that are no braces of a level. -/
def plainly (ts : List Token) : Marked := ts.map fun t => (t, .none)

/-- A text in the braces of a level. -/
def braced (entered : Bool) (opener : Token) (inner : Marked) (closer : Token) : Marked :=
  (opener, .opens entered) :: (inner ++ [(closer, .closes entered)])

/-- The same text when none of its levels is entered. -/
def hidden (ms : Marked) : Marked := ms.map fun m => (m.1, m.2.hide)

/-- The number of levels that count around the point behind the front of a text. -/
def around (counts : Bool → Bool) (front : Marked) : Int := (front.map fun m => m.2.step counts).sum

/-- The numbers of levels that count around the points of a text. -/
def depths (counts : Bool → Bool) (ms : Marked) : Set Int :=
  {n | ∃ front, front <+: ms ∧ around counts front = n}

/-- The depth of a text is found among its points. -/
theorem isGreatest_of_inits {counts : Bool → Bool} {ms : Marked} {n : Int} (count : Nat)
    (hfront : around counts (ms.take count) = n) (hall : ∀ front ∈ ms.inits, around counts front ≤ n) :
    IsGreatest (depths counts ms) n := by
  refine ⟨⟨ms.take count, List.take_prefix _ _, hfront⟩, ?_⟩
  rintro _ ⟨front, hprefix, rfl⟩
  exact hall front ((List.mem_inits _ _).mpr hprefix)

/-- Whether every level counts. -/
abbrev every : Bool → Bool := fun _ => true

/-- Whether a level counts that is entered. -/
abbrev entered : Bool → Bool := id

/-- Whether a level counts that is not entered. -/
abbrev passed : Bool → Bool := not

variable {counts : Bool → Bool} {m n : Nat} {ms ns front : Marked}

/-! ## Tokens and marks of a text -/

section Tokens

variable (t : Token) (mark : Mark) (ms ns : Marked)

/-- No marked tokens are no tokens. -/
@[simp] theorem tokens_nil : tokens [] = [] := rfl

/-- The tokens of a marked text begin with its first one. -/
@[simp] theorem tokens_cons : tokens ((t, mark) :: ms) = t :: tokens ms := rfl

/-- The tokens of two texts in a row are those of each. -/
@[simp] theorem tokens_append : tokens (ms ++ ns) = tokens ms ++ tokens ns := List.map_append

/-- Tokens that are no braces of a level are the tokens they were. -/
@[simp] theorem tokens_plainly (ts : List Token) : tokens (plainly ts) = ts := by
  induction ts with
  | nil => rfl
  | cons t ts ih => exact congrArg (t :: ·) ih

/-- The braces of a level stand around the tokens within. -/
@[simp] theorem tokens_braced (level : Bool) (opener closer : Token) :
    tokens (braced level opener ms closer) = opener :: (tokens ms ++ [closer]) := by
  simp [braced]

/-- Leaving levels unentered changes no token. -/
@[simp] theorem tokens_hidden : tokens (hidden ms) = tokens ms := by
  induction ms with
  | nil => rfl
  | cons m ms ih => exact congrArg (m.1 :: ·) ih

/-- Before a text there is no level around. -/
@[simp] theorem around_nil : around counts [] = 0 := rfl

/-- The first token opens or closes its level, the others theirs. -/
@[simp] theorem around_cons : around counts ((t, mark) :: ms) = mark.step counts + around counts ms := by
  simp [around]

/-- Levels around the end of two texts are added up. -/
@[simp] theorem around_append : around counts (ms ++ ns) = around counts ms + around counts ns := by
  simp [around]

end Tokens

/-- Levels are entered or passed. -/
theorem around_every (ms : Marked) : around every ms = around entered ms + around passed ms := by
  induction ms with
  | nil => rfl
  | cons m ms ih =>
    obtain ⟨t, mark⟩ := m
    have hstep : mark.step every = mark.step entered + mark.step passed := by
      rcases mark with _ | (_ | _) | (_ | _) <;> rfl
    simp only [around_cons]
    omega

/-- A level that is not entered counts as such a level does. -/
theorem step_hide (mark : Mark) : mark.hide.step counts = mark.step fun _ => counts false := by
  cases mark <;> rfl

/-- Where no level is entered, all count as levels that are not. -/
theorem around_hidden (ms : Marked) : around counts (hidden ms) = around (fun _ => counts false) ms := by
  induction ms with
  | nil => rfl
  | cons m ms ih =>
    obtain ⟨t, mark⟩ := m
    rw [hidden, List.map_cons, around_cons, around_cons, step_hide, ← ih]
    rfl

/-! ## Texts that close their levels -/

/-- A text that closes the levels it opens and no others, and is so many levels deep. -/
structure Nests (counts : Bool → Bool) (ms : Marked) (n : Nat) : Prop where
  closed : around counts ms = 0
  bounded : ∀ front, front <+: ms → 0 ≤ around counts front ∧ around counts front ≤ n
  reached : ∃ front, front <+: ms ∧ around counts front = n

/-- The points of two texts one behind the other. -/
theorem prefix_append_iff : front <+: ms ++ ns ↔
    front <+: ms ∨ ∃ more, more <+: ns ∧ front = ms ++ more := by
  constructor
  · rintro ⟨behind, h⟩
    rcases List.append_eq_append_iff.mp h with ⟨between, rfl, -⟩ | ⟨between, rfl, rfl⟩
    · exact Or.inl (List.prefix_append _ _)
    · exact Or.inr ⟨between, List.prefix_append _ _, rfl⟩
  · rintro (h | ⟨more, h, rfl⟩)
    · exact h.trans (List.prefix_append _ _)
    · exact (List.prefix_append_right_inj ms).mpr h

namespace Nests

/-- The depth of a text is the largest number of levels around a point of it. -/
theorem isGreatest (h : Nests counts ms n) : IsGreatest (depths counts ms) n := by
  constructor
  · exact h.reached
  · rintro _ ⟨front, hfront, rfl⟩
    exact (h.bounded front hfront).2

/-- The empty text opens no level. -/
theorem nil : Nests counts [] 0 := by
  refine ⟨rfl, ?_, [], List.prefix_rfl, rfl⟩
  intro front hfront
  obtain rfl := List.prefix_nil.mp hfront
  exact ⟨le_rfl, le_rfl⟩

/-- Two texts in a row are as deep as the deeper of them. -/
theorem append (hms : Nests counts ms m) (hns : Nests counts ns n) : Nests counts (ms ++ ns) (max m n) := by
  refine ⟨?_, ?_, ?_⟩
  · rw [around_append, hms.closed, hns.closed, Int.add_zero]
  · intro front hfront
    rcases prefix_append_iff.mp hfront with hfront | ⟨more, hmore, rfl⟩
    · have hbounded := hms.bounded front hfront
      omega
    · have hbounded := hns.bounded more hmore
      rw [around_append, hms.closed]
      omega
  · obtain ⟨front, hfront, hm⟩ := hms.reached
    obtain ⟨more, hmore, hn⟩ := hns.reached
    rcases le_total m n with hle | hle
    · refine ⟨ms ++ more, prefix_append_iff.mpr (Or.inr ⟨more, hmore, rfl⟩), ?_⟩
      rw [around_append, hms.closed, hn]
      omega
    · refine ⟨front, prefix_append_iff.mpr (Or.inl hfront), ?_⟩
      rw [hm]
      omega

/-- A token that is no brace of a level. -/
theorem cons (t : Token) (h : Nests counts ms n) : Nests counts ((t, .none) :: ms) n := by
  have haround (front : Marked) : around counts ((t, .none) :: front) = around counts front := by
    rw [around_cons, Mark.step, Int.zero_add]
  refine ⟨(haround ms).trans h.closed, ?_, ?_⟩
  · intro front hfront
    rcases List.prefix_cons_iff.mp hfront with rfl | ⟨front, rfl, htail⟩
    · exact ⟨le_rfl, Int.natCast_nonneg n⟩
    · rw [haround]
      exact h.bounded front htail
  · obtain ⟨front, hfront, hn⟩ := h.reached
    exact ⟨(t, .none) :: front, (List.prefix_cons_inj _).mpr hfront, (haround front).trans hn⟩

/-- Tokens without braces of a level open none. -/
theorem plainly (ts : List Token) : Nests counts (plainly ts) 0 := by
  induction ts with
  | nil => exact .nil
  | cons t ts ih => exact ih.cons t

/-- The braces of a level are one level more where they count. -/
theorem braced (level : Bool) (opener closer : Token) (h : Nests counts ms n) :
    Nests counts (braced level opener ms closer) (n + if counts level then 1 else 0) := by
  have hopen (front : Marked) : around counts ((opener, .opens level) :: front) =
      (if counts level then 1 else 0) + around counts front := around_cons ..
  have hclose : around counts [(closer, .closes level)] = if counts level then -1 else 0 := by
    rw [around_cons, around_nil, Int.add_zero, Mark.step]
  refine ⟨?_, ?_, ?_⟩
  · rw [Nesting.braced, hopen, around_append, h.closed, hclose]
    split <;> rfl
  · intro front hfront
    rcases List.prefix_cons_iff.mp hfront with rfl | ⟨front, rfl, htail⟩
    · exact ⟨le_rfl, Int.natCast_nonneg _⟩
    · rw [hopen]
      rcases prefix_append_iff.mp htail with hinner | ⟨more, hmore, rfl⟩
      · have hbounded := h.bounded front hinner
        split <;> omega
      · rw [around_append, h.closed]
        rcases List.prefix_cons_iff.mp hmore with rfl | ⟨more, rfl, hnothing⟩
        · rw [around_nil]
          split <;> omega
        · obtain rfl := List.prefix_nil.mp hnothing
          rw [hclose]
          split <;> omega
  · obtain ⟨front, hfront, hn⟩ := h.reached
    refine ⟨(opener, .opens level) :: front,
      (List.prefix_cons_inj _).mpr (prefix_append_iff.mpr (Or.inl hfront)), ?_⟩
    rw [hopen, hn]
    split <;> omega

/-- What is not entered is as deep as all of it where such levels count, and else on one level. -/
theorem hidden (h : Nests (fun _ => counts false) ms n) : Nests counts (hidden ms) n := by
  have hprefix {front : Marked} : front <+: Nesting.hidden ms ↔
      ∃ front', front' <+: ms ∧ front = Nesting.hidden front' :=
    List.prefix_map_iff
  refine ⟨(around_hidden ms).trans h.closed, ?_, ?_⟩
  · intro front hfront
    obtain ⟨front, hshown, rfl⟩ := hprefix.mp hfront
    rw [around_hidden]
    exact h.bounded front hshown
  · obtain ⟨front, hfront, hn⟩ := h.reached
    exact ⟨Nesting.hidden front, hprefix.mpr ⟨front, hfront, rfl⟩, (around_hidden front).trans hn⟩

/-- Where no level counts, a text is on one level. -/
theorem of_none (ms : Marked) : Nests (fun _ => false) ms 0 := by
  have hzero (front : Marked) : around (fun _ => false) front = 0 := by
    induction front with
    | nil => rfl
    | cons m front ih =>
      obtain ⟨t, mark⟩ := m
      rw [around_cons, ih, Int.add_zero]
      cases mark <;> rfl
  refine ⟨hzero ms, ?_, [], List.nil_prefix, rfl⟩
  intro front _
  rw [hzero front]
  exact ⟨le_rfl, le_rfl⟩

/-- The depth of a text may be written otherwise. -/
theorem congr (h : Nests counts ms m) (hmn : m = n) : Nests counts ms n := hmn ▸ h

/-- A text is as deep as its entered levels exactly when no passed level is around one of its deepest points. -/
theorem isGreatest_every_iff {l : Nat} (hentered : Nests entered ms n) (hpassed : Nests passed ms l) :
    IsGreatest (depths every ms) n ↔ ∃ front, front <+: ms ∧
      (∀ other, other <+: ms → around every other ≤ around every front) ∧ around passed front = 0 := by
  constructor
  · rintro ⟨-, hgreatest⟩
    obtain ⟨front, hfront, hn⟩ := hentered.reached
    have hnonneg := (hpassed.bounded front hfront).1
    have hle := hgreatest ⟨front, hfront, rfl⟩
    have hsplit := around_every front
    refine ⟨front, hfront, fun other hother => ?_, by omega⟩
    have hother := hgreatest ⟨other, hother, rfl⟩
    omega
  · rintro ⟨front, hfront, hdeepest, hzero⟩
    -- a point in no passed level has all its levels entered, and the deepest entered one has no more than it
    have hle := (hentered.bounded front hfront).2
    have hsplit := around_every front
    obtain ⟨top, htop, hn⟩ := hentered.reached
    have htop_le := hdeepest top htop
    have hnonneg := (hpassed.bounded top htop).1
    have htop_split := around_every top
    constructor
    · exact ⟨front, hfront, by omega⟩
    · rintro _ ⟨other, hother, rfl⟩
      have hother_le := hdeepest other hother
      omega

end Nests

end GoIdiom.Nesting
