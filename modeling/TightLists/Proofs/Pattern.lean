import TightLists.Proofs.LineGrammar

/-!
# Patterns over texts

The two patterns of the quick look, written as regular expressions with an
anchor for the start of a line, and what it means that a pattern matches
somewhere in a text.  A match may be any stretch of the text; nothing is said
about how one is found.
-/

namespace TightLists

/-- The syntax of patterns.  `lineStart` matches nothing, where a line starts, and
`oneOf` one character of a class. -/
inductive Pattern where
  | lineStart
  | oneOf (allowed : Char → Bool)
  | andThen (first second : Pattern)
  | orElse (first second : Pattern)
  | many (repeated : Pattern)

namespace Pattern

/-- `pattern.Matches before matched` says that the pattern matches exactly the
characters `matched` where the text `before` stands to their left. -/
inductive Matches : Pattern → Text → Text → Prop where
  | lineStart {before : Text} :
      before = [] ∨ before.getLast? = some '\n' →
      Matches .lineStart before []
  | oneOf {allowed : Char → Bool} {before : Text} {character : Char} :
      allowed character = true →
      Matches (.oneOf allowed) before [character]
  | andThen {first second : Pattern} {before front back : Text} :
      Matches first before front →
      Matches second (before ++ front) back →
      Matches (.andThen first second) before (front ++ back)
  | orLeft {first second : Pattern} {before matched : Text} :
      Matches first before matched →
      Matches (.orElse first second) before matched
  | orRight {first second : Pattern} {before matched : Text} :
      Matches second before matched →
      Matches (.orElse first second) before matched
  | manyNone {repeated : Pattern} {before : Text} :
      Matches (.many repeated) before []
  | manyMore {repeated : Pattern} {before front back : Text} :
      Matches repeated before front →
      Matches (.many repeated) (before ++ front) back →
      Matches (.many repeated) before (front ++ back)

/-- Whether the pattern matches some stretch of the text. -/
def OccursIn (pattern : Pattern) (text : Text) : Prop :=
  ∃ before matched after,
    text = before ++ (matched ++ after) ∧ pattern.Matches before matched

def lineSpace : Pattern :=
  .oneOf isLineSpace

def marker : Pattern :=
  .orElse (.oneOf fun character => character == '-' || character == '*')
    (.andThen (.oneOf Char.isDigit)
      (.andThen (.many (.oneOf Char.isDigit)) (.oneOf (· == '.'))))

/-- The opening of a list item: `[\s\x{FEFF}]*([-*]|[0-9]+\.)[\s\x{FEFF}]`. -/
def opening : Pattern :=
  .andThen (.many lineSpace) (.andThen marker lineSpace)

/-- One character of line space other than a line feed: `[^\S\n]|\x{FEFF}`. -/
def spaceInLine : Pattern :=
  .orElse (.oneOf fun character => isWhiteSpace character && character != '\n')
    (.oneOf (· == byteOrderMark))

/-- A list item at the start of a line: `(?m)^` and then an opening. -/
def item : Pattern :=
  .andThen .lineStart opening

/-- A list item behind a blank line: `\n(?:[^\S\n]|\x{FEFF})*\n` and then an
opening. -/
def spacedItem : Pattern :=
  .andThen (.oneOf (· == '\n'))
    (.andThen (.many spaceInLine) (.andThen (.oneOf (· == '\n')) opening))

/-! ## What each form of pattern matches -/

variable {before matched : Text}

theorem matches_lineStart_iff :
    lineStart.Matches before matched ↔
      matched = [] ∧ (before = [] ∨ before.getLast? = some '\n') := by
  constructor
  · intro matching
    cases matching with
    | lineStart atStart => exact ⟨rfl, atStart⟩
  · intro empty
    obtain ⟨rfl, atStart⟩ := empty
    exact .lineStart atStart

theorem matches_oneOf_iff {allowed : Char → Bool} :
    (oneOf allowed).Matches before matched ↔
      ∃ character, matched = [character] ∧ allowed character = true := by
  constructor
  · intro matching
    cases matching with
    | oneOf member => exact ⟨_, rfl, member⟩
  · intro single
    obtain ⟨character, rfl, member⟩ := single
    exact .oneOf member

theorem matches_andThen_iff {first second : Pattern} :
    (andThen first second).Matches before matched ↔
      ∃ front back, matched = front ++ back ∧
        first.Matches before front ∧ second.Matches (before ++ front) back := by
  constructor
  · intro matching
    cases matching with
    | andThen left right => exact ⟨_, _, rfl, left, right⟩
  · intro parts
    obtain ⟨front, back, rfl, left, right⟩ := parts
    exact .andThen left right

theorem matches_orElse_iff {first second : Pattern} :
    (orElse first second).Matches before matched ↔
      first.Matches before matched ∨ second.Matches before matched := by
  constructor
  · intro matching
    cases matching with
    | orLeft left => exact .inl left
    | orRight right => exact .inr right
  · intro either
    rcases either with left | right
    · exact .orLeft left
    · exact .orRight right

/-- Repeating a pattern for one character of a class matches the texts over
that class. -/
theorem matches_many_iff {repeated : Pattern} {allowed : Char → Bool}
    (single : ∀ before matched, repeated.Matches before matched ↔
      ∃ character, matched = [character] ∧ allowed character = true) :
    (many repeated).Matches before matched ↔
      ∀ character ∈ matched, allowed character = true := by
  constructor
  · intro matching
    generalize whole : many repeated = pattern at matching
    induction matching with
    | manyNone => simp
    | manyMore front _ _ later =>
        cases whole
        obtain ⟨character, rfl, member⟩ := (single _ _).mp front
        simpa [member] using later rfl
    | _ => cases whole
  · intro members
    induction matched generalizing before with
    | nil => exact .manyNone
    | cons character rest induction =>
        have here : repeated.Matches before [character] :=
          (single _ _).mpr ⟨character, rfl, members character List.mem_cons_self⟩
        exact .manyMore here
          (induction fun other later => members other (List.mem_cons_of_mem _ later))

theorem matches_spaceInLine_iff :
    spaceInLine.Matches before matched ↔
      ∃ character, matched = [character] ∧
        (isLineSpace character && character != '\n') = true := by
  have markIsNoBreak : byteOrderMark ≠ '\n' := by decide
  rw [spaceInLine, matches_orElse_iff, matches_oneOf_iff, matches_oneOf_iff]
  constructor
  · intro single
    rcases single with ⟨character, rfl, member⟩ | ⟨character, rfl, member⟩
    · simp only [Bool.and_eq_true] at member
      exact ⟨character, rfl, by simp [isLineSpace, member.1, member.2]⟩
    · obtain rfl : character = byteOrderMark := by simpa using member
      exact ⟨byteOrderMark, rfl, by simp [isLineSpace, markIsNoBreak]⟩
  · intro single
    obtain ⟨character, rfl, member⟩ := single
    simp only [isLineSpace, Bool.and_eq_true, Bool.or_eq_true] at member
    rcases member.1 with white | mark
    · exact .inl ⟨character, rfl, by simp [white, member.2]⟩
    · exact .inr ⟨character, rfl, mark⟩

theorem matches_many_spaceInLine_iff :
    (many spaceInLine).Matches before matched ↔
      ∀ character ∈ matched, (isLineSpace character && character != '\n') = true :=
  matches_many_iff fun _ _ => matches_spaceInLine_iff

theorem matches_marker_iff : marker.Matches before matched ↔ IsMarker matched := by
  rw [marker, matches_orElse_iff, matches_oneOf_iff, matches_andThen_iff]
  constructor
  · intro matching
    rcases matching with ⟨character, rfl, member⟩ | ⟨front, back, rfl, first, others⟩
    · simp only [Bool.or_eq_true, beq_iff_eq] at member
      rcases member with rfl | rfl
      · exact .hyphen
      · exact .asterisk
    · obtain ⟨digit, rfl, isDigit⟩ := matches_oneOf_iff.mp first
      obtain ⟨digits, stop, rfl, more, last⟩ := matches_andThen_iff.mp others
      obtain ⟨character, rfl, isStop⟩ := matches_oneOf_iff.mp last
      obtain rfl : character = '.' := by simpa using isStop
      have areDigits := (matches_many_iff fun _ _ => matches_oneOf_iff).mp more
      have number := IsMarker.number (List.cons_ne_nil digit digits)
        (by simpa [isDigit] using areDigits)
      simpa using number
  · intro isMarker
    cases isMarker with
    | hyphen => exact .inl ⟨'-', rfl, rfl⟩
    | asterisk => exact .inl ⟨'*', rfl, rfl⟩
    | @number digits nonempty areDigits =>
        obtain ⟨digit, others, rfl⟩ := List.exists_cons_of_ne_nil nonempty
        refine .inr ⟨[digit], others ++ ['.'], rfl,
          .oneOf (areDigits digit List.mem_cons_self), .andThen ?_ (.oneOf rfl)⟩
        apply (matches_many_iff fun _ _ => matches_oneOf_iff).mpr
        intro other later
        exact areDigits other (List.mem_cons_of_mem digit later)

theorem matches_opening_iff :
    opening.Matches before matched ↔
      ∃ indent marker space, matched = indent ++ (marker ++ [space]) ∧
        (∀ character ∈ indent, isLineSpace character = true) ∧
        IsMarker marker ∧ isLineSpace space = true := by
  rw [opening, matches_andThen_iff]
  constructor
  · intro parts
    obtain ⟨indent, back, rfl, indented, others⟩ := parts
    obtain ⟨marker, last, rfl, marked, spaced⟩ := matches_andThen_iff.mp others
    obtain ⟨space, rfl, isSpace⟩ := matches_oneOf_iff.mp spaced
    exact ⟨indent, marker, space, rfl,
      (matches_many_iff fun _ _ => matches_oneOf_iff).mp indented,
      matches_marker_iff.mp marked, isSpace⟩
  · intro grammar
    obtain ⟨indent, marker, space, rfl, indented, isMarker, isSpace⟩ := grammar
    exact ⟨indent, marker ++ [space], rfl,
      (matches_many_iff fun _ _ => matches_oneOf_iff).mpr indented,
      .andThen (matches_marker_iff.mpr isMarker) (.oneOf isSpace)⟩

/-- Reading an opening off the front of the characters is finding a match of
its pattern there, whatever stands to their left. -/
theorem opensItem_iff_matches (left : Text) {characters : Text} :
    opensItem characters = true ↔
      ∃ matched after, characters = matched ++ after ∧
        opening.Matches left matched := by
  rw [opensItem_iff]
  constructor
  · intro grammar
    obtain ⟨indent, marker, space, rest, rfl, indented, isMarker, isSpace⟩ := grammar
    exact ⟨indent ++ (marker ++ [space]), rest, by simp,
      matches_opening_iff.mpr ⟨indent, marker, space, rfl, indented, isMarker, isSpace⟩⟩
  · intro found
    obtain ⟨matched, after, rfl, matching⟩ := found
    obtain ⟨indent, marker, space, rfl, indented, isMarker, isSpace⟩ :=
      matches_opening_iff.mp matching
    exact ⟨indent, marker, space, after, by simp, indented, isMarker, isSpace⟩

end Pattern

end TightLists
