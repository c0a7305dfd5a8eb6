import TightLists.Line

/-!
# The grammar of list items

A list item opens with line space, a marker and one more character of line
space.  `opensItem_iff` says that the stripping steps of `opensItem` recognise
exactly these openings.  What follows an opening does not matter, so a line
that is a list item stays one when it is extended, nor does more line space in
front of it, and no line is a list item and blank at once.
-/

namespace TightLists

/-- The markers of list items: a bullet, or digits and a full stop. -/
inductive IsMarker : List Char → Prop where
  | hyphen : IsMarker ['-']
  | asterisk : IsMarker ['*']
  | number {digits : List Char} :
      digits ≠ [] → (∀ digit ∈ digits, digit.isDigit) →
      IsMarker (digits ++ ['.'])

theorem not_isLineSpace_of_isDigit {character : Char}
    (digit : character.isDigit = true) : isLineSpace character = false := by
  have bounds : 48 ≤ character.toNat ∧ character.toNat ≤ 57 := by
    simp only [Char.isDigit, Bool.and_eq_true, decide_eq_true_eq] at digit
    exact digit
  have notMark : character ≠ byteOrderMark := by
    intro equality
    subst equality
    exact absurd bounds.2 (by decide)
  simp [isLineSpace, isWhiteSpace, whiteSpaceRanges, notMark]
  omega

namespace IsMarker

theorem exists_cons {marker : List Char} (isMarker : IsMarker marker) :
    ∃ first others, marker = first :: others ∧ isLineSpace first = false := by
  cases isMarker with
  | hyphen => exact ⟨'-', [], rfl, by decide⟩
  | asterisk => exact ⟨'*', [], rfl, by decide⟩
  | @number digits nonempty areDigits =>
      obtain ⟨first, others, rfl⟩ := List.exists_cons_of_ne_nil nonempty
      exact ⟨first, others ++ ['.'], rfl,
        not_isLineSpace_of_isDigit (areDigits first List.mem_cons_self)⟩

end IsMarker

private theorem afterMarker?_number {digits rest : List Char}
    (nonempty : digits ≠ []) (areDigits : ∀ digit ∈ digits, digit.isDigit) :
    afterMarker? (digits ++ '.' :: rest) = some rest := by
  obtain ⟨first, others, rfl⟩ := List.exists_cons_of_ne_nil nonempty
  have firstDigit : first.isDigit := areDigits first List.mem_cons_self
  have taken : ((first :: others) ++ '.' :: rest).takeWhile Char.isDigit =
      first :: others := by
    rw [List.takeWhile_append_of_pos areDigits]
    simp
  have dropped : ((first :: others) ++ '.' :: rest).dropWhile Char.isDigit =
      '.' :: rest := by
    rw [List.dropWhile_append_of_pos areDigits]
    simp
  unfold afterMarker?
  split
  · rename_i front
    obtain rfl : first = '-' := (List.cons.inj front).1
    exact absurd firstDigit (by decide)
  · rename_i front
    obtain rfl : first = '*' := (List.cons.inj front).1
    exact absurd firstDigit (by decide)
  · simp only [taken, dropped]

theorem afterMarker?_eq_some_iff {characters rest : List Char} :
    afterMarker? characters = some rest ↔
      ∃ marker, IsMarker marker ∧ characters = marker ++ rest := by
  constructor
  · intro read
    unfold afterMarker? at read
    split at read
    · cases read
      exact ⟨['-'], .hyphen, rfl⟩
    · cases read
      exact ⟨['*'], .asterisk, rfl⟩
    · split at read
      · rename_i first others after taken dropped
        cases read
        have areDigits : ∀ digit ∈ first :: others, digit.isDigit := by
          rw [← taken]
          exact List.all_eq_true.mp List.all_takeWhile
        refine ⟨(first :: others) ++ ['.'], .number (List.cons_ne_nil _ _) areDigits, ?_⟩
        rw [List.append_assoc, List.singleton_append, ← taken, ← dropped,
          List.takeWhile_append_dropWhile]
      · cases read
  · intro marked
    obtain ⟨marker, isMarker, rfl⟩ := marked
    cases isMarker with
    | hyphen => rfl
    | asterisk => rfl
    | @number digits nonempty areDigits =>
        rw [List.append_assoc, List.singleton_append]
        exact afterMarker?_number nonempty areDigits

theorem opensItem_indent {indent : List Char}
    (indented : ∀ character ∈ indent, isLineSpace character = true)
    (characters : List Char) :
    opensItem (indent ++ characters) = opensItem characters := by
  rw [opensItem, opensItem, List.dropWhile_append_of_pos indented]

theorem opensItem_marker_append {marker : List Char} (isMarker : IsMarker marker)
    (rest : List Char) : opensItem (marker ++ rest) = rest.head?.any isLineSpace := by
  have unindented : (marker ++ rest).dropWhile isLineSpace = marker ++ rest := by
    obtain ⟨first, others, rfl, solid⟩ := isMarker.exists_cons
    rw [List.cons_append, List.dropWhile_cons_of_neg (by simp [solid])]
  have read : afterMarker? (marker ++ rest) = some rest :=
    afterMarker?_eq_some_iff.mpr ⟨marker, isMarker, rfl⟩
  rw [opensItem, unindented, read]
  cases rest <;> rfl

/-- The grammar of openings: line space, a marker, and line space again. -/
theorem opensItem_iff {characters : List Char} :
    opensItem characters = true ↔
      ∃ indent marker space rest,
        characters = indent ++ (marker ++ space :: rest) ∧
          (∀ character ∈ indent, isLineSpace character) ∧
          IsMarker marker ∧ isLineSpace space = true := by
  constructor
  · intro opens
    unfold opensItem at opens
    split at opens
    · rename_i space rest read
      obtain ⟨marker, isMarker, unindented⟩ := afterMarker?_eq_some_iff.mp read
      refine ⟨characters.takeWhile isLineSpace, marker, space, rest, ?_,
        List.all_eq_true.mp List.all_takeWhile, isMarker, opens⟩
      rw [← unindented, List.takeWhile_append_dropWhile]
    · cases opens
  · intro grammar
    obtain ⟨indent, marker, space, rest, rfl, indented, isMarker, spaced⟩ := grammar
    rw [opensItem_indent indented, opensItem_marker_append isMarker]
    exact spaced

theorem opensItem_append {characters : List Char}
    (opens : opensItem characters = true) (more : List Char) :
    opensItem (characters ++ more) = true := by
  obtain ⟨indent, marker, space, rest, rfl, indented, isMarker, spaced⟩ :=
    opensItem_iff.mp opens
  exact opensItem_iff.mpr
    ⟨indent, marker, space, rest ++ more, by simp, indented, isMarker, spaced⟩

namespace Line

theorem exists_eq_withoutReturn_append (line : Line) :
    ∃ ending, line = line.withoutReturn ++ ending := by
  unfold withoutReturn
  split
  · rename_i returned
    have nonempty : line ≠ [] := by
      intro equality
      subst equality
      cases returned
    exact ⟨[line.getLast nonempty], (List.dropLast_concat_getLast nonempty).symm⟩
  · exact ⟨[], (List.append_nil line).symm⟩

theorem opensItem_append_of_isListItem {line : Line}
    (isItem : line.isListItem = true) (more : List Char) :
    opensItem (line ++ more) = true := by
  obtain ⟨ending, split⟩ := exists_eq_withoutReturn_append line
  rw [split, List.append_assoc]
  exact opensItem_append isItem (ending ++ more)

/-- The carriage return that ends a line is looked for in its last part only. -/
theorem withoutReturn_append (front : Line) {ending : Line} (nonempty : ending ≠ []) :
    withoutReturn (front ++ ending) = front ++ ending.withoutReturn := by
  have sameEnd : (front ++ ending).getLast? = ending.getLast? := by
    rw [List.getLast?_append, List.getLast?_eq_some_getLast nonempty]
    rfl
  rw [withoutReturn, withoutReturn, sameEnd]
  split
  · exact List.dropLast_append_of_ne_nil nonempty
  · rfl

@[simp] theorem withoutReturn_concat (line : Line) :
    withoutReturn (line ++ ['\r']) = line := by
  simp [withoutReturn]

theorem isListItem_append {line : Line} (isItem : line.isListItem = true)
    (more : Line) : isListItem (line ++ more) = true := by
  cases more with
  | nil => rwa [List.append_nil]
  | cons character more =>
      rw [isListItem, withoutReturn_append line (List.cons_ne_nil character more)]
      exact opensItem_append_of_isListItem isItem _

theorem isBlank_iff {line : Line} :
    line.isBlank = true ↔ ∀ character ∈ line, isLineSpace character = true :=
  List.all_eq_true

theorem not_isBlank_of_isListItem {line : Line}
    (isItem : line.isListItem = true) : line.isBlank = false := by
  have opens := opensItem_append_of_isListItem isItem []
  obtain ⟨indent, marker, space, rest, split, _, isMarker, _⟩ :=
    opensItem_iff.mp opens
  obtain ⟨first, others, rfl, solid⟩ := isMarker.exists_cons
  have member : first ∈ line := by
    rw [← List.append_nil line, split]
    simp
  apply Bool.eq_false_iff.mpr
  intro blank
  rw [isBlank_iff.mp blank first member] at solid
  cases solid

/-- Indentation does not matter to a list item.  Where it is the whole line, the return that
is taken away is one of its own, and a blank line is no list item. -/
theorem isListItem_indent {indent : Line}
    (indented : ∀ character ∈ indent, isLineSpace character = true) (line : Line) :
    isListItem (indent ++ line) = line.isListItem := by
  cases line with
  | nil =>
      have blank : isBlank indent = true := isBlank_iff.mpr indented
      rw [List.append_nil]
      apply Bool.eq_false_iff.mpr
      intro isItem
      rw [not_isBlank_of_isListItem isItem] at blank
      cases blank
  | cons character rest =>
      have nonempty : character :: rest ≠ [] := List.cons_ne_nil character rest
      rw [isListItem, withoutReturn_append indent nonempty, opensItem_indent indented]
      rfl

@[simp] theorem kind_eq_listItem_iff {line : Line} :
    line.kind = .listItem ↔ line.isListItem = true := by
  unfold kind
  split
  · simp [*]
  · split <;> simp [*]

/-- The order in which the two tests are made does not matter. -/
@[simp] theorem kind_eq_blank_iff {line : Line} :
    line.kind = .blank ↔ line.isBlank = true := by
  unfold kind
  split
  · rename_i isItem
    simp [not_isBlank_of_isListItem isItem]
  · split <;> simp [*]

end Line

end TightLists
