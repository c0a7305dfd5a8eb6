import Mathlib.Data.List.DropRight
import TightLists.Proofs.Boundaries
import TightLists.Proofs.LineGrammar

/-!
# Kinds of lines and their grammars

Two kinds of lines have a grammar of their own.  A list item is spelled by line space, a
marker, one more character of line space and anything else, once a carriage return at its
end has been taken away; a blank line is spelled by line space alone.  No line is spelled in
both ways, and a line that is spelled in neither is text (`kind_iff_spelled`).

The recogniser finds the end of a number by its length in bytes.  `marksItemByBytes?` does
so with the cut checked, and it never fails.

Line space in front of a line does not change its kind, and a list item stays one whatever is
written behind it (`kind_indented_and_item_extended`).  Neither is plain from the recogniser,
which takes a return away from the end of the line before it looks at the front: what is
written behind a list item may end in a return, and then the one that was taken away before
counts as line space.  A marker with nothing but returns behind it shows how they count.
-/

namespace TightLists

namespace Line

/-! ## The grammars -/

/-- `LessReturn line content`: the content is the line without the carriage return at its
end, or the whole line if there is none. -/
inductive LessReturn : Line → Line → Prop where
  | returned (content : Line) : LessReturn (content ++ ['\r']) content
  | plain {line : Line} : (∀ front, line ≠ front ++ ['\r']) → LessReturn line line

/-- The spelling of a list item. -/
inductive SpelledItem (line : Line) : Prop where
  | item {indent marker rest : List Char} {space : Char} :
      LessReturn line (indent ++ marker ++ [space] ++ rest) →
      (∀ character ∈ indent, isLineSpace character = true) → IsMarker marker →
      isLineSpace space = true → SpelledItem line

/-- The spelling of a blank line. -/
def SpelledBlank (line : Line) : Prop :=
  ∀ character ∈ line, isLineSpace character = true

variable {line content : Line}

theorem lessReturn_iff : LessReturn line content ↔ line.withoutReturn = content := by
  constructor
  · intro less
    cases less with
    | returned => exact withoutReturn_concat content
    | plain unreturned =>
        apply if_neg
        intro returned
        obtain ⟨front, split⟩ := List.getLast?_eq_some_iff.mp returned
        exact unreturned front split
  · intro equality
    subst equality
    by_cases returned : line.getLast? = some '\r'
    · obtain ⟨front, rfl⟩ := List.getLast?_eq_some_iff.mp returned
      rw [withoutReturn_concat]
      exact .returned front
    · have unchanged : line.withoutReturn = line := if_neg returned
      rw [unchanged]
      apply LessReturn.plain
      intro front split
      apply returned
      exact List.getLast?_eq_some_iff.mpr ⟨front, split⟩

theorem isListItem_iff_spelledItem : line.isListItem = true ↔ line.SpelledItem := by
  constructor
  · intro isItem
    obtain ⟨indent, marker, space, rest, split, indented, isMarker, isSpace⟩ :=
      opensItem_iff.mp isItem
    have less : LessReturn line (indent ++ marker ++ [space] ++ rest) := by
      apply lessReturn_iff.mpr
      simpa using split
    exact .item less indented isMarker isSpace
  · intro spelled
    cases spelled with
    | @item indent marker rest space less indented isMarker isSpace =>
        apply opensItem_iff.mpr
        refine ⟨indent, marker, space, rest, ?_, indented, isMarker, isSpace⟩
        simpa using lessReturn_iff.mp less

/-! ## Stripping -/

/-- The line without the line space at its two ends. -/
def trimmed (line : Line) : Line :=
  (line.dropWhile isLineSpace).rdropWhile isLineSpace

theorem trimmed_eq_nil_iff : line.trimmed = [] ↔ line.SpelledBlank := by
  rw [trimmed, List.rdropWhile_eq_nil_iff]
  constructor
  · intro spaces character member
    rw [← List.takeWhile_append_dropWhile (p := isLineSpace) (l := line)] at member
    rcases List.mem_append.mp member with front | back
    · exact List.all_eq_true.mp List.all_takeWhile character front
    · exact spaces character back
  · intro blank character member
    apply blank
    exact (List.dropWhile_sublist isLineSpace).subset member

/-- Whether line space is the next character. -/
def spaceFollows : List Char → Bool
  | next :: _ => isLineSpace next
  | [] => false

/-- The digits at the front have the length in bytes by which they are cut off, and what is
cut off behind them is what follows them. -/
theorem slice?_digits (content : Text) :
    let digits := content.byteLength - Text.byteLength (content.dropWhile Char.isDigit)
    digits = Text.byteLength (content.takeWhile Char.isDigit) ∧
      content.slice? digits content.byteLength = some (content.dropWhile Char.isDigit) := by
  intro digits
  have whole : content.takeWhile Char.isDigit ++ content.dropWhile Char.isDigit = content :=
    List.takeWhile_append_dropWhile
  have lengths := Text.byteLength_append (content.takeWhile Char.isDigit)
    (content.dropWhile Char.isDigit)
  rw [whole] at lengths
  have measured : digits = Text.byteLength (content.takeWhile Char.isDigit) := by omega
  have sliced := Text.slice?_append (content.takeWhile Char.isDigit)
    (content.dropWhile Char.isDigit)
  rw [whole, ← measured] at sliced
  exact ⟨measured, sliced⟩

/-- Whether a marker with line space behind it is at the front.  The digits of a number are
measured in bytes and cut off by that length; nothing is returned if the cut goes through a
character. -/
def marksItemByBytes? (content : Text) : Option Bool :=
  match content with
  | '-' :: rest => some (spaceFollows rest)
  | '*' :: rest => some (spaceFollows rest)
  | _ =>
      let digits := content.byteLength - Text.byteLength (content.dropWhile Char.isDigit)
      if digits = 0 then some false
      else
        (content.slice? digits content.byteLength).map fun behind =>
          match behind with
          | '.' :: rest => spaceFollows rest
          | _ => false

theorem marksItemByBytes?_eq_some (content : Text) :
    marksItemByBytes? content = some ((afterMarker? content).any spaceFollows) := by
  obtain ⟨measured, sliced⟩ := slice?_digits content
  unfold marksItemByBytes?
  split
  · rfl
  · rfl
  · rename_i noHyphen noAsterisk
    extract_lets digits
    rw [sliced, Option.map_some, afterMarker?.eq_3 content noHyphen noAsterisk]
    cases front : content.takeWhile Char.isDigit with
    | nil =>
        have noDigits : digits = 0 := by
          rw [front] at measured
          exact measured
        rw [if_pos noDigits]
        rfl
    | cons first others =>
        have someDigits : digits ≠ 0 := by
          have positive := first.utf8Size_pos
          rw [front, Text.byteLength] at measured
          omega
        rw [if_neg someDigits]
        cases content.dropWhile Char.isDigit with
        | nil => rfl
        | cons next rest =>
            by_cases isStop : next = '.'
            · subst isStop
              rfl
            · simp [isStop]

/-- Measuring the digits in bytes cuts no character in two, and tells list items as reading
them one by one does. -/
theorem marksItemByBytes?_withoutReturn (line : Line) :
    marksItemByBytes? (line.withoutReturn.dropWhile isLineSpace) = some line.isListItem := by
  rw [marksItemByBytes?_eq_some, isListItem, opensItem]
  cases afterMarker? (line.withoutReturn.dropWhile isLineSpace) with
  | none => rfl
  | some rest => cases rest <;> rfl

/-! ## The kinds -/

theorem not_spelledBlank_of_spelledItem (spelled : line.SpelledItem) :
    ¬line.SpelledBlank := by
  intro blank
  have solid := not_isBlank_of_isListItem (isListItem_iff_spelledItem.mpr spelled)
  rw [isBlank_iff.mpr blank] at solid
  cases solid

theorem kind_eq_text_iff :
    line.kind = .text ↔ line.isListItem = false ∧ line.isBlank = false := by
  rw [kind]
  split
  · rename_i isItem
    simp [isItem]
  · split
    · rename_i isBlank
      simp [isBlank]
    · rename_i notItem notBlank
      simp [notItem, notBlank]

theorem kind_eq_of_blank_first (line : Line) :
    line.kind =
      if line.isBlank then .blank else if line.isListItem then .listItem else .text := by
  split
  · rename_i blank
    exact kind_eq_blank_iff.mpr blank
  · rename_i notBlank
    simp only [kind, notBlank, Bool.false_eq_true, if_false]

/-- The recognisers decide the two grammars, which exclude each other.  So the kind of a line
is told by them, whichever is tried first, and a line is text where neither of them holds.
Trimming a blank line leaves nothing, and a list item is recognised by its bytes as well. -/
theorem kind_iff_spelled (line : Line) :
    (line.isListItem = true ↔ line.SpelledItem) ∧
      (line.isBlank = true ↔ line.SpelledBlank) ∧
      ¬(line.SpelledItem ∧ line.SpelledBlank) ∧
      (line.kind = .listItem ↔ line.SpelledItem) ∧
      (line.kind = .blank ↔ line.SpelledBlank) ∧
      (line.kind = .text ↔ ¬line.SpelledItem ∧ ¬line.SpelledBlank) ∧
      (line.kind =
        if line.isBlank then .blank else if line.isListItem then .listItem else .text) ∧
      (line.trimmed = [] ↔ line.isBlank = true) ∧
      marksItemByBytes? (line.withoutReturn.dropWhile isLineSpace) =
        some line.isListItem := by
  have item : line.isListItem = true ↔ line.SpelledItem := isListItem_iff_spelledItem
  have blank : line.isBlank = true ↔ line.SpelledBlank := isBlank_iff
  refine ⟨item, blank, ?_, ?_, ?_, ?_, line.kind_eq_of_blank_first, ?_,
    line.marksItemByBytes?_withoutReturn⟩
  · intro both
    exact not_spelledBlank_of_spelledItem both.1 both.2
  · rw [kind_eq_listItem_iff, item]
  · rw [kind_eq_blank_iff, blank]
  · rw [kind_eq_text_iff, ← item, ← blank, Bool.not_eq_true, Bool.not_eq_true]
  · rw [trimmed_eq_nil_iff, blank]

/-- One return is taken away from a line and no more: of two behind a marker, the first one
is the space that makes it a list item, and a lone one is none. -/
example : kind "\t12.\r\r".toList = .listItem ∧ kind "\t12.\r".toList = .text := by
  decide

/-! ## Lines that are indented or go on -/

theorem isBlank_indent {indent : Line}
    (indented : ∀ character ∈ indent, isLineSpace character = true) (line : Line) :
    isBlank (indent ++ line) = line.isBlank := by
  rw [isBlank, List.all_append, List.all_eq_true.mpr indented, Bool.true_and, isBlank]

theorem kind_indent {indent : Line}
    (indented : ∀ character ∈ indent, isLineSpace character = true) (line : Line) :
    kind (indent ++ line) = line.kind := by
  rw [kind, kind, isListItem_indent indented, isBlank_indent indented]

/-- Of the returns behind a lone marker the last one ends the line, and one more is the line
space that makes it a list item. -/
theorem isListItem_marker_returns_iff {marker : List Char} (isMarker : IsMarker marker)
    (count : Nat) :
    isListItem (marker ++ List.replicate count '\r') = true ↔ 2 ≤ count := by
  match count with
  | 0 =>
      have bare : opensItem marker = false := by
        rw [← List.append_nil marker, opensItem_marker_append isMarker]
        rfl
      have notItem : isListItem marker ≠ true := by
        intro isItem
        have opens := opensItem_append_of_isListItem isItem []
        rw [List.append_nil, bare] at opens
        cases opens
      simpa using notItem
  | count + 1 =>
      have ending : marker ++ List.replicate (count + 1) '\r' =
          (marker ++ List.replicate count '\r') ++ ['\r'] := by
        rw [List.replicate_succ', List.append_assoc]
      rw [ending, isListItem, withoutReturn_concat, opensItem_marker_append isMarker]
      cases count with
      | zero => simp
      | succ count =>
          have returnIsSpace : isLineSpace '\r' = true := by decide
          simp [List.replicate_succ, returnIsSpace]

/-- How far a line is indented plays no part in its kind, and a list item stays one however it
goes on.  This holds whatever returns there are at the ends, of which the last one only is taken
away: behind a lone marker one return does not make a list item, and two do. -/
theorem kind_indented_and_item_extended :
    (∀ indent line : Line, (∀ character ∈ indent, isLineSpace character = true) →
      kind (indent ++ line) = line.kind) ∧
    (∀ line more : Line, line.isListItem = true → isListItem (line ++ more) = true) ∧
    ∀ (marker : Line) (count : Nat), IsMarker marker →
      (isListItem (marker ++ List.replicate count '\r') = true ↔ 2 ≤ count) := by
  refine ⟨?_, ?_, ?_⟩
  · intro indent line indented
    exact kind_indent indented line
  · intro line more isItem
    exact isListItem_append isItem more
  · intro marker count isMarker
    exact isListItem_marker_returns_iff isMarker count

/-- Indented by space that ends in a return, a marker with two returns behind it, and one more
return written behind those. -/
theorem kind_indented_and_item_extended_by_returns :
    let indent : Line := ['\t', '\uFEFF', '\r']
    let line : Line := ['7', '.', '\r', '\r']
    (∀ character ∈ indent, isLineSpace character = true) ∧
      kind (indent ++ line) = line.kind ∧
      line.isListItem = true ∧ isListItem (line ++ ['\r']) = true ∧
      IsMarker ['7', '.'] ∧
      (isListItem (['7', '.'] ++ List.replicate 2 '\r') = true ↔ 2 ≤ 2) := by
  intro indent line
  have indented : ∀ character ∈ indent, isLineSpace character = true :=
    isBlank_iff.mp (by decide)
  have isItem : line.isListItem = true := by decide
  have isMarker : IsMarker ['7', '.'] :=
    .number (List.cons_ne_nil '7' []) (List.forall_mem_singleton.mpr rfl)
  exact ⟨indented, kind_indented_and_item_extended.1 indent line indented, isItem,
    kind_indented_and_item_extended.2.1 line ['\r'] isItem, isMarker,
    kind_indented_and_item_extended.2.2 ['7', '.'] 2 isMarker⟩

end Line

end TightLists
