import TightLists.Proofs.QuickLook

/-!
# The quick look, line by line

The patterns of the quick look run over line breaks.  Read off the lines of a text, what
they ask for is a run of blank lines, which does not begin the text, and below it a line
with a marker that something spaced follows: either line space on the same line, or the
line break that ends it.  `hasSpacedItems_iff_lines` says that nothing else is asked for.
The first pattern adds nothing to the second one.
-/

namespace TightLists

/-- A line on which a marker stands with space after it.  The space may be the break that
ends the line, if the line is broken. -/
inductive Line.ShowsItem (broken : Prop) : Line → Prop where
  | spaced {indent marker rest : List Char} {space : Char} :
      (∀ character ∈ indent, isLineSpace character = true) → IsMarker marker →
      isLineSpace space = true →
      ShowsItem broken (indent ++ (marker ++ space :: rest))
  | ended {indent marker : List Char} :
      (∀ character ∈ indent, isLineSpace character = true) → IsMarker marker → broken →
      ShowsItem broken (indent ++ marker)

theorem Line.ShowsItem.mono {broken followed : Prop} {line : Line}
    (shows : line.ShowsItem broken) (follows : broken → followed) :
    line.ShowsItem followed := by
  cases shows with
  | spaced indented isMarker isSpace => exact .spaced indented isMarker isSpace
  | ended indented isMarker isBroken => exact .ended indented isMarker (follows isBroken)

theorem IsMarker.newline_notMem {marker : List Char} (isMarker : IsMarker marker) :
    '\n' ∉ marker := by
  cases isMarker with
  | hyphen => decide
  | asterisk => decide
  | @number digits nonempty areDigits =>
      intro member
      rcases List.mem_append.mp member with inDigits | stop
      · exact absurd (areDigits '\n' inDigits) (by decide)
      · exact absurd stop (by decide)

namespace Text

/-! ## Openings and lines -/

theorem ofLines_cons_of_ne_nil (line : Line) {rest : List Line} (more : rest ≠ []) :
    ofLines (line :: rest) = line ++ '\n' :: ofLines rest := by
  have alone : ofLines [line] = line := by simp [ofLines]
  rw [← List.singleton_append, ofLines_append (List.cons_ne_nil line []) more, alone]

theorem isBlank_ofLines_iff {lines : List Line} :
    Line.isBlank (ofLines lines) = true ↔ ∀ line ∈ lines, line.isBlank = true := by
  induction lines with
  | nil => simp [ofLines, Line.isBlank]
  | cons line rest induction =>
      cases rest with
      | nil => simp [ofLines]
      | cons next rest =>
          have breakIsSpace : isLineSpace '\n' = true := by decide
          rw [List.forall_mem_cons, ← induction,
            ofLines_cons_of_ne_nil line (List.cons_ne_nil next rest)]
          simp [Line.isBlank, breakIsSpace]

theorem isBlank_of_mem_lines {text : Text}
    (spaces : ∀ character ∈ text, isLineSpace character = true) :
    ∀ line ∈ text.lines, Line.isBlank line = true := by
  apply isBlank_ofLines_iff.mp
  rw [ofLines_lines]
  exact Line.isBlank_iff.mpr spaces

theorem opensItem_ofLines_append_of_blank {run : List Line}
    (blank : ∀ line ∈ run, Line.isBlank line = true) (line : Line) (below : List Line) :
    opensItem (ofLines (run ++ line :: below)) = opensItem (ofLines (line :: below)) := by
  induction run with
  | nil => rfl
  | cons first run induction =>
      obtain ⟨firstBlank, runBlank⟩ := List.forall_mem_cons.mp blank
      have indented : ∀ character ∈ first ++ ['\n'], isLineSpace character = true := by
        intro character member
        rcases List.mem_append.mp member with inFirst | isBreak
        · exact Line.isBlank_iff.mp firstBlank character inFirst
        · rw [List.mem_singleton.mp isBreak]
          decide
      have whole : ofLines (first :: (run ++ line :: below)) =
          (first ++ ['\n']) ++ ofLines (run ++ line :: below) := by
        rw [ofLines_cons_of_ne_nil first (by simp), List.append_assoc, List.singleton_append]
      rw [List.cons_append, whole, opensItem_indent indented, induction runBlank]

theorem opensItem_ofLines_of_showsItem {line : Line} {below : List Line}
    (shows : Line.ShowsItem (below ≠ []) line) :
    opensItem (ofLines (line :: below)) = true := by
  cases shows with
  | @spaced indent marker rest space indented isMarker isSpace =>
      obtain ⟨more, lineFirst⟩ :=
        exists_ofLines_cons_eq (indent ++ (marker ++ space :: rest)) below
      rw [lineFirst]
      apply opensItem_append
      exact opensItem_iff.mpr
        ⟨indent, marker, space, rest, rfl, indented, isMarker, isSpace⟩
  | @ended indent marker indented isMarker broken =>
      rw [ofLines_cons_of_ne_nil _ broken, List.append_assoc]
      exact opensItem_iff.mpr
        ⟨indent, marker, '\n', ofLines below, rfl, indented, isMarker, by decide⟩

/-- Behind a marker and a space, the marker is on the first line, and so is the space
unless it is the break that ends that line. -/
theorem exists_lines_marker_append {marker : Text} {space : Char}
    (isMarker : IsMarker marker) (isSpace : isLineSpace space = true) (rest : Text) :
    ∃ line below, Text.lines (marker ++ space :: rest) = line :: below ∧
      ∀ indent : Line, (∀ character ∈ indent, isLineSpace character = true) →
        Line.ShowsItem (below ≠ []) (indent ++ line) := by
  by_cases isBreak : space = '\n'
  · subst isBreak
    refine ⟨marker, rest.lines, ?_, ?_⟩
    · rw [lines_append_newline, lines_of_newline_notMem isMarker.newline_notMem,
        List.singleton_append]
    · intro indent indented
      exact .ended indented isMarker rest.lines_ne_nil
  · have unbroken : '\n' ∉ marker ++ [space] := by
      intro member
      rcases List.mem_append.mp member with inMarker | isLast
      · exact isMarker.newline_notMem inMarker
      · exact isBreak (List.mem_singleton.mp isLast).symm
    have front : Text.lines (marker ++ [space]) = [] ++ [marker ++ [space]] :=
      lines_of_newline_notMem unbroken
    obtain ⟨next, below, restLines⟩ := List.exists_cons_of_ne_nil rest.lines_ne_nil
    refine ⟨marker ++ space :: next, below, ?_, ?_⟩
    · have whole := lines_append front restLines
      rwa [List.append_assoc, List.append_assoc] at whole
    · intro indent indented
      exact .spaced indented isMarker isSpace

/-- An opening may begin with blank lines, and the line with its marker may end with it. -/
theorem opensItem_iff_lines {text : Text} :
    opensItem text = true ↔
      ∃ run line below, text.lines = run ++ line :: below ∧
        (∀ blank ∈ run, Line.isBlank blank = true) ∧ Line.ShowsItem (below ≠ []) line := by
  constructor
  · intro opens
    obtain ⟨indent, marker, space, rest, rfl, indented, isMarker, isSpace⟩ :=
      opensItem_iff.mp opens
    obtain ⟨run, last, indentLines⟩ :=
      (List.eq_nil_or_concat' (Text.lines indent)).resolve_left (lines_ne_nil indent)
    have blank : ∀ line ∈ run ++ [last], Line.isBlank line = true := by
      rw [← indentLines]
      exact isBlank_of_mem_lines indented
    have lastIndents := Line.isBlank_iff.mp (blank last (by simp))
    obtain ⟨line, below, markerLines, shows⟩ :=
      exists_lines_marker_append isMarker isSpace rest
    refine ⟨run, last ++ line, below, lines_append indentLines markerLines, ?_,
      shows last lastIndents⟩
    intro other member
    exact blank other (List.mem_append_left _ member)
  · intro found
    obtain ⟨run, line, below, split, runBlank, shows⟩ := found
    rw [← ofLines_lines text, split, opensItem_ofLines_append_of_blank runBlank]
    exact opensItem_ofLines_of_showsItem shows

/-! ## The look -/

/-- Where the second pattern matches, the first one matches behind its last line break. -/
theorem hasItem_of_hasItemAfterBlankLine {text : Text}
    (found : text.hasItemAfterBlankLine = true) : text.hasItem = true := by
  obtain ⟨before, after, rfl, ends⟩ := hasItemAfterBlankLine_iff.mp found
  obtain ⟨blank, next, rfl, -, opens⟩ := endsBlankLineBeforeItem_iff.mp ends
  rw [hasItem, opensItemAtLineStart_iff]
  exact ⟨(before ++ '\n' :: blank) ++ ['\n'], next, by simp, .inr List.getLast?_concat,
    opens⟩

theorem hasSpacedItems_eq_hasItemAfterBlankLine (text : Text) :
    text.hasSpacedItems = text.hasItemAfterBlankLine := by
  rw [hasSpacedItems]
  cases found : text.hasItemAfterBlankLine with
  | false => rw [Bool.and_false]
  | true => rw [hasItem_of_hasItemAfterBlankLine found, Bool.and_true]

theorem hasItemAfterBlankLine_iff_lines {text : Text} :
    text.hasItemAfterBlankLine = true ↔
      ∃ above blank run line below,
        text.lines = above ++ blank :: (run ++ line :: below) ∧ above ≠ [] ∧
          (∀ other ∈ blank :: run, Line.isBlank other = true) ∧
          Line.ShowsItem (below ≠ []) line := by
  rw [hasItemAfterBlankLine_iff]
  constructor
  · intro found
    obtain ⟨before, after, rfl, ends⟩ := found
    obtain ⟨blank, next, rfl, spaces, opens⟩ := endsBlankLineBeforeItem_iff.mp ends
    obtain ⟨run, line, below, nextLines, runBlank, shows⟩ := opensItem_iff_lines.mp opens
    have unbroken : '\n' ∉ blank := by
      intro member
      exact absurd (spaces '\n' member) (by decide)
    have isBlank : Line.isBlank blank = true := by
      apply Line.isBlank_iff.mpr
      intro character member
      exact (Bool.and_eq_true_iff.mp (spaces character member)).1
    refine ⟨Text.lines before, blank, run, line, below, ?_, lines_ne_nil before,
      List.forall_mem_cons.mpr ⟨isBlank, runBlank⟩, shows⟩
    rw [lines_append_newline, lines_append_newline, lines_of_newline_notMem unbroken,
      nextLines, List.singleton_append]
  · intro found
    obtain ⟨above, blank, run, line, below, split, nonempty, blanks, shows⟩ := found
    obtain ⟨isBlank, runBlank⟩ := List.forall_mem_cons.mp blanks
    have unbroken : ∀ other ∈ above ++ blank :: (run ++ line :: below), '\n' ∉ other :=
      fun other member => newline_notMem_of_mem_lines (split ▸ member)
    have whole : text =
        ofLines above ++ '\n' :: (blank ++ '\n' :: ofLines (run ++ line :: below)) := by
      rw [← ofLines_lines text, split, ofLines_append nonempty (List.cons_ne_nil _ _),
        ofLines_cons_of_ne_nil blank (by simp)]
    refine ⟨ofLines above, _, whole, ?_⟩
    apply endsBlankLineBeforeItem_iff.mpr
    refine ⟨blank, _, rfl, ?_, ?_⟩
    · intro character member
      have different : character ≠ '\n' := by
        intro equality
        subst equality
        exact unbroken blank (by simp) member
      simp [Line.isBlank_iff.mp isBlank character member, different]
    · apply opensItem_iff_lines.mpr
      refine ⟨run, line, below, lines_ofLines (by simp) ?_, runBlank, shows⟩
      intro other member
      exact unbroken other (List.mem_append_right _ (List.mem_cons_of_mem _ member))

/-! ## Line numbers -/

theorem eq_take_append_drop_of_getElem? {lines : List Line} {number : Nat} {line next : Line}
    (here : lines[number]? = some line) (below : lines[number + 1]? = some next) :
    lines = lines.take number ++ line :: next :: lines.drop (number + 2) := by
  obtain ⟨inside, rfl⟩ := List.getElem?_eq_some_iff.mp here
  obtain ⟨nextInside, rfl⟩ := List.getElem?_eq_some_iff.mp below
  rw [← List.drop_eq_getElem_cons nextInside, ← List.drop_eq_getElem_cons inside,
    List.take_append_drop]

/-- The same lines said by their numbers, counted from zero: the first one that is blank,
and the one that shows an item. -/
theorem exists_split_iff_exists_numbers {lines : List Line} :
    (∃ above blank run line below,
      lines = above ++ blank :: (run ++ line :: below) ∧ above ≠ [] ∧
        (∀ other ∈ blank :: run, Line.isBlank other = true) ∧
        Line.ShowsItem (below ≠ []) line) ↔
      ∃ first item line, 1 ≤ first ∧ first < item ∧
        (∀ number, first ≤ number → number < item →
          ∃ blank, lines[number]? = some blank ∧ Line.isBlank blank = true) ∧
        lines[item]? = some line ∧ Line.ShowsItem (item + 1 < lines.length) line := by
  constructor
  · intro found
    obtain ⟨above, blank, run, line, below, split, nonempty, blanks, shows⟩ := found
    have regrouped : lines = above ++ ((blank :: run) ++ line :: below) := split
    refine ⟨above.length, above.length + (blank :: run).length, line,
      List.length_pos_of_ne_nil nonempty, by simp, ?_, ?_, shows.mono ?_⟩
    · intro number fromFirst toItem
      have inRun : number - above.length < (blank :: run).length := by omega
      refine ⟨(blank :: run)[number - above.length], ?_, blanks _ (List.getElem_mem inRun)⟩
      rw [regrouped, List.getElem?_append_right fromFirst,
        List.getElem?_append_left inRun, List.getElem?_eq_getElem inRun]
    · rw [regrouped, List.getElem?_append_right (Nat.le_add_right _ _),
        Nat.add_sub_cancel_left, List.getElem?_append_right (Nat.le_refl _), Nat.sub_self,
        List.getElem?_cons_zero]
    · intro more
      have positive := List.length_pos_of_ne_nil more
      rw [regrouped, List.length_append, List.length_append, List.length_cons (a := line)]
      omega
  · intro found
    obtain ⟨first, item, line, notFirst, order, blanks, here, shows⟩ := found
    -- The blank line right above the item is the only one that is asked for.
    obtain ⟨number, rfl⟩ : ∃ number, item = number + 1 :=
      Nat.exists_eq_succ_of_ne_zero (by omega)
    obtain ⟨blank, isHere, isBlank⟩ := blanks number (by omega) (by omega)
    obtain ⟨inside, -⟩ := List.getElem?_eq_some_iff.mp isHere
    refine ⟨lines.take number, blank, [], line, lines.drop (number + 2),
      eq_take_append_drop_of_getElem? isHere here, ?_, by simpa using isBlank, shows.mono ?_⟩
    · intro none
      have length := congrArg List.length none
      rw [List.length_take, List.length_nil] at length
      omega
    · intro further none
      have outside := List.drop_eq_nil_iff.mp none
      omega

/-- The quick look says yes exactly where, counting lines from zero, some blank lines stand
above a line that shows an item, the uppermost of them not being the first line of the
text.  Only a line that is not the last one may end right behind its marker.  The pattern
for items adds nothing: the other pattern occurs only where it does too. -/
theorem hasSpacedItems_iff_lines (text : Text) :
    (text.hasSpacedItems = true ↔
      ∃ first item line, 1 ≤ first ∧ first < item ∧
        (∀ number, first ≤ number → number < item →
          ∃ blank, text.lines[number]? = some blank ∧ Line.isBlank blank = true) ∧
        text.lines[item]? = some line ∧
        Line.ShowsItem (item + 1 < text.lines.length) line) ∧
      (text.hasSpacedItems = true ↔ Pattern.spacedItem.OccursIn text) ∧
      (Pattern.spacedItem.OccursIn text → Pattern.item.OccursIn text) := by
  rw [hasSpacedItems_eq_hasItemAfterBlankLine]
  refine ⟨?_, hasItemAfterBlankLine_iff_occursIn, ?_⟩
  · exact hasItemAfterBlankLine_iff_lines.trans exists_split_iff_exists_numbers
  · intro occurs
    apply hasItem_iff_occursIn.mp
    apply hasItem_of_hasItemAfterBlankLine
    exact hasItemAfterBlankLine_iff_occursIn.mpr occurs

/-- A marker at the end of its line, behind blank lines with a mark and a return, is seen
for the break behind it. -/
theorem hasSpacedItems_iff_lines_bare_marker :
    let text : Text := "x\n\uFEFF\n \r\n\t10.\n".toList
    text.hasSpacedItems = true ∧ Pattern.spacedItem.OccursIn text ∧
      Pattern.item.OccursIn text := by
  intro text
  obtain ⟨-, second, first⟩ := hasSpacedItems_iff_lines text
  have found : text.hasSpacedItems = true := by decide
  have occurs := second.mp found
  exact ⟨found, occurs, first occurs⟩

/-- At the very end of a text nothing follows the marker. -/
example : Text.hasSpacedItems "x\n\uFEFF\n \r\n\t10.".toList = false := by decide

end Text

end TightLists
