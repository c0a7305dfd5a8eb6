import TightLists.Proofs.QuickLookLines
import TightLists.Proofs.ReportedGaps

/-!
# Line breaks with and without returns

A text may break its lines with a line feed alone or with a carriage return before it.  The
return stays on the line that it ends, so it must not count there.  A list item is looked for
without it, a blank line may have it, and to the quick look it is space behind a marker like
the line feed that it stands before.

So it does not matter whether returns are put before all line feeds before a pass or after
it (`tighten_withReturns`).
-/

namespace TightLists

/-- The text with a carriage return before every line feed. -/
def Text.withReturns (text : Text) : Text :=
  text.flatMap fun character => if character = '\n' then ['\r', '\n'] else [character]

/-- The lines with a carriage return at the end of each one that a line feed ends. -/
def returnAllButLast : List Line → List Line
  | [] => []
  | [last] => [last]
  | line :: next :: rest => (line ++ ['\r']) :: returnAllButLast (next :: rest)

/-! ## One line with a return -/

namespace Line

@[simp] theorem isBlank_concat_return (line : Line) :
    isBlank (line ++ ['\r']) = line.isBlank := by
  have returnIsSpace : isLineSpace '\r' = true := by decide
  simp [isBlank, returnIsSpace]

variable {line : Line}

theorem isListItem_concat_return (plain : line.getLast? ≠ some '\r') :
    isListItem (line ++ ['\r']) = line.isListItem := by
  have unchanged : line.withoutReturn = line := if_neg plain
  rw [isListItem, withoutReturn_concat, isListItem, unchanged]

theorem kind_concat_return (plain : line.getLast? ≠ some '\r') :
    kind (line ++ ['\r']) = line.kind := by
  rw [kind, kind, isListItem_concat_return plain, isBlank_concat_return]

/-- A marker at the end of a broken line has space behind it, be it the return or the line
feed. -/
theorem showsItem_concat_return_iff {broken : Prop} (isBroken : broken) :
    ShowsItem broken (line ++ ['\r']) ↔ ShowsItem broken line := by
  constructor
  · intro shows
    generalize whole : line ++ ['\r'] = longer at shows
    cases shows with
    | @spaced indent marker rest space indented isMarker isSpace =>
        rcases List.eq_nil_or_concat' rest with rfl | ⟨front, last, rfl⟩
        · have split : line ++ ['\r'] = (indent ++ marker) ++ [space] := by simp [whole]
          obtain ⟨rfl, -⟩ := List.append_inj' split rfl
          exact .ended indented isMarker isBroken
        · have split : line ++ ['\r'] = (indent ++ (marker ++ space :: front)) ++ [last] := by
            simp [whole]
          obtain ⟨rfl, -⟩ := List.append_inj' split rfl
          exact .spaced indented isMarker isSpace
    | @ended indent marker indented isMarker =>
        -- No marker ends in a return.
        have sameEnd : (indent ++ marker).getLast? = some '\r' := by simp [← whole]
        cases isMarker with
        | hyphen => simp at sameEnd
        | asterisk => simp at sameEnd
        | number => simp [← List.append_assoc] at sameEnd
  · intro shows
    cases shows with
    | @spaced indent marker rest space indented isMarker isSpace =>
        have whole : (indent ++ (marker ++ space :: rest)) ++ ['\r'] =
            indent ++ (marker ++ space :: (rest ++ ['\r'])) := by simp
        rw [whole]
        exact .spaced indented isMarker isSpace
    | @ended indent marker indented isMarker =>
        rw [List.append_assoc]
        exact .spaced indented isMarker (by decide)

end Line

/-! ## All lines -/

theorem returnAllButLast_cons (line : Line) {rest : List Line} (more : rest ≠ []) :
    returnAllButLast (line :: rest) = (line ++ ['\r']) :: returnAllButLast rest := by
  obtain ⟨next, rest, rfl⟩ := List.exists_cons_of_ne_nil more
  rfl

theorem returnAllButLast_ne_nil {lines : List Line} (nonempty : lines ≠ []) :
    returnAllButLast lines ≠ [] := by
  obtain ⟨line, rest, rfl⟩ := List.exists_cons_of_ne_nil nonempty
  cases rest with
  | nil => exact List.cons_ne_nil line []
  | cons next rest => exact List.cons_ne_nil _ _

theorem getElem?_returnAllButLast (lines : List Line) (position : Nat) :
    (returnAllButLast lines)[position]? =
      lines[position]?.map fun line =>
        if position + 1 < lines.length then line ++ ['\r'] else line := by
  induction lines generalizing position with
  | nil => rfl
  | cons line rest induction =>
      by_cases more : rest = []
      · subst more
        cases position <;> simp [returnAllButLast]
      · have positive := List.length_pos_of_ne_nil more
        rw [returnAllButLast_cons line more]
        cases position with
        | zero => simp [positive]
        | succ position => simp [induction]

theorem length_returnAllButLast (lines : List Line) :
    (returnAllButLast lines).length = lines.length := by
  induction lines with
  | nil => rfl
  | cons line rest induction =>
      by_cases more : rest = []
      · rw [more, returnAllButLast]
      · rw [returnAllButLast_cons line more, List.length_cons, List.length_cons, induction]

/-! ## Passes -/

/-- Of these lines, only the last one may end in a carriage return. -/
def PlainlyBroken (lines : List Line) : Prop :=
  ∀ line ∈ lines.dropLast, line.getLast? ≠ some '\r'

theorem PlainlyBroken.of_cons {line : Line} {rest : List Line} (more : rest ≠ [])
    (plain : PlainlyBroken (line :: rest)) :
    line.getLast? ≠ some '\r' ∧ PlainlyBroken rest := by
  rw [PlainlyBroken, List.dropLast_cons_of_ne_nil more, List.forall_mem_cons] at plain
  exact plain

theorem leadsToItem_returnAllButLast {lines : List Line} (plain : PlainlyBroken lines) :
    leadsToItem (returnAllButLast lines) = leadsToItem lines := by
  induction lines with
  | nil => rfl
  | cons line rest induction =>
      by_cases more : rest = []
      · rw [more, returnAllButLast]
      · obtain ⟨plainLine, plainRest⟩ := plain.of_cons more
        rw [returnAllButLast_cons line more, leadsToItem_cons, leadsToItem_cons,
          Line.isBlank_concat_return, Line.isListItem_concat_return plainLine,
          induction plainRest]

theorem tightenLines_returnAllButLast {lines : List Line} (plain : PlainlyBroken lines)
    (underItem : Bool) :
    tightenLines underItem (returnAllButLast lines) =
      returnAllButLast (tightenLines underItem lines) := by
  induction lines generalizing underItem with
  | nil => rfl
  | cons line rest induction =>
      by_cases more : rest = []
      · subst more
        rw [returnAllButLast, tightenLines]
        split
        · simp [tightenLines, returnAllButLast]
        · rfl
      · -- Something is kept of the rest, so the return of a kept line stays on it.
        obtain ⟨plainLine, plainRest⟩ := plain.of_cons more
        have keepsReturn (under : Bool) :
            returnAllButLast (line :: tightenLines under rest) =
              (line ++ ['\r']) :: returnAllButLast (tightenLines under rest) :=
          returnAllButLast_cons line (tightenLines_ne_nil under more)
        rw [returnAllButLast_cons line more, tightenLines, tightenLines,
          Line.isBlank_concat_return, Line.isListItem_concat_return plainLine,
          leadsToItem_returnAllButLast plainRest]
        split
        · split
          · exact induction plainRest underItem
          · rw [keepsReturn, induction plainRest]
        · rw [keepsReturn, induction plainRest]

theorem kindAt?_returnAllButLast {lines : List Line} (plain : PlainlyBroken lines)
    (first : Nat) : kindAt? first (returnAllButLast lines) = kindAt? first lines := by
  funext number
  rw [kindAt?, kindAt?, getElem?_returnAllButLast]
  split
  · cases there : lines[number - first]? with
    | none => rfl
    | some line =>
        simp only [Option.map_some]
        split
        · rename_i broken
          have inFront : line ∈ lines.dropLast := by
            have inside : number - first < lines.dropLast.length := by
              rw [List.length_dropLast]
              omega
            apply List.mem_of_getElem? (i := number - first)
            rw [List.getElem?_eq_getElem inside, List.getElem_dropLast, ← there,
              List.getElem?_eq_getElem]
          rw [Line.kind_concat_return (plain line inFront)]
        · rfl
  · rfl

theorem gaps_scanFrom_returnAllButLast {lines : List Line} (plain : PlainlyBroken lines)
    (first : Nat) :
    (scanFrom first (returnAllButLast lines)).gaps = (scanFrom first lines).gaps := by
  apply gaps_scanFrom_eq (pairwise_gaps_scanFrom first lines)
  intro gap
  rw [mem_gaps_scanFrom_iff, kindAt?_returnAllButLast plain]

namespace Text

/-! ## Texts -/

theorem withReturns_append (first second : Text) :
    Text.withReturns (first ++ second) = first.withReturns ++ second.withReturns :=
  List.flatMap_append

theorem withReturns_of_newline_notMem {text : Text} (unbroken : '\n' ∉ text) :
    text.withReturns = text := by
  have single : ∀ character ∈ text,
      (if character = '\n' then ['\r', '\n'] else [character]) = [character] := by
    intro character member
    apply if_neg
    rintro rfl
    exact unbroken member
  rw [withReturns, List.flatMap_congr single, List.flatMap_singleton']

theorem withReturns_ofLines {lines : List Line} (unbroken : ∀ line ∈ lines, '\n' ∉ line) :
    (ofLines lines).withReturns = ofLines (returnAllButLast lines) := by
  induction lines with
  | nil => rfl
  | cons line rest induction =>
      obtain ⟨lineUnbroken, restUnbroken⟩ := List.forall_mem_cons.mp unbroken
      by_cases more : rest = []
      · rw [more, returnAllButLast]
        have alone : ofLines [line] = line := by simp [ofLines]
        rw [alone, withReturns_of_newline_notMem lineUnbroken]
      · have broken : Text.withReturns ('\n' :: ofLines rest) =
            '\r' :: '\n' :: (ofLines rest).withReturns := rfl
        rw [returnAllButLast_cons line more, ofLines_cons_of_ne_nil line more,
          ofLines_cons_of_ne_nil _ (returnAllButLast_ne_nil more), withReturns_append,
          withReturns_of_newline_notMem lineUnbroken, broken, induction restUnbroken]
        simp

theorem newline_notMem_of_mem_returnAllButLast {lines : List Line}
    (unbroken : ∀ line ∈ lines, '\n' ∉ line) :
    ∀ line ∈ returnAllButLast lines, '\n' ∉ line := by
  intro returned member
  obtain ⟨position, there⟩ := List.mem_iff_getElem?.mp member
  rw [getElem?_returnAllButLast] at there
  obtain ⟨line, found, rfl⟩ := Option.map_eq_some_iff.mp there
  have lineUnbroken := unbroken line (List.mem_of_getElem? found)
  split
  · simpa using lineUnbroken
  · exact lineUnbroken

theorem lines_withReturns (text : Text) :
    text.withReturns.lines = returnAllButLast text.lines := by
  have unbroken : ∀ line ∈ text.lines, '\n' ∉ line := fun _ => newline_notMem_of_mem_lines
  rw [← lines_ofLines (returnAllButLast_ne_nil text.lines_ne_nil)
    (newline_notMem_of_mem_returnAllButLast unbroken), ← withReturns_ofLines unbroken,
    ofLines_lines]

/-- A text has a return before a line feed where a line that is not the last one ends in a
return. -/
theorem plainlyBroken_lines {text : Text} (plain : ¬['\r', '\n'] <:+: text) :
    PlainlyBroken text.lines := by
  intro line member ends
  obtain ⟨above, below, split⟩ := List.append_of_mem member
  obtain ⟨front, rfl⟩ := List.getLast?_eq_some_iff.mp ends
  apply plain
  have lines : text.lines =
      above ++ (front ++ ['\r']) :: (below ++ [text.lines.getLast text.lines_ne_nil]) := by
    conv => lhs; rw [← List.dropLast_concat_getLast text.lines_ne_nil, split]
    simp
  have suffix : ofLines ((front ++ ['\r']) :: (below ++ [text.lines.getLast text.lines_ne_nil]))
      <:+ text := by
    conv => rhs; rw [← ofLines_lines text, lines]
    by_cases first : above = []
    · rw [first]
      exact List.suffix_rfl
    · rw [ofLines_append first (List.cons_ne_nil _ _)]
      exact ⟨ofLines above ++ ['\n'], by simp⟩
  rw [ofLines_cons_of_ne_nil _ (by simp)] at suffix
  apply List.IsInfix.trans _ suffix.isInfix
  exact ⟨front, ofLines (below ++ [text.lines.getLast text.lines_ne_nil]), by simp⟩

theorem hasSpacedItems_withReturns (text : Text) :
    text.withReturns.hasSpacedItems = text.hasSpacedItems := by
  have blankAt (position : Nat) :
      (∃ blank, (returnAllButLast text.lines)[position]? = some blank ∧
          Line.isBlank blank = true) ↔
        ∃ blank, text.lines[position]? = some blank ∧ Line.isBlank blank = true := by
    rw [getElem?_returnAllButLast]
    cases text.lines[position]? with
    | none => simp
    | some line => by_cases broken : position + 1 < text.lines.length <;> simp [broken]
  have itemAt (position : Nat) :
      (∃ line, (returnAllButLast text.lines)[position]? = some line ∧
          Line.ShowsItem (position + 1 < (returnAllButLast text.lines).length) line) ↔
        ∃ line, text.lines[position]? = some line ∧
          Line.ShowsItem (position + 1 < text.lines.length) line := by
    rw [getElem?_returnAllButLast, length_returnAllButLast]
    cases text.lines[position]? with
    | none => simp
    | some line =>
        by_cases broken : position + 1 < text.lines.length
        · simp [broken, Line.showsItem_concat_return_iff]
        · simp [broken]
  apply Bool.eq_iff_iff.mpr
  rw [hasSpacedItems_eq_hasItemAfterBlankLine, hasSpacedItems_eq_hasItemAfterBlankLine,
    hasItemAfterBlankLine_iff_lines, hasItemAfterBlankLine_iff_lines,
    exists_split_iff_exists_numbers, exists_split_iff_exists_numbers, lines_withReturns]
  simp only [exists_and_left, blankAt, itemAt]

/-- In a text without returns before its line feeds, it does not matter to a pass whether
they are put there first: the result is the same with returns put before its line feeds, and
the same gaps are reported.  Nor does it matter to the quick look. -/
theorem tighten_withReturns (text : Text) (plain : ¬['\r', '\n'] <:+: text) :
    text.withReturns.tightened = text.tightened.withReturns ∧
      text.withReturns.tighten.gaps = text.tighten.gaps ∧
      text.withReturns.tighten.collapsedRuns = text.tighten.collapsedRuns ∧
      text.withReturns.tighten.removedLines = text.tighten.removedLines ∧
      text.withReturns.hasSpacedItems = text.hasSpacedItems := by
  have plainLines := plainlyBroken_lines plain
  have keptUnbroken : ∀ line ∈ tightenLines false text.lines, '\n' ∉ line := by
    intro line member
    have inText : line ∈ text.lines := (tightenLines_sublist false text.lines).subset member
    exact newline_notMem_of_mem_lines inText
  have sameGaps : text.withReturns.tighten.gaps = text.tighten.gaps := by
    rw [gaps_tighten_of_lines text.lines_withReturns,
      gaps_scanFrom_returnAllButLast plainLines]
    rfl
  refine ⟨?_, sameGaps, ?_, ?_, hasSpacedItems_withReturns text⟩
  · rw [tightened_eq_ofLines, lines_withReturns, tightenLines_returnAllButLast plainLines,
      tightened_eq_ofLines, withReturns_ofLines keptUnbroken]
  · rw [Tightening.collapsedRuns, Tightening.collapsedRuns, sameGaps]
  · rw [Tightening.removedLines, Tightening.removedLines, sameGaps]

/-- A mark at the front, a return inside a line, blank lines that are not empty, a bare
marker, and a return at the very end that no line feed follows. -/
theorem tighten_withReturns_lone_returns :
    let text : Text := "\uFEFF- a\rb\n \t\n\n* c\n\n-\n\n1. d\n\r".toList
    ¬['\r', '\n'] <:+: text ∧
      text.withReturns.tightened = text.tightened.withReturns ∧
      text.withReturns.tighten.removedLines = text.tighten.removedLines ∧
      text.tighten.removedLines = 2 ∧
      text.withReturns.hasSpacedItems = text.hasSpacedItems := by
  intro text
  have plain : ¬['\r', '\n'] <:+: text := by decide +kernel
  obtain ⟨tightened, -, -, removed, look⟩ := tighten_withReturns text plain
  exact ⟨plain, tightened, removed, by decide +kernel, look⟩

end Text

end TightLists
