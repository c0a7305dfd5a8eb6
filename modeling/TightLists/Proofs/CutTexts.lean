import TightLists.Proofs.ReportedGaps

/-!
# Cutting a text at a line

A run of blank lines ends at every line that is not blank.  So no gap reaches over such a
line, and what a pass does above it has nothing to do with what it does below.  A text may
be cut there, with the line itself kept on both sides, and a pass over the whole text is a
pass over each of the two parts (`tighten_cut`).
-/

namespace TightLists

/-! ## The lines that are kept -/

theorem leadsToItem_append_of_solid {line : Line} (solid : line.isBlank = false)
    (above below : List Line) :
    leadsToItem (above ++ line :: below) = leadsToItem (above ++ [line]) := by
  induction above with
  | nil => simp [leadsToItem_cons, solid]
  | cons first above induction =>
      rw [List.cons_append, List.cons_append, leadsToItem_cons, leadsToItem_cons, induction]

theorem tightenLines_append_of_solid {line : Line} (solid : line.isBlank = false)
    (underItem : Bool) (above below : List Line) :
    tightenLines underItem (above ++ line :: below) =
      tightenLines underItem (above ++ [line]) ++ tightenLines line.isListItem below := by
  induction above generalizing underItem with
  | nil => simp [tightenLines, solid]
  | cons first above induction =>
      rw [List.cons_append, List.cons_append, tightenLines, tightenLines,
        leadsToItem_append_of_solid solid]
      split
      · split
        · exact induction underItem
        · exact congrArg (first :: ·) (induction underItem)
      · exact congrArg (first :: ·) (induction first.isListItem)

/-! ## The gaps that are reported -/

theorem lt_of_kindAt?_eq_some {first number : Nat} {lines : List Line} {kind : LineKind}
    (found : kindAt? first lines number = some kind) : number < first + lines.length := by
  have started := le_of_kindAt?_eq_some found
  rw [kindAt?, if_pos started] at found
  obtain ⟨line, there, -⟩ := Option.map_eq_some_iff.mp found
  obtain ⟨inside, -⟩ := List.getElem?_eq_some_iff.mp there
  omega

theorem gaps_scanFrom_append_of_solid {line : Line} (solid : line.isBlank = false)
    (first : Nat) (above below : List Line) :
    (scanFrom first (above ++ line :: below)).gaps =
      (scanFrom first (above ++ [line])).gaps ++
        (scanFrom (first + above.length) (line :: below)).gaps := by
  have whole : above ++ line :: below = (above ++ [line]) ++ below := by simp
  have sameAbove : ∀ number, number ≤ first + above.length →
      kindAt? first (above ++ line :: below) number =
        kindAt? first (above ++ [line]) number := by
    intro number upTo
    have inside : number < first + (above ++ [line]).length := by
      rw [List.length_append, List.length_singleton]
      omega
    rw [whole, kindAt?_append, if_pos inside]
  have sameBelow : ∀ number, first + above.length ≤ number →
      kindAt? first (above ++ line :: below) number =
        kindAt? (first + above.length) (line :: below) number := by
    intro number past
    rw [kindAt?_append, if_neg (Nat.not_lt.mpr past)]
  have here : kindAt? first (above ++ line :: below) (first + above.length) ≠
      some .blank := by
    rw [sameBelow _ (Nat.le_refl _), kindAt?_cons_self]
    simp [solid]
  have endsAbove : ∀ gap : Gap, gap.LiesIn (kindAt? first (above ++ [line])) →
      gap.below ≤ first + above.length := by
    intro gap lies
    have inside := lt_of_kindAt?_eq_some lies.itemBelow
    rw [List.length_append, List.length_singleton] at inside
    omega
  apply gaps_scanFrom_eq
  · apply List.pairwise_append.mpr
    refine ⟨pairwise_gaps_scanFrom _ _, pairwise_gaps_scanFrom _ _, ?_⟩
    intro gap isAbove later isBelow
    have ends := endsAbove gap (mem_gaps_scanFrom_iff.mp isAbove)
    have starts := le_above_of_mem_gaps isBelow
    have meet := Nat.le_trans ends starts
    exact ⟨Nat.lt_of_lt_of_le gap.above_lt_below meet, meet⟩
  · intro gap
    rw [List.mem_append, mem_gaps_scanFrom_iff, mem_gaps_scanFrom_iff]
    constructor
    · intro parts
      rcases parts with isAbove | isBelow
      · have ends := endsAbove gap isAbove
        apply isAbove.congr
        intro number _ toBelow
        exact sameAbove number (Nat.le_trans toBelow ends)
      · have starts := le_of_kindAt?_eq_some isBelow.itemAbove
        apply isBelow.congr
        intro number fromAbove _
        exact sameBelow number (Nat.le_trans starts fromAbove)
    · intro lies
      -- The line in between is not blank, so it is not inside the gap.
      rcases Nat.lt_or_ge gap.above (first + above.length) with higher | lower
      · left
        have ends := lies.below_le higher here
        apply lies.congr
        intro number _ toBelow
        exact (sameAbove number (Nat.le_trans toBelow ends)).symm
      · right
        apply lies.congr
        intro number fromAbove _
        exact (sameBelow number (Nat.le_trans lower fromAbove)).symm

/-- The gap further down, below so many lines more. -/
def Gap.lowered (count : Nat) (gap : Gap) : Gap :=
  { gap with above := gap.above + count }

theorem gaps_scanFrom_add (first count : Nat) (lines : List Line) :
    (scanFrom (first + count) lines).gaps =
      (scanFrom first lines).gaps.map (Gap.lowered count) := by
  fun_induction scanFrom first lines with
  | case1 first => simp [scanFrom]
  | case2 first line rest isItem run next below found induction =>
      have start : first + count + 1 + run.length = first + 1 + run.length + count := by
        omega
      rw [scanFrom, if_pos isItem, if_pos found, List.map_cons, ← induction, ← start]
      rfl
  | case3 first line rest isItem run next below noGap induction =>
      have start : first + count + 1 + run.length = first + 1 + run.length + count := by
        omega
      rw [scanFrom, if_pos isItem, if_neg noGap, ← induction, ← start]
  | case4 first line rest notItem below induction =>
      rw [scanFrom, if_neg notItem, ← induction, Nat.add_right_comm]

namespace Text

/-- A text may be cut at a line that is not blank.  A pass over the whole text leaves what
it leaves of the upper part, then what it leaves of the lower part, without the line that
both have.  It reports the gaps of the upper part and then those of the lower part, and so
its statistics are the sums of theirs. -/
theorem tighten_cut (before after : Text) {line : Line} (unbroken : '\n' ∉ line)
    (solid : line.isBlank = false) :
    let whole := Text.tighten (before ++ '\n' :: (line ++ '\n' :: after))
    let upper := Text.tighten (before ++ '\n' :: line)
    let lower := Text.tighten (line ++ '\n' :: after)
    line <+: lower.text ∧
      whole.text = upper.text ++ lower.text.drop line.length ∧
      whole.gaps = upper.gaps ++ lower.gaps.map (Gap.lowered before.lines.length) ∧
      whole.collapsedRuns = upper.collapsedRuns + lower.collapsedRuns ∧
      whole.removedLines = upper.removedLines + lower.removedLines := by
  intro whole upper lower
  have upperLines : Text.lines (before ++ '\n' :: line) = before.lines ++ [line] := by
    rw [lines_append_newline, lines_of_newline_notMem unbroken]
  have lowerLines : Text.lines (line ++ '\n' :: after) = line :: after.lines := by
    rw [lines_append_newline, lines_of_newline_notMem unbroken, List.singleton_append]
  have wholeLines : Text.lines (before ++ '\n' :: (line ++ '\n' :: after)) =
      before.lines ++ line :: after.lines := by
    rw [lines_append_newline, lowerLines]
  have keptBelow : tightenLines line.isListItem after.lines ≠ [] :=
    tightenLines_ne_nil _ after.lines_ne_nil
  have lowerText : lower.text =
      line ++ '\n' :: ofLines (tightenLines line.isListItem after.lines) := by
    have solidFirst : tightenLines false (line :: after.lines) =
        [line] ++ tightenLines line.isListItem after.lines := by
      simp [tightenLines, solid]
    rw [text_tighten_of_lines lowerLines, solidFirst,
      ofLines_append (List.cons_ne_nil line []) keptBelow]
    simp [ofLines]
  have wholeText : whole.text =
      upper.text ++ '\n' :: ofLines (tightenLines line.isListItem after.lines) := by
    rw [text_tighten_of_lines wholeLines, text_tighten_of_lines upperLines,
      tightenLines_append_of_solid solid,
      ofLines_append (tightenLines_ne_nil false (by simp)) keptBelow]
  have gaps : whole.gaps = upper.gaps ++ lower.gaps.map (Gap.lowered before.lines.length) := by
    rw [gaps_tighten_of_lines wholeLines, gaps_tighten_of_lines upperLines,
      gaps_tighten_of_lines lowerLines, gaps_scanFrom_append_of_solid solid,
      gaps_scanFrom_add]
  refine ⟨?_, ?_, gaps, ?_, ?_⟩
  · rw [lowerText]
    exact List.prefix_append line _
  · rw [wholeText, lowerText, List.drop_left]
  · simp [Tightening.collapsedRuns, gaps]
  · have sameBlanks : Gap.blanks ∘ Gap.lowered before.lines.length = Gap.blanks := rfl
    simp [Tightening.removedLines_eq_sum, gaps, sameBlanks]

/-- The list item at the cut stands between two runs of blank lines.  It ends the gap above
it and begins the one below it. -/
theorem tighten_cut_between_gaps :
    let before : Text := "x\n\n- a\n \t".toList
    let line : Line := "- b\r".toList
    let after : Text := "\n\r\n1. c".toList
    let whole := Text.tighten (before ++ '\n' :: (line ++ '\n' :: after))
    let upper := Text.tighten (before ++ '\n' :: line)
    let lower := Text.tighten (line ++ '\n' :: after)
    '\n' ∉ line ∧ line.isBlank = false ∧
      whole.text = upper.text ++ lower.text.drop line.length ∧
      upper.removedLines = 1 ∧ lower.removedLines = 2 ∧ whole.removedLines = 1 + 2 := by
  intro before line after whole upper lower
  have unbroken : '\n' ∉ line := by decide
  have solid : line.isBlank = false := by decide
  obtain ⟨-, text, -, -, removed⟩ := tighten_cut before after unbroken solid
  have above : upper.removedLines = 1 := by decide +kernel
  have below : lower.removedLines = 2 := by decide +kernel
  refine ⟨unbroken, solid, text, above, below, ?_⟩
  exact removed.trans (by rw [above, below])

end Text

end TightLists
