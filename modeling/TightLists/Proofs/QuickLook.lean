import TightLists.Proofs.Pattern
import TightLists.Proofs.RemovedLines

/-!
# What the quick look sees

The quick look goes over the characters and answers whether two patterns occur
in a text.  `hasSpacedItems_iff_occursIn` says that it finds a match whenever
there is one.

Tightening knows lines, not patterns.  A blank line that it removes stands above
a list item, perhaps with more blank lines in between, and the last of these
ends a match of both patterns.  So a text that the quick look turns down is a
text that tightening leaves alone.
-/

namespace TightLists

namespace Text

/-! ## The two scans -/

theorem opensItemAtLineStart_iff {atLineStart : Bool} {text : Text} :
    opensItemAtLineStart atLineStart text = true ↔
      ∃ before after, text = before ++ after ∧
        (before = [] ∧ atLineStart = true ∨ before.getLast? = some '\n') ∧
        opensItem after = true := by
  induction text generalizing atLineStart with
  | nil =>
      constructor
      · intro found
        cases found
      · intro found
        obtain ⟨before, after, split, _, opens⟩ := found
        rw [(List.append_eq_nil_iff.mp split.symm).2] at opens
        cases opens
  | cons character rest induction =>
      rw [opensItemAtLineStart, Bool.or_eq_true, Bool.and_eq_true, induction]
      constructor
      · intro found
        rcases found with ⟨starts, opens⟩ | ⟨before, after, rfl, place, opens⟩
        · exact ⟨[], character :: rest, rfl, .inl ⟨rfl, starts⟩, opens⟩
        · refine ⟨character :: before, after, rfl, .inr ?_, opens⟩
          rcases place with ⟨rfl, isBreak⟩ | ends
          · simpa using isBreak
          · rw [List.getLast?_cons, ends]
            rfl
      · intro found
        obtain ⟨before, after, split, place, opens⟩ := found
        cases before with
        | nil =>
            rw [List.nil_append] at split
            rw [split]
            refine .inl ⟨?_, opens⟩
            rcases place with ⟨_, starts⟩ | ends
            · exact starts
            · cases ends
        | cons first before =>
            obtain ⟨rfl, rfl⟩ := List.cons.inj split
            refine .inr ⟨before, after, rfl, ?_, opens⟩
            rcases place with ⟨empty, _⟩ | ends
            · cases empty
            · cases before with
              | nil => exact .inl ⟨rfl, by simpa using ends⟩
              | cons second before => exact .inr ends

theorem hasItemAfterBlankLine_iff {text : Text} :
    text.hasItemAfterBlankLine = true ↔
      ∃ before after, text = before ++ '\n' :: after ∧
        endsBlankLineBeforeItem after = true := by
  induction text with
  | nil => simp [hasItemAfterBlankLine]
  | cons character rest induction =>
      rw [hasItemAfterBlankLine, Bool.or_eq_true, Bool.and_eq_true, induction]
      constructor
      · intro found
        rcases found with ⟨isBreak, ends⟩ | ⟨before, after, rfl, ends⟩
        · obtain rfl : character = '\n' := by simpa using isBreak
          exact ⟨[], rest, rfl, ends⟩
        · exact ⟨character :: before, after, rfl, ends⟩
      · intro found
        obtain ⟨before, after, split, ends⟩ := found
        cases before with
        | nil =>
            obtain ⟨rfl, rfl⟩ := List.cons.inj split
            exact .inl ⟨rfl, ends⟩
        | cons first before =>
            obtain ⟨rfl, rfl⟩ := List.cons.inj split
            exact .inr ⟨before, after, rfl, ends⟩

theorem endsBlankLineBeforeItem_iff {text : Text} :
    text.endsBlankLineBeforeItem = true ↔
      ∃ blank after, text = blank ++ '\n' :: after ∧
        (∀ character ∈ blank, (isLineSpace character && character != '\n') = true) ∧
        opensItem after = true := by
  constructor
  · intro ends
    unfold endsBlankLineBeforeItem at ends
    split at ends
    · rename_i after dropped
      refine ⟨text.takeWhile fun character => isLineSpace character && character != '\n',
        after, ?_, List.all_eq_true.mp List.all_takeWhile, ends⟩
      rw [← dropped, List.takeWhile_append_dropWhile]
    · cases ends
  · intro found
    obtain ⟨blank, after, rfl, spaces, opens⟩ := found
    rw [endsBlankLineBeforeItem, List.dropWhile_append_of_pos spaces,
      List.dropWhile_cons_of_neg (by simp)]
    exact opens

/-! ## The patterns -/

theorem hasItem_iff_occursIn {text : Text} :
    text.hasItem = true ↔ Pattern.item.OccursIn text := by
  rw [hasItem, opensItemAtLineStart_iff]
  constructor
  · intro found
    obtain ⟨before, after, rfl, place, opens⟩ := found
    obtain ⟨matched, behind, rfl, matching⟩ :=
      (Pattern.opensItem_iff_matches (before ++ [])).mp opens
    exact ⟨before, matched, behind, rfl,
      .andThen (.lineStart (place.imp_left And.left)) matching⟩
  · intro occurs
    obtain ⟨before, matched, after, rfl, matching⟩ := occurs
    obtain ⟨front, back, rfl, start, opens⟩ := Pattern.matches_andThen_iff.mp matching
    obtain ⟨rfl, place⟩ := Pattern.matches_lineStart_iff.mp start
    exact ⟨before, back ++ after, rfl, place.imp_left fun empty => ⟨empty, rfl⟩,
      (Pattern.opensItem_iff_matches _).mpr ⟨back, after, rfl, opens⟩⟩

private theorem matches_newline_iff {before matched : Text} :
    (Pattern.oneOf (· == '\n')).Matches before matched ↔ matched = ['\n'] := by
  rw [Pattern.matches_oneOf_iff]
  constructor
  · intro single
    obtain ⟨character, rfl, isBreak⟩ := single
    obtain rfl : character = '\n' := by simpa using isBreak
    rfl
  · intro equality
    subst equality
    exact ⟨'\n', rfl, rfl⟩

theorem hasItemAfterBlankLine_iff_occursIn {text : Text} :
    text.hasItemAfterBlankLine = true ↔ Pattern.spacedItem.OccursIn text := by
  rw [hasItemAfterBlankLine_iff]
  constructor
  · intro found
    obtain ⟨before, after, rfl, ends⟩ := found
    obtain ⟨blank, next, rfl, blankSpaces, opens⟩ := endsBlankLineBeforeItem_iff.mp ends
    obtain ⟨matched, behind, rfl, matching⟩ :=
      (Pattern.opensItem_iff_matches (before ++ ['\n'] ++ blank ++ ['\n'])).mp opens
    refine ⟨before, ['\n'] ++ (blank ++ (['\n'] ++ matched)), behind, by simp, ?_⟩
    exact .andThen (matches_newline_iff.mpr rfl)
      (.andThen (Pattern.matches_many_spaceInLine_iff.mpr blankSpaces)
        (.andThen (matches_newline_iff.mpr rfl) matching))
  · intro occurs
    obtain ⟨before, matched, after, rfl, matching⟩ := occurs
    obtain ⟨firstBreak, others, rfl, isFirst, matching⟩ :=
      Pattern.matches_andThen_iff.mp matching
    obtain ⟨blank, others, rfl, blankSpaces, matching⟩ :=
      Pattern.matches_andThen_iff.mp matching
    obtain ⟨secondBreak, opening, rfl, isSecond, matching⟩ :=
      Pattern.matches_andThen_iff.mp matching
    obtain rfl := matches_newline_iff.mp isFirst
    obtain rfl := matches_newline_iff.mp isSecond
    refine ⟨before, blank ++ '\n' :: (opening ++ after), by simp, ?_⟩
    exact endsBlankLineBeforeItem_iff.mpr ⟨blank, opening ++ after, rfl,
      Pattern.matches_many_spaceInLine_iff.mp blankSpaces,
      (Pattern.opensItem_iff_matches _).mpr ⟨opening, after, rfl, matching⟩⟩

theorem hasSpacedItems_iff_occursIn {text : Text} :
    text.hasSpacedItems = true ↔
      Pattern.item.OccursIn text ∧ Pattern.spacedItem.OccursIn text := by
  rw [hasSpacedItems, Bool.and_eq_true, hasItem_iff_occursIn,
    hasItemAfterBlankLine_iff_occursIn]

/-! ## Spacing is seen -/

theorem hasSpacedItems_of_lines {text : Text} {above below : List Line}
    {blank item : Line} (nonempty : above ≠ [])
    (split : text.lines = above ++ blank :: item :: below)
    (isBlank : blank.isBlank = true) (isItem : item.isListItem = true) :
    text.hasSpacedItems = true := by
  obtain ⟨more, itemFirst⟩ := exists_ofLines_cons_eq item below
  have opens : opensItem (item ++ more) = true :=
    Line.opensItem_append_of_isListItem isItem more
  have whole : text = ofLines above ++ '\n' :: (blank ++ '\n' :: (item ++ more)) := by
    have last : ofLines (blank :: item :: below) = blank ++ '\n' :: (item ++ more) := by
      rw [← itemFirst]
      simp [ofLines]
    rw [← ofLines_lines text, split, ofLines_append nonempty (List.cons_ne_nil _ _), last]
  have unbroken : '\n' ∉ blank :=
    newline_notMem_of_mem_lines (by rw [split]; simp)
  have spaces : ∀ character ∈ blank,
      (isLineSpace character && character != '\n') = true := by
    intro character member
    have different : character ≠ '\n' := by
      intro equality
      subst equality
      exact unbroken member
    simp [Line.isBlank_iff.mp isBlank character member, different]
  rw [hasSpacedItems, Bool.and_eq_true]
  constructor
  · rw [hasItem, opensItemAtLineStart_iff]
    exact ⟨(ofLines above ++ '\n' :: blank) ++ ['\n'], item ++ more,
      by simp [whole], .inr List.getLast?_concat, opens⟩
  · rw [hasItemAfterBlankLine_iff]
    exact ⟨ofLines above, blank ++ '\n' :: (item ++ more), whole,
      endsBlankLineBeforeItem_iff.mpr ⟨blank, item ++ more, rfl, spaces, opens⟩⟩

theorem hasSpacedItems_of_isSpacingAt {text : Text} {position : Nat}
    (spacing : isSpacingAt text.lines position = true) :
    text.hasSpacedItems = true := by
  obtain ⟨above, line, below, split, blank, follows, leads⟩ :=
    exists_of_isSpacingAt spacing
  obtain ⟨run, item, rest, rfl, runBlank, isItem⟩ := leadsToItem_iff.mp leads
  -- The match of the patterns ends behind the last blank line before the item.
  obtain ⟨front, last, concat⟩ : ∃ front last, line :: run = front ++ [last] :=
    ⟨_, _, (List.dropLast_concat_getLast (List.cons_ne_nil line run)).symm⟩
  have lastBlank : last.isBlank = true := by
    have member : last ∈ line :: run := by simp [concat]
    rcases List.mem_cons.mp member with rfl | later
    · exact blank
    · exact runBlank last later
  have nonempty : above ++ front ≠ [] :=
    List.append_ne_nil_of_left_ne_nil (ne_nil_of_followsItem follows) front
  have regrouped : text.lines = (above ++ front) ++ last :: item :: rest := by
    rw [split, ← List.cons_append, concat]
    simp
  exact hasSpacedItems_of_lines nonempty regrouped lastBlank isItem

/-- A text that the quick look turns down has nothing to tighten. -/
theorem tightened_eq_self_of_not_hasSpacedItems {text : Text}
    (turnedDown : text.hasSpacedItems = false) : text.tightened = text := by
  have noSpacing : ∀ position, isSpacingAt text.lines position = false := by
    intro position
    apply Bool.eq_false_iff.mpr
    intro spacing
    rw [hasSpacedItems_of_isSpacingAt spacing] at turnedDown
    cases turnedDown
  rw [tightened_eq_ofLines, ← withoutSpacing_eq_tightenLines,
    withoutSpacing_eq_self_iff.mpr noSpacing, ofLines_lines]

/-- The quick look says no only where one of its patterns does not occur, and a
text that it turns down comes back from a pass unchanged, with nothing counted
as removed. -/
theorem quickLook_sound (text : Text) :
    (text.hasSpacedItems = true ↔
        Pattern.item.OccursIn text ∧ Pattern.spacedItem.OccursIn text) ∧
      (text.hasSpacedItems = false →
        text.tighten.text = text ∧
          text.tighten.collapsedRuns = 0 ∧ text.tighten.removedLines = 0) := by
  refine ⟨hasSpacedItems_iff_occursIn, fun turnedDown => ?_⟩
  have unchanged := tightened_eq_self_of_not_hasSpacedItems turnedDown
  exact ⟨unchanged, statistics_of_tightened_eq_self unchanged⟩

/-- A list item, and blank lines before lines that only look like list items. -/
def nearMisses : Text :=
  "\uFEFF- a\r\n \uFEFF\r\n-b\n\n1.5\r\n\n*".toList

theorem quickLook_sound_nearMisses :
    nearMisses.hasSpacedItems = false ∧
      nearMisses.tighten.text = nearMisses ∧
      nearMisses.tighten.collapsedRuns = 0 ∧ nearMisses.tighten.removedLines = 0 :=
  have turnedDown : nearMisses.hasSpacedItems = false := by decide
  ⟨turnedDown, (quickLook_sound nearMisses).2 turnedDown⟩

end Text

end TightLists
