import Mathlib.Data.List.Sort
import TightLists.Proofs.RemovedLines

/-!
# What a pass reports

A pass reports each gap that it closes with the numbers of the two list items around it.
Which gaps there are can be told from the kinds of the lines alone: two items with a run of
blank lines between them and nothing else (`Gap.LiesIn`).  The scan finds all of them, each
one once and from top to bottom, so its gaps are the only list of that kind
(`gaps_scanFrom_eq`).

The text, the statistics and the log of a pass tell the same edit: to delete the lines
inside the reported gaps.
-/

namespace TightLists

/-! ## Lines by their numbers -/

/-- The kind of the line with a number, if there is such a line.  The first of the lines has
the number `first`. -/
def kindAt? (first : Nat) (lines : List Line) (number : Nat) : Option LineKind :=
  if first ≤ number then lines[number - first]?.map Line.kind else none

theorem le_of_kindAt?_eq_some {first number : Nat} {lines : List Line} {kind : LineKind}
    (found : kindAt? first lines number = some kind) : first ≤ number := by
  rw [kindAt?] at found
  split at found
  · assumption
  · cases found

theorem kindAt?_append (first : Nat) (above below : List Line) (number : Nat) :
    kindAt? first (above ++ below) number =
      if number < first + above.length then kindAt? first above number
      else kindAt? (first + above.length) below number := by
  simp only [kindAt?, List.getElem?_append]
  by_cases started : first ≤ number
  · rw [if_pos started]
    by_cases inside : number < first + above.length
    · have within : number - first < above.length := by omega
      rw [if_pos inside, if_pos within, if_pos started]
    · have beyond : ¬number - first < above.length := by omega
      have reached : first + above.length ≤ number := by omega
      rw [if_neg inside, if_neg beyond, if_pos reached, Nat.sub_add_eq]
  · have inside : number < first + above.length := by omega
    rw [if_neg started, if_pos inside, if_neg started]

theorem kindAt?_of_blank {run : List Line} (blank : ∀ line ∈ run, line.isBlank = true)
    {first number : Nat} (started : first ≤ number) (inside : number < first + run.length) :
    kindAt? first run number = some .blank := by
  have within : number - first < run.length := by omega
  rw [kindAt?, if_pos started, List.getElem?_eq_getElem within, Option.map_some,
    Line.kind_eq_blank_iff.mpr (blank _ (List.getElem_mem within))]

theorem kindAt?_pastBlankRun_ne_blank (first : Nat) (lines : List Line) :
    kindAt? first (pastBlankRun lines) first ≠ some .blank := by
  cases past : pastBlankRun lines with
  | nil => simp [kindAt?]
  | cons line rest =>
      have solid := not_isBlank_of_pastBlankRun_eq_cons past
      simp [kindAt?, solid]

theorem kindAt?_eq_listItem_iff_beginsWithItem {first : Nat} {lines : List Line} :
    kindAt? first lines first = some .listItem ↔ beginsWithItem lines = true := by
  cases lines <;> simp [kindAt?, beginsWithItem]

section BelowItem

variable {first number : Nat} {line : Line} {rest : List Line}

theorem kindAt?_cons_self : kindAt? first (line :: rest) first = some line.kind := by
  simp [kindAt?]

theorem kindAt?_cons_of_lt (later : first < number) :
    kindAt? first (line :: rest) number = kindAt? (first + 1) rest number := by
  have beyond : ¬number < first + 1 := by omega
  rw [← List.singleton_append, kindAt?_append, List.length_singleton, if_neg beyond]

theorem kindAt?_in_blankRun (later : first < number)
    (inside : number < first + 1 + (blankRun rest).length) :
    kindAt? first (line :: rest) number = some .blank := by
  rw [kindAt?_cons_of_lt later, ← blankRun_append_pastBlankRun rest, kindAt?_append,
    if_pos inside]
  exact kindAt?_of_blank (isBlank_of_mem_blankRun rest) later inside

theorem kindAt?_past_blankRun (past : first + 1 + (blankRun rest).length ≤ number) :
    kindAt? first (line :: rest) number =
      kindAt? (first + 1 + (blankRun rest).length) (pastBlankRun rest) number := by
  have later : first < number := by omega
  conv => lhs; rw [kindAt?_cons_of_lt later, ← blankRun_append_pastBlankRun rest]
  rw [kindAt?_append, if_neg (Nat.not_lt.mpr past)]

/-- Below the first line, items come only after the run of blank lines there. -/
theorem eq_or_le_of_kindAt?_eq_listItem
    (isItem : kindAt? first (line :: rest) number = some .listItem) :
    number = first ∨ first + 1 + (blankRun rest).length ≤ number := by
  have started := le_of_kindAt?_eq_some isItem
  by_cases inside : first < number ∧ number < first + 1 + (blankRun rest).length
  · rw [kindAt?_in_blankRun inside.1 inside.2] at isItem
    cases isItem
  · omega

end BelowItem

/-! ## Gaps by their numbers -/

namespace Gap

/-- The gap is one of the lines with these kinds: a list item stands above it, another one
stands below it, and between them are blank lines and nothing else. -/
structure LiesIn (kindAt : Nat → Option LineKind) (gap : Gap) : Prop where
  nonempty : 0 < gap.blanks
  itemAbove : kindAt gap.above = some .listItem
  itemBelow : kindAt gap.below = some .listItem
  blankBetween : ∀ number, gap.above < number → number < gap.below →
    kindAt number = some .blank

/-- The gap ends where the later one begins, or before. -/
def IsBefore (gap later : Gap) : Prop :=
  gap.above < later.above ∧ gap.below ≤ later.above

instance : Std.Irrefl IsBefore where
  irrefl _ before := Nat.lt_irrefl _ before.1

instance : Std.Antisymm IsBefore where
  antisymm _ _ before after := absurd (Nat.lt_trans before.1 after.1) (Nat.lt_irrefl _)

theorem above_lt_below (gap : Gap) : gap.above < gap.below := by
  rw [below]
  omega

namespace LiesIn

variable {kindAt others : Nat → Option LineKind} {gap : Gap}

theorem congr (lies : gap.LiesIn kindAt)
    (same : ∀ number, gap.above ≤ number → number ≤ gap.below →
      others number = kindAt number) : gap.LiesIn others := by
  have order := gap.above_lt_below
  refine ⟨lies.nonempty, ?_, ?_, ?_⟩
  · rw [same gap.above (Nat.le_refl _) (Nat.le_of_lt order)]
    exact lies.itemAbove
  · rw [same gap.below (Nat.le_of_lt order) (Nat.le_refl _)]
    exact lies.itemBelow
  · intro number fromAbove toBelow
    rw [same number (Nat.le_of_lt fromAbove) (Nat.le_of_lt toBelow)]
    exact lies.blankBetween number fromAbove toBelow

theorem below_le (lies : gap.LiesIn kindAt) {number : Nat} (later : gap.above < number)
    (solid : kindAt number ≠ some .blank) : gap.below ≤ number := by
  apply Nat.le_of_not_lt
  intro inside
  exact solid (lies.blankBetween number later inside)

/-- No two gaps begin under the same item. -/
theorem eq_of_above_eq {other : Gap} (lies : gap.LiesIn kindAt)
    (otherLies : other.LiesIn kindAt) (sameAbove : gap.above = other.above) :
    gap = other := by
  have order := gap.above_lt_below
  have otherOrder := other.above_lt_below
  have notLater : gap.below ≤ other.below := by
    apply lies.below_le (by omega)
    simp [otherLies.itemBelow]
  have notEarlier : other.below ≤ gap.below := by
    apply otherLies.below_le (by omega)
    simp [lies.itemBelow]
  cases gap
  cases other
  simp only [below] at *
  simp only [mk.injEq]
  omega

end LiesIn

end Gap

/-! ## The gaps of a scan -/

section FirstGap

variable {first : Nat} {line : Line} {rest : List Line} {gap : Gap}

/-- Below the run of blank lines under the first line, the gaps are those of the lines
behind the run. -/
theorem liesIn_pastBlankRun_iff (past : first + 1 + (blankRun rest).length ≤ gap.above) :
    gap.LiesIn (kindAt? (first + 1 + (blankRun rest).length) (pastBlankRun rest)) ↔
      gap.LiesIn (kindAt? first (line :: rest)) := by
  constructor
  · intro lies
    apply lies.congr
    intro number fromAbove _
    exact kindAt?_past_blankRun (Nat.le_trans past fromAbove)
  · intro lies
    apply lies.congr
    intro number fromAbove _
    exact (kindAt?_past_blankRun (Nat.le_trans past fromAbove)).symm

/-- A gap under the first line is the run of blank lines there. -/
theorem beginsWithItem_of_liesIn (lies : gap.LiesIn (kindAt? first (line :: rest)))
    (atFirst : gap.above = first) :
    0 < (blankRun rest).length ∧ beginsWithItem (pastBlankRun rest) = true := by
  have order := gap.above_lt_below
  have notLater : gap.below ≤ first + 1 + (blankRun rest).length := by
    apply lies.below_le (by omega)
    rw [kindAt?_past_blankRun (Nat.le_refl _)]
    exact kindAt?_pastBlankRun_ne_blank _ rest
  have notEarlier : first + 1 + (blankRun rest).length ≤ gap.below :=
    (eq_or_le_of_kindAt?_eq_listItem lies.itemBelow).resolve_left (by omega)
  have ends : gap.below = first + 1 + (blankRun rest).length :=
    Nat.le_antisymm notLater notEarlier
  have begins := lies.itemBelow
  rw [ends, kindAt?_past_blankRun (Nat.le_refl _)] at begins
  have long := lies.nonempty
  rw [Gap.below] at ends
  exact ⟨by omega, kindAt?_eq_listItem_iff_beginsWithItem.mp begins⟩

theorem liesIn_of_beginsWithItem (isItem : line.kind = .listItem)
    (long : 0 < (blankRun rest).length) (begins : beginsWithItem (pastBlankRun rest) = true) :
    Gap.LiesIn (kindAt? first (line :: rest)) ⟨first, (blankRun rest).length⟩ := by
  refine ⟨long, kindAt?_cons_self.trans (congrArg some isItem), ?_, ?_⟩
  · rw [Gap.below, Nat.add_right_comm, kindAt?_past_blankRun (Nat.le_refl _)]
    exact kindAt?_eq_listItem_iff_beginsWithItem.mpr begins
  · intro number later inside
    apply kindAt?_in_blankRun later
    rwa [Gap.below, Nat.add_right_comm] at inside

end FirstGap

theorem mem_gaps_scanFrom_iff {first : Nat} {lines : List Line} {gap : Gap} :
    gap ∈ (scanFrom first lines).gaps ↔ gap.LiesIn (kindAt? first lines) := by
  fun_induction scanFrom first lines with
  | case1 first =>
      constructor
      · intro member
        cases member
      · intro lies
        have found := lies.itemAbove
        simp [kindAt?] at found
  | case2 first line rest isItem run next below found induction =>
      have here : Gap.LiesIn (kindAt? first (line :: rest)) ⟨first, run.length⟩ :=
        liesIn_of_beginsWithItem isItem found.1 found.2
      rw [List.mem_cons, induction]
      constructor
      · intro listed
        rcases listed with rfl | later
        · exact here
        · exact (liesIn_pastBlankRun_iff (le_of_kindAt?_eq_some later.itemAbove)).mp later
      · intro lies
        rcases eq_or_le_of_kindAt?_eq_listItem lies.itemAbove with atFirst | past
        · exact .inl (lies.eq_of_above_eq here atFirst)
        · exact .inr ((liesIn_pastBlankRun_iff past).mpr lies)
  | case3 first line rest isItem run next below noGap induction =>
      rw [induction]
      constructor
      · intro later
        exact (liesIn_pastBlankRun_iff (le_of_kindAt?_eq_some later.itemAbove)).mp later
      · intro lies
        rcases eq_or_le_of_kindAt?_eq_listItem lies.itemAbove with atFirst | past
        · exact absurd (beginsWithItem_of_liesIn lies atFirst) noGap
        · exact (liesIn_pastBlankRun_iff past).mpr lies
  | case4 first line rest notItem below induction =>
      rw [induction]
      constructor
      · intro later
        have past := le_of_kindAt?_eq_some later.itemAbove
        apply later.congr
        intro number fromAbove _
        exact kindAt?_cons_of_lt (Nat.le_trans past fromAbove)
      · intro lies
        have started := le_of_kindAt?_eq_some lies.itemAbove
        have notFirst : gap.above ≠ first := by
          intro atFirst
          have isItem := lies.itemAbove
          rw [atFirst, kindAt?_cons_self] at isItem
          exact notItem (Option.some.inj isItem)
        apply lies.congr
        intro number fromAbove _
        exact (kindAt?_cons_of_lt (by omega)).symm

theorem le_above_of_mem_gaps {first : Nat} {lines : List Line} {gap : Gap}
    (member : gap ∈ (scanFrom first lines).gaps) : first ≤ gap.above :=
  le_of_kindAt?_eq_some (mem_gaps_scanFrom_iff.mp member).itemAbove

theorem pairwise_gaps_scanFrom (first : Nat) (lines : List Line) :
    (scanFrom first lines).gaps.Pairwise Gap.IsBefore := by
  fun_induction scanFrom first lines with
  | case1 first => exact .nil
  | case2 first line rest isItem run next below found induction =>
      apply List.Pairwise.cons _ induction
      intro later member
      have past := le_above_of_mem_gaps member
      constructor
      · simp only
        omega
      · simp only [Gap.below]
        omega
  | case3 first line rest isItem run next below noGap induction => exact induction
  | case4 first line rest notItem below induction => exact induction

/-- The gaps of a scan are the only list that has all gaps of the lines in it, in order. -/
theorem gaps_scanFrom_eq {first : Nat} {lines : List Line} {gaps : List Gap}
    (ordered : gaps.Pairwise Gap.IsBefore)
    (all : ∀ gap, gap ∈ gaps ↔ gap.LiesIn (kindAt? first lines)) :
    (scanFrom first lines).gaps = gaps := by
  apply (pairwise_gaps_scanFrom first lines).eq_of_mem_iff ordered
  intro gap
  rw [mem_gaps_scanFrom_iff, all]

/-! ## Deleting the lines inside the gaps -/

/-- Whether the line with the number lies strictly between the two items. -/
def Gap.covers (gap : Gap) (number : Nat) : Bool :=
  gap.above < number && number < gap.below

/-- The lines that no gap covers, when the first line has the number `first`. -/
def withoutGaps (first : Nat) (gaps : List Gap) (lines : List Line) : List Line :=
  ((lines.zipIdx first).filter fun entry => !gaps.any fun gap => gap.covers entry.2).map
    Prod.fst

section WithoutGaps

variable {first : Nat} {gaps : List Gap} {lines : List Line}

theorem withoutGaps_append (first : Nat) (gaps : List Gap) (above below : List Line) :
    withoutGaps first gaps (above ++ below) =
      withoutGaps first gaps above ++ withoutGaps (first + above.length) gaps below := by
  simp [withoutGaps, List.zipIdx_append]

theorem withoutGaps_eq_self
    (lower : ∀ gap ∈ gaps, first + lines.length ≤ gap.above + 1) :
    withoutGaps first gaps lines = lines := by
  have uncovered : ∀ entry ∈ lines.zipIdx first,
      (!gaps.any fun gap => gap.covers entry.2) = true := by
    intro entry member
    have inside := List.snd_lt_add_of_mem_zipIdx member
    simp only [Gap.covers, Bool.not_eq_true', List.any_eq_false, Bool.and_eq_true,
      decide_eq_true_eq, not_and]
    intro gap listed
    have isLower := lower gap listed
    omega
  rw [withoutGaps, List.filter_eq_self.mpr uncovered, List.zipIdx_map_fst]

theorem withoutGaps_eq_nil {gap : Gap} (member : gap ∈ gaps) (starts : gap.above < first)
    (ends : first + lines.length ≤ gap.below) : withoutGaps first gaps lines = [] := by
  have covered : ∀ entry ∈ lines.zipIdx first,
      ¬(!gaps.any fun gap => gap.covers entry.2) = true := by
    intro entry inLines
    have inside := List.snd_lt_add_of_mem_zipIdx inLines
    have reached := List.le_snd_of_mem_zipIdx inLines
    simp only [Bool.not_eq_true', Bool.not_eq_false, List.any_eq_true, Gap.covers,
      Bool.and_eq_true, decide_eq_true_eq]
    exact ⟨gap, member, by omega, by omega⟩
  rw [withoutGaps, List.filter_eq_nil_iff.mpr covered, List.map_nil]

theorem withoutGaps_cons_of_below_le {gap : Gap} (higher : gap.below ≤ first) :
    withoutGaps first (gap :: gaps) lines = withoutGaps first gaps lines := by
  refine congrArg (List.map Prod.fst) (List.filter_congr ?_)
  intro entry member
  have reached := List.le_snd_of_mem_zipIdx member
  have notCovered : gap.covers entry.2 = false := by
    simp only [Gap.covers, Bool.and_eq_false_iff, decide_eq_false_iff_not]
    omega
  rw [List.any_cons, notCovered, Bool.false_or]

end WithoutGaps

theorem kept_scanFrom_eq_withoutGaps (first : Nat) (lines : List Line) :
    (scanFrom first lines).kept = withoutGaps first (scanFrom first lines).gaps lines := by
  fun_induction scanFrom first lines with
  | case1 first => rfl
  | case2 first line rest isItem run next below found induction =>
      have lower : ∀ gap ∈ below.gaps, first + 1 + run.length ≤ gap.above :=
        fun gap member => le_above_of_mem_gaps member
      have lineKept : withoutGaps first (⟨first, run.length⟩ :: below.gaps) [line] =
          [line] := by
        apply withoutGaps_eq_self
        intro gap member
        rcases List.mem_cons.mp member with rfl | later
        · simp
        · have isLower := lower gap later
          simp only [List.length_singleton]
          omega
      have runDeleted :
          withoutGaps (first + 1) (⟨first, run.length⟩ :: below.gaps) run = [] := by
        apply withoutGaps_eq_nil List.mem_cons_self
        · simp
        · simp only [Gap.below]
          omega
      have nextLines : withoutGaps (first + 1 + run.length)
          (⟨first, run.length⟩ :: below.gaps) next =
            withoutGaps (first + 1 + run.length) below.gaps next := by
        apply withoutGaps_cons_of_below_le
        simp only [Gap.below]
        omega
      have whole : line :: rest = [line] ++ (run ++ next) := by
        rw [blankRun_append_pastBlankRun, List.singleton_append]
      rw [whole, withoutGaps_append, withoutGaps_append, lineKept, List.length_singleton,
        runDeleted, nextLines, ← induction]
      rfl
  | case3 first line rest isItem run next below noGap induction =>
      have lower : ∀ gap ∈ below.gaps, first + 1 + run.length ≤ gap.above :=
        fun gap member => le_above_of_mem_gaps member
      have headKept : withoutGaps first below.gaps (line :: run) = line :: run := by
        apply withoutGaps_eq_self
        intro gap member
        have isLower := lower gap member
        simp only [List.length_cons]
        omega
      have whole : line :: rest = (line :: run) ++ next := by
        rw [List.cons_append, blankRun_append_pastBlankRun]
      have past : first + (line :: run).length = first + 1 + run.length := by
        simp only [List.length_cons]
        omega
      rw [whole, withoutGaps_append, headKept, past, ← induction]
      rfl
  | case4 first line rest notItem below induction =>
      have lineKept : withoutGaps first below.gaps [line] = [line] := by
        apply withoutGaps_eq_self
        intro gap member
        have isLower : first + 1 ≤ gap.above := le_above_of_mem_gaps member
        simp only [List.length_singleton]
        omega
      have whole : line :: rest = [line] ++ rest := rfl
      rw [whole, withoutGaps_append, lineKept, List.length_singleton, ← induction]
      rfl

namespace Text

theorem text_tighten_of_lines {text : Text} {lines : List Line} (split : text.lines = lines) :
    text.tighten.text = ofLines (tightenLines false lines) := by
  rw [← split]
  exact tightened_eq_ofLines text

theorem gaps_tighten_of_lines {text : Text} {lines : List Line} (split : text.lines = lines) :
    text.tighten.gaps = (scanFrom 1 lines).gaps := by
  rw [← split]
  rfl

/-- The log of a pass tells its edit.  There is one record for each gap of the text, with
the numbers of the items around it, from top to bottom, and the summary comes last.  Taking
the lines inside these gaps away gives the text of the pass, and the numbers in the summary
are the number of lines, of gaps, and of lines taken away. -/
theorem log_tighten_tells_edit (text : Text) :
    let pass := text.tighten
    pass.log =
        pass.gaps.map (fun gap =>
          let (blanks, above, below) := (gap.blanks, gap.above, gap.below)
          { level := .trace
            message := s!"collapsing {blanks} blank line(s) between lines {above} and {below}" }) ++
        [{ level := .debug
           message := s!"list spacing pass: {text.lines.length} line(s) in, " ++
             s!"{pass.collapsedRuns} run(s) collapsed, " ++
             s!"{pass.removedLines} line(s) removed" }] ∧
      pass.gaps.length = pass.collapsedRuns ∧
      pass.gaps.Pairwise (fun gap later =>
        gap.above < later.above ∧ gap.below ≤ later.above) ∧
      (∀ gap, gap ∈ pass.gaps ↔ gap.LiesIn (kindAt? 1 text.lines)) ∧
      (∀ gap ∈ pass.gaps, gap.blanks = gap.below - gap.above - 1 ∧ 0 < gap.blanks) ∧
      pass.text = ofLines (withoutGaps 1 pass.gaps text.lines) ∧
      (pass.gaps.map Gap.blanks).sum = pass.removedLines ∧
      pass.text.lines.length + pass.removedLines = text.lines.length ∧
      (pass.changed = true ↔ pass.text ≠ text) := by
  intro pass
  refine ⟨?_, rfl, pairwise_gaps_scanFrom 1 text.lines, ?_, ?_, ?_,
    pass.removedLines_eq_sum.symm, length_lines_tightened_add_removedLines text,
    changed_tighten_iff text⟩
  · rfl
  · intro gap
    exact mem_gaps_scanFrom_iff
  · intro gap member
    have lies := mem_gaps_scanFrom_iff.mp member
    refine ⟨?_, lies.nonempty⟩
    rw [Gap.below]
    omega
  · exact congrArg ofLines (kept_scanFrom_eq_withoutGaps 1 text.lines)

end Text

end TightLists
