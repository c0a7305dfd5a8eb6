import TightLists.Proofs.LineGrammar
import TightLists.Tightening

/-!
# Tightening as a filter on positions

A blank line is spacing when the nearest lines above and below it that are not
blank are both list items.  Whether a line is spacing can be seen at its
position alone, by looking up and down from there.

The scan only looks down, and only from list items.  `kept_scanFrom` relates it
to `tightenLines`, which goes over the lines one at a time and carries along
what it would see when it looked up.  The main statement is that tightening
removes exactly the spacing.
-/

namespace TightLists

/-- The nearest line that is not blank, going up from a place. -/
def nearestAbove? (above : List Line) : Option Line :=
  above.reverse.find? fun line => !line.isBlank

def nearestBelow? (below : List Line) : Option Line :=
  below.find? fun line => !line.isBlank

/-- Whether the nearest line above a place that is not blank is a list item.
`leadsToItem` asks the same of the lines below. -/
def followsItem (above : List Line) : Bool :=
  (nearestAbove? above).any Line.isListItem

def leadsToItem (below : List Line) : Bool :=
  (nearestBelow? below).any Line.isListItem

/-- Whether the line at a position is blank and stands between two list items,
with nothing but blank lines in between. -/
def isSpacingAt (lines : List Line) (position : Nat) : Bool :=
  lines[position]?.any Line.isBlank &&
    followsItem (lines.take position) && leadsToItem (lines.drop (position + 1))

/-- The lines at the positions that are not spacing. -/
def withoutSpacing (lines : List Line) : List Line :=
  (lines.zipIdx.filter fun entry => !isSpacingAt lines entry.2).map Prod.fst

/-- Removes the spacing going down.  The flag tells whether the nearest line
above that is not blank is a list item. -/
def tightenLines (underItem : Bool) : List Line → List Line
  | [] => []
  | line :: rest =>
      if line.isBlank then
        if underItem && leadsToItem rest then tightenLines underItem rest
        else line :: tightenLines underItem rest
      else line :: tightenLines line.isListItem rest

/-! ## Looking up and down -/

@[simp] theorem followsItem_nil : followsItem [] = false := rfl

@[simp] theorem leadsToItem_nil : leadsToItem [] = false := rfl

theorem followsItem_concat (above : List Line) (line : Line) :
    followsItem (above ++ [line]) =
      if line.isBlank then followsItem above else line.isListItem := by
  cases blank : line.isBlank <;> simp [followsItem, nearestAbove?, blank]

theorem leadsToItem_cons (line : Line) (below : List Line) :
    leadsToItem (line :: below) =
      if line.isBlank then leadsToItem below else line.isListItem := by
  cases blank : line.isBlank <;> simp [leadsToItem, nearestBelow?, blank]

theorem leadsToItem_append_of_blank {run : List Line}
    (blank : ∀ line ∈ run, line.isBlank = true) (next : List Line) :
    leadsToItem (run ++ next) = leadsToItem next := by
  induction run with
  | nil => rfl
  | cons line run induction =>
      have lineBlank : line.isBlank = true := blank line List.mem_cons_self
      rw [List.cons_append, leadsToItem_cons, if_pos lineBlank]
      exact induction fun other member => blank other (List.mem_cons_of_mem line member)

theorem leadsToItem_iff {below : List Line} :
    leadsToItem below = true ↔
      ∃ run item rest, below = run ++ item :: rest ∧
        (∀ line ∈ run, line.isBlank = true) ∧ item.isListItem = true := by
  constructor
  · intro leads
    obtain ⟨item, nearest, isItem⟩ := (Option.any_eq_true _ _).mp leads
    obtain ⟨_, run, rest, rfl, blank⟩ := List.find?_eq_some_iff_append.mp nearest
    exact ⟨run, item, rest, rfl, by simpa using blank, isItem⟩
  · intro found
    obtain ⟨run, item, rest, rfl, blank, isItem⟩ := found
    rw [leadsToItem_append_of_blank blank, leadsToItem_cons,
      Line.not_isBlank_of_isListItem isItem]
    exact isItem

theorem ne_nil_of_followsItem {above : List Line}
    (follows : followsItem above = true) : above ≠ [] := by
  intro none
  subst none
  cases follows

/-! ## Runs of blank lines -/

theorem isBlank_of_mem_blankRun (lines : List Line) :
    ∀ line ∈ blankRun lines, line.isBlank = true := by
  intro line member
  have found := List.all_eq_true.mp List.all_takeWhile line member
  simpa using found

theorem not_isBlank_of_pastBlankRun_eq_cons
    {lines rest : List Line} {line : Line}
    (past : pastBlankRun lines = line :: rest) : line.isBlank = false := by
  have head := List.head?_dropWhile_not (fun line : Line => line.kind = .blank) lines
  rw [show lines.dropWhile _ = line :: rest from past] at head
  simpa using head

theorem leadsToItem_pastBlankRun (lines : List Line) :
    leadsToItem (pastBlankRun lines) = beginsWithItem (pastBlankRun lines) := by
  cases past : pastBlankRun lines with
  | nil => rfl
  | cons line rest =>
      have solid := not_isBlank_of_pastBlankRun_eq_cons past
      simp [leadsToItem_cons, solid, beginsWithItem]

theorem tightenLines_append_of_blank {run : List Line}
    (blank : ∀ line ∈ run, line.isBlank = true)
    (underItem : Bool) (next : List Line) :
    tightenLines underItem (run ++ next) =
      if underItem && leadsToItem next then tightenLines underItem next
      else run ++ tightenLines underItem next := by
  induction run with
  | nil => simp
  | cons line run induction =>
      have lineBlank : line.isBlank = true := blank line List.mem_cons_self
      have runBlank : ∀ other ∈ run, other.isBlank = true := fun other member =>
        blank other (List.mem_cons_of_mem line member)
      rw [List.cons_append, tightenLines, if_pos lineBlank,
        leadsToItem_append_of_blank runBlank, induction runBlank]
      split <;> rfl

theorem tightenLines_pastBlankRun (underItem : Bool) (lines : List Line) :
    tightenLines underItem (pastBlankRun lines) =
      tightenLines false (pastBlankRun lines) := by
  cases past : pastBlankRun lines with
  | nil => rfl
  | cons line rest =>
      simp [tightenLines, not_isBlank_of_pastBlankRun_eq_cons past]

/-! ## The scan -/

theorem tightenLines_cons_of_isListItem {line : Line}
    (isItem : line.isListItem = true) (underItem : Bool) (rest : List Line) :
    tightenLines underItem (line :: rest) = line :: tightenLines true rest := by
  simp [tightenLines, Line.not_isBlank_of_isListItem isItem, isItem]

theorem tightenLines_cons_of_not_isListItem {line : Line}
    (notItem : line.isListItem = false) (rest : List Line) :
    tightenLines false (line :: rest) = line :: tightenLines false rest := by
  simp [tightenLines, notItem]

/-- Under a list item, what becomes of a run of blank lines is decided by the
line where it ends. -/
theorem tightenLines_underItem (rest : List Line) :
    tightenLines true rest =
      if beginsWithItem (pastBlankRun rest) then
        tightenLines false (pastBlankRun rest)
      else blankRun rest ++ tightenLines false (pastBlankRun rest) := by
  have split := tightenLines_append_of_blank (isBlank_of_mem_blankRun rest) true
    (pastBlankRun rest)
  rw [blankRun_append_pastBlankRun, Bool.true_and, leadsToItem_pastBlankRun,
    tightenLines_pastBlankRun] at split
  exact split

theorem kept_scanFrom (number : Nat) (lines : List Line) :
    (scanFrom number lines).kept = tightenLines false lines := by
  fun_induction scanFrom number lines with
  | case1 number => rfl
  | case2 number line rest isItem run next below gap induction =>
      rw [tightenLines_cons_of_isListItem (Line.kind_eq_listItem_iff.mp isItem),
        tightenLines_underItem, if_pos gap.2, ← induction]
  | case3 number line rest isItem run next below noGap induction =>
      have keptBelow : run ++ below.kept = tightenLines true rest := by
        rw [tightenLines_underItem]
        split
        · rename_i begins
          -- An item follows and yet there is no gap: the run is empty.
          have noRun : run = [] := by
            have notLong : ¬0 < run.length := fun long => noGap ⟨long, begins⟩
            exact List.length_eq_zero_iff.mp (Nat.eq_zero_of_not_pos notLong)
          rw [noRun, List.nil_append]
          exact induction
        · exact congrArg (run ++ ·) induction
      rw [tightenLines_cons_of_isListItem (Line.kind_eq_listItem_iff.mp isItem),
        keptBelow]
  | case4 number line rest notItem below induction =>
      have notItem : line.isListItem = false := by simpa using notItem
      rw [tightenLines_cons_of_not_isListItem notItem, ← induction]

/-! ## Positions -/

theorem isSpacingAt_length (above : List Line) (line : Line) (below : List Line) :
    isSpacingAt (above ++ line :: below) above.length =
      (line.isBlank && followsItem above && leadsToItem below) := by
  simp [isSpacingAt]

theorem exists_of_isSpacingAt {lines : List Line} {position : Nat}
    (spacing : isSpacingAt lines position = true) :
    ∃ above line below, lines = above ++ line :: below ∧
      line.isBlank = true ∧ followsItem above = true ∧ leadsToItem below = true := by
  simp only [isSpacingAt, Bool.and_eq_true] at spacing
  obtain ⟨⟨blankThere, follows⟩, leads⟩ := spacing
  obtain ⟨line, there, blank⟩ := (Option.any_eq_true _ _).mp blankThere
  obtain ⟨inside, rfl⟩ := List.getElem?_eq_some_iff.mp there
  exact ⟨lines.take position, lines[position], lines.drop (position + 1),
    by simp, blank, follows, leads⟩

theorem tightenLines_followsItem_cons
    (above : List Line) (line : Line) (below : List Line) :
    tightenLines (followsItem above) (line :: below) =
      if line.isBlank && followsItem above && leadsToItem below then
        tightenLines (followsItem (above ++ [line])) below
      else line :: tightenLines (followsItem (above ++ [line])) below := by
  rw [followsItem_concat, tightenLines]
  cases line.isBlank <;> simp

private theorem filter_zipIdx_eq_tightenLines (above rest : List Line) :
    ((rest.zipIdx above.length).filter fun entry =>
        !isSpacingAt (above ++ rest) entry.2).map Prod.fst =
      tightenLines (followsItem above) rest := by
  induction rest generalizing above with
  | nil => rfl
  | cons line rest induction =>
      have later := induction (above ++ [line])
      rw [List.length_append, List.length_singleton, List.append_assoc,
        List.singleton_append] at later
      have here := isSpacingAt_length above line rest
      rw [List.zipIdx_cons, List.filter_cons, here, tightenLines_followsItem_cons]
      cases decision : line.isBlank && followsItem above && leadsToItem rest <;>
        simpa [decision] using later

theorem withoutSpacing_eq_tightenLines (lines : List Line) :
    withoutSpacing lines = tightenLines false lines :=
  filter_zipIdx_eq_tightenLines [] lines

theorem withoutSpacing_eq_self_iff {lines : List Line} :
    withoutSpacing lines = lines ↔
      ∀ position, isSpacingAt lines position = false := by
  constructor
  · intro unchanged position
    have sameLength :
        (lines.zipIdx.filter fun entry => !isSpacingAt lines entry.2).length =
          lines.zipIdx.length := by
      have lengths := congrArg List.length unchanged
      rw [withoutSpacing, List.length_map] at lengths
      rw [lengths, List.length_zipIdx]
    by_cases inside : position < lines.length
    · have entry : (lines[position], position) ∈ lines.zipIdx :=
        List.mk_mem_zipIdx_iff_getElem?.mpr (List.getElem?_eq_getElem inside)
      simpa using List.length_filter_eq_length_iff.mp sameLength _ entry
    · simp [isSpacingAt, Nat.le_of_not_lt inside]
  · intro none
    have all : ∀ entry ∈ lines.zipIdx, (!isSpacingAt lines entry.2) = true := by
      intro entry _
      simp [none entry.2]
    rw [withoutSpacing, List.filter_eq_self.mpr all, List.zipIdx_map_fst]

/-! ## What is kept -/

theorem filter_not_isBlank_tightenLines (underItem : Bool) (lines : List Line) :
    (tightenLines underItem lines).filter (fun line => !line.isBlank) =
      lines.filter fun line => !line.isBlank := by
  induction lines generalizing underItem with
  | nil => rfl
  | cons line rest induction =>
      rw [tightenLines]
      cases blank : line.isBlank with
      | false => simp [blank, induction]
      | true =>
          cases decision : underItem && leadsToItem rest <;>
            simp [blank, induction]

theorem tightenLines_sublist (underItem : Bool) (lines : List Line) :
    (tightenLines underItem lines).Sublist lines := by
  induction lines generalizing underItem with
  | nil => exact .slnil
  | cons line rest induction =>
      rw [tightenLines]
      split
      · split
        · exact (induction underItem).cons line
        · exact (induction underItem).cons_cons line
      · exact (induction line.isListItem).cons_cons line

/-- The last line is always kept, so lines never vanish altogether. -/
theorem tightenLines_ne_nil (underItem : Bool) {lines : List Line} (nonempty : lines ≠ []) :
    tightenLines underItem lines ≠ [] := by
  induction lines with
  | nil => exact absurd rfl nonempty
  | cons line rest induction =>
      rw [tightenLines]
      split
      · split
        · rename_i removed
          have leads : leadsToItem rest = true := (Bool.and_eq_true_iff.mp removed).2
          apply induction
          intro none
          rw [none] at leads
          cases leads
        · exact List.cons_ne_nil line _
      · exact List.cons_ne_nil line _

theorem leadsToItem_tightenLines (underItem : Bool) (lines : List Line) :
    leadsToItem (tightenLines underItem lines) = leadsToItem lines := by
  simp only [leadsToItem, nearestBelow?, ← List.head?_filter,
    filter_not_isBlank_tightenLines]

theorem tightenLines_idem (underItem : Bool) (lines : List Line) :
    tightenLines underItem (tightenLines underItem lines) =
      tightenLines underItem lines := by
  induction lines generalizing underItem with
  | nil => rfl
  | cons line rest induction =>
      rw [tightenLines]
      split
      · rename_i blank
        split
        · exact induction underItem
        · rename_i kept
          rw [tightenLines, if_pos blank, leadsToItem_tightenLines, if_neg kept,
            induction underItem]
      · rename_i solid
        rw [tightenLines, if_neg solid, induction line.isListItem]

namespace Text

theorem tightened_eq_ofLines (text : Text) :
    text.tightened = ofLines (tightenLines false text.lines) := by
  rw [tightened, tighten, kept_scanFrom]

theorem lines_tightened (text : Text) :
    text.tightened.lines = tightenLines false text.lines := by
  rw [tightened_eq_ofLines]
  refine lines_ofLines (tightenLines_ne_nil false text.lines_ne_nil) ?_
  intro line member
  exact newline_notMem_of_mem_lines ((tightenLines_sublist false text.lines).subset member)

/-- Tightening removes exactly the spacing: the lines of the result are those
at the other positions, in order and as they were, every line that is not blank
is among them, and there is no spacing left in the result. -/
theorem tightened_eq_ofLines_withoutSpacing (text : Text) :
    text.tightened = ofLines (withoutSpacing text.lines) ∧
      text.tightened.lines = withoutSpacing text.lines ∧
      text.tightened.lines.filter (fun line => !line.isBlank) =
        text.lines.filter (fun line => !line.isBlank) ∧
      ∀ position, isSpacingAt text.tightened.lines position = false := by
  refine ⟨?_, ?_, ?_, ?_⟩
  · rw [withoutSpacing_eq_tightenLines, tightened_eq_ofLines]
  · rw [withoutSpacing_eq_tightenLines, lines_tightened]
  · rw [lines_tightened, filter_not_isBlank_tightenLines]
  · apply withoutSpacing_eq_self_iff.mp
    rw [withoutSpacing_eq_tightenLines, lines_tightened, tightenLines_idem]

end Text

end TightLists
