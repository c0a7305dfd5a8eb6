import TightLists.Proofs.Boundaries
import TightLists.Proofs.PasteGate

/-!
# The parts of an edited text

The selection of an editor cuts its text into three parts: what stands before it, what is
selected, and what stands after it.  That is so as long as the selection is in order and
on boundaries, and `Host.parts_after_every_action` says that no action of a host ever
breaks this.  So an editor may be thought of as its parts, and the offsets and the checks
that they call for may be forgotten.

A replacement is undone by selecting what was written and writing back what was selected
before.  On the parts of the text that is plain: the selected part is put in the place of
the replacement.  The offsets that the two selections name are those of the parts, so they
are boundaries of the text that they are named in, whatever characters meet there.
-/

namespace TightLists

/-- The parts that a selection cuts a text into. -/
structure Parts where
  before : Text
  selected : Text
  after : Text
  deriving DecidableEq, Repr

namespace Parts

def text (parts : Parts) : Text :=
  parts.before ++ parts.selected ++ parts.after

/-- Puts a text in the place of what is selected; nothing is selected afterwards. -/
def replaceSelection (parts : Parts) (replacement : Text) : Parts :=
  { before := parts.before ++ replacement, selected := [], after := parts.after }

/-- A text with nothing selected, behind its end. -/
def ofText (text : Text) : Parts :=
  { before := text, selected := [], after := [] }

/-- The editor that has these parts. -/
def editor (parts : Parts) : Editor :=
  { text := parts.text
    start := parts.before.byteLength
    stop := Text.byteLength (parts.before ++ parts.selected) }

theorem takeBytes_before (parts : Parts) :
    parts.text.takeBytes parts.before.byteLength = parts.before := by
  rw [text, List.append_assoc, Text.takeBytes_byteLength_append]

theorem takeBytes_before_append_selected (parts : Parts) :
    parts.text.takeBytes (Text.byteLength (parts.before ++ parts.selected)) =
      parts.before ++ parts.selected :=
  Text.takeBytes_byteLength_append (parts.before ++ parts.selected) parts.after

theorem dropBytes_before_append_selected (parts : Parts) :
    parts.text.dropBytes (Text.byteLength (parts.before ++ parts.selected)) = parts.after :=
  Text.dropBytes_byteLength_append (parts.before ++ parts.selected) parts.after

end Parts

namespace Editor

def parts (editor : Editor) : Parts :=
  { before := editor.text.takeBytes editor.start
    selected := (editor.text.takeBytes editor.stop).dropBytes editor.start
    after := editor.text.dropBytes editor.stop }

/-- The selection is in order, inside the text and on boundaries. -/
structure Valid (editor : Editor) : Prop where
  ordered : editor.start ≤ editor.stop
  inside : editor.stop ≤ editor.text.byteLength
  start_isBoundary : editor.text.isBoundary editor.start = true
  stop_isBoundary : editor.text.isBoundary editor.stop = true

/-! ## Editors and their parts -/

theorem parts_editor (parts : Parts) : parts.editor.parts = parts := by
  simp only [Editor.parts, Parts.editor, parts.takeBytes_before,
    parts.takeBytes_before_append_selected, parts.dropBytes_before_append_selected,
    Text.dropBytes_byteLength_append]

theorem valid_editor (parts : Parts) : parts.editor.Valid := by
  obtain ⟨before, selected, after⟩ := parts
  constructor
  · simp only [Parts.editor, Text.byteLength_append]
    omega
  · simp only [Parts.editor, Parts.text, Text.byteLength_append]
    omega
  · simp only [Parts.editor, Parts.text, List.append_assoc]
    exact Text.isBoundary_byteLength_append before (selected ++ after)
  · exact Text.isBoundary_byteLength_append (before ++ selected) after

namespace Valid

variable {editor : Editor}

theorem exists_eq_editor (valid : editor.Valid) : ∃ parts : Parts, editor = parts.editor := by
  obtain ⟨text, start, stop⟩ := editor
  obtain ⟨before, rest, whole, startCut⟩ :=
    Text.isBoundary_iff.mp valid.start_isBoundary
  obtain ⟨front, after, cut, stopCut⟩ := Text.isBoundary_iff.mp valid.stop_isBoundary
  have ordered : before.byteLength ≤ front.byteLength := by
    rw [← startCut, ← stopCut]
    exact valid.ordered
  obtain ⟨selected, rfl⟩ : ∃ selected, front = before ++ selected :=
    Text.exists_eq_append_of_byteLength_le (whole.symm.trans cut) ordered
  refine ⟨{ before := before, selected := selected, after := after }, ?_⟩
  simp only at whole startCut cut stopCut
  rw [Parts.editor, Parts.text, cut, startCut, stopCut]

theorem editor_parts (valid : editor.Valid) : editor.parts.editor = editor := by
  obtain ⟨parts, rfl⟩ := valid.exists_eq_editor
  rw [parts_editor]

end Valid

/-! ## What the operations do to the parts -/

theorem replaceSelection_editor (parts : Parts) (replacement : Text) :
    parts.editor.replaceSelection replacement =
      (parts.replaceSelection replacement).editor := by
  simp only [replaceSelection, Parts.editor, parts.takeBytes_before,
    parts.dropBytes_before_append_selected]
  simp only [Parts.text, Parts.replaceSelection, List.append_nil, Text.byteLength_append]

theorem ofText_eq_editor (text : Text) : ofText text = (Parts.ofText text).editor := by
  simp only [ofText, Parts.editor, Parts.text, Parts.ofText, List.append_nil]

theorem valid_ofText (text : Text) : (ofText text).Valid := by
  rw [ofText_eq_editor]
  exact valid_editor (.ofText text)

theorem valid_select (editor : Editor) (start stop : Nat) :
    (editor.select start stop).Valid := by
  have startOn := editor.text.isBoundary_snap start
  have stopOn : editor.text.isBoundary
      (max (editor.text.snap start) (editor.text.snap stop)) = true := by
    rcases Nat.le_total (editor.text.snap start) (editor.text.snap stop) with up | down
    · rw [Nat.max_eq_right up]
      exact editor.text.isBoundary_snap stop
    · rw [Nat.max_eq_left down]
      exact startOn
  exact
    { ordered := Nat.le_max_left _ _
      inside := Text.le_byteLength_of_isBoundary stopOn
      start_isBoundary := startOn
      stop_isBoundary := stopOn }

/-- A valid selection is taken as it is: it is neither clamped nor moved. -/
theorem Valid.select_eq {editor target : Editor} (valid : target.Valid)
    (sameText : editor.text = target.text) :
    editor.select target.start target.stop = target := by
  obtain ⟨text, start, stop⟩ := target
  subst sameText
  simp only [select, Text.snap_of_isBoundary valid.start_isBoundary,
    Text.snap_of_isBoundary valid.stop_isBoundary, Nat.max_eq_right valid.ordered]

theorem Valid.replaceSelection {editor : Editor} (valid : editor.Valid)
    (replacement : Text) : (editor.replaceSelection replacement).Valid := by
  rw [← valid.editor_parts, replaceSelection_editor]
  exact valid_editor _

end Editor

/-! ## Runs of a host -/

namespace Host

theorem valid_perform {host : Host} (valid : host.editor.Valid) (action : HostAction) :
    (host.perform action).1.editor.Valid := by
  cases action with
  | select start stop => exact host.editor.valid_select start stop
  | replaceSelection text => exact valid.replaceSelection text
  | setText text => exact Editor.valid_ofText text
  | setAutoFix enabled => exact valid
  | paste clipboard =>
      have treated := host.fixer.pastes host.editor clipboard
      simp only [perform]
      generalize (host.fixer.paste clipboard host.editor).outcome = outcome at treated
      generalize (host.fixer.paste clipboard host.editor).editor = after at treated ⊢
      cases treated with
      | disabled off => exact valid
      | nothing on => exact valid
      | empty on => exact valid
      | passedThrough on missed => exact valid
      | replaced on found => exact valid.replaceSelection _
  | fixNote =>
      simp only [perform, PasteFixer.fixNote]
      split
      · exact valid
      · exact Editor.valid_ofText _

theorem valid_performAll {host : Host} (valid : host.editor.Valid)
    (actions : List HostAction) : (host.performAll actions).editor.Valid := by
  induction actions generalizing host with
  | nil => exact valid
  | cons action later induction => exact induction (valid_perform valid action)

/-- However a host has been used since it opened a text, its selection is in order and on
boundaries: the range that is to be replaced is always a proper one, and the way down to a
boundary never leads below zero.  So the text is always the three parts that the selection
cuts it into, with the offsets between them, and that is how the operations treat it.  An
editor that opens no text has opened the empty one. -/
theorem parts_after_every_action (fixer : PasteFixer) (text : Text)
    (actions : List HostAction) :
    let editor := (performAll { fixer := fixer, editor := .ofText text } actions).editor
    let parts := editor.parts
    editor.Valid ∧
      (∀ replacement,
        editor.text.replaceRange? editor.start editor.stop replacement =
          some (editor.replaceSelection replacement).text) ∧
      (∀ offset,
        editor.text.descend? (min offset editor.text.byteLength) =
          some (editor.text.snap offset)) ∧
      editor.text = parts.before ++ parts.selected ++ parts.after ∧
      editor.start = parts.before.encode.size ∧
      editor.stop = (parts.before ++ parts.selected).encode.size ∧
      (∀ replacement,
        (editor.replaceSelection replacement).parts = parts.replaceSelection replacement) ∧
      (∀ other, (editor.setText other).parts = .ofText other) ∧
      ∀ start stop, (editor.select start stop).text = editor.text := by
  intro editor parts
  have valid : editor.Valid := valid_performAll (Editor.valid_ofText text) actions
  have whole : editor = parts.editor := valid.editor_parts.symm
  refine ⟨valid, ?_, ?_, ?_, ?_, ?_, ?_, ?_, ?_⟩
  · intro replacement
    exact if_pos ⟨valid.ordered, valid.start_isBoundary, valid.stop_isBoundary⟩
  · intro offset
    exact editor.text.descend?_eq_some_floorBoundary _
  · exact congrArg Editor.text whole
  · rw [Text.size_encode]
    exact congrArg Editor.start whole
  · rw [Text.size_encode]
    exact congrArg Editor.stop whole
  · intro replacement
    rw [whole, Editor.replaceSelection_editor, Editor.parts_editor]
  · intro other
    rw [Editor.setText, Editor.ofText_eq_editor, Editor.parts_editor]
  · intro start stop
    rfl

end Host

namespace Parts

/-! ## Undoing a replacement -/

/-- The parts with a text in the place of what is selected, and that text selected. -/
def withSelected (parts : Parts) (selected : Text) : Parts :=
  { parts with selected := selected }

variable (parts : Parts) (written : Text)

theorem text_replaceSelection :
    (parts.replaceSelection written).text = (parts.withSelected written).text := by
  simp only [text, replaceSelection, withSelected, List.append_nil]

theorem stop_withSelected :
    (parts.withSelected written).editor.stop =
      parts.editor.start + written.byteLength := by
  simp only [editor, withSelected, Text.byteLength_append]

theorem text_replaceSelection_withSelected :
    ((parts.withSelected written).replaceSelection parts.selected).text = parts.text := by
  simp only [text, replaceSelection, withSelected, List.append_nil]

theorem slice?_editor :
    parts.editor.text.slice? parts.editor.start parts.editor.stop =
      some parts.selected :=
  Text.slice?_append_append parts.before parts.selected parts.after

end Parts

namespace Editor

variable (parts : Parts) (written : Text)

theorem select_replaceSelection_editor :
    (parts.editor.replaceSelection written).select parts.editor.start
        (parts.editor.start + written.byteLength) =
      (parts.withSelected written).editor := by
  rw [replaceSelection_editor, ← parts.stop_withSelected]
  exact (valid_editor (parts.withSelected written)).select_eq
    (parts.text_replaceSelection written)

/-- Writing back what was selected before, and selecting it, ends where it all began. -/
theorem select_replaceSelection_withSelected :
    ((parts.withSelected written).editor.replaceSelection parts.selected).select
        parts.editor.start parts.editor.stop =
      parts.editor := by
  rw [replaceSelection_editor]
  exact (valid_editor parts).select_eq
    (parts.text_replaceSelection_withSelected written)

end Editor

namespace Host

/-- However a host has been used since it opened a text, a replacement can be undone.  What
was written is selected exactly, by the offset where it begins and its length in bytes; over
it, what had been selected before is written back, and selecting that by the two offsets of
the first selection gives the editor as it was. -/
theorem replaceSelection_undone (fixer : PasteFixer) (text : Text)
    (actions : List HostAction) (written : Text) :
    let editor := (performAll { fixer := fixer, editor := .ofText text } actions).editor
    let writtenStop := editor.start + written.encode.size
    let replaced := editor.replaceSelection written
    let reselected := replaced.select editor.start writtenStop
    ∃ selected, editor.text.slice? editor.start editor.stop = some selected ∧
      reselected = { text := replaced.text, start := editor.start, stop := writtenStop } ∧
      (reselected.replaceSelection selected).text = editor.text ∧
      (reselected.replaceSelection selected).select editor.start editor.stop = editor := by
  intro editor writtenStop replaced reselected
  have valid : editor.Valid := valid_performAll (Editor.valid_ofText text) actions
  clear_value editor
  obtain ⟨parts, rfl⟩ := valid.exists_eq_editor
  have stop : writtenStop = (parts.withSelected written).editor.stop := by
    simp only [writtenStop, Text.size_encode, parts.stop_withSelected]
  have writtenSelected : reselected = (parts.withSelected written).editor := by
    simp only [reselected, replaced, writtenStop, Text.size_encode]
    exact Editor.select_replaceSelection_editor parts written
  have sameText : replaced.text = (parts.withSelected written).text := by
    simp only [replaced, Editor.replaceSelection_editor]
    exact parts.text_replaceSelection written
  refine ⟨parts.selected, parts.slice?_editor, ?_, ?_, ?_⟩
  · rw [writtenSelected, sameText, stop]
    rfl
  · rw [writtenSelected, Editor.replaceSelection_editor]
    exact parts.text_replaceSelection_withSelected written
  · rw [writtenSelected]
    exact Editor.select_replaceSelection_withSelected parts written

end Host

end TightLists
