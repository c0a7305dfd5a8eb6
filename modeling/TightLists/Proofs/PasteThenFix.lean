import Mathlib.Data.List.Induction
import TightLists.Proofs.CanonicalSpacing
import TightLists.Proofs.PasteGate

/-!
# Fixing a paste and fixing the note

A pasted text that has been tightened on the way in and one that has not differ
by spacing.  Inside a note the first and the last line of the paste become one
line with what stands before and after them.  When only line space stands
before the paste on its line, list items stay list items at both ends, so the
spacing of the paste is spacing of the note.  Then it does not matter whether it
is removed while pasting or later, when the whole note is tightened.
-/

namespace TightLists

/-! ## List items at the ends of a text -/

theorem followsItem_indent {indent : Line} (blank : indent.isBlank = true)
    (before : List Line) {line : Line} {above : List Line}
    (follows : followsItem (line :: above) = true) :
    followsItem (before ++ (indent ++ line) :: above) = true := by
  -- The lines above are gone through from below, as `followsItem` looks up.
  induction above using List.reverseRecOn with
  | nil =>
      have single : followsItem [line] =
          if line.isBlank then followsItem [] else line.isListItem :=
        followsItem_concat [] line
      rw [single] at follows
      have isItem : line.isListItem = true := by
        split at follows
        · cases follows
        · exact follows
      have indentedItem : (indent ++ line).isListItem = true :=
        (Line.isListItem_indent (Line.isBlank_iff.mp blank) line).trans isItem
      rw [followsItem_concat, Line.not_isBlank_of_isListItem indentedItem]
      exact indentedItem
  | append_singleton above last induction =>
      rw [← List.cons_append, followsItem_concat] at follows
      rw [← List.cons_append, ← List.append_assoc, followsItem_concat]
      split
      · rename_i lastBlank
        rw [if_pos lastBlank] at follows
        exact induction follows
      · rename_i lastSolid
        rwa [if_neg lastSolid] at follows

theorem leadsToItem_extend (more : Line) (after : List Line)
    {below : List Line} {line : Line}
    (leads : leadsToItem (below ++ [line]) = true) :
    leadsToItem (below ++ (line ++ more) :: after) = true := by
  induction below with
  | nil =>
      rw [List.nil_append, leadsToItem_cons] at leads
      have isItem : line.isListItem = true := by
        split at leads
        · cases leads
        · exact leads
      have extendedItem : (line ++ more).isListItem = true :=
        Line.isListItem_append isItem more
      rw [List.nil_append, leadsToItem_cons,
        Line.not_isBlank_of_isListItem extendedItem]
      exact extendedItem
  | cons first below induction =>
      rw [List.cons_append, leadsToItem_cons] at leads ⊢
      split
      · rename_i firstBlank
        rw [if_pos firstBlank] at leads
        exact induction leads
      · rename_i firstSolid
        rwa [if_neg firstSolid] at leads

theorem ne_nil_of_leadsToItem {below : List Line}
    (leads : leadsToItem below = true) : below ≠ [] := by
  intro none
  subst none
  cases leads

namespace Text

/-- What stands behind the last line feed of a text, or all of it. -/
def lastLine (text : Text) : Line :=
  text.lines.getLast text.lines_ne_nil

/-! ## Spacing inside a larger text -/

theorem lines_append_append {before text after : Text}
    {up middle down : List Line} {indent first last next : Line}
    (beforeLines : before.lines = up ++ [indent])
    (textLines : text.lines = first :: (middle ++ [last]))
    (afterLines : after.lines = next :: down) :
    (before ++ text ++ after).lines =
      up ++ (indent ++ first) :: (middle ++ (last ++ next) :: down) := by
  have opening : (before ++ text).lines =
      (up ++ (indent ++ first) :: middle) ++ [last] := by
    simpa using lines_append beforeLines textLines
  simpa using lines_append opening afterLines

theorem InsertsSpacing.inContext {text wider : Text}
    (inserts : InsertsSpacing text wider) {before : Text}
    (blank : Line.isBlank before.lastLine = true) (after : Text) :
    InsertsSpacing (before ++ text ++ after) (before ++ wider ++ after) := by
  obtain ⟨above, spacing, below, textLines, rfl, unbroken, isBlank, follows, leads⟩ :=
    inserts
  -- The spacing has a line above it and a line below it, so it is no line at a seam.
  obtain ⟨first, above, rfl⟩ :=
    List.exists_cons_of_ne_nil (ne_nil_of_followsItem follows)
  obtain ⟨below, last, rfl⟩ :=
    (List.eq_nil_or_concat' below).resolve_left (ne_nil_of_leadsToItem leads)
  obtain ⟨next, down, afterLines⟩ := List.exists_cons_of_ne_nil after.lines_ne_nil
  have beforeLines : before.lines = before.lines.dropLast ++ [before.lastLine] :=
    (List.dropLast_concat_getLast before.lines_ne_nil).symm
  have widerLines : (ofLines (first :: above ++ spacing :: (below ++ [last]))).lines =
      first :: ((above ++ spacing :: below) ++ [last]) := by
    simpa using lines_ofLines_insert textLines unbroken
  have narrowLines : text.lines = first :: ((above ++ below) ++ [last]) := by
    simpa using textLines
  refine ⟨before.lines.dropLast ++ (before.lastLine ++ first) :: above, spacing,
    below ++ (last ++ next) :: down, ?_, ?_, unbroken, isBlank,
    followsItem_indent blank _ follows, leadsToItem_extend next down leads⟩
  · simpa using lines_append_append beforeLines narrowLines afterLines
  · rw [← ofLines_lines (before ++ _ ++ after),
      lines_append_append beforeLines widerLines afterLines]
    simp

theorem Adjacent.inContext {first second : Text} (adjacent : Adjacent first second)
    {before : Text} (blank : Line.isBlank before.lastLine = true) (after : Text) :
    Adjacent (before ++ first ++ after) (before ++ second ++ after) :=
  adjacent.imp (·.inContext blank after) (·.inContext blank after)

/-- A part of a text may be tightened ahead of the whole, if only line space
stands before it on its line. -/
theorem tightened_inContext {before : Text}
    (blank : Line.isBlank before.lastLine = true) (text after : Text) :
    (before ++ text.tightened ++ after).tightened =
      (before ++ text ++ after).tightened := by
  have chain : Relation.ReflTransGen Adjacent (before ++ text ++ after)
      (before ++ text.tightened ++ after) :=
    Relation.ReflTransGen.lift (fun inner => before ++ inner ++ after)
      (fun first second (adjacent : Adjacent first second) =>
        adjacent.inContext blank after)
      text text.tightened (chain_tightened text)
  exact (tightened_eq_of_chain chain).symm

end Text

/-! ## Pasting, then fixing the note -/

namespace Host

theorem text_perform_fixNote (host : Host) :
    (host.perform .fixNote).1.editor.text = host.editor.text.tightened := by
  simp only [perform, PasteFixer.fixNote]
  split
  · rename_i unchanged
    exact unchanged.symm
  · rfl

/-- The text of the note after a paste with the given setting and, after that,
the command that fixes the note. -/
def pasteThenFix (host : Host) (autoFix : Bool) (clipboard : Text) : Text :=
  let set := (host.perform (.setAutoFix autoFix)).1
  ((set.userPaste (some clipboard)).perform .fixNote).1.editor.text

theorem pasteThenFix_eq_tightened (host : Host) (autoFix : Bool) (clipboard : Text) :
    host.pasteThenFix autoFix clipboard =
      (host.editor.text.takeBytes host.editor.start ++
          (if autoFix then clipboard.tightened else clipboard) ++
        host.editor.text.dropBytes host.editor.stop).tightened := by
  rw [pasteThenFix, text_perform_fixNote, editor_userPaste]
  rfl

/-- Whether a paste is fixed on the way in does not show once the note has been
fixed, if only line space stands before the selection on its line.  The same is
said first of a text that is put between any two others. -/
theorem pasteThenFix_eq_of_blank_before :
    (∀ before clipboard after : Text, Line.isBlank before.lastLine = true →
      (before ++ clipboard.tightened ++ after).tightened =
        (before ++ clipboard ++ after).tightened) ∧
    ∀ (host : Host) (clipboard : Text),
      Line.isBlank (host.editor.text.takeBytes host.editor.start).lastLine = true →
      host.pasteThenFix true clipboard = host.pasteThenFix false clipboard := by
  constructor
  · intro before clipboard after blank
    exact Text.tightened_inContext blank clipboard after
  · intro host clipboard blank
    rw [pasteThenFix_eq_tightened, pasteThenFix_eq_tightened]
    exact Text.tightened_inContext blank clipboard _

/-- The first pasted line is indented by the note, and the carriage return that
ends the last one is followed by another one there. -/
theorem pasteThenFix_eq_between_returns :
    let before : Text := "- x\n \t".toList
    let after : Text := "\r\n\n- b".toList
    let clipboard : Text := "- a\n\n- \r".toList
    let host : Host :=
      { fixer := {}, editor := { text := before ++ after, start := 6, stop := 6 } }
    Line.isBlank before.lastLine = true ∧
      Text.tightened (before ++ clipboard.tightened ++ after) =
        Text.tightened (before ++ clipboard ++ after) ∧
      Line.isBlank (host.editor.text.takeBytes host.editor.start).lastLine = true ∧
      host.pasteThenFix true clipboard = host.pasteThenFix false clipboard :=
  ⟨by decide, pasteThenFix_eq_of_blank_before.1 _ _ _ (by decide), by decide,
    pasteThenFix_eq_of_blank_before.2 _ _ (by decide)⟩

end Host

end TightLists
