import TightLists.Host
import TightLists.Proofs.QuickLook

/-!
# Pasting through the fixer

A paste ends in one of four outcomes, and the text is inserted by the fixer in
one of them and by the host in the others.  The user cannot tell: with fixing
on paste switched on, the tightened clipboard is inserted exactly once, and with
it switched off the clipboard itself is.
-/

namespace TightLists

/-- `Pastes fixer editor clipboard outcome after` lists the ways in which the
fixer can treat a paste, and the editor that each of them leaves. -/
inductive Pastes (fixer : PasteFixer) (editor : Editor) :
    Option Text → PasteOutcome → Editor → Prop where
  | disabled {clipboard : Option Text} :
      fixer.autoFix = false →
      Pastes fixer editor clipboard .disabled editor
  | nothing :
      fixer.autoFix = true →
      Pastes fixer editor none .noText editor
  | empty :
      fixer.autoFix = true →
      Pastes fixer editor (some []) .noText editor
  | passedThrough {text : Text} :
      fixer.autoFix = true → text.hasSpacedItems = false →
      Pastes fixer editor (some text) .passThrough editor
  | replaced {text : Text} :
      fixer.autoFix = true → text.hasSpacedItems = true →
      Pastes fixer editor (some text) (.replaced text.tightened)
        (editor.replaceSelection text.tightened)

theorem tightened_nil : Text.tightened [] = [] :=
  Text.tightened_eq_self_of_not_hasSpacedItems rfl

theorem PasteFixer.pastes
    (fixer : PasteFixer) (editor : Editor) (clipboard : Option Text) :
    Pastes fixer editor clipboard (fixer.paste clipboard editor).outcome
      (fixer.paste clipboard editor).editor := by
  unfold PasteFixer.paste
  split
  · rename_i enabled
    split
    · exact .nothing enabled
    · exact .empty enabled
    · split
      · rename_i found
        exact .replaced enabled found
      · rename_i missed
        exact .passedThrough enabled (by simpa using missed)
  · rename_i disabled
    exact .disabled (by simpa using disabled)

namespace Host

/-- The text that a user gets from a clipboard. -/
def pastedText (host : Host) (clipboard : Text) : Text :=
  if host.fixer.autoFix then clipboard.tightened else clipboard

/-- What a paste leaves in the editor, whoever of the fixer and the host has
inserted the text. -/
theorem editor_userPaste (host : Host) (clipboard : Text) :
    (host.userPaste (some clipboard)).editor =
      host.editor.replaceSelection (host.pastedText clipboard) := by
  have treated := host.fixer.pastes host.editor (some clipboard)
  simp only [userPaste, perform]
  generalize (host.fixer.paste (some clipboard) host.editor).outcome = outcome
    at treated ⊢
  generalize (host.fixer.paste (some clipboard) host.editor).editor = after
    at treated ⊢
  cases treated with
  | disabled off => simp [PasteOutcome.preventsDefault, pastedText, off]
  | empty on => simp [PasteOutcome.preventsDefault, pastedText, on, tightened_nil]
  | passedThrough on missed =>
      have unchanged := Text.tightened_eq_self_of_not_hasSpacedItems missed
      simp [PasteOutcome.preventsDefault, pastedText, on, unchanged]
  | replaced on found => simp [PasteOutcome.preventsDefault, pastedText, on]

/-- A paste inserts its text exactly once, whoever does it, and leaves the
setting alone.  The fixer itself writes to the editor only when it says so, and
then it writes the tightened clipboard. -/
theorem userPaste_insertsOnce (host : Host) (clipboard : Option Text) :
    (host.userPaste clipboard).editor =
        (match clipboard with
          | some text => host.editor.replaceSelection (host.pastedText text)
          | none => host.editor) ∧
      (host.userPaste clipboard).fixer = host.fixer ∧
      (host.perform (.paste clipboard)).1.fixer = host.fixer ∧
      match (host.fixer.paste clipboard host.editor).outcome with
      | .replaced fixed => clipboard.map Text.tightened = some fixed
      | _ => (host.fixer.paste clipboard host.editor).editor = host.editor := by
  have treated := host.fixer.pastes host.editor clipboard
  simp only [userPaste, perform]
  generalize (host.fixer.paste clipboard host.editor).outcome = outcome at treated ⊢
  generalize (host.fixer.paste clipboard host.editor).editor = after at treated ⊢
  cases treated with
  | disabled off =>
      cases clipboard <;> simp [PasteOutcome.preventsDefault, pastedText, off]
  | nothing on => simp
  | empty on =>
      simp [PasteOutcome.preventsDefault, pastedText, on, tightened_nil]
  | @passedThrough text on missed =>
      have unchanged := Text.tightened_eq_self_of_not_hasSpacedItems missed
      simp [PasteOutcome.preventsDefault, pastedText, on, unchanged]
  | replaced on found =>
      simp [PasteOutcome.preventsDefault, pastedText, on]

end Host

end TightLists
