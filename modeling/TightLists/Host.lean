import TightLists.Editor
import TightLists.Tightening

/-!
# Pasting into an editing host

An editing host calls a `PasteFixer` on two occasions: when the user pastes,
with the plain text of the clipboard if there is any, and when the user runs
the command that fixes the current note.

A paste is taken over only if fixing on paste is switched on and the quick look
finds spaced list items; otherwise the host pastes as it always does.  The
command runs the full pass whatever the setting is.

A host is an editor and a paste fixer that share a note.  Its user acts on
them one action at a time, and each action has a reply.
-/

namespace TightLists

/-! ## The fixer -/

/-- The name that the program has for the fix command. -/
def fixCommandId : String :=
  "fix-list-spacing"

def fixCommandName : String :=
  "Fix list spacing in current note"

/-- What a host asks about pastes, with the setting for them. -/
structure PasteFixer where
  autoFix : Bool := true
  deriving DecidableEq, Repr

/-- What a fixer has done about a paste. -/
inductive PasteOutcome where
  /-- Fixing on paste is switched off; the host pastes. -/
  | disabled
  /-- There was no plain text on the clipboard; the host pastes. -/
  | noText
  /-- The quick look found nothing to fix; the host pastes. -/
  | passThrough
  /-- The fixed text has been written over the selection. -/
  | replaced (fixed : Text)
  deriving DecidableEq, Repr

namespace PasteOutcome

/-- Whether the host must not paste by itself. -/
def preventsDefault : PasteOutcome → Bool
  | replaced _ => true
  | _ => false

def fixed? : PasteOutcome → Option Text
  | replaced fixed => some fixed
  | _ => none

end PasteOutcome

/-- A handled paste: the outcome, the editor afterwards, and the log. -/
structure Pasting where
  outcome : PasteOutcome
  editor : Editor
  log : Log
  deriving DecidableEq, Repr

/-- A run of the fix command: whether the note changed, the editor afterwards,
and the log. -/
structure NoteFix where
  changed : Bool
  editor : Editor
  log : Log
  deriving DecidableEq, Repr

/-- The record of a paste that has been replaced. -/
def Tightening.pasteRecord (tightening : Tightening) : LogRecord :=
  { level := .debug
    message :=
      s!"paste intercepted: {tightening.removedLines} blank line(s) removed " ++
        s!"across {tightening.collapsedRuns} run(s)" }

def noteUpdatedRecord : LogRecord :=
  { level := .info, message := s!"{fixCommandId}: note updated" }

namespace PasteFixer

/-- Handles a paste into an editor.  An empty text counts as no text. -/
def paste (fixer : PasteFixer) (clipboard : Option Text) (editor : Editor) :
    Pasting :=
  if fixer.autoFix then
    match clipboard with
    | none | some [] => { outcome := .noText, editor := editor, log := [] }
    | some text =>
        if text.hasSpacedItems then
          let tightening := text.tighten
          { outcome := .replaced tightening.text
            editor := editor.replaceSelection tightening.text
            log := tightening.log ++ [tightening.pasteRecord] }
        else
          { outcome := .passThrough, editor := editor, log := [] }
  else
    { outcome := .disabled, editor := editor, log := [] }

/-- Runs the full pass over the note in an editor.  The buffer is replaced only
if the text changes. -/
def fixNote (_ : PasteFixer) (editor : Editor) : NoteFix :=
  let tightening := editor.text.tighten
  if tightening.text = editor.text then
    { changed := false, editor := editor, log := tightening.log }
  else
    { changed := true
      editor := editor.setText tightening.text
      log := tightening.log ++ [noteUpdatedRecord] }

end PasteFixer

/-! ## Sessions -/

/-- An editor and the fixer that is asked about it. -/
structure Host where
  fixer : PasteFixer
  editor : Editor
  deriving DecidableEq, Repr

/-- What a user or the host itself does. -/
inductive HostAction where
  | select (start stop : Nat)
  /-- Write a text over the selection, as typing or an ordinary paste does. -/
  | replaceSelection (text : Text)
  | setText (text : Text)
  | setAutoFix (enabled : Bool)
  /-- Offer a paste to the fixer. -/
  | paste (clipboard : Option Text)
  | fixNote
  deriving DecidableEq, Repr

/-- What an action answers. -/
inductive HostReply where
  | done
  | pasted (outcome : PasteOutcome)
  | noteFixed (changed : Bool)
  deriving DecidableEq, Repr

namespace Host

/-- Does one action.  A paste is offered to the fixer and no more: `userPaste` tells
what the host does when the fixer declines. -/
def perform (host : Host) : HostAction → Host × HostReply
  | .select start stop =>
      ({ host with editor := host.editor.select start stop }, .done)
  | .replaceSelection text =>
      ({ host with editor := host.editor.replaceSelection text }, .done)
  | .setText text =>
      ({ host with editor := host.editor.setText text }, .done)
  | .setAutoFix enabled =>
      ({ host with fixer := { host.fixer with autoFix := enabled } }, .done)
  | .paste clipboard =>
      let pasting := host.fixer.paste clipboard host.editor
      ({ host with editor := pasting.editor }, .pasted pasting.outcome)
  | .fixNote =>
      let noteFix := host.fixer.fixNote host.editor
      ({ host with editor := noteFix.editor }, .noteFixed noteFix.changed)

/-- A paste as the user sees it.  The fixer is asked first, and unless it has
taken the paste over, the host pastes what is on the clipboard by itself. -/
def userPaste (host : Host) (clipboard : Option Text) : Host :=
  let asked := host.perform (.paste clipboard)
  match asked.2, clipboard with
  | .pasted outcome, some text =>
      if outcome.preventsDefault then asked.1
      else (asked.1.perform (.replaceSelection text)).1
  | _, _ => asked.1

def performAll (host : Host) (actions : List HostAction) : Host :=
  actions.foldl (fun current action => (current.perform action).1) host

/-- A host that opens a text with the given setting. -/
def opening (text : Text) (autoFix : Bool) : Host :=
  { fixer := { autoFix := autoFix }, editor := .ofText text }

/-- The hosts and the replies after each of the actions. -/
def trace (host : Host) : List HostAction → List (Host × HostReply)
  | [] => []
  | action :: later => host.perform action :: (host.perform action).1.trace later

end Host

end TightLists
