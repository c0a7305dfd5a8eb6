import TightLists.Host

/-!
# Hosts that keep their editor to themselves

A host written elsewhere cannot hand over its editor.  It holds a
`RemoteFixer` instead, passes texts in, and applies the replies to its own
buffer.  The fixer works on scratch editors, an empty one for a paste and a
fresh one for the fix command.
-/

namespace TightLists

/-! ## The fixer -/

/-- The reply to a paste, flattened to plain data. -/
structure PasteReply where
  /-- One of `disabled`, `no_text`, `pass_through` and `replaced`. -/
  kind : String
  /-- Whether the host must insert `fixed` over its selection itself and not
  paste. -/
  preventDefault : Bool
  fixed : Option Text
  deriving DecidableEq, Repr

/-- The name of an outcome, by which a host tells it from the others. -/
def PasteOutcome.kind : PasteOutcome → String
  | disabled => "disabled"
  | noText => "no_text"
  | passThrough => "pass_through"
  | replaced _ => "replaced"

def PasteOutcome.reply (outcome : PasteOutcome) : PasteReply :=
  { kind := outcome.kind
    preventDefault := outcome.preventsDefault
    fixed := outcome.fixed? }

/-- The fixer of a host that keeps its editor to itself. -/
structure RemoteFixer where
  fixer : PasteFixer
  deriving DecidableEq, Repr

namespace RemoteFixer

def ofSetting (autoFix : Bool) : RemoteFixer :=
  { fixer := { autoFix := autoFix } }

def autoFix (remote : RemoteFixer) : Bool :=
  remote.fixer.autoFix

def setAutoFix (remote : RemoteFixer) (enabled : Bool) : RemoteFixer :=
  { remote with fixer := { remote.fixer with autoFix := enabled } }

/-- Decides what to do with a paste.  A scratch editor stands in for the one
that the host keeps. -/
def paste (remote : RemoteFixer) (clipboard : Option Text) : PasteReply :=
  (remote.fixer.paste clipboard .empty).outcome.reply

/-- The fixed note, or nothing when fixing changes nothing. -/
def fixNote (remote : RemoteFixer) (note : Text) : Option Text :=
  let noteFix := remote.fixer.fixNote (.ofText note)
  if noteFix.changed then some noteFix.editor.text else none

end RemoteFixer

/-! ## Sessions -/

/-- A host that keeps its editor to itself. -/
structure RemoteHost where
  remote : RemoteFixer
  editor : Editor
  deriving DecidableEq, Repr

/-- What such a host gets back from an action. -/
inductive RemoteReply where
  | done
  | pasted (reply : PasteReply)
  /-- The fixed note, or nothing when fixing changes nothing. -/
  | noteFixed (note : Option Text)
  deriving DecidableEq, Repr

namespace RemoteHost

/-- What the host does about the reply to a paste. -/
def applyPaste (reply : PasteReply) (editor : Editor) : Editor :=
  match reply.preventDefault, reply.fixed with
  | true, some fixed => editor.replaceSelection fixed
  | _, _ => editor

/-- What the host does about the reply to the fix command. -/
def applyNote (note : Option Text) (editor : Editor) : Editor :=
  match note with
  | some text => editor.setText text
  | none => editor

/-- The fixer is asked about pastes and about the fix command; everything else the
host does by itself. -/
def perform (host : RemoteHost) : HostAction → RemoteHost × RemoteReply
  | .select start stop =>
      ({ host with editor := host.editor.select start stop }, .done)
  | .replaceSelection text =>
      ({ host with editor := host.editor.replaceSelection text }, .done)
  | .setText text =>
      ({ host with editor := host.editor.setText text }, .done)
  | .setAutoFix enabled =>
      ({ host with remote := host.remote.setAutoFix enabled }, .done)
  | .paste clipboard =>
      let reply := host.remote.paste clipboard
      ({ host with editor := applyPaste reply host.editor }, .pasted reply)
  | .fixNote =>
      let note := host.remote.fixNote host.editor.text
      ({ host with editor := applyNote note host.editor }, .noteFixed note)

/-- A host that opens a text with the given setting. -/
def opening (text : Text) (autoFix : Bool) : RemoteHost :=
  { remote := .ofSetting autoFix, editor := .ofText text }

/-- The hosts and the replies after each of the actions. -/
def trace (host : RemoteHost) : List HostAction → List (RemoteHost × RemoteReply)
  | [] => []
  | action :: later => host.perform action :: (host.perform action).1.trace later

end RemoteHost

end TightLists
