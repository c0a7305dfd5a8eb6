import TightLists.Text.Basic

/-!
# An editing surface

The buffer of a note together with its selection, as an editor holds them.  The
selection is a range of UTF-8 byte offsets into the buffer; an empty range is a
cursor.  An offset is a boundary when it falls between two characters, or at
either end; any other offset is moved back to the nearest boundary before it is
used.
-/

namespace TightLists

/-! ## Byte offsets into a text -/

namespace Text

def byteLength : Text → Nat
  | [] => 0
  | character :: rest => character.utf8Size + byteLength rest

/-- Whether a byte offset falls between characters or at an end of the text. -/
def isBoundary : Text → Nat → Bool
  | _, 0 => true
  | [], _ + 1 => false
  | character :: rest, offset =>
      character.utf8Size ≤ offset && isBoundary rest (offset - character.utf8Size)

/-- The greatest boundary that is at most the given offset, found by going
down one byte at a time. -/
def floorBoundary (text : Text) : Nat → Nat
  | 0 => 0
  | offset + 1 =>
      if text.isBoundary (offset + 1) then offset + 1 else text.floorBoundary offset

/-- An arbitrary offset, clamped to the text and moved back to a boundary. -/
def snap (text : Text) (offset : Nat) : Nat :=
  text.floorBoundary (min offset text.byteLength)

/-- The characters that end at or before the given offset. -/
def takeBytes : Text → Nat → Text
  | [], _ => []
  | character :: rest, offset =>
      if character.utf8Size ≤ offset then
        character :: takeBytes rest (offset - character.utf8Size)
      else []

/-- The characters that begin at or after the given offset, when it is a
boundary. -/
def dropBytes : Text → Nat → Text
  | [], _ => []
  | character :: rest, offset =>
      if character.utf8Size ≤ offset then
        dropBytes rest (offset - character.utf8Size)
      else character :: rest

theorem takeBytes_append_dropBytes (text : Text) (offset : Nat) :
    text.takeBytes offset ++ text.dropBytes offset = text := by
  induction text generalizing offset with
  | nil => rfl
  | cons character rest induction =>
      simp only [takeBytes, dropBytes]
      split
      · simp [induction]
      · rfl

end Text

/-! ## The editor -/

/-- A buffer and the selected range `start … stop` of byte offsets into it. -/
structure Editor where
  text : Text
  start : Nat
  stop : Nat
  deriving DecidableEq, Repr

namespace Editor

/-- An editor with the cursor at the end of the text. -/
def ofText (text : Text) : Editor :=
  { text := text, start := text.byteLength, stop := text.byteLength }

def empty : Editor :=
  ofText []

/-- Selects a range of byte offsets.  Offsets outside the buffer or inside a
character move back to a boundary, and a reversed range becomes a cursor. -/
def select (editor : Editor) (start stop : Nat) : Editor :=
  let snappedStart := editor.text.snap start
  { editor with
    start := snappedStart
    stop := max snappedStart (editor.text.snap stop) }

/-- Writes a text over the selection and puts the cursor after it. -/
def replaceSelection (editor : Editor) (replacement : Text) : Editor :=
  let cursor := editor.start + replacement.byteLength
  { text :=
      editor.text.takeBytes editor.start ++ replacement ++
        editor.text.dropBytes editor.stop
    start := cursor
    stop := cursor }

def setText (_ : Editor) (text : Text) : Editor :=
  ofText text

end Editor

end TightLists
