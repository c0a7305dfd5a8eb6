import TightLists.Text.Basic

/-!
# List items

A line is a list item, blank, or text.  The kind depends on the line alone:
neither the indentation nor the lines around it play a part.

Before a pasted text is tightened, a quick look at its characters decides
whether tightening could change it at all.  The look asks for two patterns:

* at the start of some line, line space and then a list item opens;
* after some line break, a blank line ends and then a list item opens.

In both patterns the space before the marker may run over line breaks, and the
space after the marker may be a line break.  The look may say yes to a text
that tightening leaves alone.
-/

namespace TightLists

/-!
## Line space

The characters that may indent a line, fill a blank line or follow a list
marker: the Unicode property `White_Space`, together with the byte-order mark
that some editors leave at the start of a file.
-/

/-- The code point ranges of the Unicode property `White_Space`, both ends
included, in increasing order. -/
def whiteSpaceRanges : List (Nat × Nat) :=
  [(0x09, 0x0D), (0x20, 0x20), (0x85, 0x85), (0xA0, 0xA0), (0x1680, 0x1680),
    (0x2000, 0x200A), (0x2028, 0x2029), (0x202F, 0x202F), (0x205F, 0x205F),
    (0x3000, 0x3000)]

def isWhiteSpace (character : Char) : Bool :=
  whiteSpaceRanges.any fun range =>
    range.1 ≤ character.toNat && character.toNat ≤ range.2

/-- The mark `U+FEFF`, which is no white space of its own. -/
def byteOrderMark : Char := '\uFEFF'

/-- White space of a line: Unicode white space or a byte-order mark. -/
def isLineSpace (character : Char) : Bool :=
  isWhiteSpace character || character == byteOrderMark

/-! ## Kinds of lines -/

inductive LineKind where
  /-- A bullet or a number with a full stop, followed by line space. -/
  | listItem
  | blank
  | text
  deriving DecidableEq, Repr

/-- What follows a list marker at the front of the characters: a hyphen, an
asterisk, or ASCII digits and a full stop. -/
def afterMarker? : List Char → Option (List Char)
  | '-' :: rest => some rest
  | '*' :: rest => some rest
  | characters =>
      match characters.takeWhile Char.isDigit,
          characters.dropWhile Char.isDigit with
      | _ :: _, '.' :: rest => some rest
      | _, _ => none

/-- Whether the characters open a list item: line space, if any, then a marker,
then at least one character of line space. -/
def opensItem (characters : List Char) : Bool :=
  match afterMarker? (characters.dropWhile isLineSpace) with
  | some (next :: _) => isLineSpace next
  | _ => false

namespace Line

/-- The line without the carriage return that ends it, if one does.  At most
one is taken away. -/
def withoutReturn (line : Line) : Line :=
  if line.getLast? = some '\r' then line.dropLast else line

/-- Whether the line opens a list item.  A carriage return at the end belongs
to the line break, so it is not the line space that a marker needs. -/
def isListItem (line : Line) : Bool :=
  opensItem line.withoutReturn

def isBlank (line : Line) : Bool :=
  line.all isLineSpace

/-- The kind of a line.  No list item is blank, so it does not matter what is tested
first. -/
def kind (line : Line) : LineKind :=
  if line.isListItem then .listItem
  else if line.isBlank then .blank
  else .text

end Line

/-! ## A quick look for spaced list items -/

namespace Text

/-- Whether a list item opens at the start of some line.  The flag tells
whether the characters begin at the start of a line. -/
def opensItemAtLineStart (atLineStart : Bool) : Text → Bool
  | [] => false
  | character :: rest =>
      atLineStart && opensItem (character :: rest) ||
        opensItemAtLineStart (character == '\n') rest

def hasItem (text : Text) : Bool :=
  opensItemAtLineStart true text

/-- Whether the rest of the current line is blank and a list item opens after
the line break that ends it. -/
def endsBlankLineBeforeItem (text : Text) : Bool :=
  match text.dropWhile (fun character => isLineSpace character && character != '\n') with
  | '\n' :: after => opensItem after
  | _ => false

/-- Whether somewhere a line break, a blank line and the opening of a list item
follow each other. -/
def hasItemAfterBlankLine : Text → Bool
  | [] => false
  | character :: rest =>
      character == '\n' && endsBlankLineBeforeItem rest || hasItemAfterBlankLine rest

/-- The quick look. -/
def hasSpacedItems (text : Text) : Bool :=
  text.hasItem && text.hasItemAfterBlankLine

end Text

end TightLists
