import TightLists.Text.Basic

/-!
# Paths

A path is a byte sequence that a slash cuts into pieces.  Empty pieces and
single dots are idle: they name nothing of their own, except that a dot at the
very front is kept.  The lexical operations below (`parents`, `join`,
`sortKey`) look at the bytes only and never at a file tree, so the parent of
`a/..` is `a`.

The bytes need not be UTF-8.  Where a path is shown, well-formed UTF-8 is shown
as it is, and each maximal piece that cannot be completed to a character is
shown as one replacement character.
-/

namespace TightLists

/-! ## Showing bytes that need not be UTF-8 -/

namespace Text

/-- The replacement character `U+FFFD`. -/
def replacementCharacter : Char := '\uFFFD'

/-- The ranges for the bytes that may follow a first byte, one range for each
byte, or nothing for a byte that begins no longer sequence. -/
def followingRanges (first : UInt8) : Option (List (UInt8 × UInt8)) :=
  if first < 0xC2 then none
  else if first < 0xE0 then some [(0x80, 0xBF)]
  else if first = 0xE0 then some [(0xA0, 0xBF), (0x80, 0xBF)]
  else if first = 0xED then some [(0x80, 0x9F), (0x80, 0xBF)]
  else if first < 0xF0 then some [(0x80, 0xBF), (0x80, 0xBF)]
  else if first = 0xF0 then some [(0x90, 0xBF), (0x80, 0xBF), (0x80, 0xBF)]
  else if first < 0xF4 then some [(0x80, 0xBF), (0x80, 0xBF), (0x80, 0xBF)]
  else if first = 0xF4 then some [(0x80, 0x8F), (0x80, 0xBF), (0x80, 0xBF)]
  else none

/-- The bits that a first byte contributes to its character, given how many
bytes follow. -/
def leadingBits (first : UInt8) (following : Nat) : Nat :=
  first.toNat % Nat.pow 2 (6 - following)

/-- A character under construction: the bits read so far and the ranges of the
bytes still to come. -/
structure PartialCharacter where
  bits : Nat
  expected : List (UInt8 × UInt8)

/-- Reads a byte between characters. -/
def beginCharacter (byte : UInt8) : Text × Option PartialCharacter :=
  if byte < 0x80 then ([Char.ofNat byte.toNat], none)
  else
    match followingRanges byte with
    | some ranges =>
        ([], some { bits := leadingBits byte ranges.length, expected := ranges })
    | none => ([replacementCharacter], none)

/-- Reads one more byte: what it completes, and what it leaves open. -/
def readByte (unfinished : Option PartialCharacter) (byte : UInt8) :
    Text × Option PartialCharacter :=
  match unfinished with
  | none => beginCharacter byte
  | some { bits, expected := range :: more } =>
      if range.1 ≤ byte ∧ byte ≤ range.2 then
        let bits := bits * 64 + byte.toNat % 64
        if more.isEmpty then ([Char.ofNat bits], none)
        else ([], some { bits := bits, expected := more })
      else
        let (shown, next) := beginCharacter byte
        (replacementCharacter :: shown, next)
  | some { bits, expected := [] } =>
      let (shown, next) := beginCharacter byte
      (Char.ofNat bits :: shown, next)

/-- The text for the bytes to come, after a character that may be unfinished. -/
def showFrom (unfinished : Option PartialCharacter) : List UInt8 → Text
  | [] => if unfinished.isSome then [replacementCharacter] else []
  | byte :: rest =>
      let (shown, next) := readByte unfinished byte
      shown ++ showFrom next rest

/-- The text that shows a byte sequence. -/
def ofBytesLossy (bytes : List UInt8) : Text :=
  showFrom none bytes

end Text

/-! ## Paths and their pieces -/

abbrev Piece := List UInt8

def slash : UInt8 := 0x2F

def dot : UInt8 := 0x2E

/-- A path as it is spelled.  Two spellings are two paths, wherever they lead. -/
structure Path where
  bytes : List UInt8
  deriving DecidableEq, Repr

/-- Where the pieces of a path hang. -/
inductive Anchor where
  | root
  /-- At the working directory, written as a leading dot. -/
  | dot
  /-- At the working directory, written as nothing. -/
  | floating
  deriving DecidableEq, Repr

namespace Path

def ofText (text : Text) : Path :=
  { bytes := text.encode.data.toList }

def display (path : Path) : String :=
  String.ofList (Text.ofBytesLossy path.bytes)

/-- The pieces between the slashes, idle ones included. -/
def pieces (path : Path) : List Piece :=
  path.bytes.splitOn slash

def ofPieces (pieces : List Piece) : Path :=
  { bytes := [slash].intercalate pieces }

@[simp] theorem ofPieces_pieces (path : Path) : ofPieces path.pieces = path := by
  rw [ofPieces, pieces, List.intercalate_splitOn]

def isAbsolute (path : Path) : Bool :=
  path.bytes.head? == some slash

/-- Whether a piece names nothing of its own. -/
def isIdle (piece : Piece) : Bool :=
  piece == [] || piece == [dot]

/-- Where a path hangs and its pieces below that. -/
def anchored (path : Path) : Anchor × List Piece :=
  match path.pieces with
  | first :: rest =>
      if first == [] && path.isAbsolute then (.root, rest)
      else if first == [dot] then (.dot, rest)
      else (.floating, first :: rest)
  | [] => (.floating, [])

/-- The path that hangs its pieces at an anchor. -/
def hang : Anchor → List Piece → Path
  | .root, pieces => { bytes := slash :: (ofPieces pieces).bytes }
  | .dot, pieces => ofPieces ([dot] :: pieces)
  | .floating, pieces => ofPieces pieces

/-- The paths spelled by an anchor alone, the longer first. -/
def anchorPaths : Anchor → List Path
  | .root => [hang .root []]
  | .dot => [hang .dot [], hang .floating []]
  | .floating => [hang .floating []]

/-- The paths spelled by an anchor and ever fewer pieces, the longest first.
The pieces are given last piece first, and no path ends in an idle one. -/
def fronts (anchor : Anchor) : List Piece → List Path
  | [] => anchorPaths anchor
  | piece :: rest =>
      if isIdle piece then fronts anchor rest
      else hang anchor (piece :: rest).reverse :: fronts anchor rest

/-- The parent of a path, the parent of that, and so on.  The root and the
empty path have none. -/
def parents (path : Path) : List Path :=
  let (anchor, pieces) := path.anchored
  (fronts anchor pieces.reverse).tail

def parent? (path : Path) : Option Path :=
  path.parents.head?

/-- The path of a name in a directory.  A slash that is there already is not
doubled. -/
def join (directory : Path) (name : List UInt8) : Path :=
  if directory.bytes = [] ∨ directory.bytes.getLast? = some slash then
    { bytes := directory.bytes ++ name }
  else
    { bytes := directory.bytes ++ slash :: name }

/-- The sorting key of a piece: a double dot comes before all names, and names
are in the order of their bytes. -/
def pieceKey (piece : Piece) : List Nat :=
  if piece = [dot, dot] then [2]
  else 3 :: piece.map UInt8.toNat

/-- The sorting key of a path, piece by piece.  Idle pieces do not count, and
the anchors come before all pieces. -/
def sortKey (path : Path) : List (List Nat) :=
  let (anchor, pieces) := path.anchored
  let keys := (pieces.filter fun piece => !isIdle piece).map pieceKey
  match anchor with
  | .root => [0] :: keys
  | .dot => [1] :: keys
  | .floating => keys

/-- Whether a path comes before another: piece by piece, pieces by their
bytes. -/
def isBefore (left right : Path) : Bool :=
  left.sortKey.lex right.sortKey fun leftPiece rightPiece =>
    leftPiece.lex rightPiece fun leftByte rightByte => leftByte < rightByte

/-- The order in which paths are sorted. -/
def atMost (left right : Path) : Bool :=
  !right.isBefore left

end Path

end TightLists
