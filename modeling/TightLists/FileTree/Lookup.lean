import TightLists.FileTree.Basic

/-!
# Following a path

A path leads from the root or the working directory through directories and
links to a place.  `FileTree.walk` follows it one step at a time.  What stands in
the files plays no part, so a change of content changes no lookup.

A lookup follows at most forty links.  That bound is what ends a walk around a
circle of links.
-/

namespace TightLists

/-- Why an operation on a file tree fails. -/
inductive SystemError where
  | notFound
  | alreadyExists
  | notDirectory
  | isDirectory
  /-- The path, or a name on the way, is longer than it may be. -/
  | nameTooLong
  | tooManyLinks
  | zeroByte
  | notText
  deriving DecidableEq, Repr

def SystemError.message : SystemError → String
  | notFound => "No such file or directory (os error 2)"
  | alreadyExists => "File exists (os error 17)"
  | notDirectory => "Not a directory (os error 20)"
  | isDirectory => "Is a directory (os error 21)"
  | nameTooLong => "File name too long (os error 36)"
  | tooManyLinks => "Too many levels of symbolic links (os error 40)"
  | zeroByte => "file name contained an unexpected NUL byte"
  | notText => "stream did not contain valid UTF-8"

/-- A step on the way that a path goes. -/
inductive Step where
  /-- A single dot: stay here. -/
  | stay
  /-- A slash at the end: stay here. -/
  | close
  /-- A double dot: go to the holder. -/
  | up
  | enter (name : Name)
  /-- Go to the entry of a name that is too long for any entry. -/
  | overlong
  deriving DecidableEq

namespace Step

/-- The step that a piece of a path stands for; an empty piece is no step.
Nothing is returned for a piece that holds a zero byte. -/
def ofPiece? (piece : Piece) : Option (List Step) :=
  if piece = [] then some []
  else if piece = [dot] then some [.stay]
  else if piece = [dot, dot] then some [.up]
  else if valid : ValidName piece then some [.enter { bytes := piece, valid := valid }]
  else if 0 ∈ piece then none
  else some [.overlong]

def ofPieces? : List Piece → Option (List Step)
  | [] => some []
  | piece :: rest =>
      match ofPiece? piece, ofPieces? rest with
      | some first, some others => some (first ++ others)
      | _, _ => none

end Step

/-- The steps of a path, or nothing when it has a zero byte in it. -/
def Path.steps? (path : Path) : Option (List Step) :=
  (Step.ofPieces? path.pieces).map fun steps =>
    if steps ≠ [] ∧ path.bytes.getLast? = some slash then steps ++ [.close] else steps

/-- What a path is looked up for. -/
inductive Purpose where
  /-- To use what the path leads to; a link at the end is followed. -/
  | use
  /-- To use the entry itself; a link at the end is not followed. -/
  | entry
  /-- To write a file, which may be new; a link at the end is followed. -/
  | write
  deriving DecidableEq, Repr

/-- Where a path leads. -/
inductive Lookup where
  | found (place : Place)
  /-- Only the last name is missing. -/
  | vacant (holder : Place) (name : Name)
  | failed (error : SystemError)
  deriving DecidableEq

namespace FileTree

/-- Where the way of a path begins. -/
def startOf (tree : FileTree) (path : Path) : Place :=
  if path.isAbsolute then [] else tree.working

/-- Takes steps from a place until a link is met, which is handed over with its
place and the steps that remain. -/
def advance (tree : FileTree) (purpose : Purpose)
    (follow : Place → Path → List Step → Lookup) :
    Place → List Step → Lookup
  | here, [] => .found here
  | here, step :: rest =>
      if tree.isDirectoryAt here then
        match step with
        | .stay => tree.advance purpose follow here rest
        | .close => tree.advance purpose follow here rest
        | .up => tree.advance purpose follow here.tail rest
        | .enter name =>
            if purpose = .write ∧ rest = [.close] then .failed .isDirectory
            else
              match tree.entryAt? (name :: here) with
              | none => if rest = [] then .vacant here name else .failed .notFound
              | some (.link target) =>
                  if purpose = .entry ∧ rest = [] then .found (name :: here)
                  else follow here target rest
              | some _ => tree.advance purpose follow (name :: here) rest
        | .overlong =>
            .failed (if purpose = .write ∧ rest = [.close] then .isDirectory
              else .nameTooLong)
      else .failed .notDirectory

/-- Follows steps from a place, through at most the given number of links. -/
def walk (tree : FileTree) (purpose : Purpose) :
    (links : Nat) → Place → List Step → Lookup
  | 0 => tree.advance purpose fun _ _ _ => .failed .tooManyLinks
  | links + 1 =>
      tree.advance purpose fun here target rest =>
        match target.steps? with
        | none => .failed .zeroByte
        | some steps =>
            tree.walk purpose links (if target.isAbsolute then [] else here)
              (steps ++ rest)

/-- How many links a lookup follows at most. -/
def linkLimit : Nat := 40

/-- How many bytes a path has at most.  The paths in links are not counted. -/
def pathLimit : Nat := 4095

/-- Looks a path up.  The empty path leads nowhere. -/
def lookup (tree : FileTree) (purpose : Purpose) (path : Path) : Lookup :=
  if path.bytes = [] then .failed .notFound
  else
    match path.steps? with
    | none => .failed .zeroByte
    | some steps =>
        if pathLimit < path.bytes.length then .failed .nameTooLong
        else
          let needed :=
            if purpose = .entry ∧ steps.getLast? = some .close then steps.dropLast
            else steps
          tree.walk purpose linkLimit (tree.startOf path) needed

/-- The place of the file or directory that a path leads to. -/
def placeOf? (tree : FileTree) (path : Path) : Option Place :=
  match tree.lookup .use path with
  | .found place => some place
  | _ => none

def leadsSomewhere (tree : FileTree) (path : Path) : Bool :=
  (tree.placeOf? path).isSome

def leadsToDirectory (tree : FileTree) (path : Path) : Bool :=
  match tree.placeOf? path with
  | some place => tree.isDirectoryAt place
  | none => false

end FileTree

end TightLists
