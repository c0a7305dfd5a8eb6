import TightLists.FileTree.Operations

/-!
# Notes

A note is a text file.  Reading one distinguishes a path that leads nowhere from
a file that cannot be read; writing one makes the directories that are to hold
it.

The notes of a directory are the files below it whose names end in `.md`.  The
scan goes into directories but not into links to directories, so a link back to
a directory above does no harm.  Paths are listed in the order of paths, which
does not depend on the order in which directories list their entries.

The scan has a directory open on every level that it is in, and how many a
process may have open is not a matter of the tree; that limit is left out.
-/

namespace TightLists

/-! ## Reading and writing -/

/-- Why work on notes fails. -/
inductive NotesError where
  /-- The path of a note leads nowhere. -/
  | notFound (path : Path)
  /-- The system refused an operation on a path. -/
  | system (path : Path) (cause : SystemError)
  /-- The directory to look for notes in does not exist. -/
  | missingDirectory
  /-- The path to be taken as a notes directory leads to no directory. -/
  | notDirectory
  deriving DecidableEq, Repr

namespace NotesError

/-- The wording of an error. -/
def message : NotesError → String
  | notFound path =>
      let shown := path.display
      s!"File not found: {shown}"
  | system path cause =>
      let shown := path.display
      s!"IO error on {shown}: {cause.message}"
  | missingDirectory => "Invalid notes directory: notes directory not found"
  | notDirectory => "Invalid notes directory: Directory does not exist"

/-- The system error behind an error, if there is one. -/
def cause? : NotesError → Option SystemError
  | system _ cause => some cause
  | _ => none

end NotesError

namespace FileTree

/-- The text of a note. -/
def readNote (tree : FileTree) (path : Path) : Except NotesError Text :=
  if tree.leadsSomewhere path then
    (tree.readText path).mapError (.system path)
  else .error (.notFound path)

/-- Makes the directories that are to hold an entry of the given path. -/
def makeHolder (tree : FileTree) (path : Path) : Change (Except NotesError Unit) :=
  match path.parent? with
  | none => { tree := tree, answer := .ok () }
  | some holder =>
      let made := tree.makeDirectories holder
      { tree := made.tree, answer := made.answer.mapError (.system holder) }

/-- Writes a note.  Directories that are missing on the way are made, and stay
even when the note itself cannot be written. -/
def writeNote (tree : FileTree) (path : Path) (text : Text) :
    Change (Except NotesError Unit) :=
  let held := tree.makeHolder path
  match held.answer with
  | .error error => { tree := held.tree, answer := .error error }
  | .ok () =>
      match held.tree.writeText path text with
      | .ok written => { tree := written, answer := .ok () }
      | .error cause => { tree := held.tree, answer := .error (.system path cause) }

end FileTree

/-! ## Finding notes -/

/-- The end of the name of a note. -/
def noteSuffix : List UInt8 :=
  [0x2E, 0x6D, 0x64]

/-- Whether a name is that of a note: the suffix with something before it. -/
def Name.isNote (name : Name) : Bool :=
  noteSuffix.isSuffixOf name.bytes && noteSuffix.length < name.bytes.length

/-- Puts the listings of several entries together, in order, up to the first one
that failed. -/
def gather : List (Except NotesError (List Path)) → Except NotesError (List Path)
  | [] => .ok []
  | .error error :: _ => .error error
  | .ok paths :: rest => (gather rest).map (paths ++ ·)

namespace FileTree

/-- The paths of the notes below a place.  The given path leads to the place.
Directories are listed by their paths, so one whose path is too long cannot be
listed. -/
def notesBelow (tree : FileTree) (path : Path) (place : Place) :
    Except NotesError (List Path) :=
  if pathLimit < path.bytes.length then .error (.system path .nameTooLong)
  else
    gather ((tree.children place).attach.map fun ⟨(name, entry), _⟩ =>
      let entryPath := path.join name.bytes
      match entry with
      | .directory => tree.notesBelow entryPath (name :: place)
      | _ =>
          if name.isNote && !tree.leadsToDirectory entryPath then .ok [entryPath]
          else .ok [])
termination_by tree.height - place.length
decreasing_by
  have listed := mem_entries_of_mem_children ‹_ ∈ tree.children place›
  have := length_le_height listed
  simp only [List.length_cons] at this ⊢
  omega

theorem notesBelow_eq_gather_map (tree : FileTree) {path : Path} (place : Place)
    (fits : path.bytes.length ≤ pathLimit) :
    tree.notesBelow path place =
      gather ((tree.children place).map fun (name, entry) =>
        match entry with
        | .directory => tree.notesBelow (path.join name.bytes) (name :: place)
        | _ =>
            if name.isNote && !tree.leadsToDirectory (path.join name.bytes) then
              .ok [path.join name.bytes]
            else .ok []) := by
  rw [notesBelow, if_neg (Nat.not_lt.mpr fits)]
  conv => rhs; rw [← List.attach_map_val]
  refine congrArg gather (List.map_congr_left ?_)
  rintro ⟨⟨name, entry⟩, member⟩ _
  cases entry <;> rfl

/-- The paths of all notes below a directory, in order. -/
def scanNotes (tree : FileTree) (root : Path) : Except NotesError (List Path) :=
  if tree.leadsSomewhere root then
    match tree.directoryOf root with
    | .ok place => (tree.notesBelow root place).map (·.mergeSort Path.atMost)
    | .error cause => .error (.system root cause)
  else .error .missingDirectory

/-- Checks that a path can be taken as a notes directory. -/
def validateNotesDirectory (tree : FileTree) (path : Path) : Except NotesError Unit :=
  if tree.leadsToDirectory path then .ok () else .error .notDirectory

end FileTree

end TightLists
