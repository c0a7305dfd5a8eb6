import TightLists.FileTree.Lookup

/-!
# Operations on a file tree

Reading, writing, listing and making directories by path, with the errors that
an operating system gives.  An operation that fails leaves the tree as it was,
except that `makeDirectories` may have made some of its directories before it
met the failure.
-/

namespace TightLists

/-- What an operation answers, together with the tree it leaves behind. -/
structure Change (answer : Type) where
  tree : FileTree
  answer : answer

namespace FileTree

def readBytes (tree : FileTree) (path : Path) : Except SystemError ByteArray :=
  match tree.lookup .use path with
  | .found place =>
      match tree.entryAt? place with
      | some (.file content) => .ok content
      | some .directory => .error .isDirectory
      | _ => .error .notFound
  | .vacant _ _ => .error .notFound
  | .failed error => .error error

/-- Reads a file as text, which fails for bytes that are not UTF-8. -/
def readText (tree : FileTree) (path : Path) : Except SystemError Text :=
  match tree.readBytes path with
  | .ok content =>
      match Text.decode? content with
      | some text => .ok text
      | none => .error .notText
  | .error error => .error error

/-- Writes a file, which is made if its name is free. -/
def writeBytes (tree : FileTree) (path : Path) (content : ByteArray) :
    Except SystemError FileTree :=
  match tree.lookup .write path with
  | .found place =>
      match tree.entryAt? place with
      | some (.file _) => .ok (tree.overwrite place content)
      | some .directory => .error .isDirectory
      | _ => .error .notFound
  | .vacant holder name => .ok (tree.add holder name (.file content))
  | .failed error => .error error

def writeText (tree : FileTree) (path : Path) (text : Text) :
    Except SystemError FileTree :=
  tree.writeBytes path text.encode

/-- The place of the directory that a path must lead to. -/
def directoryOf (tree : FileTree) (path : Path) : Except SystemError Place :=
  match tree.lookup .use path with
  | .found place =>
      if tree.isDirectoryAt place then .ok place else .error .notDirectory
  | .vacant _ _ => .error .notFound
  | .failed error => .error error

/-- Adds an entry under a name that must be free. -/
def makeEntry (tree : FileTree) (path : Path) (entry : Entry) :
    Except SystemError FileTree :=
  match tree.lookup .entry path with
  | .found _ => .error .alreadyExists
  | .vacant holder name => .ok (tree.add holder name entry)
  | .failed error => .error error

def makeDirectory (tree : FileTree) (path : Path) : Except SystemError FileTree :=
  tree.makeEntry path .directory

/-- Settles an attempt to make a directory: a failure is forgiven when the
directory is there. -/
def settle (tree : FileTree) (path : Path) :
    Except SystemError FileTree → Change (Except SystemError Unit)
  | .ok made => { tree := made, answer := .ok () }
  | .error error =>
      { tree := tree
        answer := if tree.leadsToDirectory path then .ok () else .error error }

/-- Makes the first of the given directories, each of which is followed by its
holders.  When a holder is missing, it is made first. -/
def makeFirstOf (tree : FileTree) : List Path → Change (Except SystemError Unit)
  | [] => { tree := tree, answer := .error .notFound }
  | path :: holders =>
      if path.bytes = [] then { tree := tree, answer := .ok () }
      else
        match tree.makeDirectory path with
        | .error .notFound =>
            let before := tree.makeFirstOf holders
            match before.answer with
            | .ok () => before.tree.settle path (before.tree.makeDirectory path)
            | .error error => { tree := before.tree, answer := .error error }
        | attempt => tree.settle path attempt

/-- Makes a directory and the directories that hold it, as far as they are
missing.  The empty path needs none. -/
def makeDirectories (tree : FileTree) (path : Path) :
    Change (Except SystemError Unit) :=
  tree.makeFirstOf (path :: path.parents)

end FileTree

end TightLists
