import TightLists.Command.Run

/-!
# The command line program

Reads the command line, takes the part of the disk that the command can reach
into a file tree, runs the command on it, and writes what changed back to the
disk.  What a command does is decided in the library alone.
-/

namespace TightLists

/-- The name with the given spelling, if it is one. -/
def nameOf? (spelling : String) : Option Name :=
  let bytes := spelling.toUTF8.data.toList
  if valid : ValidName bytes then some { bytes := bytes, valid := valid } else none

def diskPath (place : Place) : String :=
  (Path.hang .root (place.reverse.map Name.bytes)).display

def diskSteps (spelling : String) : List Step :=
  (Path.ofText spelling.toList).steps?.getD []

/-- Takes one entry of a directory into a tree, as the disk has it.  A link
points to where it leads in the end; one that leads nowhere points to itself. -/
def observeEntry (tree : FileTree) (here : Place) (name : Name) : IO FileTree := do
  if (tree.entryAt? (name :: here)).isSome then return tree
  let path := (← IO.currentDir) / diskPath (name :: here)
  let kind : Option IO.FS.FileType ←
    try pure (some (← path.symlinkMetadata).type)
    catch _ => pure none
  match kind with
  | some .dir => return tree.add here name .directory
  | some .file => return tree.add here name (.file (← IO.FS.readBinFile path))
  | some .symlink =>
      let target ← try IO.FS.realPath path catch _ => pure path
      return tree.add here name (.link (Path.ofText target.toString.toList))
  | _ => return tree

mutual

/-- Takes everything along some steps into a tree.  Where they end in a
directory, everything below it is taken too, if asked for. -/
partial def observe (below : Bool) (tree : FileTree) (here : Place) :
    List Step → IO FileTree
  | [] => if below && tree.isDirectoryAt here then observeBelow tree here else return tree
  | .enter name :: rest => do
      let known := tree.entryAt? (name :: here)
      let seen ← observeEntry tree here name
      match known, seen.entryAt? (name :: here) with
      | _, some .directory => observe below seen (name :: here) rest
      | none, some (.link target) =>
          observe below seen [] (target.steps?.getD [] ++ rest)
      | some (.link target), _ =>
          if target.bytes = (Path.ofText (diskPath (name :: here)).toList).bytes then return seen
          else observe below seen [] (target.steps?.getD [] ++ rest)
      | _, _ => return seen
  | .up :: rest => observe below tree here.tail rest
  | _ :: rest => observe below tree here rest

/-- Takes everything below a directory into a tree, and what the links in it lead
to. -/
partial def observeBelow (tree : FileTree) (place : Place) : IO FileTree := do
  let mut seen := tree
  for entry in ← ((← IO.currentDir) / diskPath place).readDir do
    match nameOf? entry.fileName with
    | some name =>
        seen ← observe false seen place [.enter name]
        if seen.isDirectoryAt (name :: place) then
          seen ← observeBelow seen (name :: place)
    | none => pure ()
  return seen

end

def observePath (tree : FileTree) (path : Path) : IO FileTree :=
  if path.bytes = [] then return tree
  else observe true tree (tree.startOf path) (path.steps?.getD [])

/-- The tree that knows the working directory and the way to it. -/
def workingTree : IO FileTree := do
  let steps := diskSteps (← IO.currentDir).toString
  let tree ← observe false .empty [] steps
  match tree.placeOf? (Path.ofText (← IO.currentDir).toString.toList) with
  | some place => return tree.enter place
  | none => return tree

/-- The value of an environment variable as a list of one binding, or of none
when it is not set. -/
def bindingOf (name : Text) : IO (List (Text × Text)) := do
  match ← IO.getEnv (String.ofList name) with
  | some value => return [(name, value.toList)]
  | none => return []

/-- The variables that the notes path of a settings file refers to. -/
def variablesOf (tree : FileTree) (config : Path) : List Text :=
  match tree.readText config with
  | .ok text =>
      match (Settings.read? text).bind Settings.notesPath with
      | some notes => (fragments notes).filterMap Fragment.name?
      | none => []
  | .error _ => []

/-- The paths whose files a command reads or writes besides the settings file,
given the settings. -/
def pathsOf (settings : Option Settings) : Command → List Path
  | .fix _ [] => (settings.bind Settings.notesPath).toList.map Path.ofText
  | .fix _ paths => paths
  | _ => []

/-- Writes what a command has changed to the disk, directories before what they
hold. -/
def writeBack (before after : FileTree) : IO Unit := do
  for (place, entry) in after.entries do
    let path := diskPath place
    match before.entryAt? place, entry with
    | none, .directory => IO.FS.createDir path
    | none, .file content => IO.FS.writeBinFile path content
    | some (.file old), .file content =>
        unless old == content do IO.FS.writeBinFile path content
    | _, _ => pure ()

partial def readAll (stream : IO.FS.Stream) (read : ByteArray) : IO ByteArray := do
  let more ← stream.read 65536
  if more.isEmpty then return read else readAll stream (read ++ more)

def usageText : String :=
  "list-spacing [--config FILE] [-v] COMMAND\n" ++
    "  fix [--check | --stdout] [PATH ...]\n" ++
    "  paste [--auto-fix true|false]\n" ++
    "  config show\n" ++
    "  config set-auto-fix true|false\n"

def printLog (verbosity : Nat) (log : Log) : IO Unit := do
  let least : LogLevel := match verbosity with
    | 0 => .warn
    | 1 => .info
    | _ => .debug
  for record in log do
    if least.weight ≤ record.level.weight then
      IO.eprintln s!"[{record.level.label}] {record.message}"

/-- Runs a command against the disk and answers its exit status. -/
def perform (invocation : Invocation) : IO Nat := do
  let home ← bindingOf "HOME".toList
  let config := invocation.config.getD { bindings := home : Environment }.settingsPath
  let settled ← observePath (← workingTree) config
  let others ← (variablesOf settled config).mapM bindingOf
  let environment : Environment := { bindings := home ++ others.flatten }
  let settings := (settled.loadSettings environment config).toOption.join
  let before ← (pathsOf settings invocation.command).foldlM observePath settled
  let input ← match invocation.command with
    | .paste _ => readAll (← IO.getStdin) .empty
    | _ => pure .empty
  let run := before.run environment input invocation
  writeBack before run.tree
  (← IO.getStdout).write run.output
  printLog invocation.verbosity run.log
  match run.ending with
  | .finished _ => pure ()
  | .failed failure => IO.eprintln s!"Error: {failure.message}"
  return run.ending.status

end TightLists

/-- The program: reads its arguments and runs the command they name. -/
def main (arguments : List String) : IO UInt32 := do
  match TightLists.Invocation.read (arguments.map String.toList) with
  | .ok invocation => return (← TightLists.perform invocation).toUInt32
  | .error usage =>
      if usage.status = 0 then IO.print TightLists.usageText
      else IO.eprint TightLists.usageText
      return usage.status.toUInt32
