import TightLists.Path

/-!
# Commands and the command line

What a user can ask for, and how that is read from the arguments.

Arguments are read from left to right on one level after the other: the program
itself, a subcommand, a subcommand of that.  What each level knows is listed
first; `Level.read` then goes over the arguments.

A value that has been read is not looked at before the next argument of another
kind arrives, or the end of the level.  So an argument that is unknown altogether
is reported before a malformed value in front of it.
-/

namespace TightLists

/-! ## Commands -/

/-- What is done with the notes that are fixed. -/
inductive FixMode where
  | write
  /-- Only report which of them would change. -/
  | check
  /-- Print the fixed text of a single one. -/
  | print
  deriving DecidableEq, Repr

/-- What the program is asked to do. -/
inductive Command where
  /-- Fix notes: those at the given paths, or, with no paths, those in the notes
  directory from the settings. -/
  | fix (mode : FixMode) (paths : List Path)
  /-- Handle the standard input as a paste.  The setting may be overridden. -/
  | paste (autoFix : Option Bool)
  | showSettings
  | setAutoFix (enabled : Bool)
  deriving DecidableEq, Repr

/-- A command, and what any command can be given. -/
structure Invocation where
  /-- The settings file to use instead of the usual one. -/
  config : Option Path
  /-- How often more log records were asked for. -/
  verbosity : Nat
  command : Command
  deriving DecidableEq, Repr

/-- Why the program ends without running a command. -/
inductive UsageEnd where
  | help
  | version
  /-- Nothing at all was given where a subcommand is needed. -/
  | helpForMissing
  /-- Options were given, but no subcommand. -/
  | missingSubcommand
  /-- The word in the place of a subcommand is none. -/
  | invalidSubcommand
  /-- An option or an operand is not known here. -/
  | unknownArgument
  | invalidValue
  | argumentConflict
  | missingArgument
  /-- A value is given to an option that takes none. -/
  | tooManyValues
  deriving DecidableEq, Repr

/-- The exit status of a program that ends without running a command. -/
def UsageEnd.status : UsageEnd → Nat
  | help | version => 0
  | _ => 2

/-! ## Levels and their options -/

/-- A place in the tree of subcommands; arguments are read level by level. -/
inductive Level where
  | program
  | fix
  | paste
  | config
  | configShow
  | configSetAutoFix
  deriving DecidableEq, Repr

/-- Options that take a value. -/
inductive ValueOption where
  | config
  | autoFix
  deriving DecidableEq, Repr

inductive Flag where
  | verbose
  | help
  | version
  | check
  | print
  deriving DecidableEq, Repr

inductive AnyOption where
  | valued (option : ValueOption)
  | flag (flag : Flag)
  deriving DecidableEq, Repr

namespace Level

/-- The words that lead on from a level, and where they lead. -/
def subcommands : Level → List (Text × Level)
  | program =>
      [("fix".toList, fix), ("paste".toList, paste), ("config".toList, config)]
  | config =>
      [("show".toList, configShow), ("set-auto-fix".toList, configSetAutoFix)]
  | _ => []

/-- The subcommand that explains the others. -/
def helpName : Text := "help".toList

/-- Whether a word names a subcommand of a level, the one for help included. -/
def isSubcommand (level : Level) (word : Text) : Bool :=
  !level.subcommands.isEmpty && word == helpName ||
    (level.subcommands.lookup word).isSome

/-- The long options of a level that other levels do not have. -/
def ownOptions : Level → List (Text × AnyOption)
  | program => [("version".toList, .flag .version)]
  | fix => [("check".toList, .flag .check), ("stdout".toList, .flag .print)]
  | paste => [("auto-fix".toList, .valued .autoFix)]
  | _ => []

/-- The long options that all levels have. -/
def sharedOptions : List (Text × AnyOption) :=
  [("config".toList, .valued .config), ("verbose".toList, .flag .verbose),
    ("help".toList, .flag .help)]

def longOption? (level : Level) (name : Text) : Option AnyOption :=
  (level.ownOptions ++ sharedOptions).lookup name

/-- The option with a short name.  None of them takes a value. -/
def shortOption? (level : Level) : Char → Option Flag
  | 'v' => some .verbose
  | 'h' => some .help
  | 'V' => if level = program then some .version else none
  | _ => none

end Level

/-- What has been given on one level. -/
structure Given where
  config : Option Path := none
  verbosity : Nat := 0
  check : Bool := false
  print : Bool := false
  paths : List Path := []
  autoFix : Option Bool := none
  enabled : Option Bool := none
  deriving DecidableEq, Repr

/-- Arguments that have been read but not yet looked at. -/
inductive Pending where
  | nothing
  /-- An option that takes a value, with its value once that has been read. -/
  | option (option : ValueOption) (value : Option Text)
  | operands (words : List Text)
  deriving DecidableEq, Repr

/-- How far the reading of a level has come. -/
structure Progress where
  given : Given := {}
  pending : Pending := .nothing
  /-- Whether a double hyphen has ended the options. -/
  operandsOnly : Bool := false
  deriving DecidableEq, Repr

def bool? (word : Text) : Except UsageEnd Bool :=
  if word = "true".toList then .ok true
  else if word = "false".toList then .ok false
  else .error .invalidValue

def path? (word : Text) : Except UsageEnd Path :=
  if word = [] then .error .invalidValue else .ok (.ofText word)

namespace Given

/-- Takes an option with its value.  It may be given once on a level. -/
def takeOption (given : Given) (option : ValueOption) (value : Text) :
    Except UsageEnd Given :=
  match option with
  | .config =>
      if given.config.isSome then .error .argumentConflict
      else (path? value).map fun path => { given with config := some path }
  | .autoFix =>
      if given.autoFix.isSome then .error .argumentConflict
      else (bool? value).map fun enabled => { given with autoFix := some enabled }

/-- Takes an option without a value.  All but the one for more log records may
be given once on a level. -/
def takeFlag (given : Given) : Flag → Except UsageEnd Given
  | .verbose => .ok { given with verbosity := given.verbosity + 1 }
  | .help => .error .help
  | .version => .error .version
  | .check =>
      if given.check then .error .argumentConflict else .ok { given with check := true }
  | .print =>
      if given.print then .error .argumentConflict else .ok { given with print := true }

/-- Takes operands: one for the switch where that is set, and paths elsewhere. -/
def takeOperands (given : Given) (level : Level) (words : List Text) :
    Except UsageEnd Given :=
  match level, words with
  | .configSetAutoFix, word :: _ =>
      (bool? word).map fun enabled => { given with enabled := some enabled }
  | _, words =>
      (words.mapM path?).map fun paths => { given with paths := given.paths ++ paths }

/-- The command that has been given on a level.  Where there are subcommands, one of
them is missing. -/
def command (given : Given) : Level → Except UsageEnd Command
  | .fix =>
      match given.check, given.print with
      | true, true => .error .argumentConflict
      | true, false => .ok (.fix .check given.paths)
      | false, true => .ok (.fix .print given.paths)
      | false, false => .ok (.fix .write given.paths)
  | .paste => .ok (.paste given.autoFix)
  | .configShow => .ok .showSettings
  | .configSetAutoFix =>
      match given.enabled with
      | some enabled => .ok (.setAutoFix enabled)
      | none => .error .missingArgument
  | .program | .config =>
      .error (if given = {} then .helpForMissing else .missingSubcommand)

/-- The invocation that has been given on a level, together with the one from
below when there is a subcommand.  What is given further below counts. -/
def invocation (given : Given) (level : Level) :
    Option Invocation → Except UsageEnd Invocation
  | none =>
      (given.command level).map fun command =>
        { config := given.config, verbosity := given.verbosity, command := command }
  | some below =>
      .ok
        { below with
          config := below.config.or given.config
          verbosity := if below.verbosity = 0 then given.verbosity else below.verbosity }

end Given

namespace Progress

def awaitsValue (progress : Progress) : Bool :=
  match progress.pending with
  | .option _ none => true
  | _ => false

/-- Looks at the arguments that have been read but not yet looked at. -/
def settle (progress : Progress) (level : Level) : Except UsageEnd Progress :=
  match progress.pending with
  | .nothing => .ok progress
  | .option _ none => .error .invalidValue
  | .option option (some value) =>
      (progress.given.takeOption option value).map fun given =>
        { progress with given := given, pending := .nothing }
  | .operands words =>
      (progress.given.takeOperands level words).map fun given =>
        { progress with given := given, pending := .nothing }

/-- Reads an operand.  Paths are collected until an argument of another kind
arrives; the switch is set by one operand only. -/
def takeOperand (progress : Progress) (level : Level) (word : Text) :
    Except UsageEnd Progress :=
  match level, progress.pending with
  | .fix, .operands words =>
      .ok { progress with pending := .operands (words ++ [word]) }
  | .fix, _ =>
      (progress.settle level).map fun settled =>
        { settled with pending := .operands [word] }
  | .configSetAutoFix, .operands _ => .error .unknownArgument
  | .configSetAutoFix, _ =>
      if progress.given.enabled.isSome then .error .unknownArgument
      else
        (progress.settle level).map fun settled =>
          { settled with pending := .operands [word] }
  | _, _ =>
      if level.subcommands.isEmpty ∨ progress.operandsOnly ∧ level.isSubcommand word then
        .error .unknownArgument
      else .error .invalidSubcommand

def takeFlag (progress : Progress) (level : Level) (flag : Flag) :
    Except UsageEnd Progress := do
  let settled ← progress.settle level
  let given ← settled.given.takeFlag flag
  return { settled with given := given }

/-- Reads an option by its long name, which is followed by an equals sign and a
value, or by nothing. -/
def takeLong (progress : Progress) (level : Level) (argument : Text) :
    Except UsageEnd Progress :=
  let name := argument.takeWhile (· != '=')
  match level.longOption? name, argument.dropWhile (· != '=') with
  | none, _ => .error .unknownArgument
  | some (.flag flag), [] => progress.takeFlag level flag
  | some (.flag _), _ :: _ => .error .tooManyValues
  | some (.valued option), [] =>
      (progress.settle level).map fun settled =>
        { settled with pending := .option option none }
  | some (.valued option), _ :: value => do
      let settled ← progress.settle level
      let given ← settled.given.takeOption option value
      return { settled with given := given }

/-- Reads options by their short names, any number of which share a hyphen. -/
def takeShort (progress : Progress) (level : Level) (names : Text) :
    Except UsageEnd Progress :=
  names.foldlM
    (fun current name =>
      match level.shortOption? name with
      | some flag => current.takeFlag level flag
      | none => .error .unknownArgument)
    progress

/-- Reads one argument.  A value that begins like an option is read as one. -/
def take (progress : Progress) (level : Level) (argument : Text) :
    Except UsageEnd Progress :=
  if progress.operandsOnly then progress.takeOperand level argument
  else
    match argument with
    | ['-', '-'] => .ok { progress with operandsOnly := true }
    | '-' :: '-' :: long => progress.takeLong level long
    | '-' :: name :: names => progress.takeShort level (name :: names)
    | word =>
        match progress.pending with
        | .option option none =>
            .ok { progress with pending := .option option (some word) }
        | _ => progress.takeOperand level word

end Progress

namespace Level

/-- Ends with the help for a chain of subcommands, provided that they exist. -/
def helpFor (level : Level) : List Text → UsageEnd
  | [] => .help
  | word :: rest =>
      match level.subcommands.lookup word with
      | some below => below.helpFor rest
      | none =>
          if level.isSubcommand word ∧ rest = [] then .help else .invalidSubcommand

/-- Reads the arguments from a level on.  All arguments after a subcommand belong to
it. -/
def read (level : Level) (progress : Progress) :
    List Text → Except UsageEnd Invocation
  | [] => do
      let settled ← progress.settle level
      settled.given.invocation level none
  | argument :: rest =>
      if !progress.operandsOnly && !progress.awaitsValue && level.isSubcommand argument then
        match level.subcommands.lookup argument with
        | none => .error (level.helpFor rest)
        | some subcommand => do
            let below ← subcommand.read {} rest
            let settled ← progress.settle level
            settled.given.invocation level (some below)
      else do
        let next ← progress.take level argument
        level.read next rest

end Level

/-- Reads a command line, given without the name of the program. -/
def Invocation.read (arguments : List Text) : Except UsageEnd Invocation :=
  Level.program.read {} arguments

end TightLists
