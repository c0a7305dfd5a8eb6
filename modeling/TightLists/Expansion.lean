import TightLists.Text.Alphanumeric
import TightLists.Text.Basic

/-!
# Variables and tildes in paths

A path in the settings may refer to environment variables, as `$NAME` or
`${NAME}`, and may begin with a tilde for the home directory.  References are
expanded first.  A variable that is set stands for its value, even when that is
empty.  One that is not set stands for the default in its reference, as in
`${NAME:-default}`, and without a default it makes the whole expansion fail.  A
tilde that comes out of a variable is not expanded.
-/

namespace TightLists

/-- The variables that are set, each with its value. -/
structure Environment where
  bindings : List (Text × Text)
  deriving DecidableEq, Repr

namespace Environment

/-- The value of a variable, if it is set.  A binding is held as the line
`name=value`, and the value is what follows the name and an equals sign; so a
name that has an equals sign of its own reaches into the value. -/
def get? (environment : Environment) (name : Text) : Option Text :=
  environment.bindings.findSome? fun (bound, value) =>
    (name ++ ['=']).isPrefixOf? (bound ++ '=' :: value)

/-- The home directory, as the variable `HOME` tells it.  Where the variable is
not set or is empty, a system may look it up among its users; that is left out,
and there is no home directory then. -/
def home? (environment : Environment) : Option Text :=
  (environment.get? "HOME".toList).filter fun home => home ≠ []

end Environment

/-- A piece of a text with references in it. -/
inductive Fragment where
  | literal (characters : Text)
  | named (name : Text)
  /-- A reference in braces, with what the braces hold. -/
  | braced (inside : Text)
  deriving DecidableEq, Repr

/-- Characters of variable names outside braces. -/
def isNameCharacter (character : Char) : Bool :=
  isAlphanumeric character || character == '_'

/-- The pieces of a text.  A doubled dollar sign stands for one, and a dollar
sign that begins no reference stands for itself; so does an opening brace that
is never closed. -/
def fragments : Text → List Fragment
  | [] => []
  | '$' :: '$' :: rest => .literal ['$'] :: fragments rest
  | '$' :: '{' :: rest =>
      if rest.contains '}' then
        .braced (rest.takeWhile (· != '}')) :: fragments (rest.dropWhile (· != '}')).tail
      else .literal ['$', '{'] :: fragments rest
  | '$' :: rest =>
      match rest.takeWhile isNameCharacter with
      | [] => .literal ['$'] :: fragments rest
      | name => .named name :: fragments (rest.dropWhile isNameCharacter)
  | character :: rest => .literal [character] :: fragments rest
termination_by text => text.length
decreasing_by
  all_goals simp only [List.length_cons]
  all_goals try omega
  · have := (List.dropWhile_sublist (l := rest) (· != '}')).length_le
    rw [List.length_tail]
    omega
  · have := (List.dropWhile_sublist (l := rest) isNameCharacter).length_le
    omega

/-- A text cut at its first `:-`, which separates a name from a default. -/
def splitAtDefault : Text → Text × Option Text
  | [] => ([], none)
  | ':' :: '-' :: default => ([], some default)
  | character :: rest =>
      let (name, default) := splitAtDefault rest
      (character :: name, default)

/-- The name and the default in a reference in braces.  There is no default
without a name before it. -/
def nameAndDefault (inside : Text) : Text × Option Text :=
  match splitAtDefault inside with
  | ([], some _) => (inside, none)
  | split => split

/-- The variable that a reference names. -/
def Fragment.name? : Fragment → Option Text
  | literal _ => none
  | named name => some name
  | braced inside => some (nameAndDefault inside).1

namespace Environment

/-- What a piece of a text stands for.  The default of a reference in braces
stands as it is, and only for a variable that is not set. -/
def resolve? (environment : Environment) : Fragment → Option Text
  | .literal characters => some characters
  | .named name => environment.get? name
  | .braced inside =>
      let (name, default) := nameAndDefault inside
      (environment.get? name).or default

def expandVariables? (environment : Environment) (text : Text) : Option Text :=
  ((fragments text).mapM environment.resolve?).map List.flatten

/-- A text with the home directory in the place of a tilde at its front, if the
tilde stands alone or before a slash. -/
def expandTilde (environment : Environment) (text : Text) : Text :=
  match text, environment.home? with
  | '~' :: rest, some home =>
      if rest = [] ∨ rest.head? = some '/' then home ++ rest else text
  | _, _ => text

def expand? (environment : Environment) (text : Text) : Option Text :=
  (environment.expandVariables? text).map fun expanded =>
    if text.head? ≠ some '~' ∧ expanded.head? = some '~' then expanded
    else environment.expandTilde expanded

def expand (environment : Environment) (text : Text) : Text :=
  (environment.expand? text).getD text

end Environment

end TightLists
