import TightLists.Toml.Scalar

/-!
# Values and tables

What a settings file says: values under keys, in tables that may hold tables.
A table remembers how it came about, because that decides whether later lines may
add to it:

* a table written between braces is closed;
* a table that a header opens takes the lines below its header, and no header
  opens it again;
* a table that a longer header merely passes through may still be opened;
* a table that dotted keys pass through takes further dotted keys, but no header
  opens it.
-/

namespace TightLists.Toml

/-- How a table has come about. -/
inductive Origin where
  | inline
  | opened
  | implied
  | dotted
  deriving DecidableEq, Repr

inductive Value where
  | text (content : Text)
  | boolean (content : Bool)
  | integer (content : Int)
  | decimal (content : Decimal)
  | specialFloat (word : Text)
  | moment (content : Moment)
  | array (items : List Value)
  | table (origin : Origin) (entries : List (Text × Value))
  /-- The tables that headers in double brackets have opened under one name, each
  with its entries. -/
  | tables (elements : List (List (Text × Value)))

/-- The entries of a table in the order in which they were made. -/
abbrev Entries := List (Text × Value)

namespace Entries

/-- Gives a key that is there already another value. -/
def replace (entries : Entries) (key : Text) (value : Value) : Entries :=
  entries.map fun entry => if entry.1 = key then (key, value) else entry

/-- The way in which a path of keys goes through tables. -/
inductive Passage where
  | header
  | dottedKey
  deriving DecidableEq, Repr

/-- How the tables come about that a passage makes. -/
def Passage.origin : Passage → Origin
  | .header => .implied
  | .dottedKey => .dotted

def Passage.mayEnter : Passage → Origin → Bool
  | _, .inline => false
  | .header, _ => true
  | .dottedKey, origin => origin ≠ .opened

/-- A change of the entries of a table that may be refused. -/
abbrev TableChange := Origin → Entries → Option Entries

/-- Changes the table that a path leads to.  Tables that are missing on the way
are made; of tables under a double-bracket header the last one is taken. -/
def changeAt (passage : Passage) (change : TableChange) :
    List Text → TableChange
  | [], origin, entries => change origin entries
  | key :: path, _, entries =>
      match entries.lookup key with
      | none =>
          (changeAt passage change path passage.origin []).map fun inner =>
            entries ++ [(key, .table passage.origin inner)]
      | some (.table origin inner) =>
          if passage.mayEnter origin then
            (changeAt passage change path origin inner).map fun changed =>
              entries.replace key (.table origin changed)
          else none
      | some (.tables elements) =>
          match elements.getLast? with
          | some last =>
              (changeAt passage change path .opened last).map fun changed =>
                entries.replace key (.tables (elements.dropLast ++ [changed]))
          | none => none
      | some _ => none

def insert? (key : Text) (value : Value) (entries : Entries) : Option Entries :=
  match entries.lookup key with
  | none => some (entries ++ [(key, value)])
  | some _ => none

/-- Adds an entry under a dotted key.  Only tables that dotted keys have made
take entries by a dotted key. -/
def insertAt (path : List Text) (key : Text) (value : Value) : TableChange :=
  changeAt .dottedKey
    (fun origin entries =>
      if path ≠ [] ∧ origin ≠ .dotted then none else entries.insert? key value)
    path

/-- Opens the table of a header, which must be new or only implied so far. -/
def openTable (path : List Text) (key : Text) : TableChange :=
  changeAt .header
    (fun _ entries =>
      match entries.lookup key with
      | none => some (entries ++ [(key, .table .opened [])])
      | some (.table .implied inner) => some (entries.replace key (.table .opened inner))
      | some _ => none)
    path

/-- Opens one more table under the name in a double-bracket header. -/
def openElement (path : List Text) (key : Text) : TableChange :=
  changeAt .header
    (fun _ entries =>
      match entries.lookup key with
      | none => some (entries ++ [(key, .tables [[]])])
      | some (.tables elements) => some (entries.replace key (.tables (elements ++ [[]])))
      | some _ => none)
    path

end Entries

end TightLists.Toml
