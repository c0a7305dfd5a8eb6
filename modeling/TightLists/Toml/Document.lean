import TightLists.Toml.Value

/-!
# Documents

A document is a sequence of statements: headers, which open tables, and entries,
which go into the table opened last.  Reading takes two steps: `readStatements?`
goes over the text, and `ofStatements?` puts the entries into their tables.
-/

namespace TightLists.Toml

/-- How deep arrays and braced tables may nest in a value. -/
def nestingLimit : Nat := 80

/-- How many parts a dotted key may have. -/
def keyLimit : Nat := 80

/-- A dotted key: the keys it passes through and the last one. -/
structure DottedKey where
  path : List Text
  last : Text
  deriving DecidableEq, Repr

def isKeyCharacter (character : Char) : Bool :=
  character.isAlphanum || character == '_' || character == '-'

/-- Reads one part of a key, which is bare or in quotes. -/
def readKeyPart : Reader Text := fun text =>
  match text.takeWhile isKeyCharacter with
  | [] => readQuotedLine text
  | word => some (word, text.dropWhile isKeyCharacter)

/-- Reads the parts of a key in at most the given number of parts, blanks around
them included. -/
def readKeyParts : Nat → Reader (List Text)
  | 0, _ => none
  | bound + 1, text =>
      match readKeyPart (skipBlanks text) with
      | none => none
      | some (part, rest) =>
          match skipBlanks rest with
          | '.' :: after =>
              match readKeyParts bound after with
              | some (others, left) => some (part :: others, left)
              | none => none
          | left => some ([part], left)

/-- Reads a dotted key and the blanks around it. -/
def readKey : Reader DottedKey := fun text =>
  match readKeyParts keyLimit text with
  | some (parts, rest) =>
      match parts.getLast? with
      | some last => some ({ path := parts.dropLast, last := last }, rest)
      | none => none
  | none => none

/-! ## Values -/

/-- Characters of words, which are values without quotes or brackets. -/
def isWordCharacter (character : Char) : Bool :=
  isKeyCharacter character || character == '+' || character == '.' || character == ':'

def isDateWord (word : Text) : Bool :=
  match readDate word with
  | some (_, []) => true
  | _ => false

/-- The word at the front of a text and the text after it.  A date takes the word
after a single space with it when that begins like a time. -/
def splitWord (text : Text) : Text × Text :=
  let word := text.takeWhile isWordCharacter
  let rest := text.dropWhile isWordCharacter
  match rest with
  | ' ' :: digit :: more =>
      if isDateWord word && digit.isDigit then
        (word ++ ' ' :: (digit :: more).takeWhile isWordCharacter,
          (digit :: more).dropWhile isWordCharacter)
      else (word, rest)
  | _ => (word, rest)

/-- The value that a word spells.  A whole number out of range is no other value
either. -/
def wordValue? (word : Text) : Option Value :=
  if word = "true".toList then some (.boolean true)
  else if word = "false".toList then some (.boolean false)
  else if isSpecialFloat word then some (.specialFloat word)
  else
    match wholeNumber? word with
    | some number => if isHeld number then some (.integer number) else none
    | none =>
        match decimal? word with
        | some decimal => if decimal.overflows then none else some (.decimal decimal)
        | none => (moment? word).map .moment

/-- Reads the items of an array up to its closing bracket, in at most the given
number of items. -/
def readItems (readItem : Reader Value) : Nat → Reader (List Value)
  | 0, _ => none
  | bound + 1, text =>
      match skipTrivia false text with
      | some (']' :: rest) => some ([], rest)
      | some start =>
          match readItem start with
          | some (item, rest) =>
              match skipTrivia false rest with
              | some (',' :: after) =>
                  match readItems readItem bound after with
                  | some (others, left) => some (item :: others, left)
                  | none => none
              | some (']' :: left) => some ([item], left)
              | _ => none
          | none => none
      | none => none

/-- An entry of a document or a braced table: a key and its value. -/
structure KeyValue where
  key : DottedKey
  value : Value

def readKeyValue (readItem : Reader Value) : Reader KeyValue := fun text =>
  match readKey text with
  | some (key, '=' :: rest) =>
      match readItem (skipBlanks rest) with
      | some (value, left) => some ({ key := key, value := value }, left)
      | none => none
  | _ => none

/-- Reads the entries of a braced table up to its closing brace, in at most the
given number of entries. -/
def readEntries (readItem : Reader Value) : Nat → Reader (List KeyValue)
  | 0, _ => none
  | bound + 1, text =>
      match readKeyValue readItem text with
      | some (entry, rest) =>
          match skipBlanks rest with
          | ',' :: after =>
              match readEntries readItem bound after with
              | some (others, left) => some (entry :: others, left)
              | none => none
          | '}' :: left => some ([entry], left)
          | _ => none
      | none => none

/-- The braced table with the given entries, unless they do not go together. -/
def tableOf? (entries : List KeyValue) : Option Value :=
  (entries.foldlM
    (fun table entry => Entries.insertAt entry.key.path entry.key.last entry.value .inline table)
    []).map (.table .inline)

/-- Reads a value, in which arrays and braced tables nest at most so deep. -/
def readValue : Nat → Reader Value
  | depth, '[' :: rest =>
      match depth with
      | 0 => none
      | inner + 1 =>
          match readItems (readValue inner) (rest.length + 1) rest with
          | some (items, left) => some (.array items, left)
          | none => none
  | depth, '{' :: rest =>
      match depth with
      | 0 => none
      | inner + 1 =>
          match skipBlanks rest with
          | '}' :: left => some (.table .inline [], left)
          | start =>
              match readEntries (readValue inner) (start.length + 1) start with
              | some (entries, left) => (tableOf? entries).map fun table => (table, left)
              | none => none
  | _, text =>
      match readQuoted text with
      | some (content, left) => some (.text content, left)
      | none =>
          let (word, left) := splitWord text
          (wordValue? word).map fun value => (value, left)

/-! ## Statements -/

/-- A statement: an entry, or a header in single or in double brackets. -/
inductive Statement where
  | entry (content : KeyValue)
  | header (key : DottedKey)
  | elementHeader (key : DottedKey)

/-- Reads a statement, without the end of its line. -/
def readStatement : Reader Statement
  | '[' :: '[' :: rest =>
      match readKey rest with
      | some (key, ']' :: ']' :: left) => some (.elementHeader key, left)
      | _ => none
  | '[' :: rest =>
      match readKey rest with
      | some (key, ']' :: left) => some (.header key, left)
      | _ => none
  | text =>
      match readKeyValue (readValue nestingLimit) text with
      | some (content, left) => some (.entry content, left)
      | none => none

/-- The statements of a text that has at most the given number of them. -/
def statementsWithin? : Nat → Text → Option (List Statement)
  | 0, _ => none
  | bound + 1, text =>
      match skipTrivia false text with
      | none => none
      | some [] => some []
      | some start =>
          match readStatement start with
          | some (statement, rest) =>
              match endLine? rest with
              | some left => (statementsWithin? bound left).map (statement :: ·)
              | none => none
          | none => none

/-- The statements of a text.  A byte-order mark at its very front does not
count. -/
def statements? (text : Text) : Option (List Statement) :=
  let start := if text.head? = some '\uFEFF' then text.tail else text
  statementsWithin? (start.length + 1) start

/-- A document as far as it has been put together: its entries, and the keys of
the table that takes the next ones. -/
structure Draft where
  entries : Entries
  current : List Text

/-- Takes the next statement, which fails when it contradicts the ones before. -/
def Draft.take? (draft : Draft) : Statement → Option Draft
  | .entry content =>
      (Entries.changeAt .header (Entries.insertAt content.key.path content.key.last content.value)
        draft.current .opened draft.entries).map fun entries =>
          { draft with entries := entries }
  | .header key =>
      (Entries.openTable key.path key.last .opened draft.entries).map fun entries =>
        { entries := entries, current := key.path ++ [key.last] }
  | .elementHeader key =>
      (Entries.openElement key.path key.last .opened draft.entries).map fun entries =>
        { entries := entries, current := key.path ++ [key.last] }

def ofStatements? (statements : List Statement) : Option Entries :=
  (statements.foldlM Draft.take? { entries := [], current := [] }).map Draft.entries

/-- The entries of a document, or nothing when it is malformed. -/
def read? (text : Text) : Option Entries :=
  (statements? text).bind ofStatements?

end TightLists.Toml
