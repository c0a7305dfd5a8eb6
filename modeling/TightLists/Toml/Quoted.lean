import TightLists.Text.Basic

/-!
# Quoted strings

Settings files are TOML.  A reader takes a text, and either fails or answers
what it read together with the text that is left.  The pieces that carry no
meaning come first: blanks, comments and line breaks.

A string is written in one of four forms: between double quotes, where escapes
stand for characters, or between single quotes, where everything stands for
itself; and either on one line or, between tripled quotes, over several.
`QuoteForm.write` writes a text in a form, and `readQuoted` reads whatever form
it meets.
-/

namespace TightLists.Toml

/-! ## Blanks, comments and line breaks -/

/-- Reads something at the front of a text. -/
abbrev Reader (result : Type) := Text → Option (result × Text)

/-- The white space that separates what stands on one line. -/
def isBlank (character : Char) : Bool :=
  character == ' ' || character == '\t'

def skipBlanks (text : Text) : Text :=
  text.dropWhile isBlank

/-- Characters that may stand in comments and strings as they are: all but the
controls, of which only the tab may. -/
def isPlain (character : Char) : Bool :=
  character == '\t' || ' ' ≤ character && character != '\x7F'

/-- The text after a line break, if one comes first. -/
def afterLineBreak? : Text → Option Text
  | '\n' :: rest => some rest
  | '\r' :: '\n' :: rest => some rest
  | _ => none

/-- Skips blanks, line breaks and comments.  The flag tells whether the text
begins inside a comment.  A comment that holds a control fails. -/
def skipTrivia (inComment : Bool) : Text → Option Text
  | [] => some []
  | '\n' :: rest => skipTrivia false rest
  | '\r' :: '\n' :: rest => skipTrivia false rest
  | character :: rest =>
      if inComment then
        if isPlain character then skipTrivia true rest else none
      else if character = '#' then skipTrivia true rest
      else if isBlank character then skipTrivia false rest
      else some (character :: rest)

/-- Reads the end of a line: blanks, perhaps a comment, and the line break or
the end of the text. -/
def endLine? (text : Text) : Option Text :=
  let afterComment :=
    match skipBlanks text with
    | '#' :: comment => comment.dropWhile isPlain
    | other => other
  match afterComment with
  | [] => some []
  | other => afterLineBreak? other

/-! ## Strings -/

/-- How a string is written. -/
structure QuoteForm where
  /-- Whether the quotes are double and escapes stand for characters. -/
  escapes : Bool
  /-- Whether the quotes are tripled and line breaks stand for themselves. -/
  multiline : Bool
  deriving DecidableEq, Repr

namespace QuoteForm

def basic : QuoteForm := { escapes := true, multiline := false }

def literal : QuoteForm := { escapes := false, multiline := false }

def basicLines : QuoteForm := { escapes := true, multiline := true }

def literalLines : QuoteForm := { escapes := false, multiline := true }

def quote (form : QuoteForm) : Char :=
  if form.escapes then '\"' else '\''

/-- What stands on both sides of a string. -/
def delimiter (form : QuoteForm) : Text :=
  if form.multiline then [form.quote, form.quote, form.quote] else [form.quote]

end QuoteForm

/-! ## Reading -/

/-- One unit of the inside of a string. -/
inductive StringUnit where
  /-- Some characters of the string, and more to come. -/
  | more (characters : Text)
  /-- The last characters of the string; its delimiter has been read. -/
  | last (characters : Text)
  deriving DecidableEq, Repr

/-- The value of a hexadecimal digit, in upper or lower case. -/
def hexDigit? (character : Char) : Option Nat :=
  if '0' ≤ character ∧ character ≤ '9' then some (character.toNat - '0'.toNat)
  else if 'a' ≤ character ∧ character ≤ 'f' then some (character.toNat - 'a'.toNat + 10)
  else if 'A' ≤ character ∧ character ≤ 'F' then some (character.toNat - 'A'.toNat + 10)
  else none

def hexValue? (digits : Text) : Option Nat :=
  (digits.mapM hexDigit?).map fun values =>
    values.foldl (fun value digit => value * 16 + digit) 0

/-- Reads a character given by its code point in so many hexadecimal digits. -/
def readCodePoint (count : Nat) : Reader StringUnit := fun text =>
  if (text.take count).length = count then
    match hexValue? (text.take count) with
    | some value =>
        if value.isValidChar then
          some (.more [Char.ofNat value], text.drop count)
        else none
    | none => none
  else none

def skipFolding : Text → Text
  | '\r' :: '\n' :: rest => skipFolding rest
  | character :: rest =>
      if isBlank character || character == '\n' then skipFolding rest
      else character :: rest
  | [] => []

/-- Reads a folded line break: blanks up to the end of the line, then all blanks
and line breaks that follow.  It stands for nothing. -/
def readFolding : Reader StringUnit := fun text =>
  match afterLineBreak? (skipBlanks text) with
  | some rest => some (.more [], skipFolding rest)
  | none => none

namespace QuoteForm

/-- Reads what follows a backslash.  Only in a multi-line form may that be a line
break. -/
def readEscape (form : QuoteForm) : Reader StringUnit
  | 'b' :: rest => some (.more ['\x08'], rest)
  | 't' :: rest => some (.more ['\t'], rest)
  | 'n' :: rest => some (.more ['\n'], rest)
  | 'f' :: rest => some (.more ['\x0C'], rest)
  | 'r' :: rest => some (.more ['\r'], rest)
  | '\"' :: rest => some (.more ['\"'], rest)
  | '\\' :: rest => some (.more ['\\'], rest)
  | 'u' :: rest => readCodePoint 4 rest
  | 'U' :: rest => readCodePoint 8 rest
  | rest => if form.multiline then readFolding rest else none

/-- Reads what follows a quote inside a string.  On one line the quote closes
the string.  In the multi-line forms three quotes close it, one or two more
before them belong to the string, and a longer run fails. -/
def readQuote (form : QuoteForm) : Reader StringUnit := fun text =>
  if form.multiline then
    if text.take 2 = [form.quote, form.quote] then
      let extra := (text.drop 2).takeWhile (· == form.quote)
      if extra.length ≤ 2 then
        some (.last extra, (text.drop 2).dropWhile (· == form.quote))
      else none
    else some (.more [form.quote], text)
  else some (.last [], text)

/-- Reads a character, an escape or a quote inside a string. -/
def readUnit (form : QuoteForm) : Reader StringUnit
  | [] => none
  | character :: rest =>
      if character = form.quote then form.readQuote rest
      else if character = '\\' ∧ form.escapes then form.readEscape rest
      else if isPlain character then some (.more [character], rest)
      else if form.multiline ∧
          (character = '\n' ∨ character = '\r' ∧ rest.head? = some '\n') then
        some (.more [character], rest)
      else none

/-- Reads the inside of a string in at most the given number of units. -/
def readUnits (form : QuoteForm) : Nat → Reader Text
  | 0, _ => none
  | bound + 1, text =>
      match form.readUnit text with
      | some (.last characters, rest) => some (characters, rest)
      | some (.more characters, rest) =>
          match form.readUnits bound rest with
          | some (others, after) => some (characters ++ others, after)
          | none => none
      | none => none

/-- Reads a string after its opening delimiter.  A line break right after it
does not count in the multi-line forms. -/
def readBody (form : QuoteForm) : Reader Text := fun text =>
  let start := if form.multiline then (afterLineBreak? text).getD text else text
  form.readUnits (start.length + 1) start

end QuoteForm

/-- Reads a string that is written on one line. -/
def readQuotedLine : Reader Text
  | '\"' :: rest => QuoteForm.basic.readBody rest
  | '\'' :: rest => QuoteForm.literal.readBody rest
  | _ => none

/-- Reads a string in whatever form it is written. -/
def readQuoted : Reader Text
  | '\"' :: '\"' :: '\"' :: rest => QuoteForm.basicLines.readBody rest
  | '\'' :: '\'' :: '\'' :: rest => QuoteForm.literalLines.readBody rest
  | text => readQuotedLine text

/-! ## Writing -/

/-- Controls that no form holds as they are. -/
def isHidden (character : Char) : Bool :=
  character < ' ' && character != '\t' && character != '\n' || character == '\x7F'

/-- Whether the character occurs three times in a row, given how often it has
just occurred. -/
def hasTriple (quote : Char) (seen : Nat) : Text → Bool
  | [] => false
  | character :: rest =>
      if character = quote then seen = 2 || hasTriple quote (seen + 1) rest
      else hasTriple quote 0 rest

/-- The form in which a text is written: the first of the four that can hold it
without an escape, or else a form with escapes. -/
def QuoteForm.choose (text : Text) : QuoteForm :=
  let hidden := text.any isHidden
  let backslash := text.contains '\\'
  let breaks := text.contains '\n'
  if !hidden && !backslash && !text.contains '\"' && !breaks then basic
  else if !hidden && !text.contains '\'' && !breaks then literal
  else if !hidden && !backslash && !hasTriple '\"' 0 text then basicLines
  else if !hidden && !hasTriple '\'' 0 text then literalLines
  else if breaks then basicLines
  else basic

def hexDigit (value : Nat) : Char :=
  if value < 10 then Char.ofNat ('0'.toNat + value) else Char.ofNat ('A'.toNat + (value - 10))

theorem hexDigit?_hexDigit {value : Nat} (small : value < 16) :
    hexDigit? (hexDigit value) = some value := by
  have all : ∀ digit ∈ List.range 16, hexDigit? (hexDigit digit) = some digit := by
    decide
  exact all value (List.mem_range.mpr small)

/-- Four hexadecimal digits for the code point of a control. -/
def controlDigits (character : Char) : Text :=
  ['0', '0', hexDigit (character.toNat / 16), hexDigit (character.toNat % 16)]

/-- A character that is no quote, as it is written in a form with escapes. -/
def QuoteForm.escape (form : QuoteForm) (character : Char) : Text :=
  if character = '\x08' then ['\\', 'b']
  else if character = '\t' then ['\\', 't']
  else if character = '\x0C' then ['\\', 'f']
  else if character = '\r' then ['\\', 'r']
  else if character = '\\' then ['\\', '\\']
  else if character = '\n' then if form.multiline then ['\n'] else ['\\', 'n']
  else if isHidden character then '\\' :: 'u' :: controlDigits character
  else [character]

/-- A text as it is written in a form with escapes, given how many quotes have
just been written.  On one line every quote is escaped, over several lines every
third of a row. -/
def QuoteForm.escapeAll (form : QuoteForm) (seen : Nat) : Text → Text
  | [] => []
  | character :: rest =>
      if character = '\"' then
        if form.multiline && seen < 2 then '\"' :: form.escapeAll (seen + 1) rest
        else '\\' :: '\"' :: form.escapeAll 0 rest
      else form.escape character ++ form.escapeAll 0 rest

/-- A text written in a form.  In the multi-line forms a text with a line break
begins on a line of its own. -/
def QuoteForm.write (form : QuoteForm) (text : Text) : Text :=
  let start := if form.multiline && text.contains '\n' then ['\n'] else []
  let body := if form.escapes then form.escapeAll 0 text else text
  form.delimiter ++ start ++ body ++ form.delimiter

/-- A text written in the form that is chosen for it. -/
def writeQuoted (text : Text) : Text :=
  (QuoteForm.choose text).write text

end TightLists.Toml
