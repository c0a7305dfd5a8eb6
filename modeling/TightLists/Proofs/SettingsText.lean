import TightLists.Proofs.QuotedStrings
import TightLists.Settings

/-!
# Settings are read back as they were written

A settings file is written line by line, each with a bare key and a value.  A line is
one statement whatever comes after it, so the statements of the whole text are those of
its lines, and as long as no key is used twice they are the entries of the document.
The settings themselves only have to say what their lines are.
-/

namespace TightLists

namespace Toml

/-- A key and a value, with the text in which the value is written. -/
structure WrittenEntry where
  key : Text
  written : Text
  value : Value

namespace WrittenEntry

/-- The line of an entry in a settings file. -/
def line (entry : WrittenEntry) : Text :=
  Settings.writeLine entry.key entry.written

/-- What the line of an entry is read as. -/
def statement (entry : WrittenEntry) : Statement :=
  .entry { key := { path := [], last := entry.key }, value := entry.value }

/-- The key needs no quotes, and the value is read up to the end of its line. -/
structure Readable (entry : WrittenEntry) : Prop where
  key_ne_nil : entry.key ≠ []
  bare : ∀ character ∈ entry.key, isKeyCharacter character = true
  unindented : ∃ first more, entry.written = first :: more ∧ isBlank first = false
  read : ∀ rest, readValue nestingLimit (entry.written ++ '\n' :: rest) =
    some (entry.value, '\n' :: rest)

end WrittenEntry

/-! ## One line -/

theorem ne_of_isKeyCharacter {character other : Char}
    (bare : isKeyCharacter character = true) (special : isKeyCharacter other = false) :
    character ≠ other := by
  rintro rfl
  rw [bare] at special
  cases special

theorem isBlank_of_isKeyCharacter {character : Char}
    (bare : isKeyCharacter character = true) : isBlank character = false := by
  have noSpace : character ≠ ' ' := ne_of_isKeyCharacter bare rfl
  have noTab : character ≠ '\t' := ne_of_isKeyCharacter bare rfl
  simp [isBlank, noSpace, noTab]

theorem readKeyPart_append {key : Text} (nonempty : key ≠ [])
    (bare : ∀ character ∈ key, isKeyCharacter character = true) {next : Char}
    (special : isKeyCharacter next = false) (rest : Text) :
    readKeyPart (key ++ next :: rest) = some (key, next :: rest) := by
  have word : (key ++ next :: rest).takeWhile isKeyCharacter = key := by
    rw [List.takeWhile_append_of_pos bare, List.takeWhile_cons_of_neg (by simp [special]),
      List.append_nil]
  have past : (key ++ next :: rest).dropWhile isKeyCharacter = next :: rest := by
    rw [List.dropWhile_append_of_pos bare, List.dropWhile_cons_of_neg (by simp [special])]
  obtain ⟨first, others, rfl⟩ := List.exists_cons_of_ne_nil nonempty
  rw [readKeyPart, word, past]

theorem readKey_bare {key : Text} (nonempty : key ≠ [])
    (bare : ∀ character ∈ key, isKeyCharacter character = true) (rest : Text) :
    readKey (key ++ ' ' :: '=' :: rest) =
      some ({ path := [], last := key }, '=' :: rest) := by
  have unindented : skipBlanks (key ++ ' ' :: '=' :: rest) = key ++ ' ' :: '=' :: rest := by
    obtain ⟨first, others, rfl⟩ := List.exists_cons_of_ne_nil nonempty
    have notBlank := isBlank_of_isKeyCharacter (bare first List.mem_cons_self)
    rw [skipBlanks, List.cons_append, List.dropWhile_cons_of_neg (by simp [notBlank])]
  have part : readKeyPart (key ++ ' ' :: '=' :: rest) = some (key, ' ' :: '=' :: rest) :=
    readKeyPart_append nonempty bare rfl ('=' :: rest)
  have parts : readKeyParts keyLimit (key ++ ' ' :: '=' :: rest) =
      some ([key], '=' :: rest) := by
    rw [keyLimit, readKeyParts, unindented, part]
    rfl
  rw [readKey, parts]
  rfl

namespace WrittenEntry

variable {entry : WrittenEntry}

theorem line_eq (entry : WrittenEntry) :
    entry.line = entry.key ++ ' ' :: '=' :: ' ' :: (entry.written ++ ['\n']) := by
  simp [line, Settings.writeLine]

theorem Readable.readKeyValue_line (readable : entry.Readable) (rest : Text) :
    readKeyValue (readValue nestingLimit) (entry.line ++ rest) =
      some ({ key := { path := [], last := entry.key }, value := entry.value },
        '\n' :: rest) := by
  have spelled : entry.line ++ rest =
      entry.key ++ ' ' :: '=' :: (' ' :: (entry.written ++ '\n' :: rest)) := by
    simp [line_eq]
  have key := readKey_bare readable.key_ne_nil readable.bare
    (' ' :: (entry.written ++ '\n' :: rest))
  have unindented : skipBlanks (' ' :: (entry.written ++ '\n' :: rest)) =
      entry.written ++ '\n' :: rest := by
    obtain ⟨first, more, written, notBlank⟩ := readable.unindented
    rw [written, skipBlanks, List.dropWhile_cons_of_pos rfl, List.cons_append,
      List.dropWhile_cons_of_neg (by simp [notBlank])]
  rw [spelled, readKeyValue, key]
  simp only [unindented, readable.read rest]

theorem Readable.exists_line_eq_cons (readable : entry.Readable) :
    ∃ first more, entry.line = first :: more ∧ isKeyCharacter first = true := by
  obtain ⟨first, more, key⟩ := List.exists_cons_of_ne_nil readable.key_ne_nil
  refine ⟨first, more ++ ' ' :: '=' :: ' ' :: (entry.written ++ ['\n']), ?_, ?_⟩
  · rw [line_eq, key, List.cons_append]
  · apply readable.bare
    rw [key]
    exact List.mem_cons_self

theorem Readable.readStatement_line (readable : entry.Readable) (rest : Text) :
    readStatement (entry.line ++ rest) = some (entry.statement, '\n' :: rest) := by
  have keyValue := readable.readKeyValue_line rest
  obtain ⟨first, more, line, bare⟩ := readable.exists_line_eq_cons
  have noBracket : first ≠ '[' := ne_of_isKeyCharacter bare rfl
  rw [line, List.cons_append] at keyValue ⊢
  rw [readStatement]
  · simp only [keyValue]
    rfl
  · intro after equality
    exact noBracket (List.cons.inj equality).1
  · intro after equality
    exact noBracket (List.cons.inj equality).1

/-- Nothing is skipped before a line. -/
theorem Readable.skipTrivia_line (readable : entry.Readable) (rest : Text) :
    skipTrivia false (entry.line ++ rest) = some (entry.line ++ rest) := by
  obtain ⟨first, more, line, bare⟩ := readable.exists_line_eq_cons
  have noBreak : first ≠ '\n' := ne_of_isKeyCharacter bare rfl
  have noReturn : first ≠ '\r' := ne_of_isKeyCharacter bare rfl
  have noComment : first ≠ '#' := ne_of_isKeyCharacter bare rfl
  have notBlank := isBlank_of_isKeyCharacter bare
  rw [line, List.cons_append, skipTrivia]
  · simp [noComment, notBlank]
  · exact noBreak
  · intro after returned
    exact absurd returned noReturn

/-- A line is a statement of its own, whatever comes after it. -/
theorem Readable.statementsWithin?_line (readable : entry.Readable) (bound : Nat)
    (rest : Text) :
    statementsWithin? (bound + 1) (entry.line ++ rest) =
      (statementsWithin? bound rest).map (entry.statement :: ·) := by
  have ended : endLine? ('\n' :: rest) = some rest := rfl
  have trivia := readable.skipTrivia_line rest
  have statement := readable.readStatement_line rest
  obtain ⟨first, more, line, bare⟩ := readable.exists_line_eq_cons
  rw [line, List.cons_append] at trivia statement ⊢
  rw [statementsWithin?, trivia]
  simp only [statement, ended]

end WrittenEntry

/-! ## All lines -/

theorem statementsWithin?_lines {entries : List WrittenEntry}
    (readable : ∀ entry ∈ entries, entry.Readable) {bound : Nat}
    (enough : entries.length < bound) :
    statementsWithin? bound (entries.flatMap WrittenEntry.line) =
      some (entries.map WrittenEntry.statement) := by
  induction entries generalizing bound with
  | nil =>
      obtain ⟨less, rfl⟩ := Nat.exists_eq_add_one_of_ne_zero (Nat.ne_zero_of_lt enough)
      rfl
  | cons entry entries induction =>
      obtain ⟨less, rfl⟩ := Nat.exists_eq_add_one_of_ne_zero (Nat.ne_zero_of_lt enough)
      have first := readable entry List.mem_cons_self
      have later := induction
        (fun other member => readable other (List.mem_cons_of_mem entry member))
        (Nat.lt_of_succ_lt_succ enough)
      rw [List.flatMap_cons, first.statementsWithin?_line, later]
      rfl

theorem length_le_length_lines {entries : List WrittenEntry}
    (readable : ∀ entry ∈ entries, entry.Readable) :
    entries.length ≤ (entries.flatMap WrittenEntry.line).length := by
  induction entries with
  | nil => exact Nat.le_refl 0
  | cons entry entries induction =>
      obtain ⟨first, more, line, -⟩ :=
        (readable entry List.mem_cons_self).exists_line_eq_cons
      have later := induction fun other member =>
        readable other (List.mem_cons_of_mem entry member)
      rw [List.flatMap_cons, line]
      simp only [List.length_cons, List.length_append]
      omega

theorem statements?_lines {entries : List WrittenEntry}
    (readable : ∀ entry ∈ entries, entry.Readable) :
    statements? (entries.flatMap WrittenEntry.line) =
      some (entries.map WrittenEntry.statement) := by
  have noMark : (entries.flatMap WrittenEntry.line).head? ≠ some '\uFEFF' := by
    cases entries with
    | nil => simp
    | cons entry entries =>
        obtain ⟨first, more, line, bare⟩ :=
          (readable entry List.mem_cons_self).exists_line_eq_cons
        have different : first ≠ '\uFEFF' := ne_of_isKeyCharacter bare (by decide)
        rw [List.flatMap_cons, line]
        simpa using different
  rw [statements?, if_neg noMark]
  exact statementsWithin?_lines readable
    (Nat.lt_succ_of_le (length_le_length_lines readable))

/-- An entry with a fresh key goes to the end of the table on top. -/
theorem Draft.take?_statement {entry : WrittenEntry} {entries : Entries}
    (fresh : entries.lookup entry.key = none) :
    Draft.take? { entries := entries, current := [] } entry.statement =
      some { entries := entries ++ [(entry.key, entry.value)], current := [] } := by
  simp [Draft.take?, WrittenEntry.statement, Entries.changeAt, Entries.insertAt,
    Entries.insert?, fresh]

theorem foldlM_take?_statements {entries : List WrittenEntry} {before : Entries}
    (distinct : (before.map Prod.fst ++ entries.map WrittenEntry.key).Nodup) :
    (entries.map WrittenEntry.statement).foldlM Draft.take?
        { entries := before, current := [] } =
      some { entries := before ++ entries.map fun entry => (entry.key, entry.value),
             current := [] } := by
  induction entries generalizing before with
  | nil => simp
  | cons entry entries induction =>
      have fresh : before.lookup entry.key = none := by
        rw [List.lookup_eq_none_iff]
        intro listed member
        have different := (List.nodup_append.mp distinct).2.2 listed.1
          (List.mem_map_of_mem member) entry.key (by simp)
        simpa using different.symm
      have distinctLater : ((before ++ [(entry.key, entry.value)]).map Prod.fst ++
          entries.map WrittenEntry.key).Nodup := by
        simpa using distinct
      have later := induction distinctLater
      rw [List.map_cons, List.foldlM_cons, Draft.take?_statement fresh]
      simpa using later

/-- The lines of entries with different keys are read as those entries. -/
theorem read?_lines {entries : List WrittenEntry}
    (readable : ∀ entry ∈ entries, entry.Readable)
    (distinct : (entries.map WrittenEntry.key).Nodup) :
    read? (entries.flatMap WrittenEntry.line) =
      some (entries.map fun entry => (entry.key, entry.value)) := by
  have distinctFromNone : (([] : Entries).map Prod.fst ++
      entries.map WrittenEntry.key).Nodup := by
    simpa using distinct
  have taken := foldlM_take?_statements distinctFromNone
  rw [read?, statements?_lines readable, Option.bind_some, ofStatements?, taken]
  rfl

theorem exists_writeQuoted_eq_cons (text : Text) :
    ∃ more, writeQuoted text = (QuoteForm.choose text).quote :: more := by
  rw [writeQuoted, QuoteForm.write, QuoteForm.delimiter]
  split
  · exact ⟨_, rfl⟩
  · exact ⟨_, rfl⟩

end Toml

/-! ## Settings -/

namespace Settings

def autoFixEntry (enabled : Bool) : Toml.WrittenEntry :=
  { key := autoFixKey, written := boolWord enabled, value := .boolean enabled }

def notesPathEntry (path : Text) : Toml.WrittenEntry :=
  { key := notesPathKey, written := Toml.writeQuoted path, value := .text path }

/-- What is written about settings, line by line. -/
def writtenEntries (settings : Settings) : List Toml.WrittenEntry :=
  autoFixEntry settings.autoFixOnPaste :: (settings.notesPath.map notesPathEntry).toList

theorem write_eq_lines (settings : Settings) :
    settings.write = settings.writtenEntries.flatMap Toml.WrittenEntry.line := by
  obtain ⟨autoFix, _ | path⟩ := settings
  · rfl
  · simp [write, writtenEntries, autoFixEntry, notesPathEntry, Toml.WrittenEntry.line]

theorem readable_autoFixEntry (enabled : Bool) : (autoFixEntry enabled).Readable := by
  constructor
  · show autoFixKey ≠ []
    decide
  · have bare : autoFixKey.all Toml.isKeyCharacter = true := rfl
    exact List.all_eq_true.mp bare
  · cases enabled
    · exact ⟨_, _, rfl, rfl⟩
    · exact ⟨_, _, rfl, rfl⟩
  · intro rest
    cases enabled
    · rfl
    · rfl

theorem readable_notesPathEntry (path : Text) : (notesPathEntry path).Readable := by
  obtain ⟨more, written⟩ := Toml.exists_writeQuoted_eq_cons path
  have isQuote := (Toml.QuoteForm.choose path).quote_eq_or
  generalize (Toml.QuoteForm.choose path).quote = quote at written isQuote
  obtain ⟨notBlank, noBracket, noBrace⟩ :
      Toml.isBlank quote = false ∧ quote ≠ '[' ∧ quote ≠ '{' := by
    rcases isQuote with rfl | rfl
    · decide
    · decide
  constructor
  · show notesPathKey ≠ []
    decide
  · have bare : notesPathKey.all Toml.isKeyCharacter = true := rfl
    exact List.all_eq_true.mp bare
  · exact ⟨quote, more, written, notBlank⟩
  · intro rest
    have read : Toml.readQuoted (Toml.writeQuoted path ++ '\n' :: rest) =
        some (path, '\n' :: rest) :=
      Toml.readQuoted_writeQuoted path (by simp) (by simp)
    show Toml.readValue Toml.nestingLimit (Toml.writeQuoted path ++ '\n' :: rest) =
      some (.text path, '\n' :: rest)
    rw [written, List.cons_append] at read ⊢
    rw [Toml.readValue]
    · simp only [read]
    · intro after equality
      exact noBracket (List.cons.inj equality).1
    · intro after equality
      exact noBrace (List.cons.inj equality).1

theorem read?_write (settings : Settings) : read? settings.write = some settings := by
  have readable : ∀ entry ∈ settings.writtenEntries, entry.Readable := by
    intro entry member
    rcases List.mem_cons.mp member with rfl | inPath
    · exact readable_autoFixEntry settings.autoFixOnPaste
    · obtain ⟨path, -, rfl⟩ := Option.map_eq_some_iff.mp (Option.mem_toList.mp inPath)
      exact readable_notesPathEntry path
  have different : autoFixKey ≠ notesPathKey := by decide
  have distinct : (settings.writtenEntries.map Toml.WrittenEntry.key).Nodup := by
    obtain ⟨autoFix, _ | path⟩ := settings
    · simp [writtenEntries]
    · simp [writtenEntries, autoFixEntry, notesPathEntry, different]
  rw [read?, write_eq_lines, Toml.read?_lines readable distinct, Option.bind_some]
  obtain ⟨autoFix, _ | path⟩ := settings
  · rfl
  · rfl

end Settings

end TightLists
