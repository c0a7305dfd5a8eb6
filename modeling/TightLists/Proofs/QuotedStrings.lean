import TightLists.Proofs.SpelledStrings

/-!
# Strings are read back as they were written

Whatever form is chosen for a text, what is written in it spells that text, so every
text is read back: with line breaks, controls and quotes, also at its ends.
-/

namespace TightLists.Toml

/-! ## Characters -/

theorem isPlain_or_of_not_isHidden {character : Char}
    (shown : isHidden character = false) :
    isPlain character = true ∨ character = '\n' := by
  simp only [isHidden, isPlain, Bool.or_eq_false_iff, Bool.and_eq_false_iff,
    decide_eq_false_iff_not, bne_eq_false_iff_eq, beq_eq_false_iff_ne, Bool.or_eq_true,
    Bool.and_eq_true, decide_eq_true_eq, bne_iff_ne, beq_iff_eq] at shown ⊢
  obtain ⟨(notControl | tab) | lineBreak, notDelete⟩ := shown
  · exact .inl (.inr ⟨Char.not_lt.mp notControl, notDelete⟩)
  · exact .inl (.inl tab)
  · exact .inr lineBreak

theorem toNat_lt_of_isHidden {character : Char} (hidden : isHidden character = true) :
    character.toNat < 128 := by
  simp only [isHidden, Bool.or_eq_true, Bool.and_eq_true, decide_eq_true_eq,
    beq_iff_eq] at hidden
  rcases hidden with ⟨⟨control, -⟩, -⟩ | rfl
  · have small : character.toNat < 32 := control
    omega
  · decide

theorem hexValue?_controlDigits {character : Char} (small : character.toNat < 128) :
    hexValue? (controlDigits character) = some character.toNat := by
  have zero : hexDigit? '0' = some 0 := rfl
  have high : hexDigit? (hexDigit (character.toNat / 16)) = some (character.toNat / 16) :=
    hexDigit?_hexDigit (by omega)
  have low : hexDigit? (hexDigit (character.toNat % 16)) = some (character.toNat % 16) :=
    hexDigit?_hexDigit (by omega)
  have value : character.toNat / 16 * 16 + character.toNat % 16 = character.toNat := by
    omega
  simp [hexValue?, controlDigits, zero, high, low, value]

theorem readCodePoint_controlDigits {character : Char} (small : character.toNat < 128)
    (rest : Text) :
    readCodePoint 4 (controlDigits character ++ rest) = some (.more [character], rest) := by
  have digits : (controlDigits character ++ rest).take 4 = controlDigits character := rfl
  have past : (controlDigits character ++ rest).drop 4 = rest := rfl
  have length : (controlDigits character).length = 4 := rfl
  have valid : character.toNat.isValidChar := character.valid
  rw [readCodePoint, digits, past, if_pos length, hexValue?_controlDigits small]
  simp only [if_pos valid, Char.ofNat_toNat]

namespace QuoteForm

variable {form : QuoteForm}

theorem quote_of_escapes (escapes : form.escapes = true) : form.quote = '\"' := by
  rw [quote, if_pos escapes]

/-- A character that is no quote is written as itself or as an escape for it. -/
theorem escape_cases (form : QuoteForm) (character : Char) :
    (form.escape character = [character] ∧ character ≠ '\\' ∧
      (isPlain character = true ∨ form.multiline = true ∧ character = '\n')) ∨
    ∃ letters, form.escape character = '\\' :: letters ∧
      ∀ rest, form.readEscape (letters ++ rest) = some (.more [character], rest) := by
  rw [escape]
  split
  · subst character
    exact .inr ⟨['b'], rfl, fun _ => rfl⟩
  split
  · subst character
    exact .inr ⟨['t'], rfl, fun _ => rfl⟩
  split
  · subst character
    exact .inr ⟨['f'], rfl, fun _ => rfl⟩
  split
  · subst character
    exact .inr ⟨['r'], rfl, fun _ => rfl⟩
  split
  · subst character
    exact .inr ⟨['\\'], rfl, fun _ => rfl⟩
  rename_i notBackslash
  split
  · subst character
    split
    · rename_i multiline
      exact .inl ⟨rfl, notBackslash, .inr ⟨multiline, rfl⟩⟩
    · exact .inr ⟨['n'], rfl, fun _ => rfl⟩
  rename_i notBreak
  split
  · rename_i hidden
    exact .inr ⟨'u' :: controlDigits character, rfl,
      readCodePoint_controlDigits (toNat_lt_of_isHidden hidden)⟩
  · rename_i shown
    have plain := (isPlain_or_of_not_isHidden (by simpa using shown)).resolve_right notBreak
    exact .inl ⟨rfl, notBackslash, .inl plain⟩

theorem spells_escape {character : Char} {inside text : Text}
    (escapes : form.escapes = true) (notQuote : character ≠ '\"')
    (spells : form.Spells inside text) :
    form.Spells (form.escape character ++ inside) (character :: text) := by
  rcases form.escape_cases character with
    ⟨written, notBackslash, kept⟩ | ⟨letters, written, read⟩
  · rw [written]
    have different : character ≠ form.quote := by
      rwa [quote_of_escapes escapes]
    exact .plain different (fun backslash => absurd backslash notBackslash) kept spells
  · rw [written]
    exact .escaped escapes read spells

theorem head?_escape_append {character : Char} (notQuote : character ≠ '\"')
    (more : Text) : (form.escape character ++ more).head? ≠ some '\"' := by
  rcases form.escape_cases character with ⟨written, -, -⟩ | ⟨letters, written, -⟩
  · rw [written]
    simpa using notQuote
  · rw [written]
    simp

/-- After two quotes in a row the next one is escaped. -/
theorem head?_escapeAll {seen : Nat} (twice : 2 ≤ seen) (text : Text) :
    (form.escapeAll seen text).head? ≠ some '\"' := by
  cases text with
  | nil => simp [escapeAll]
  | cons character rest =>
      rw [escapeAll]
      split
      · have many : ¬seen < 2 := Nat.not_lt.mpr twice
        simp [many]
      · rename_i notQuote
        exact head?_escape_append notQuote _

theorem take_two_escapeAll {seen : Nat} (once : 1 ≤ seen) (text : Text) :
    (form.escapeAll seen text).take 2 ≠ ['\"', '\"'] := by
  cases text with
  | nil => simp [escapeAll]
  | cons character rest =>
      rw [escapeAll]
      split
      · split
        · exact take_two_cons_ne (head?_escapeAll (Nat.succ_le_succ once) rest)
        · exact take_two_ne_of_head?_ne (by simp)
      · rename_i notQuote
        exact take_two_ne_of_head?_ne (head?_escape_append notQuote _)

theorem spells_escapeAll (escapes : form.escapes = true) (seen : Nat) (text : Text) :
    form.Spells (form.escapeAll seen text) text := by
  induction text generalizing seen with
  | nil => exact .nothing
  | cons character rest induction =>
      have quote := quote_of_escapes escapes
      rw [escapeAll]
      split
      · subst character
        split
        · rename_i bare
          have multiline : form.multiline = true := (Bool.and_eq_true_iff.mp bare).1
          have single : (form.escapeAll (seen + 1) rest).take 2 ≠ ['\"', '\"'] :=
            take_two_escapeAll (Nat.le_add_left 1 seen) rest
          rw [← quote] at single ⊢
          exact .quoted multiline single (induction (seen + 1))
        · have escaped : form.Spells ('\\' :: (['\"'] ++ form.escapeAll 0 rest))
              ('\"' :: rest) :=
            .escaped escapes (fun _ => rfl) (induction 0)
          exact escaped
      · rename_i notQuote
        exact spells_escape escapes notQuote (induction 0)

theorem take_two_of_not_hasTriple {quote : Char} {seen : Nat} {text : Text}
    (once : 1 ≤ seen) (few : seen ≤ 2) (noTriple : hasTriple quote seen text = false) :
    text.take 2 ≠ [quote, quote] := by
  intro quotes
  match text, quotes with
  | first :: second :: rest, quotes =>
      obtain ⟨rfl, rfl⟩ : first = quote ∧ second = quote := by simpa using quotes
      simp only [hasTriple, if_true, Bool.or_eq_false_iff, decide_eq_false_iff_not]
        at noTriple
      omega

/-- Without escapes a text spells itself, as long as the form can hold it. -/
theorem spells_self {seen : Nat} {text : Text} (literal : form.escapes = false)
    (kept : ∀ character ∈ text,
      isPlain character = true ∨ form.multiline = true ∧ character = '\n')
    (quotes : form.multiline = true ∨ form.quote ∉ text)
    (noTriple : hasTriple form.quote seen text = false) (few : seen ≤ 2) :
    form.Spells text text := by
  induction text generalizing seen with
  | nil => exact .nothing
  | cons character rest induction =>
      have keptRest := fun later member => kept later (List.mem_cons_of_mem character member)
      have quotesRest : form.multiline = true ∨ form.quote ∉ rest :=
        quotes.imp id fun absent member => absent (List.mem_cons_of_mem character member)
      rw [hasTriple] at noTriple
      split at noTriple
      · subst character
        have multiline := quotes.resolve_right (not_not_intro List.mem_cons_self)
        simp only [Bool.or_eq_false_iff, decide_eq_false_iff_not] at noTriple
        have fewer : seen + 1 ≤ 2 := by omega
        have single := take_two_of_not_hasTriple (Nat.le_add_left 1 seen) fewer noTriple.2
        exact .quoted multiline single (induction keptRest quotesRest noTriple.2 fewer)
      · rename_i different
        have notEscaped : character = '\\' → form.escapes = false := fun _ => literal
        exact .plain different notEscaped (kept character List.mem_cons_self)
          (induction keptRest quotesRest noTriple (Nat.zero_le 2))

theorem hasTriple_eq_false_of_notMem {quote : Char} {text : Text} (absent : quote ∉ text)
    (seen : Nat) : hasTriple quote seen text = false := by
  induction text generalizing seen with
  | nil => rfl
  | cons character rest induction =>
      have different : character ≠ quote := by
        rintro rfl
        exact absent List.mem_cons_self
      have absentRest : quote ∉ rest := fun member =>
        absent (List.mem_cons_of_mem character member)
      rw [hasTriple, if_neg different]
      exact induction absentRest 0

/-- What is written between the delimiters, without the line break that may open it. -/
def inside (form : QuoteForm) (text : Text) : Text :=
  if form.escapes then form.escapeAll 0 text else text

theorem spells_inside_choose (text : Text) :
    (choose text).Spells ((choose text).inside text) text := by
  have shown (noHidden : (!text.any isHidden) = true) (character : Char)
      (member : character ∈ text) : isPlain character = true ∨ character = '\n' := by
    apply isPlain_or_of_not_isHidden
    simp only [Bool.not_eq_true', List.any_eq_false, Bool.not_eq_true] at noHidden
    exact noHidden character member
  rw [choose]
  split
  · exact spells_escapeAll rfl 0 text
  split
  · rename_i holds
    simp only [Bool.and_eq_true] at holds
    obtain ⟨⟨noHidden, noQuote⟩, unbroken⟩ := holds
    have noQuote : '\'' ∉ text := by simpa using noQuote
    have unbroken : '\n' ∉ text := by simpa using unbroken
    have kept : ∀ character ∈ text,
        isPlain character = true ∨ literal.multiline = true ∧ character = '\n' := by
      intro character member
      refine .inl ((shown noHidden character member).resolve_right ?_)
      rintro rfl
      exact unbroken member
    exact spells_self rfl kept (.inr noQuote) (hasTriple_eq_false_of_notMem noQuote 0)
      (Nat.zero_le 2)
  split
  · exact spells_escapeAll rfl 0 text
  split
  · rename_i holds
    simp only [Bool.and_eq_true] at holds
    obtain ⟨noHidden, noTriple⟩ := holds
    have kept : ∀ character ∈ text,
        isPlain character = true ∨ literalLines.multiline = true ∧ character = '\n' :=
      fun character member => (shown noHidden character member).imp id fun lineBreak =>
        ⟨rfl, lineBreak⟩
    have noTriple : hasTriple '\'' 0 text = false := by simpa using noTriple
    exact spells_self rfl kept (.inl rfl) noTriple (Nat.zero_le 2)
  split
  · exact spells_escapeAll rfl 0 text
  · exact spells_escapeAll rfl 0 text

/-- A string is read as the text that its inside spells. -/
theorem readQuoted_write {text rest : Text} (spells : form.Spells (form.inside text) text)
    (ends : rest.head? ≠ some form.quote) :
    readQuoted (form.write text ++ rest) = some (text, rest) := by
  obtain ⟨opening, opens, written⟩ : ∃ opening,
      (opening = [] ∧ (form.multiline = true → '\n' ∉ text) ∨
        opening = ['\n'] ∧ form.multiline = true) ∧
      form.write text ++ rest =
        form.delimiter ++ (opening ++ (form.inside text ++ (form.delimiter ++ rest))) := by
    refine ⟨if form.multiline && text.contains '\n' then ['\n'] else [], ?_, ?_⟩
    · split
      · rename_i broken
        exact .inr ⟨rfl, (Bool.and_eq_true_iff.mp broken).1⟩
      · rename_i unbroken
        refine .inl ⟨rfl, fun multiline => ?_⟩
        simpa [multiline] using unbroken
    · simp [write, inside, List.append_assoc]
  rw [written]
  by_cases multiline : form.multiline = true
  · rw [readQuoted_of_multiline multiline]
    exact spells.readBody ends opens
  · have single : form.multiline = false := by simpa using multiline
    obtain ⟨rfl, -⟩ := opens.resolve_right fun ⟨_, lines⟩ => multiline lines
    rw [List.nil_append, readQuoted_of_single single (spells.take_two_of_single single ends)]
    have body := spells.readBody ends opens
    exact body

end QuoteForm

theorem readQuoted_writeQuoted (text : Text) {rest : Text}
    (noDouble : rest.head? ≠ some '\"') (noSingle : rest.head? ≠ some '\'') :
    readQuoted (writeQuoted text ++ rest) = some (text, rest) := by
  apply QuoteForm.readQuoted_write (QuoteForm.spells_inside_choose text)
  rcases (QuoteForm.choose text).quote_eq_or with double | single
  · rwa [double]
  · rwa [single]

end TightLists.Toml
