import TightLists.Toml.Quoted

/-!
# What the inside of a string spells

`QuoteForm.Spells` says what the inside of a string may look like in a form, and what
text it stands for.  Reading is complete for it: what stands between two delimiters is
read as the text it spells.  The delimiters need care.  The closing one runs together
with quotes at the end of a multi-line string, and the opening one with a quote at the
front of any string.
-/

namespace TightLists.Toml

theorem take_two_ne_of_head?_ne {quote : Char} {text : Text}
    (notFirst : text.head? ≠ some quote) : text.take 2 ≠ [quote, quote] := by
  intro quotes
  cases text with
  | nil => cases quotes
  | cons first rest =>
      rw [List.take_succ_cons, List.cons.injEq] at quotes
      exact notFirst (congrArg some quotes.1)

theorem take_two_cons_ne {quote first : Char} {text : Text}
    (notNext : text.head? ≠ some quote) : (first :: text).take 2 ≠ [quote, quote] := by
  intro quotes
  cases text with
  | nil => cases quotes
  | cons next rest =>
      simp only [List.take_succ_cons, List.cons.injEq] at quotes
      exact notNext (congrArg some quotes.2.1)

namespace QuoteForm

variable {form : QuoteForm}

/-- `form.Spells inside text`: between the delimiters of the form, `inside` stands for
`text`.  A quote stands for itself only in the multi-line forms, and only where it does
not begin a run of three. -/
inductive Spells (form : QuoteForm) : Text → Text → Prop where
  | nothing : Spells form [] []
  | plain {character : Char} {inside text : Text} :
      character ≠ form.quote →
      (character = '\\' → form.escapes = false) →
      (isPlain character = true ∨ form.multiline = true ∧ character = '\n') →
      Spells form inside text →
      Spells form (character :: inside) (character :: text)
  | escaped {letters : Text} {character : Char} {inside text : Text} :
      form.escapes = true →
      (∀ rest, form.readEscape (letters ++ rest) = some (.more [character], rest)) →
      Spells form inside text →
      Spells form ('\\' :: (letters ++ inside)) (character :: text)
  | quoted {inside text : Text} :
      form.multiline = true →
      inside.take 2 ≠ [form.quote, form.quote] →
      Spells form inside text →
      Spells form (form.quote :: inside) (form.quote :: text)

theorem quote_eq_or (form : QuoteForm) : form.quote = '\"' ∨ form.quote = '\'' := by
  rw [quote]
  split
  · exact .inl rfl
  · exact .inr rfl

theorem backslash_ne_quote (form : QuoteForm) : '\\' ≠ form.quote := by
  rcases form.quote_eq_or with double | single
  · rw [double]
    decide
  · rw [single]
    decide

theorem ne_lineBreak_of_isPlain {character : Char} (plain : isPlain character = true) :
    character ≠ '\n' ∧ character ≠ '\r' := by
  constructor
  · rintro rfl
    revert plain
    decide
  · rintro rfl
    revert plain
    decide

/-! ## Reading -/

theorem readUnit_quote (rest : Text) :
    form.readUnit (form.quote :: rest) = form.readQuote rest := by
  rw [readUnit, if_pos rfl]

/-- A delimiter closes a multi-line string together with one or two quotes before
it. -/
theorem readQuote_of_run (more : Nat) {rest : Text} (multiline : form.multiline = true)
    (few : more ≤ 2) (ends : rest.head? ≠ some form.quote) :
    form.readQuote (form.quote :: form.quote :: (List.replicate more form.quote ++ rest)) =
      some (.last (List.replicate more form.quote), rest) := by
  have quotes : ∀ character ∈ List.replicate more form.quote,
      (character == form.quote) = true := by
    intro character member
    rw [(List.mem_replicate.mp member).2]
    exact beq_self_eq_true form.quote
  have run : (List.replicate more form.quote ++ rest).takeWhile (· == form.quote) =
      List.replicate more form.quote := by
    rw [List.takeWhile_append_of_pos quotes]
    cases rest with
    | nil => exact List.append_nil _
    | cons next rest =>
        have different : next ≠ form.quote := by simpa using ends
        rw [List.takeWhile_cons_of_neg (by simpa using different), List.append_nil]
  have past : (List.replicate more form.quote ++ rest).dropWhile (· == form.quote) =
      rest := by
    rw [List.dropWhile_append_of_pos quotes]
    cases rest with
    | nil => rfl
    | cons next rest =>
        have different : next ≠ form.quote := by simpa using ends
        rw [List.dropWhile_cons_of_neg (by simpa using different)]
  simp only [readQuote, multiline, if_true, List.take_succ_cons, List.take_zero,
    List.drop_succ_cons, List.drop_zero, run, past, List.length_replicate, few]

theorem readQuote_of_no_run {rest : Text} (multiline : form.multiline = true)
    (single : rest.take 2 ≠ [form.quote, form.quote]) :
    form.readQuote rest = some (.more [form.quote], rest) := by
  simp only [readQuote, multiline, if_true, if_neg single]

theorem readUnits_of_last {bound : Nat} {text characters rest : Text}
    (read : form.readUnit text = some (.last characters, rest)) :
    form.readUnits (bound + 1) text = some (characters, rest) := by
  rw [readUnits, read]

theorem readUnits_of_more (characters : Text) {bound : Nat}
    {text rest others after : Text}
    (read : form.readUnit text = some (.more characters, rest))
    (later : form.readUnits bound rest = some (others, after)) :
    form.readUnits (bound + 1) text = some (characters ++ others, after) := by
  simp only [readUnits, read, later]

theorem delimiter_of_multiline (multiline : form.multiline = true) :
    form.delimiter = [form.quote, form.quote, form.quote] := by
  rw [delimiter, if_pos multiline]

theorem Spells.eq_of_quote {text : Text} (spells : form.Spells [form.quote] text) :
    text = [form.quote] := by
  generalize whole : [form.quote] = inside at spells
  cases spells with
  | nothing => cases whole
  | plain different unescaped kept tail =>
      exact absurd (List.cons.inj whole).1.symm different
  | escaped escapes read tail =>
      exact absurd (List.cons.inj whole).1.symm form.backslash_ne_quote
  | quoted multiline single tail =>
      obtain rfl := (List.cons.inj whole).2
      cases tail
      rfl

/-- A quote inside a multi-line string is read as itself, or, where only one more
quote stands between it and the delimiter, as part of the end of the string. -/
theorem Spells.readUnits_quoted {inside text rest : Text} {bound : Nat}
    (multiline : form.multiline = true)
    (single : inside.take 2 ≠ [form.quote, form.quote])
    (spells : form.Spells inside text) (ends : rest.head? ≠ some form.quote)
    (later : form.readUnits bound (inside ++ (form.delimiter ++ rest)) =
      some (text, rest)) :
    form.readUnits (bound + 1) (form.quote :: (inside ++ (form.delimiter ++ rest))) =
      some (form.quote :: text, rest) := by
  have closing := delimiter_of_multiline multiline
  match inside, spells, single, later with
  | [], .nothing, _, _ =>
      apply readUnits_of_last
      rw [readUnit_quote, closing]
      exact readQuote_of_run 1 multiline (by decide) ends
  | [character], spells, _, later =>
      by_cases same : character = form.quote
      · subst same
        obtain rfl := spells.eq_of_quote
        apply readUnits_of_last
        rw [readUnit_quote, closing]
        exact readQuote_of_run 2 multiline (by decide) ends
      · apply readUnits_of_more [form.quote] _ later
        rw [readUnit_quote]
        apply readQuote_of_no_run multiline
        simp [same]
  | first :: second :: inside, _, single, later =>
      apply readUnits_of_more [form.quote] _ later
      rw [readUnit_quote]
      apply readQuote_of_no_run multiline
      simpa using single

/-- What stands before a delimiter is read as the text it spells. -/
theorem Spells.readUnits {inside text rest : Text} (spells : form.Spells inside text)
    (ends : rest.head? ≠ some form.quote) {bound : Nat} (enough : inside.length < bound) :
    form.readUnits bound (inside ++ (form.delimiter ++ rest)) = some (text, rest) := by
  induction spells generalizing bound with
  | nothing =>
      obtain ⟨less, rfl⟩ := Nat.exists_eq_add_one_of_ne_zero (Nat.ne_zero_of_lt enough)
      apply readUnits_of_last
      by_cases multiline : form.multiline = true
      · rw [List.nil_append, delimiter_of_multiline multiline]
        exact (readUnit_quote _).trans
          (readQuote_of_run 0 multiline (by decide) ends)
      · rw [List.nil_append, delimiter, if_neg multiline]
        refine (readUnit_quote _).trans ?_
        rw [readQuote, if_neg multiline]
        rfl
  | @plain character inside text different unescaped kept tail induction =>
      obtain ⟨less, rfl⟩ := Nat.exists_eq_add_one_of_ne_zero (Nat.ne_zero_of_lt enough)
      have later := induction (Nat.lt_of_succ_lt_succ enough)
      apply readUnits_of_more [character] _ later
      have noEscape : ¬(character = '\\' ∧ form.escapes = true) := by
        rintro ⟨backslash, escapes⟩
        rw [unescaped backslash] at escapes
        cases escapes
      rw [List.cons_append, readUnit, if_neg different, if_neg noEscape]
      rcases kept with plain | ⟨multiline, rfl⟩
      · rw [if_pos plain]
      · simp [multiline]
  | @escaped letters character inside text escapes read tail induction =>
      obtain ⟨less, rfl⟩ := Nat.exists_eq_add_one_of_ne_zero (Nat.ne_zero_of_lt enough)
      have shorter : inside.length < less := by
        simp only [List.length_cons, List.length_append] at enough
        omega
      apply readUnits_of_more [character] _ (induction shorter)
      rw [List.cons_append, List.append_assoc, readUnit,
        if_neg form.backslash_ne_quote, if_pos ⟨rfl, escapes⟩]
      exact read _
  | @quoted inside text multiline single tail induction =>
      obtain ⟨less, rfl⟩ := Nat.exists_eq_add_one_of_ne_zero (Nat.ne_zero_of_lt enough)
      have later := induction (Nat.lt_of_succ_lt_succ enough)
      exact tail.readUnits_quoted multiline single ends later

/-- The inside of a string begins with a line break only where its text does. -/
theorem Spells.afterLineBreak?_eq_none {inside text : Text}
    (spells : form.Spells inside text) (unbroken : '\n' ∉ text) (rest : Text) :
    afterLineBreak? (inside ++ (form.delimiter ++ rest)) = none := by
  have quoteFirst (more : Text) : afterLineBreak? (form.quote :: more) = none := by
    rcases form.quote_eq_or with double | single
    · rw [double]
      rfl
    · rw [single]
      rfl
  cases spells with
  | nothing =>
      rw [List.nil_append, delimiter]
      split
      · exact quoteFirst _
      · exact quoteFirst _
  | @plain character inside text different unescaped kept tail =>
      rcases kept with plain | ⟨multiline, rfl⟩
      · obtain ⟨notBreak, notReturn⟩ := ne_lineBreak_of_isPlain plain
        simp [afterLineBreak?, notBreak, notReturn]
      · exact absurd List.mem_cons_self unbroken
  | escaped escapes read tail => rfl
  | quoted multiline single tail => exact quoteFirst _

/-- On one line no quote stands at the front of the inside, so the opening delimiter is
not taken for that of a multi-line form. -/
theorem Spells.take_two_of_single {inside text rest : Text} (spells : form.Spells inside text)
    (single : form.multiline = false) (ends : rest.head? ≠ some form.quote) :
    (inside ++ (form.delimiter ++ rest)).take 2 ≠ [form.quote, form.quote] := by
  cases spells with
  | nothing =>
      rw [delimiter, single, if_neg Bool.false_ne_true]
      exact take_two_cons_ne ends
  | plain different unescaped kept tail =>
      apply take_two_ne_of_head?_ne
      simpa using different
  | escaped escapes read tail =>
      apply take_two_ne_of_head?_ne
      simpa using form.backslash_ne_quote
  | quoted multiline noRun tail =>
      rw [single] at multiline
      cases multiline

/-- In the multi-line forms the inside may begin on a line of its own; it must when its
text begins with a line break. -/
theorem Spells.readBody {inside text rest opening : Text}
    (spells : form.Spells inside text) (ends : rest.head? ≠ some form.quote)
    (opens : opening = [] ∧ (form.multiline = true → '\n' ∉ text) ∨
      opening = ['\n'] ∧ form.multiline = true) :
    form.readBody (opening ++ (inside ++ (form.delimiter ++ rest))) = some (text, rest) := by
  have start : (if form.multiline then
      (afterLineBreak? (opening ++ (inside ++ (form.delimiter ++ rest)))).getD
        (opening ++ (inside ++ (form.delimiter ++ rest)))
      else opening ++ (inside ++ (form.delimiter ++ rest))) =
        inside ++ (form.delimiter ++ rest) := by
    rcases opens with ⟨rfl, unbroken⟩ | ⟨rfl, multiline⟩
    · split
      · rename_i multiline
        rw [List.nil_append, spells.afterLineBreak?_eq_none (unbroken multiline)]
        rfl
      · rfl
    · rw [if_pos multiline]
      rfl
  simp only [QuoteForm.readBody, start]
  apply spells.readUnits ends
  rw [List.length_append]
  omega

end QuoteForm

theorem readQuoted_of_multiline {form : QuoteForm} (multiline : form.multiline = true)
    (text : Text) : readQuoted (form.delimiter ++ text) = form.readBody text := by
  obtain ⟨escapes, lines⟩ := form
  obtain rfl : lines = true := multiline
  cases escapes
  · rfl
  · rfl

theorem readQuoted_of_single {form : QuoteForm} (single : form.multiline = false)
    {text : Text} (noRun : text.take 2 ≠ [form.quote, form.quote]) :
    readQuoted (form.delimiter ++ text) = form.readBody text := by
  obtain ⟨escapes, lines⟩ := form
  obtain rfl : lines = false := single
  rw [QuoteForm.delimiter, if_neg Bool.false_ne_true, List.singleton_append, readQuoted]
  · cases escapes
    · rfl
    · rfl
  · intro rest equality
    obtain ⟨quote, rfl⟩ := List.cons.inj equality
    exact noRun (by rw [quote]; rfl)
  · intro rest equality
    obtain ⟨quote, rfl⟩ := List.cons.inj equality
    exact noRun (by rw [quote]; rfl)

end TightLists.Toml
