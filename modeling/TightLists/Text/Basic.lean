/-!
# Texts and their lines

A text is the list of its characters, and a line is a text without line feeds.
Splitting keeps a carriage return that stands before a line feed on its line,
so texts with either kind of line break, or with both, come back unchanged:
`Text.ofLines_lines` says that joining undoes splitting.

The lines of a text and the pieces of a path are both what stands between the
occurrences of one element.  The core library says that splitting there and
joining are inverse to each other; what is still needed about each of them comes
first.
-/

namespace TightLists

/-! ## Splitting at a separator and joining again -/

section Separator

variable {α : Type} [BEq α] [LawfulBEq α] {separator : α}

theorem separator_notMem_of_mem_splitOn {list piece : List α}
    (member : piece ∈ list.splitOn separator) : separator ∉ piece := by
  induction list generalizing piece with
  | nil =>
      have empty : piece = [] := by simpa using member
      simp [empty]
  | cons element rest induction =>
      rw [List.splitOn_cons_eq_if_modifyHead] at member
      obtain ⟨first, others, split⟩ :=
        List.exists_cons_of_ne_nil (List.splitOn_ne_nil separator rest)
      have tail : ∀ other ∈ first :: others, separator ∉ other := fun other found =>
        induction (split ▸ found)
      rw [split] at member
      split at member
      · rcases List.mem_cons.mp member with rfl | later
        · exact List.not_mem_nil
        · exact tail piece later
      · rename_i different
        rcases List.mem_cons.mp member with rfl | later
        · intro found
          rcases List.mem_cons.mp found with rfl | inFirst
          · exact different (beq_self_eq_true _)
          · exact tail first List.mem_cons_self inFirst
        · exact tail piece (List.mem_cons_of_mem first later)

omit [BEq α] [LawfulBEq α] in
theorem intercalate_append {first second : List (List α)}
    (piecesFirst : first ≠ []) (piecesSecond : second ≠ []) :
    [separator].intercalate (first ++ second) =
      [separator].intercalate first ++ separator :: [separator].intercalate second := by
  induction first with
  | nil => exact absurd rfl piecesFirst
  | cons piece rest induction =>
      cases rest with
      | nil => simp [List.intercalate_cons_of_ne_nil piecesSecond]
      | cons next rest =>
          have later := induction (List.cons_ne_nil next rest)
          simp only [List.cons_append] at later ⊢
          rw [List.intercalate_cons_cons, List.intercalate_cons_cons, later]
          simp

end Separator

/-! ## Lines -/

/-- A text is the list of its characters. -/
abbrev Text := List Char

/-- A line of a text, without the line feed that ends it. -/
abbrev Line := List Char

namespace Text

/-- The lines of a text, cut at every line feed.  There is always at least
one; a text that ends in a line feed has an empty last line. -/
def lines (text : Text) : List Line :=
  text.splitOn '\n'

def ofLines (lines : List Line) : Text :=
  ['\n'].intercalate lines

@[simp] theorem ofLines_lines (text : Text) : ofLines (lines text) = text :=
  List.intercalate_splitOn '\n'

theorem lines_ne_nil (text : Text) : text.lines ≠ [] :=
  List.splitOn_ne_nil '\n' text

/-- Splitting undoes joining, as long as there is a line and no line holds a
line feed. -/
theorem lines_ofLines {lines : List Line} (nonempty : lines ≠ [])
    (unbroken : ∀ line ∈ lines, '\n' ∉ line) :
    Text.lines (ofLines lines) = lines :=
  List.splitOn_intercalate '\n' unbroken nonempty

theorem ofLines_append {above below : List Line}
    (linesAbove : above ≠ []) (linesBelow : below ≠ []) :
    ofLines (above ++ below) = ofLines above ++ '\n' :: ofLines below :=
  intercalate_append linesAbove linesBelow

theorem exists_ofLines_cons_eq (line : Line) (rest : List Line) :
    ∃ more, ofLines (line :: rest) = line ++ more := by
  cases rest with
  | nil => exact ⟨[], by simp [ofLines]⟩
  | cons next rest =>
      exact ⟨'\n' :: ofLines (next :: rest), by simp [ofLines]⟩

/-- Where two texts meet, the last line of the first one and the first line of
the second one become one line. -/
theorem ofLines_append_ofLines (above below : List Line) (last next : Line) :
    ofLines (above ++ [last]) ++ ofLines (next :: below) =
      ofLines (above ++ (last ++ next) :: below) := by
  have meeting : last ++ ofLines (next :: below) = ofLines ((last ++ next) :: below) := by
    cases below <;> simp [ofLines]
  cases above with
  | nil => simpa [ofLines] using meeting
  | cons line above =>
      have nonempty : line :: above ≠ [] := List.cons_ne_nil line above
      rw [ofLines_append nonempty (List.cons_ne_nil last []),
        ofLines_append nonempty (List.cons_ne_nil _ below), ← meeting]
      simp [ofLines]

theorem newline_notMem_of_mem_lines {text : Text} {line : Line}
    (member : line ∈ text.lines) : '\n' ∉ line :=
  separator_notMem_of_mem_splitOn member

theorem lines_append {first second : Text} {above below : List Line} {last next : Line}
    (firstLines : first.lines = above ++ [last])
    (secondLines : second.lines = next :: below) :
    (first ++ second).lines = above ++ (last ++ next) :: below := by
  have joined : first ++ second = ofLines (above ++ (last ++ next) :: below) := by
    rw [← ofLines_append_ofLines, ← firstLines, ← secondLines, ofLines_lines,
      ofLines_lines]
  have firstUnbroken : ∀ line ∈ above ++ [last], '\n' ∉ line := fun line member =>
    newline_notMem_of_mem_lines (firstLines ▸ member)
  have secondUnbroken : ∀ line ∈ next :: below, '\n' ∉ line := fun line member =>
    newline_notMem_of_mem_lines (secondLines ▸ member)
  rw [joined]
  refine lines_ofLines (by simp) ?_
  intro line member
  rcases List.mem_append.mp member with up | down
  · exact firstUnbroken line (List.mem_append_left _ up)
  · rcases List.mem_cons.mp down with rfl | later
    · have lastUnbroken := firstUnbroken last (by simp)
      have nextUnbroken := secondUnbroken next List.mem_cons_self
      simp [lastUnbroken, nextUnbroken]
    · exact secondUnbroken line (List.mem_cons_of_mem next later)

theorem lines_of_newline_notMem {text : Text} (unbroken : '\n' ∉ text) :
    text.lines = [text] :=
  List.splitOn_eq_singleton unbroken

/-- A line feed between two texts keeps their lines apart. -/
theorem lines_append_newline (first second : Text) :
    (first ++ '\n' :: second).lines = first.lines ++ second.lines :=
  List.splitOn_append_cons_self first second

def encode (text : Text) : ByteArray :=
  (String.ofList text).toUTF8

/-- The text that a UTF-8 byte sequence spells, or nothing when the bytes are
not well formed. -/
def decode? (bytes : ByteArray) : Option Text :=
  (String.fromUTF8? bytes).map String.toList

@[simp] theorem decode?_encode (text : Text) :
    decode? text.encode = some text := by
  have valid : text.encode.IsValidUTF8 := (String.ofList text).isValidUTF8
  have spelled : String.fromUTF8? text.encode = some (String.ofList text) := by
    rw [String.fromUTF8?, dif_pos valid]
    rfl
  rw [decode?, spelled, Option.map_some, String.toList_ofList]

theorem encode_of_decode? {bytes : ByteArray} {text : Text}
    (read : decode? bytes = some text) : text.encode = bytes := by
  obtain ⟨string, spelled, rfl⟩ := Option.map_eq_some_iff.mp read
  rw [String.fromUTF8?] at spelled
  split at spelled
  · cases spelled
    rw [encode, String.ofList_toList]
    rfl
  · cases spelled

end Text

end TightLists
