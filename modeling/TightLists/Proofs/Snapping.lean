import Mathlib.Order.Bounds.Basic
import TightLists.Proofs.EditorParts

/-!
# Selecting by any two offsets

An encoded text shows at every offset whether it is a boundary: the byte there begins a
character, or there is no byte because the text ends (`Text.isBoundary_eq_isBoundaryIn`).  A
character has four bytes at most, so of four offsets in a row one is a boundary, and the way
down to a boundary is three bytes long at most (`Text.descendWithin?_encode`).

A selection may be asked for by offsets that lie inside a character, behind the end of the
text or in the wrong order.  Both are moved down to the greatest boundary that there is, and a
range that is reversed after that becomes a cursor at its start.  A selection that an editor
has is on boundaries already, so asking for it again changes nothing.
-/

namespace TightLists

namespace Text

variable {text : Text} {offset : Nat}

/-! ## The bytes of a character -/

/-- Whether a byte begins a character.  The bytes that go on with one are those from `0x80`
to `0xBF`. -/
def beginsCharacter (byte : UInt8) : Bool :=
  byte < 0x80 || 0xC0 ≤ byte

theorem beginsCharacter_ofNat_iff {value : Nat} (isByte : value < 256) :
    beginsCharacter (UInt8.ofNat value) = true ↔ value < 128 ∨ 192 ≤ value := by
  have sameValue : (UInt8.ofNat value).toNat = value := UInt8.toNat_ofNat_of_lt' isByte
  simp only [beginsCharacter, Bool.or_eq_true, decide_eq_true_eq, UInt8.lt_iff_toNat_lt,
    UInt8.le_iff_toNat_le, sameValue]
  rfl

@[simp] theorem beginsCharacter_lowBits (value : Nat) :
    beginsCharacter (UInt8.ofNat (value % 64) + 128) = false := by
  have sum : UInt8.ofNat (value % 64) + 128 = UInt8.ofNat (value % 64 + 128) := by simp
  rw [sum, Bool.eq_false_iff, Ne, beginsCharacter_ofNat_iff (by omega)]
  omega

/-- The first byte of a character begins it, and none of the others begins one. -/
theorem exists_utf8EncodeChar_eq_cons (character : Char) :
    ∃ first others, String.utf8EncodeChar character = first :: others ∧
      beginsCharacter first = true ∧
      ∀ byte ∈ others, beginsCharacter byte = false := by
  unfold String.utf8EncodeChar
  extract_lets value
  -- One byte, two, three and four: the bounds leave each first byte below `0x80` or from `0xC0`.
  split
  · exact ⟨_, _, rfl, (beginsCharacter_ofNat_iff (by omega)).mpr (by omega), by simp⟩
  · split
    · exact ⟨_, _, rfl, (beginsCharacter_ofNat_iff (by omega)).mpr (by omega), by simp⟩
    · split
      · exact ⟨_, _, rfl, (beginsCharacter_ofNat_iff (by omega)).mpr (by omega), by simp⟩
      · exact ⟨_, _, rfl, (beginsCharacter_ofNat_iff (by omega)).mpr (by omega), by simp⟩

/-! ## The bytes of a text -/

theorem data_encode_cons (character : Char) (rest : Text) :
    (encode (character :: rest)).data =
      (String.utf8EncodeChar character).toArray ++ rest.encode.data := by
  simp [encode, List.utf8Encode]

theorem getElem?_encode_cons_of_lt {character : Char} {rest : Text}
    (inside : offset < character.utf8Size) :
    (encode (character :: rest)).data[offset]? =
      (String.utf8EncodeChar character)[offset]? := by
  rw [data_encode_cons, Array.getElem?_append_left, List.getElem?_toArray]
  rwa [List.size_toArray, String.length_utf8EncodeChar]

theorem getElem?_encode_cons_of_le {character : Char} {rest : Text}
    (behind : character.utf8Size ≤ offset) :
    (encode (character :: rest)).data[offset]? =
      rest.encode.data[offset - character.utf8Size]? := by
  rw [data_encode_cons, Array.getElem?_append_right, List.size_toArray,
    String.length_utf8EncodeChar]
  rwa [List.size_toArray, String.length_utf8EncodeChar]

/-- Whether an offset into encoded text is a boundary, as the byte there tells. -/
def isBoundaryIn (bytes : ByteArray) (offset : Nat) : Bool :=
  match bytes.data[offset]? with
  | some byte => beginsCharacter byte
  | none => offset == bytes.size

theorem isBoundaryIn_zero (text : Text) : isBoundaryIn text.encode 0 = true := by
  cases text with
  | nil => rfl
  | cons character rest =>
      obtain ⟨first, others, bytes, begins, -⟩ := exists_utf8EncodeChar_eq_cons character
      rw [isBoundaryIn, getElem?_encode_cons_of_lt character.utf8Size_pos, bytes]
      exact begins

theorem isBoundaryIn_encode_cons_of_lt {character : Char} {rest : Text}
    (positive : 0 < offset) (inside : offset < character.utf8Size) :
    isBoundaryIn (encode (character :: rest)) offset = false := by
  obtain ⟨first, others, bytes, -, continuations⟩ := exists_utf8EncodeChar_eq_cons character
  have length : others.length + 1 = character.utf8Size := by
    rw [← String.length_utf8EncodeChar, bytes, List.length_cons]
  obtain ⟨index, rfl⟩ : ∃ index, offset = index + 1 := ⟨offset - 1, by omega⟩
  have within : index < others.length := by omega
  have found : (encode (character :: rest)).data[index + 1]? = some others[index] := by
    rw [getElem?_encode_cons_of_lt inside, bytes, List.getElem?_cons_succ,
      List.getElem?_eq_getElem within]
  rw [isBoundaryIn, found]
  exact continuations _ (List.getElem_mem within)

theorem isBoundaryIn_encode_cons_of_le {character : Char} {rest : Text}
    (behind : character.utf8Size ≤ offset) :
    isBoundaryIn (encode (character :: rest)) offset =
      isBoundaryIn rest.encode (offset - character.utf8Size) := by
  have ends : (offset == (encode (character :: rest)).size) =
      (offset - character.utf8Size == rest.encode.size) := by
    rw [size_encode, size_encode, byteLength, Bool.eq_iff_iff, beq_iff_eq, beq_iff_eq]
    omega
  rw [isBoundaryIn, isBoundaryIn, getElem?_encode_cons_of_le behind, ends]

theorem isBoundary_eq_isBoundaryIn (text : Text) (offset : Nat) :
    text.isBoundary offset = isBoundaryIn text.encode offset := by
  induction text generalizing offset with
  | nil => cases offset <;> rfl
  | cons character rest induction =>
      cases offset with
      | zero => rw [isBoundary_zero, isBoundaryIn_zero]
      | succ offset =>
          rw [isBoundary]
          · rcases Nat.lt_or_ge (offset + 1) character.utf8Size with inside | behind
            · rw [isBoundaryIn_encode_cons_of_lt (Nat.succ_pos offset) inside,
                decide_eq_false (Nat.not_le_of_gt inside), Bool.false_and]
            · rw [isBoundaryIn_encode_cons_of_le behind, ← induction, decide_eq_true behind,
                Bool.true_and]
          · simp

/-! ## The way down to a boundary -/

/-- Of four offsets in a row, one is a boundary. -/
theorem exists_isBoundary_within (inside : offset ≤ text.byteLength) :
    ∃ boundary, text.isBoundary boundary = true ∧ boundary ≤ offset ∧
      offset ≤ boundary + 3 := by
  induction text generalizing offset with
  | nil =>
      have atEnd : offset = 0 := Nat.le_zero.mp inside
      subst atEnd
      exact ⟨0, rfl, Nat.le_refl 0, Nat.zero_le _⟩
  | cons character rest induction =>
      have short := character.utf8Size_le_four
      rcases Nat.lt_or_ge offset character.utf8Size with before | behind
      · exact ⟨0, isBoundary_zero _, Nat.zero_le _, by omega⟩
      · rw [byteLength] at inside
        have insideRest : offset - character.utf8Size ≤ byteLength rest := by omega
        obtain ⟨boundary, isBoundary, below, near⟩ := induction insideRest
        refine ⟨character.utf8Size + boundary, ?_, by omega, by omega⟩
        refine isBoundary_cons_iff.mpr (.inr ⟨Nat.le_add_right _ _, ?_⟩)
        rwa [Nat.add_sub_cancel_left]

theorem le_floorBoundary_add_three (inside : offset ≤ text.byteLength) :
    offset ≤ text.floorBoundary offset + 3 := by
  obtain ⟨boundary, isBoundary, below, near⟩ := exists_isBoundary_within inside
  have floor := le_floorBoundary isBoundary below
  omega

/-- Goes down from an offset to a boundary, one byte at a time, as many bytes as the limit
allows.  Nothing is returned if that is too few, or if it would go below zero. -/
def descendWithin? (bytes : ByteArray) : Nat → Nat → Option Nat
  | 0, offset => if isBoundaryIn bytes offset then some offset else none
  | _ + 1, 0 => if isBoundaryIn bytes 0 then some 0 else none
  | limit + 1, offset + 1 =>
      if isBoundaryIn bytes (offset + 1) then some (offset + 1)
      else descendWithin? bytes limit offset

theorem descendWithin?_encode_of_near {limit : Nat}
    (near : offset ≤ text.floorBoundary offset + limit) :
    descendWithin? text.encode limit offset = some (text.floorBoundary offset) := by
  induction limit generalizing offset with
  | zero =>
      have arrived : text.floorBoundary offset = offset :=
        Nat.le_antisymm (text.floorBoundary_le offset) near
      have isBoundary : isBoundaryIn text.encode offset = true := by
        rw [← isBoundary_eq_isBoundaryIn, ← arrived]
        exact text.isBoundary_floorBoundary offset
      rw [descendWithin?, if_pos isBoundary, arrived]
  | succ limit induction =>
      cases offset with
      | zero => exact if_pos text.isBoundaryIn_zero
      | succ offset =>
          rw [descendWithin?, floorBoundary, ← isBoundary_eq_isBoundaryIn]
          split
          · rfl
          · rename_i noBoundary
            rw [floorBoundary, if_neg noBoundary] at near
            exact induction (by omega)

/-- From an offset in the text, a boundary is reached after three bytes at most. -/
theorem descendWithin?_encode (inside : offset ≤ text.byteLength) :
    descendWithin? text.encode 3 offset = some (text.floorBoundary offset) :=
  descendWithin?_encode_of_near (le_floorBoundary_add_three inside)

/-- Inside a character of four bytes the way down can be three bytes long. -/
example :
    descendWithin? (encode ['a', '😀']) 3 4 = some 1 ∧
      descendWithin? (encode ['a', '😀']) 2 4 = none := by
  decide

/-! ## The greatest boundary up to a limit -/

/-- The boundaries of a text that are at most a limit: each is how many bytes some front of
the text has. -/
def boundariesUpTo (text : Text) (limit : Nat) : Set Nat :=
  {boundary | boundary ≤ limit ∧
    ∃ front back : Text, text = front ++ back ∧ boundary = front.encode.size}

variable {limit boundary : Nat}

theorem mem_boundariesUpTo_iff :
    boundary ∈ text.boundariesUpTo limit ↔
      boundary ≤ limit ∧ text.isBoundary boundary = true := by
  simp only [isBoundary_iff, ← size_encode]
  rfl

theorem isGreatest_floorBoundary (text : Text) (limit : Nat) :
    IsGreatest (text.boundariesUpTo limit) (text.floorBoundary limit) := by
  constructor
  · exact mem_boundariesUpTo_iff.mpr
      ⟨text.floorBoundary_le limit, text.isBoundary_floorBoundary limit⟩
  · intro boundary member
    obtain ⟨below, isBoundary⟩ := mem_boundariesUpTo_iff.mp member
    exact le_floorBoundary isBoundary below

theorem isGreatest_snap (text : Text) (offset : Nat) :
    IsGreatest (text.boundariesUpTo (min offset text.encode.size)) (text.snap offset) := by
  rw [size_encode]
  exact text.isGreatest_floorBoundary _

/-- Snapping goes down three bytes at most. -/
theorem descendWithin?_snap (text : Text) (offset : Nat) :
    descendWithin? text.encode 3 (min offset text.encode.size) = some (text.snap offset) := by
  rw [size_encode]
  exact descendWithin?_encode (Nat.min_le_right _ _)

end Text

namespace Host

/-- Whatever two offsets a selection is asked for by, it starts at the greatest boundary up to
the first of them, and it ends at the greatest boundary up to the second one, or at its start
if that is greater.  Each boundary is found by going down from the offset, or from the end of
the text if the offset is behind it, and that way is never longer than three bytes and never
leads below zero.  So, however a host has been used since it opened a text, to select again
what is selected changes nothing. -/
theorem select_ends_at_greatest_boundaries :
    (∀ (editor : Editor) (start stop : Nat),
      let bytes := editor.text.encode
      let selected := editor.select start stop
      ∃ floor,
        IsGreatest (editor.text.boundariesUpTo (min start bytes.size)) selected.start ∧
        IsGreatest (editor.text.boundariesUpTo (min stop bytes.size)) floor ∧
        selected.stop = max selected.start floor ∧
        selected.text = editor.text ∧
        Text.descendWithin? bytes 3 (min start bytes.size) = some selected.start ∧
        Text.descendWithin? bytes 3 (min stop bytes.size) = some floor) ∧
    ∀ (fixer : PasteFixer) (text : Text) (actions : List HostAction),
      let editor := (performAll { fixer := fixer, editor := .ofText text } actions).editor
      editor.select editor.start editor.stop = editor := by
  constructor
  · intro editor start stop bytes selected
    refine ⟨editor.text.snap stop, ?_, ?_, rfl, rfl, ?_, ?_⟩
    · exact editor.text.isGreatest_snap start
    · exact editor.text.isGreatest_snap stop
    · exact editor.text.descendWithin?_snap start
    · exact editor.text.descendWithin?_snap stop
  · intro fixer text actions editor
    have valid : editor.Valid := valid_performAll (Editor.valid_ofText text) actions
    exact valid.select_eq rfl

end Host

end TightLists
