import TightLists.Editor

/-!
# Boundaries of a text

A boundary is how many bytes some front of the text has (`Text.isBoundary_iff`), so to
cut a text at a boundary is to write it as a front and a back.  Wherever an offset is, it
snaps to a boundary.

`Text.descend?`, `Text.replaceRange?` and `Text.slice?` are what is done with offsets, with
everything checked that could go wrong: going down below zero, and a range that is
reversed, or ends inside a character or outside the text.
-/

namespace TightLists

namespace Text

variable {text : Text} {offset boundary : Nat}

/-! ## Byte lengths -/

theorem byteLength_append (front back : Text) :
    byteLength (front ++ back) = front.byteLength + back.byteLength := by
  induction front with
  | nil => simp [byteLength]
  | cons character front induction =>
      simp only [List.cons_append, byteLength, induction]
      omega

theorem eq_nil_of_byteLength_eq_zero (empty : text.byteLength = 0) : text = [] := by
  cases text with
  | nil => rfl
  | cons character rest =>
      have positive := character.utf8Size_pos
      rw [byteLength] at empty
      omega

/-- Of two fronts of a text, the one with more bytes begins with the other one. -/
theorem exists_eq_append_of_byteLength_le {short long shortRest longRest : Text}
    (whole : short ++ shortRest = long ++ longRest)
    (ordered : short.byteLength ≤ long.byteLength) :
    ∃ between, long = short ++ between := by
  rcases List.append_eq_append_iff.mp whole with ⟨between, split, -⟩ | ⟨between, split, -⟩
  · exact ⟨between, split⟩
  · have nothing : byteLength between = 0 := by
      rw [split, byteLength_append] at ordered
      omega
    rw [eq_nil_of_byteLength_eq_zero nothing, List.append_nil] at split
    exact ⟨[], by rw [split, List.append_nil]⟩

theorem size_encode (text : Text) : text.encode.size = text.byteLength := by
  induction text with
  | nil => rfl
  | cons character rest induction =>
      have split : String.ofList (character :: rest) =
          String.singleton character ++ String.ofList rest := by
        rw [String.singleton_eq_ofList, ← String.ofList_append]
        rfl
      have restSize : (String.ofList rest).utf8ByteSize = byteLength rest := induction
      have whole : (String.ofList (character :: rest)).utf8ByteSize =
          byteLength (character :: rest) := by
        rw [split, String.utf8ByteSize_append, String.utf8ByteSize_singleton, restSize]
        rfl
      exact whole

/-! ## Boundaries -/

theorem isBoundary_zero (text : Text) : text.isBoundary 0 = true := by
  cases text <;> rfl

theorem isBoundary_cons_iff {character : Char} {rest : Text} :
    isBoundary (character :: rest) offset = true ↔
      offset = 0 ∨
        character.utf8Size ≤ offset ∧ rest.isBoundary (offset - character.utf8Size) = true := by
  cases offset with
  | zero => simp [isBoundary_zero]
  | succ offset =>
      rw [isBoundary, Bool.and_eq_true, decide_eq_true_eq]
      · simp
      · simp

theorem isBoundary_byteLength_append (front back : Text) :
    (front ++ back).isBoundary (byteLength front) = true := by
  induction front with
  | nil => exact isBoundary_zero back
  | cons character front induction =>
      refine isBoundary_cons_iff.mpr (.inr ⟨Nat.le_add_right _ _, ?_⟩)
      rwa [byteLength, Nat.add_sub_cancel_left]

theorem isBoundary_iff :
    text.isBoundary offset = true ↔
      ∃ front back : Text, text = front ++ back ∧ offset = front.byteLength := by
  constructor
  · intro isBoundary
    induction text generalizing offset with
    | nil =>
        cases offset with
        | zero => exact ⟨[], [], rfl, rfl⟩
        | succ offset => cases isBoundary
    | cons character rest induction =>
        rcases isBoundary_cons_iff.mp isBoundary with rfl | ⟨fits, further⟩
        · exact ⟨[], character :: rest, rfl, rfl⟩
        · obtain ⟨front, back, rfl, remaining⟩ := induction further
          refine ⟨character :: front, back, rfl, ?_⟩
          rw [byteLength, ← remaining]
          omega
  · intro cut
    obtain ⟨front, back, rfl, rfl⟩ := cut
    exact isBoundary_byteLength_append front back

theorem le_byteLength_of_isBoundary (isBoundary : text.isBoundary offset = true) :
    offset ≤ text.byteLength := by
  obtain ⟨front, back, rfl, rfl⟩ := isBoundary_iff.mp isBoundary
  rw [byteLength_append]
  omega

/-! ## Cutting at a boundary -/

theorem takeBytes_byteLength_append (front back : Text) :
    (front ++ back).takeBytes front.byteLength = front := by
  induction front with
  | nil =>
      cases back with
      | nil => rfl
      | cons character back =>
          exact if_neg (Nat.not_le_of_gt character.utf8Size_pos)
  | cons character front induction =>
      rw [List.cons_append, byteLength, takeBytes, if_pos (Nat.le_add_right _ _),
        Nat.add_sub_cancel_left, induction]

theorem dropBytes_byteLength_append (front back : Text) :
    (front ++ back).dropBytes front.byteLength = back := by
  have whole := takeBytes_append_dropBytes (front ++ back) front.byteLength
  rw [takeBytes_byteLength_append] at whole
  exact List.append_cancel_left whole

/-! ## Snapping -/

theorem isBoundary_floorBoundary (text : Text) (offset : Nat) :
    text.isBoundary (text.floorBoundary offset) = true := by
  induction offset with
  | zero => exact isBoundary_zero text
  | succ offset induction =>
      rw [floorBoundary]
      split
      · assumption
      · exact induction

theorem isBoundary_snap (text : Text) (offset : Nat) :
    text.isBoundary (text.snap offset) = true :=
  text.isBoundary_floorBoundary _

theorem floorBoundary_le (text : Text) (offset : Nat) : text.floorBoundary offset ≤ offset := by
  induction offset with
  | zero => exact Nat.le_refl 0
  | succ offset induction =>
      rw [floorBoundary]
      split <;> omega

/-- No boundary at or before an offset is passed over on the way down. -/
theorem le_floorBoundary (isBoundary : text.isBoundary boundary = true)
    (below : boundary ≤ offset) : boundary ≤ text.floorBoundary offset := by
  induction offset with
  | zero => exact below
  | succ offset induction =>
      rw [floorBoundary]
      split
      · exact below
      · rename_i noBoundary
        have different : boundary ≠ offset + 1 := by
          intro equality
          subst equality
          exact noBoundary isBoundary
        exact induction (by omega)

theorem floorBoundary_of_isBoundary (isBoundary : text.isBoundary offset = true) :
    text.floorBoundary offset = offset := by
  cases offset with
  | zero => rfl
  | succ offset => exact if_pos isBoundary

/-- A boundary is inside the text and snaps to itself. -/
theorem snap_of_isBoundary (isBoundary : text.isBoundary offset = true) :
    text.snap offset = offset := by
  rw [snap, Nat.min_eq_left (le_byteLength_of_isBoundary isBoundary)]
  exact floorBoundary_of_isBoundary isBoundary

/-! ## Checked operations -/

/-- Goes down from an offset to a boundary, one byte at a time.  Nothing is returned if
that would go below zero. -/
def descend? (text : Text) : Nat → Option Nat
  | 0 => if text.isBoundary 0 then some 0 else none
  | offset + 1 =>
      if text.isBoundary (offset + 1) then some (offset + 1) else text.descend? offset

theorem descend?_eq_some_floorBoundary (text : Text) (offset : Nat) :
    text.descend? offset = some (text.floorBoundary offset) := by
  induction offset with
  | zero => exact if_pos (isBoundary_zero text)
  | succ offset induction =>
      rw [descend?, floorBoundary]
      split
      · rfl
      · exact induction

/-- Writes a text over a range of another one.  Nothing is returned for a range that is
reversed, or that ends inside a character or outside the text. -/
def replaceRange? (text : Text) (start stop : Nat) (replacement : Text) : Option Text :=
  if start ≤ stop ∧ text.isBoundary start = true ∧ text.isBoundary stop = true then
    some (text.takeBytes start ++ replacement ++ text.dropBytes stop)
  else none

/-- The part of a text that a range covers.  Nothing is returned for a range that is
reversed, or that ends inside a character or outside the text. -/
def slice? (text : Text) (start stop : Nat) : Option Text :=
  if start ≤ stop ∧ text.isBoundary start = true ∧ text.isBoundary stop = true then
    some ((text.takeBytes stop).dropBytes start)
  else none

/-- What stands between a front and a back is sliced by their byte lengths. -/
theorem slice?_append_append (before selected after : Text) :
    (before ++ selected ++ after).slice? before.byteLength
      (byteLength (before ++ selected)) = some selected := by
  have ordered : before.byteLength ≤ byteLength (before ++ selected) := by
    rw [byteLength_append]
    exact Nat.le_add_right _ _
  have startOn : (before ++ selected ++ after).isBoundary before.byteLength = true := by
    rw [List.append_assoc]
    exact isBoundary_byteLength_append before (selected ++ after)
  have stopOn := isBoundary_byteLength_append (before ++ selected) after
  rw [slice?, if_pos ⟨ordered, startOn, stopOn⟩, takeBytes_byteLength_append,
    dropBytes_byteLength_append]

theorem slice?_append (front back : Text) :
    (front ++ back).slice? front.byteLength (byteLength (front ++ back)) = some back := by
  simpa using slice?_append_append front back []

end Text

end TightLists
