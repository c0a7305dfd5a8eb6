import Mathlib.Data.List.Lex
import Mathlib.Data.List.Sort
import Mathlib.Order.Monotone.Basic
import TightLists.FileTree.Basic

/-!
# The order of the paths below a directory

The paths below one directory all begin with the path of that directory.  Wherever that
path hangs, and however many idle pieces it has, it gives the sorting keys of all of them
the same front (`sortKey_descend`).  So they come in the order of the names below the
directory: name by name, and each name by its bytes.
-/

namespace TightLists

namespace Name

theorem bytes_injective : Function.Injective Name.bytes := by
  intro name other same
  cases name
  cases other
  cases same
  rfl

theorem isIdle_eq_false (name : Name) : Path.isIdle name.bytes = false := by
  obtain ⟨nonempty, notDot, -⟩ := name.valid
  simp [Path.isIdle, nonempty, notDot]

theorem slash_notMem (name : Name) : slash ∉ name.bytes :=
  name.valid.2.2.2.1

end Name

/-- The order of ways down from a directory: name by name, and each name by its bytes. -/
def ComesBefore (names later : List Name) : Prop :=
  names.map Name.bytes < later.map Name.bytes

instance : DecidableRel ComesBefore :=
  fun names later => inferInstanceAs (Decidable (names.map Name.bytes < later.map Name.bytes))

instance : Std.Irrefl ComesBefore :=
  ⟨fun _ => List.lt_irrefl _⟩

instance : Std.Antisymm ComesBefore :=
  ⟨fun _ _ before after => absurd after (List.lt_asymm before)⟩

namespace Path

/-- The path that is reached from a path through names, the outermost one first. -/
def descend (path : Path) : List Name → Path
  | [] => path
  | name :: rest => (path.join name.bytes).descend rest

@[simp] theorem descend_nil (path : Path) : path.descend [] = path := rfl

@[simp] theorem descend_cons (path : Path) (name : Name) (rest : List Name) :
    path.descend (name :: rest) = (path.join name.bytes).descend rest := rfl

variable {path : Path}

theorem bytes_join_ne_nil (name : Name) : (path.join name.bytes).bytes ≠ [] := by
  have nonempty : name.bytes ≠ [] := name.valid.1
  rw [join]
  split
  · simp [nonempty]
  · simp

theorem length_le_length_join (path : Path) (name : List UInt8) :
    path.bytes.length ≤ (path.join name).bytes.length := by
  rw [join]
  split
  · simp
  · simp

theorem length_le_length_descend (path : Path) (names : List Name) :
    path.bytes.length ≤ (path.descend names).bytes.length := by
  induction names generalizing path with
  | nil => exact Nat.le_refl _
  | cons name rest induction =>
      exact Nat.le_trans (length_le_length_join path name.bytes) (induction _)

/-! ## Pieces and anchors of joined paths -/

/-- A joined name takes the place of an empty last piece, or else stands after the last
piece. -/
theorem exists_pieces_join (nonempty : path.bytes ≠ []) (name : Name) :
    ∃ first shared idle, (∀ piece ∈ idle, piece = []) ∧
      path.pieces = first :: (shared ++ idle) ∧
      (path.join name.bytes).pieces = first :: (shared ++ [name.bytes]) := by
  have single : name.bytes.splitOn slash = [name.bytes] :=
    List.splitOn_eq_singleton name.slash_notMem
  by_cases closed : path.bytes.getLast? = some slash
  · obtain ⟨front, split⟩ := List.getLast?_eq_some_iff.mp closed
    obtain ⟨first, shared, frontPieces⟩ :=
      List.exists_cons_of_ne_nil (List.splitOn_ne_nil slash front)
    refine ⟨first, shared, [[]], by simp, ?_, ?_⟩
    · rw [pieces, split, List.splitOn_append_cons_self, frontPieces, List.splitOn_nil,
        List.cons_append]
    · rw [join, if_pos (.inr closed), pieces, split, List.append_assoc,
        List.singleton_append, List.splitOn_append_cons_self, frontPieces, single,
        List.cons_append]
  · obtain ⟨first, shared, pathPieces⟩ :=
      List.exists_cons_of_ne_nil (List.splitOn_ne_nil slash path.bytes)
    refine ⟨first, shared, [], by simp, ?_, ?_⟩
    · rw [pieces, pathPieces, List.append_nil]
    · rw [join, if_neg (by simp [nonempty, closed]), pieces,
        List.splitOn_append_cons_self, pathPieces, single, List.cons_append]

theorem isAbsolute_join (nonempty : path.bytes ≠ []) (name : List UInt8) :
    (path.join name).isAbsolute = path.isAbsolute := by
  obtain ⟨first, rest, split⟩ := List.exists_cons_of_ne_nil nonempty
  rw [join]
  split
  · simp [isAbsolute, split]
  · simp [isAbsolute, split]

/-! ## Sorting keys -/

/-- The sorting key of a name, by its bytes. -/
def nameKey (bytes : List UInt8) : List Nat :=
  3 :: bytes.map UInt8.toNat

/-- The sorting keys of the pieces that count. -/
def pieceKeys (pieces : List Piece) : List (List Nat) :=
  (pieces.filter fun piece => !isIdle piece).map pieceKey

theorem pieceKeys_append (front back : List Piece) :
    pieceKeys (front ++ back) = pieceKeys front ++ pieceKeys back := by
  simp [pieceKeys]

theorem pieceKeys_eq_nil {idle : List Piece} (idles : ∀ piece ∈ idle, isIdle piece = true) :
    pieceKeys idle = [] := by
  simpa [pieceKeys] using idles

theorem pieceKeys_name (name : Name) : pieceKeys [name.bytes] = [nameKey name.bytes] := by
  have notUp : name.bytes ≠ [dot, dot] := name.valid.2.2.1
  simp [pieceKeys, name.isIdle_eq_false, pieceKey, notUp, nameKey]

/-- What the first piece of a path adds to its sorting key. -/
def openingKeys (first : Piece) (absolute : Bool) : List (List Nat) :=
  if first == [] && absolute then [[0]]
  else if first == [dot] then [[1]]
  else pieceKeys [first]

theorem sortKey_eq {first : Piece} {rest : List Piece}
    (split : path.pieces = first :: rest) :
    path.sortKey = openingKeys first path.isAbsolute ++ pieceKeys rest := by
  rw [sortKey, anchored, split, openingKeys]
  by_cases rooted : (first == [] && path.isAbsolute) = true
  · simp only [if_pos rooted]
    rfl
  · by_cases dotted : (first == [dot]) = true
    · simp only [if_neg rooted, if_pos dotted]
      rfl
    · simp only [if_neg rooted, if_neg dotted]
      rw [← pieceKeys_append]
      rfl

theorem sortKey_join (nonempty : path.bytes ≠ []) (name : Name) :
    (path.join name.bytes).sortKey = path.sortKey ++ [nameKey name.bytes] := by
  obtain ⟨first, shared, idle, empty, pathPieces, joinedPieces⟩ :=
    exists_pieces_join nonempty name
  have idles : ∀ piece ∈ idle, isIdle piece = true := by
    intro piece member
    rw [empty piece member]
    rfl
  rw [sortKey_eq pathPieces, sortKey_eq joinedPieces, isAbsolute_join nonempty,
    pieceKeys_append, pieceKeys_append, pieceKeys_eq_nil idles, pieceKeys_name,
    List.append_nil, List.append_assoc]

theorem sortKey_descend (nonempty : path.bytes ≠ []) (names : List Name) :
    (path.descend names).sortKey =
      path.sortKey ++ (names.map Name.bytes).map nameKey := by
  induction names generalizing path with
  | nil => simp
  | cons name rest induction =>
      rw [descend_cons, induction (bytes_join_ne_nil name), sortKey_join nonempty,
        List.append_assoc]
      rfl

/-! ## The order -/

theorem isBefore_iff {left right : Path} :
    left.isBefore right = true ↔ left.sortKey < right.sortKey := by
  have pieceOrder : ∀ leftPiece rightPiece : List Nat,
      leftPiece.lex rightPiece (fun leftByte rightByte => leftByte < rightByte) = true ↔
        leftPiece < rightPiece := fun _ _ => List.lex_eq_true_iff_lt
  rw [isBefore, List.lex_eq_true_iff_lex]
  simp only [pieceOrder]
  rfl

theorem atMost_iff {left right : Path} :
    left.atMost right = true ↔ left.sortKey ≤ right.sortKey := by
  rw [atMost, Bool.not_eq_true', ← Bool.not_eq_true, isBefore_iff, not_lt]

theorem map_lt_map_iff {α β : Type} [LT α] [LT β] {f : α → β}
    (injective : Function.Injective f) (order : ∀ x y, f x < f y ↔ x < y)
    (left right : List α) : left.map f < right.map f ↔ left < right := by
  induction left generalizing right with
  | nil => cases right <;> simp
  | cons first rest induction =>
      cases right with
      | nil => simp
      | cons other others =>
          simp only [List.map_cons, List.cons_lt_cons_iff, induction, order,
            injective.eq_iff]

theorem toNat_injective : Function.Injective UInt8.toNat :=
  fun _ _ => UInt8.toNat_inj.mp

theorem nameKey_injective : Function.Injective nameKey := by
  intro bytes others same
  exact List.map_injective_iff.mpr toNat_injective (List.tail_eq_of_cons_eq same)

theorem nameKey_lt_iff (bytes others : List UInt8) :
    nameKey bytes < nameKey others ↔ bytes < others := by
  rw [nameKey, nameKey, List.cons_lt_cons_iff,
    map_lt_map_iff toNat_injective fun _ _ => UInt8.lt_iff_toNat_lt.symm]
  simp

theorem isBefore_descend (nonempty : path.bytes ≠ []) (names others : List Name) :
    (path.descend names).isBefore (path.descend others) = true ↔ ComesBefore names others := by
  have shared : StrictMono (path.sortKey ++ ·) := fun _ _ => List.append_left_lt
  rw [isBefore_iff, sortKey_descend nonempty, sortKey_descend nonempty,
    shared.lt_iff_lt, map_lt_map_iff nameKey_injective nameKey_lt_iff, ComesBefore]

theorem sortKey_descend_injective (nonempty : path.bytes ≠ []) :
    Function.Injective fun names => (path.descend names).sortKey := by
  intro names others same
  simp only [sortKey_descend nonempty] at same
  have sameBytes : names.map Name.bytes = others.map Name.bytes :=
    List.map_injective_iff.mpr nameKey_injective (List.append_cancel_left same)
  exact List.map_injective_iff.mpr Name.bytes_injective sameBytes

theorem descend_injective (nonempty : path.bytes ≠ []) : Function.Injective path.descend := by
  intro names others same
  exact sortKey_descend_injective nonempty (congrArg sortKey same)

/-- To sort different paths below a directory is to sort the names that lead to them. -/
theorem exists_mergeSort_descend (nonempty : path.bytes ≠ []) {listing : List (List Name)}
    (distinct : listing.Nodup) :
    ∃ sorted : List (List Name), sorted.Perm listing ∧
      (listing.map path.descend).mergeSort atMost = sorted.map path.descend ∧
      sorted.Pairwise ComesBefore := by
  let inOrder (names later : List Name) : Bool :=
    (path.descend names).atMost (path.descend later)
  have permuted : (listing.mergeSort inOrder).Perm listing :=
    List.mergeSort_perm listing inOrder
  have ordered : (listing.mergeSort inOrder).Pairwise fun names later =>
      inOrder names later = true := by
    apply List.pairwise_mergeSort
    · intro names middle later first second
      exact atMost_iff.mpr ((atMost_iff.mp first).trans (atMost_iff.mp second))
    · intro names later
      rw [Bool.or_eq_true]
      exact (le_total _ _).imp atMost_iff.mpr atMost_iff.mpr
  refine ⟨listing.mergeSort inOrder, permuted, ?_, ?_⟩
  · symm
    apply List.map_mergeSort
    intro names _ later _
    rfl
  · refine (ordered.and (permuted.nodup_iff.mpr distinct)).imp ?_
    intro names later ⟨atMost, different⟩
    have differentKeys : (path.descend names).sortKey ≠ (path.descend later).sortKey :=
      (sortKey_descend_injective nonempty).ne different
    have keysInOrder := lt_of_le_of_ne (atMost_iff.mp atMost) differentKeys
    exact (isBefore_descend nonempty names later).mp (isBefore_iff.mpr keysInOrder)

theorem mem_iff_of_mergeSort_eq (nonempty : path.bytes ≠ []) {listing sorted : List (List Name)}
    (same : (listing.map path.descend).mergeSort atMost = sorted.map path.descend)
    (names : List Name) : names ∈ sorted ↔ names ∈ listing := by
  have injective : Function.Injective path.descend := descend_injective nonempty
  rw [← List.mem_map_of_injective injective, ← same, List.mem_mergeSort,
    List.mem_map_of_injective injective]

end Path

end TightLists
