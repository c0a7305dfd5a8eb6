import TightLists.Notes.Basic
import TightLists.Proofs.Following

/-!
# The holder of a note that is there

The parent of a path is taken from its bytes, and double dots and links are not
looked at.  Still, when a path leads somewhere, its parent leads to a directory:
the steps of the parent are the first steps of the path.  So nothing has to be made
before a note is written to a path where one is.
-/

namespace TightLists

/-! ## Steps of pieces -/

namespace Step

theorem ofPieces?_cons_eq_some_iff {piece : Piece} {rest : List Piece}
    {steps : List Step} :
    ofPieces? (piece :: rest) = some steps ↔
      ∃ first others, ofPiece? piece = some first ∧ ofPieces? rest = some others ∧
        steps = first ++ others := by
  rw [ofPieces?]
  cases ofPiece? piece with
  | none => simp
  | some first =>
      cases ofPieces? rest with
      | none => simp
      | some others => simp [eq_comm]

theorem ofPieces?_append_eq_some_iff {first second : List Piece} {steps : List Step} :
    ofPieces? (first ++ second) = some steps ↔
      ∃ front back, ofPieces? first = some front ∧ ofPieces? second = some back ∧
        steps = front ++ back := by
  induction first generalizing steps with
  | nil => simp [ofPieces?, eq_comm]
  | cons piece first induction =>
      simp only [List.cons_append, ofPieces?_cons_eq_some_iff, induction]
      constructor
      · rintro ⟨start, _, read, ⟨front, back, firstRead, secondRead, rfl⟩, rfl⟩
        exact ⟨start ++ front, back, ⟨start, front, read, firstRead, rfl⟩, secondRead,
          (List.append_assoc start front back).symm⟩
      · rintro ⟨_, back, ⟨start, front, read, firstRead, rfl⟩, secondRead, rfl⟩
        exact ⟨start, front ++ back, read, ⟨front, back, firstRead, secondRead, rfl⟩,
          List.append_assoc start front back⟩

theorem ne_nil_of_ofPiece? {piece : Piece} {steps : List Step}
    (read : ofPiece? piece = some steps) (named : Path.isIdle piece = false) :
    steps ≠ [] := by
  rintro rfl
  simp only [Path.isIdle, Bool.or_eq_false_iff, beq_eq_false_iff_ne] at named
  simp only [ofPiece?, named, if_false] at read
  split at read
  · cases read
  · split at read
    · cases read
    · split at read <;> cases read

theorem ne_nil_of_ofPieces? {pieces : List Piece} {steps : List Step} {piece : Piece}
    (read : ofPieces? pieces = some steps) (member : piece ∈ pieces)
    (named : Path.isIdle piece = false) : steps ≠ [] := by
  obtain ⟨before, after, rfl⟩ := List.append_of_mem member
  obtain ⟨front, back, -, backRead, rfl⟩ := ofPieces?_append_eq_some_iff.mp read
  obtain ⟨first, others, firstRead, -, rfl⟩ := ofPieces?_cons_eq_some_iff.mp backRead
  have nonempty : first ≠ [] := ne_nil_of_ofPiece? firstRead named
  simp [nonempty]

end Step

namespace Path

/-- The steps of a path are those of its pieces, perhaps with a slash at the end. -/
theorem exists_of_steps? {path : Path} {steps : List Step}
    (read : path.steps? = some steps) :
    ∃ plain, Step.ofPieces? path.pieces = some plain ∧
      (steps = plain ∨ steps = plain ++ [.close]) := by
  obtain ⟨plain, plainRead, rfl⟩ := Option.map_eq_some_iff.mp read
  refine ⟨plain, plainRead, ?_⟩
  split
  · exact .inr rfl
  · exact .inl rfl

theorem steps?_of_ofPieces? {path : Path} {plain : List Step}
    (read : Step.ofPieces? path.pieces = some plain) :
    path.steps? = some plain ∨ path.steps? = some (plain ++ [.close]) := by
  rw [steps?, read, Option.map_some]
  split
  · exact .inr rfl
  · exact .inl rfl

/-! ## Anchors and pieces -/

theorem slash_notMem_of_mem_pieces {path : Path} {piece : Piece}
    (member : piece ∈ path.pieces) : slash ∉ piece :=
  separator_notMem_of_mem_splitOn member

theorem pieces_ofPieces {pieces : List Piece} (nonempty : pieces ≠ [])
    (unbroken : ∀ piece ∈ pieces, slash ∉ piece) : (ofPieces pieces).pieces = pieces :=
  List.splitOn_intercalate slash unbroken nonempty

theorem exists_bytes_ofPieces_append (front back : List Piece) :
    ∃ more, (ofPieces (front ++ back)).bytes = (ofPieces front).bytes ++ more := by
  by_cases frontEmpty : front = []
  · exact ⟨(ofPieces back).bytes, by simp [frontEmpty, ofPieces]⟩
  · by_cases backEmpty : back = []
    · exact ⟨[], by simp [backEmpty]⟩
    · exact ⟨_, intercalate_append frontEmpty backEmpty⟩

theorem bytes_ofPieces_nil_cons {pieces : List Piece} (nonempty : pieces ≠ []) :
    (ofPieces ([] :: pieces)).bytes = slash :: (ofPieces pieces).bytes := by
  simp [ofPieces, List.intercalate_cons_of_ne_nil nonempty]

/-- The pieces that an anchor stands for. -/
def opening : Anchor → List Piece
  | .root => [[]]
  | .dot => [[TightLists.dot]]
  | .floating => []

variable {path holder : Path} {anchor : Anchor} {pieces front back : List Piece}

theorem pieces_eq_of_anchored (anchored : path.anchored = (anchor, pieces)) :
    path.pieces = opening anchor ++ pieces := by
  rw [Path.anchored] at anchored
  split at anchored
  · rename_i first rest split
    split at anchored
    · rename_i root
      cases anchored
      simp only [Bool.and_eq_true, beq_iff_eq] at root
      rw [split, root.1]
      rfl
    · split at anchored
      · rename_i dotted
        cases anchored
        rw [split, beq_iff_eq.mp dotted]
        rfl
      · cases anchored
        exact split
  · rename_i none
    exact absurd none (List.splitOn_ne_nil slash path.bytes)

theorem isAbsolute_of_anchored_root (anchored : path.anchored = (.root, pieces)) :
    path.isAbsolute = true := by
  rw [Path.anchored] at anchored
  split at anchored
  · split at anchored
    · rename_i root
      exact (Bool.and_eq_true_iff.mp root).2
    · split at anchored <;> cases anchored
  · cases anchored

/-- The bytes of a path begin with those of its anchor and its first pieces. -/
theorem exists_bytes_hang (anchored : path.anchored = (anchor, front ++ back)) :
    ∃ more, path.bytes = (hang anchor front).bytes ++ more := by
  have spelled : path.bytes = (ofPieces (opening anchor ++ (front ++ back))).bytes := by
    rw [← pieces_eq_of_anchored anchored, ofPieces_pieces]
  rw [spelled]
  cases anchor with
  | dot => exact exists_bytes_ofPieces_append ([TightLists.dot] :: front) back
  | floating => exact exists_bytes_ofPieces_append front back
  | root =>
      have nonempty : front ++ back ≠ [] := by
        intro empty
        have absolute := isAbsolute_of_anchored_root anchored
        rw [isAbsolute, spelled, empty] at absolute
        cases absolute
      obtain ⟨more, split⟩ := exists_bytes_ofPieces_append front back
      refine ⟨more, ?_⟩
      rw [opening, List.singleton_append, bytes_ofPieces_nil_cons nonempty, split]
      rfl

/-- A path that hangs at an anchor has the steps of the anchor and the pieces. -/
theorem ofPieces?_pieces_hang (unbroken : ∀ piece ∈ front, slash ∉ piece) :
    Step.ofPieces? (hang anchor front).pieces =
      Step.ofPieces? (opening anchor ++ front) := by
  by_cases empty : front = []
  · subst empty
    cases anchor <;> rfl
  · cases anchor with
    | dot =>
        refine congrArg Step.ofPieces? (pieces_ofPieces (List.cons_ne_nil _ _) ?_)
        intro piece member
        rcases List.mem_cons.mp member with rfl | inFront
        · decide
        · exact unbroken piece inFront
    | floating => exact congrArg Step.ofPieces? (pieces_ofPieces empty unbroken)
    | root =>
        have spelled : hang .root front = ofPieces ([] :: front) :=
          congrArg Path.mk (bytes_ofPieces_nil_cons empty).symm
        rw [spelled]
        refine congrArg Step.ofPieces? (pieces_ofPieces (List.cons_ne_nil _ _) ?_)
        intro piece member
        rcases List.mem_cons.mp member with rfl | inFront
        · exact List.not_mem_nil
        · exact unbroken piece inFront

/-! ## Parents -/

theorem fronts_dropWhile_isIdle (anchor : Anchor) (pieces : List Piece) :
    fronts anchor (pieces.dropWhile isIdle) = fronts anchor pieces := by
  induction pieces with
  | nil => rfl
  | cons piece pieces induction =>
      cases idle : isIdle piece with
      | false => rw [List.dropWhile_cons_of_neg (by simp [idle])]
      | true => rw [List.dropWhile_cons_of_pos idle, induction, fronts, if_pos idle]

theorem fronts_cons_of_dropWhile (anchor : Anchor) {rest : List Piece} {piece : Piece}
    (past : pieces.dropWhile isIdle = piece :: rest) :
    isIdle piece = false ∧
      fronts anchor pieces = hang anchor (piece :: rest).reverse :: fronts anchor rest := by
  have head := List.head?_dropWhile_not isIdle pieces
  rw [past] at head
  have named : isIdle piece = false := head
  refine ⟨named, ?_⟩
  rw [← fronts_dropWhile_isIdle, past, fronts, if_neg (by simp [named])]

theorem head?_fronts (anchor : Anchor) (pieces : List Piece) :
    (fronts anchor pieces).head? = some (hang anchor (pieces.dropWhile isIdle).reverse) := by
  cases past : pieces.dropWhile isIdle with
  | nil =>
      rw [← fronts_dropWhile_isIdle, past]
      cases anchor <;> rfl
  | cons piece rest =>
      rw [(fronts_cons_of_dropWhile anchor past).2]
      rfl

/-- The parent of a path hangs its first pieces at its anchor.  The pieces that are
left out are not all idle. -/
theorem exists_of_parent? (parent : path.parent? = some holder)
    (nonempty : holder.bytes ≠ []) :
    ∃ anchor front back piece, path.anchored = (anchor, front ++ back) ∧
      holder = hang anchor front ∧ piece ∈ back ∧ isIdle piece = false := by
  obtain ⟨⟨anchor, pieces⟩, anchored⟩ : ∃ parts, path.anchored = parts := ⟨_, rfl⟩
  rw [parent?, parents, anchored] at parent
  simp only at parent
  cases past : pieces.reverse.dropWhile isIdle with
  | nil =>
      rw [← fronts_dropWhile_isIdle, past] at parent
      -- Only a lone dot has a parent, which is the empty path.
      cases anchor with
      | root => cases parent
      | floating => cases parent
      | dot =>
          obtain rfl : hang .floating [] = holder := Option.some.inj parent
          exact absurd rfl nonempty
  | cons piece rest =>
      obtain ⟨named, listed⟩ := fronts_cons_of_dropWhile anchor past
      rw [listed, List.tail_cons, head?_fronts] at parent
      refine ⟨anchor, (rest.dropWhile isIdle).reverse,
        (pieces.reverse.takeWhile isIdle ++ piece :: rest.takeWhile isIdle).reverse,
        piece, ?_, (Option.some.inj parent).symm, by simp, named⟩
      have whole : pieces.reverse =
          (pieces.reverse.takeWhile isIdle ++ piece :: rest.takeWhile isIdle) ++
            rest.dropWhile isIdle := by
        rw [List.append_assoc, List.cons_append, List.takeWhile_append_dropWhile, ← past,
          List.takeWhile_append_dropWhile]
      rw [anchored, ← List.reverse_append, ← whole, List.reverse_reverse]

end Path

namespace FileTree

variable {tree : FileTree} {path holder : Path} {place : Place}

theorem Leads.concat {links : Nat} {here middle there : Place} {steps : List Step}
    {last : Step} (leads : tree.Leads links here steps middle)
    (directory : tree.isDirectoryAt middle = true)
    (taken : tree.next? middle last = some there) :
    tree.Leads links here (steps ++ [last]) there := by
  induction leads with
  | done => exact .step directory taken .done
  | step started first tail induction =>
      exact .step started first (induction directory taken)
  | @follow links here middle name target steps rest started found read tail induction =>
      refine .follow started found read ?_
      have further := induction directory taken
      rwa [List.append_assoc] at further

theorem leadsToDirectory_of_parent? (parent : path.parent? = some holder)
    (nonempty : holder.bytes ≠ []) (leads : tree.placeOf? path = some place) :
    tree.leadsToDirectory holder = true := by
  obtain ⟨anchor, front, back, piece, anchored, rfl, member, named⟩ :=
    Path.exists_of_parent? parent nonempty
  obtain ⟨-, fits, steps, read, leads⟩ := placeOf?_eq_some_iff.mp leads
  have pieces : path.pieces = (Path.opening anchor ++ front) ++ back := by
    rw [Path.pieces_eq_of_anchored anchored, List.append_assoc]
  obtain ⟨plain, plainRead, closing⟩ := Path.exists_of_steps? read
  rw [pieces] at plainRead
  obtain ⟨first, second, firstRead, secondRead, rfl⟩ :=
    Step.ofPieces?_append_eq_some_iff.mp plainRead
  have remain : second ≠ [] := Step.ne_nil_of_ofPieces? secondRead member named
  obtain ⟨middle, leads, directory⟩ : ∃ middle,
      tree.Leads linkLimit (tree.startOf path) first middle ∧
        tree.isDirectoryAt middle = true := by
    have cut : ∃ others, others ≠ [] ∧ steps = first ++ others := by
      rcases closing with rfl | rfl
      · exact ⟨second, remain, rfl⟩
      · exact ⟨second ++ [.close], by simp, List.append_assoc first second [.close]⟩
    obtain ⟨others, othersRemain, rfl⟩ := cut
    obtain ⟨middle, remaining, leads, leadsOn⟩ := leads.exists_of_append
    exact ⟨middle, leads, leadsOn.isDirectoryAt_of_ne_nil othersRemain⟩
  have unbroken : ∀ piece ∈ front, slash ∉ piece := by
    intro piece member
    have inPath : piece ∈ path.pieces := by
      rw [pieces]
      simp [member]
    exact Path.slash_notMem_of_mem_pieces inPath
  obtain ⟨more, spelled⟩ := Path.exists_bytes_hang anchored
  have sameStart : tree.startOf (Path.hang anchor front) = tree.startOf path := by
    obtain ⟨byte, bytes, split⟩ := List.exists_cons_of_ne_nil nonempty
    rw [startOf, startOf, Path.isAbsolute, Path.isAbsolute, spelled, split]
    rfl
  have holderFits : (Path.hang anchor front).bytes.length ≤ pathLimit := by
    rw [spelled, List.length_append] at fits
    exact Nat.le_trans (Nat.le_add_right _ _) fits
  have holderLeads : tree.placeOf? (Path.hang anchor front) = some middle := by
    refine placeOf?_eq_some_iff.mpr ⟨nonempty, holderFits, ?_⟩
    rw [sameStart]
    have holderRead := (Path.ofPieces?_pieces_hang unbroken).trans firstRead
    rcases Path.steps?_of_ofPieces? holderRead with read | read
    · exact ⟨first, read, leads⟩
    · exact ⟨first ++ [.close], read, leads.concat directory rfl⟩
  rw [leadsToDirectory, holderLeads]
  exact directory

theorem makeHolder_of_placeOf? (leads : tree.placeOf? path = some place) :
    tree.makeHolder path = { tree := tree, answer := .ok () } := by
  rw [makeHolder]
  split
  · rfl
  · rename_i holder parent
    have made : tree.makeDirectories holder = { tree := tree, answer := .ok () } := by
      by_cases nonempty : holder.bytes = []
      · rw [makeDirectories, makeFirstOf, if_pos nonempty]
      · exact makeDirectories_of_leadsToDirectory
          (leadsToDirectory_of_parent? parent nonempty leads)
    rw [made]
    rfl

/-- Writing a note to a path that leads to a file changes what the file holds and
nothing else. -/
theorem writeNote_of_file {old : ByteArray} (leads : tree.placeOf? path = some place)
    (file : tree.entryAt? place = some (.file old)) (text : Text) :
    tree.writeNote path text =
      { tree := tree.overwrite place text.encode, answer := .ok () } := by
  have written := writeBytes_of_file leads file text.encode
  simp only [writeNote, makeHolder_of_placeOf? leads, writeText, written]

end FileTree

end TightLists
