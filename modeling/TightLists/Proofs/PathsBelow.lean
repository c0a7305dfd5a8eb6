import TightLists.Proofs.Holder
import TightLists.Proofs.PathOrder

/-!
# Where the paths below a directory lead

A name that is joined to a path adds one step to those of the path.  So when a path leads
to a directory, joining the names of what stands below gives paths that lead there
(`placeOf?_descend`), unless they are too long or one of the names is that of a link.
Slashes at the end of the path make no difference, except that they count for its length.
-/

namespace TightLists

namespace Step

theorem ofPieces?_of_empty {pieces : List Piece} (empty : ∀ piece ∈ pieces, piece = []) :
    ofPieces? pieces = some [] := by
  induction pieces with
  | nil => rfl
  | cons piece rest induction =>
      have others := induction fun other member => empty other (List.mem_cons_of_mem piece member)
      rw [empty piece List.mem_cons_self, ofPieces?, others]
      rfl

theorem ofPieces?_name (name : Name) : ofPieces? [name.bytes] = some [.enter name] := by
  obtain ⟨nonempty, notDot, notUp, -⟩ := name.valid
  have read : ofPiece? name.bytes = some [.enter name] := by
    rw [ofPiece?, if_neg nonempty, if_neg notDot, if_neg notUp, dif_pos name.valid]
  exact ofPieces?_cons_eq_some_iff.mpr ⟨[.enter name], [], read, rfl, rfl⟩

end Step

namespace Path

variable {path : Path} {plain : List Step}

theorem getLast?_join (path : Path) (name : Name) :
    (path.join name.bytes).bytes.getLast? = name.bytes.getLast? := by
  have nonempty : name.bytes ≠ [] := name.valid.1
  rw [join]
  split
  · exact List.getLast?_append_of_ne_nil path.bytes nonempty
  · rw [List.append_cons]
    exact List.getLast?_append_of_ne_nil (path.bytes ++ [slash]) nonempty

/-- A joined name is one more step, and the last one. -/
theorem steps?_join (nonempty : path.bytes ≠ [])
    (read : Step.ofPieces? path.pieces = some plain) (name : Name) :
    (path.join name.bytes).steps? = some (plain ++ [.enter name]) := by
  obtain ⟨first, shared, idle, empty, pathPieces, joinedPieces⟩ :=
    exists_pieces_join nonempty name
  rw [pathPieces, ← List.cons_append] at read
  obtain ⟨front, back, frontRead, backRead, rfl⟩ :=
    Step.ofPieces?_append_eq_some_iff.mp read
  obtain rfl : back = [] :=
    Option.some.inj (backRead.symm.trans (Step.ofPieces?_of_empty empty))
  rw [List.append_nil]
  have joinedRead : Step.ofPieces? (path.join name.bytes).pieces =
      some (front ++ [.enter name]) := by
    rw [joinedPieces, ← List.cons_append]
    exact Step.ofPieces?_append_eq_some_iff.mpr
      ⟨front, [.enter name], frontRead, Step.ofPieces?_name name, rfl⟩
  have unclosed : (path.join name.bytes).bytes.getLast? ≠ some slash := by
    rw [getLast?_join]
    intro last
    exact name.slash_notMem (List.mem_of_getLast? last)
  rw [steps?, joinedRead, Option.map_some, if_neg (fun closed => unclosed closed.2)]

theorem splitOn_replicate_slash (count : Nat) :
    (List.replicate count slash).splitOn slash = List.replicate (count + 1) [] := by
  induction count with
  | zero => simp
  | succ count induction =>
      have cut : ([] ++ slash :: List.replicate count slash).splitOn slash =
          List.splitOn slash [] ++ (List.replicate count slash).splitOn slash :=
        List.splitOn_append_cons_self [] (List.replicate count slash)
      rw [induction, List.splitOn_nil] at cut
      exact cut

theorem pieces_append_slashes (path : Path) (count : Nat) :
    pieces { bytes := path.bytes ++ List.replicate count slash } =
      path.pieces ++ List.replicate count [] := by
  cases count with
  | zero => simp
  | succ count =>
      rw [pieces, List.replicate_succ, List.splitOn_append_cons_self,
        splitOn_replicate_slash, pieces]

end Path

namespace FileTree

variable {tree : FileTree} {path : Path} {place : Place} {name : Name} {entry : Entry}

/-! ## Places below a directory -/

theorem entryAt?_cons_eq_some_iff :
    tree.entryAt? (name :: place) = some entry ↔ (name :: place, entry) ∈ tree.entries := by
  constructor
  · intro found
    have listed : tree.entries.lookup (name :: place) = some entry := found
    obtain ⟨before, after, split, -⟩ := List.lookup_eq_some_iff.mp listed
    rw [split]
    exact List.mem_append_right before List.mem_cons_self
  · exact entryAt?_of_mem_entries

theorem isDirectoryAt_of_entryAt? (found : tree.entryAt? (name :: place) = some entry) :
    tree.isDirectoryAt place = true := by
  obtain ⟨held, holder, split, root | directory⟩ :=
    tree.held _ entry (entryAt?_cons_eq_some_iff.mp found)
  · obtain ⟨rfl, rfl⟩ := List.cons.inj split
    rw [root]
    rfl
  · obtain ⟨rfl, rfl⟩ := List.cons.inj split
    exact isDirectoryAt_iff.mpr (entryAt?_of_mem_entries directory)

theorem isDirectoryAt_of_append {names : List Name}
    (directory : tree.isDirectoryAt (names ++ place) = true) :
    tree.isDirectoryAt place = true := by
  induction names with
  | nil => exact directory
  | cons last rest induction => exact induction (isDirectoryAt_tail directory)

theorem isDirectoryAt_of_entryAt?_append {names : List Name} (remain : names ≠ [])
    (found : tree.entryAt? (names ++ place) = some entry) :
    tree.isDirectoryAt place = true := by
  obtain ⟨last, rest, rfl⟩ := List.exists_cons_of_ne_nil remain
  exact isDirectoryAt_of_append (isDirectoryAt_of_entryAt? found)

/-! ## Paths that lead there -/

theorem next?_enter (found : tree.entryAt? (name :: place) = some entry)
    (notLink : ∀ target, entry ≠ .link target) :
    tree.next? place (.enter name) = some (name :: place) := by
  cases entry with
  | directory => simp only [next?, found]
  | file content => simp only [next?, found]
  | link target => exact absurd rfl (notLink target)

/-- A slash at the end stays where the steps before it have led. -/
theorem Leads.of_close {links : Nat} {here there : Place} {plain : List Step}
    (leads : tree.Leads links here (plain ++ [.close]) there) :
    tree.Leads links here plain there := by
  obtain ⟨middle, remaining, leads, leadsOn⟩ := leads.exists_of_append
  cases leadsOn with
  | step directory taken tail =>
      cases tail
      cases taken
      exact leads

/-- What a path leads to is where the steps of its pieces lead. -/
theorem exists_leads_of_placeOf? (leads : tree.placeOf? path = some place) :
    ∃ plain, Step.ofPieces? path.pieces = some plain ∧
      tree.Leads linkLimit (tree.startOf path) plain place := by
  obtain ⟨-, -, steps, read, leads⟩ := placeOf?_eq_some_iff.mp leads
  obtain ⟨plain, plainRead, rfl | rfl⟩ := Path.exists_of_steps? read
  · exact ⟨steps, plainRead, leads⟩
  · exact ⟨plain, plainRead, leads.of_close⟩

theorem placeOf?_join (leads : tree.placeOf? path = some place)
    (found : tree.entryAt? (name :: place) = some entry)
    (notLink : ∀ target, entry ≠ .link target)
    (fits : (path.join name.bytes).bytes.length ≤ pathLimit) :
    tree.placeOf? (path.join name.bytes) = some (name :: place) := by
  have nonempty : path.bytes ≠ [] := (placeOf?_eq_some_iff.mp leads).1
  obtain ⟨plain, read, plainLeads⟩ := exists_leads_of_placeOf? leads
  apply placeOf?_eq_some_iff.mpr
  refine ⟨Path.bytes_join_ne_nil name, fits, plain ++ [.enter name],
    Path.steps?_join nonempty read name, ?_⟩
  rw [startOf, Path.isAbsolute_join nonempty]
  exact plainLeads.concat (isDirectoryAt_of_entryAt? found) (next?_enter found notLink)

/-- The path of what stands below a directory leads there, and to no other place. -/
theorem placeOf?_descend {names : List Name} (leads : tree.placeOf? path = some place)
    (found : tree.entryAt? (names.reverse ++ place) = some entry)
    (notLink : ∀ target, entry ≠ .link target)
    (fits : (path.descend names).bytes.length ≤ pathLimit) :
    tree.placeOf? (path.descend names) = some (names.reverse ++ place) := by
  induction names generalizing path place with
  | nil => exact leads
  | cons name rest induction =>
      have below : (name :: rest).reverse ++ place = rest.reverse ++ name :: place := by simp
      rw [below] at found ⊢
      have joinedFits : (path.join name.bytes).bytes.length ≤ pathLimit :=
        Nat.le_trans (Path.length_le_length_descend _ rest) fits
      apply induction _ found fits
      cases rest with
      | nil => exact placeOf?_join leads found notLink joinedFits
      | cons next rest =>
          have directory : tree.isDirectoryAt (name :: place) = true :=
            isDirectoryAt_of_entryAt?_append (by simp) found
          exact placeOf?_join leads (isDirectoryAt_iff.mp directory) (by simp) joinedFits

theorem placeOf?_eq_none_of_tooLong (tooLong : pathLimit < path.bytes.length) :
    tree.placeOf? path = none := by
  apply Option.eq_none_iff_forall_ne_some.mpr
  intro place found
  exact absurd (placeOf?_eq_some_iff.mp found).2.1 (Nat.not_le.mpr tooLong)

theorem placeOf?_append_slashes (leads : tree.placeOf? path = some place)
    (directory : tree.isDirectoryAt place = true) {count : Nat}
    (fits : path.bytes.length + count ≤ pathLimit) :
    tree.placeOf? { bytes := path.bytes ++ List.replicate count slash } = some place := by
  have nonempty : path.bytes ≠ [] := (placeOf?_eq_some_iff.mp leads).1
  obtain ⟨plain, plainRead, plainLeads⟩ := exists_leads_of_placeOf? leads
  have longerRead : Step.ofPieces?
      (Path.pieces { bytes := path.bytes ++ List.replicate count slash }) = some plain := by
    rw [Path.pieces_append_slashes]
    have idle : Step.ofPieces? (List.replicate count []) = some [] :=
      Step.ofPieces?_of_empty fun _ => List.eq_of_mem_replicate
    exact Step.ofPieces?_append_eq_some_iff.mpr
      ⟨plain, [], plainRead, idle, (List.append_nil plain).symm⟩
  have sameStart : tree.startOf { bytes := path.bytes ++ List.replicate count slash } =
      tree.startOf path := by
    obtain ⟨first, rest, split⟩ := List.exists_cons_of_ne_nil nonempty
    simp [startOf, Path.isAbsolute, split]
  apply placeOf?_eq_some_iff.mpr
  refine ⟨List.append_ne_nil_of_left_ne_nil nonempty _, ?_, ?_⟩
  · rwa [List.length_append, List.length_replicate]
  · rw [sameStart]
    rcases Path.steps?_of_ofPieces? longerRead with read | read
    · exact ⟨plain, read, plainLeads⟩
    · exact ⟨plain ++ [.close], read, plainLeads.concat directory rfl⟩

end FileTree

end TightLists
