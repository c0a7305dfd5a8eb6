import TightLists.Proofs.NewDirectories
import TightLists.Proofs.NoteFixing

/-!
# Writing a note and reading it back

Writing a note first makes the directories on the way that are missing.  They are taken from
the bytes of the path, while the note itself is written and read where the path leads to,
through double dots and links.  Still, a note that has been written is read back, and next
to it only directories are new; and where writing fails, they are all that is new
(`writeNote_reads_back`).
-/

namespace TightLists

namespace FileTree

variable {tree : FileTree} {path : Path} {text : Text}

theorem onlyAddsDirectories_makeHolder (tree : FileTree) (path : Path) :
    tree.OnlyAddsDirectories (tree.makeHolder path).tree := by
  rw [makeHolder]
  split
  · exact .refl tree
  · exact tree.onlyAddsDirectories_makeDirectories _

theorem exists_of_writeNote (done : (tree.writeNote path text).answer = .ok ()) :
    ∃ held, tree.OnlyAddsDirectories held ∧
      held.writeText path text = .ok (tree.writeNote path text).tree := by
  refine ⟨(tree.makeHolder path).tree, tree.onlyAddsDirectories_makeHolder path, ?_⟩
  rw [writeNote] at done ⊢
  split at done
  · cases done
  · split at done
    · rename_i written writes
      simp only [writes]
    · cases done

theorem onlyAddsDirectories_of_writeNote {error : NotesError}
    (failed : (tree.writeNote path text).answer = .error error) :
    tree.OnlyAddsDirectories (tree.writeNote path text).tree := by
  have adds := tree.onlyAddsDirectories_makeHolder path
  rw [writeNote] at failed ⊢
  split at failed
  · exact adds
  · split at failed
    · cases failed
    · exact adds

theorem readNote_of_onlyWrites {before : FileTree} {place : Place}
    (only : before.OnlyWrites place text.encode tree)
    (leads : tree.placeOf? path = some place) : tree.readNote path = .ok text := by
  apply (tree.readNote_eq_ok_iff).mpr
  refine ⟨place, leads, ?_⟩
  apply (tree.textAt?_eq_some_iff).mpr
  exact ⟨text.encode, only.written, Text.decode?_encode text⟩

/-- A note that has been written is read back.  It stands where its path leads to, and where
the path led before if it led anywhere: nothing else is written, nothing is removed, and
next to the note only directories are new.  Where a note cannot be written, whatever stood
in the tree stands there still, and only directories are new.  A path that leads to a file
can be written to, and then that file is all that changes. -/
theorem writeNote_reads_back (tree : FileTree) (path : Path) (text : Text) :
    let writing := tree.writeNote path text
    (writing.answer = .ok () →
      writing.tree.readNote path = .ok text ∧
        ∃ place, writing.tree.placeOf? path = some place ∧
          (∀ earlier, tree.placeOf? path = some earlier → earlier = place) ∧
          tree.OnlyWrites place text.encode writing.tree) ∧
      (∀ error, writing.answer = .error error → tree.OnlyAddsDirectories writing.tree) ∧
      ∀ place old, tree.placeOf? path = some place →
        tree.entryAt? place = some (.file old) →
        writing = { tree := tree.overwrite place text.encode, answer := .ok () } := by
  intro writing
  refine ⟨?_, ?_, ?_⟩
  · intro done
    obtain ⟨held, adds, writes⟩ := exists_of_writeNote done
    obtain ⟨place, only, leads, before⟩ := exists_onlyWrites_of_writeBytes writes
    refine ⟨readNote_of_onlyWrites only leads, place, leads, ?_,
      only.after_onlyAddsDirectories adds⟩
    intro earlier earlierLeads
    exact before earlier (adds.growsInto.placeOf? adds.working earlierLeads)
  · intro error failed
    exact onlyAddsDirectories_of_writeNote failed
  · intro place old leads file
    exact writeNote_of_file leads file text

/-- A link whose end is missing, reached through a directory that is still to be made: the
note is written at the end of the link, and over that note the next time.  With a slash at
the end of the path, the directory is all that is left of the attempt. -/
theorem writeNote_reads_back_through_dangling_link :
    let note : Name := { bytes := [0x6E], valid := by decide }
    let link : Name := { bytes := [0x6C], valid := by decide }
    let made : Name := { bytes := [0x64], valid := by decide }
    let text : Text := "- x".toList
    let tree := empty.add [] link (.link { bytes := note.bytes })
    let through : Path := .ofText "d/../l".toList
    let slashed : Path := .ofText "d/n/".toList
    let written := (tree.writeNote through text).tree
    let failed := tree.writeNote slashed text
    tree.placeOf? through = none ∧
      written.readNote through = .ok text ∧
      tree.OnlyWrites [note] text.encode written ∧
      written.isDirectoryAt [made] = true ∧
      (written.writeNote through []).tree = written.overwrite [note] (Text.encode []) ∧
      failed.answer = .error (.system slashed .isDirectory) ∧
      tree.OnlyAddsDirectories failed.tree ∧
      failed.tree.isDirectoryAt [made] = true := by
  intro note link made text tree through slashed written failed
  obtain ⟨reads, place, leads, -, only⟩ :=
    (tree.writeNote_reads_back through text).1 (by decide +kernel)
  have atEnd : written.placeOf? through = some [note] := by decide +kernel
  obtain rfl : place = [note] := Option.some.inj (leads.symm.trans atEnd)
  have again : written.writeNote through [] =
      { tree := written.overwrite [note] (Text.encode []), answer := .ok () } :=
    (written.writeNote_reads_back through []).2.2 [note] text.encode atEnd only.written
  have refused : failed.answer = .error (.system slashed .isDirectory) := by decide +kernel
  have adds := (tree.writeNote_reads_back slashed text).2.1 _ refused
  refine ⟨?_, reads, only, ?_, ?_, refused, adds, ?_⟩
  · decide +kernel
  · decide +kernel
  · rw [again]
  · decide +kernel

end FileTree

end TightLists
