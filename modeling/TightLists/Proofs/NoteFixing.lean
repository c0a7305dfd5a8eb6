import TightLists.Notes.Batch
import TightLists.Proofs.CanonicalSpacing
import TightLists.Proofs.Contents
import TightLists.Proofs.Holder

/-!
# Fixing one note

Fixing a note in place never fails once the note has been read, and it changes what
the one file holds and nothing else.  So the answer does not depend on the mode, and
the tree that is left behind is `FileTree.tightenedAt` the path.  A tree that has been
tightened at some paths answers like the tree before, except that the notes at these
paths have nothing more to remove.
-/

namespace TightLists

/-- What the bytes of a file become when it is tightened.  Bytes that are no text stay
as they are. -/
def tightenedBytes (content : ByteArray) : ByteArray :=
  match Text.decode? content with
  | some text => text.tightened.encode
  | none => content

theorem tightenedBytes_of_decode? {content : ByteArray} {text : Text}
    (read : Text.decode? content = some text) :
    tightenedBytes content = text.tightened.encode := by
  rw [tightenedBytes, read]

theorem decode?_tightenedBytes (content : ByteArray) :
    Text.decode? (tightenedBytes content) =
      (Text.decode? content).map Text.tightened := by
  cases read : Text.decode? content with
  | none => simp [tightenedBytes, read]
  | some text => rw [tightenedBytes_of_decode? read, Text.decode?_encode, Option.map_some]

theorem Text.tightened_tightened (text : Text) : text.tightened.tightened = text.tightened :=
  (tightened_eq_of_chain (chain_tightened text)).symm

theorem tightenedBytes_tightenedBytes (content : ByteArray) :
    tightenedBytes (tightenedBytes content) = tightenedBytes content := by
  cases read : Text.decode? content with
  | none => simp [tightenedBytes, read]
  | some text =>
      have later : Text.decode? (tightenedBytes content) = some text.tightened := by
        rw [decode?_tightenedBytes, read, Option.map_some]
      rw [tightenedBytes_of_decode? later, Text.tightened_tightened,
        tightenedBytes_of_decode? read]

namespace FileTree

/-- One of the paths leads to the place. -/
def Reaches (tree : FileTree) (paths : List Path) (place : Place) : Prop :=
  ∃ path ∈ paths, tree.placeOf? path = some place

instance (tree : FileTree) (paths : List Path) (place : Place) :
    Decidable (tree.Reaches paths place) :=
  inferInstanceAs (Decidable (∃ path ∈ paths, tree.placeOf? path = some place))

/-- The tree in which the notes that the paths lead to have been tightened. -/
def tightenedAt (tree : FileTree) (paths : List Path) : FileTree :=
  tree.mapContents fun place content =>
    if tree.Reaches paths place then tightenedBytes content else content

/-- The text of the file at a place, if one stands there and holds a text. -/
def textAt? (tree : FileTree) (place : Place) : Option Text :=
  match tree.entryAt? place with
  | some (.file content) => Text.decode? content
  | _ => none

variable (tree : FileTree)

theorem textAt?_eq_some_iff {place : Place} {text : Text} :
    tree.textAt? place = some text ↔
      ∃ content, tree.entryAt? place = some (.file content) ∧
        Text.decode? content = some text := by
  rw [textAt?]
  split
  · rename_i content found
    simp [found]
  · rename_i notFile
    constructor
    · intro none
      cases none
    · rintro ⟨content, found, -⟩
      exact absurd found (notFile content)

theorem readNote_eq (path : Path) :
    tree.readNote path =
      match tree.placeOf? path with
      | none => .error (.notFound path)
      | some place =>
          match tree.entryAt? place with
          | some (.file content) =>
              match Text.decode? content with
              | some text => .ok text
              | none => .error (.system path .notText)
          | some .directory => .error (.system path .isDirectory)
          | _ => .error (.system path .notFound) := by
  rw [readNote, leadsSomewhere, readText, readBytes, placeOf?]
  cases tree.lookup .use path with
  | vacant holder name => rfl
  | failed error => rfl
  | found place =>
      simp only [Option.isSome_some, if_true]
      cases tree.entryAt? place with
      | none => rfl
      | some entry =>
          cases entry with
          | directory => rfl
          | link target => rfl
          | file content =>
              simp only
              cases Text.decode? content <;> rfl

theorem readNote_eq_ok_iff {path : Path} {text : Text} :
    tree.readNote path = .ok text ↔
      ∃ place, tree.placeOf? path = some place ∧ tree.textAt? place = some text := by
  rw [readNote_eq]
  cases tree.placeOf? path with
  | none => simp
  | some place =>
      simp only [Option.some.injEq, exists_eq_left', textAt?]
      cases tree.entryAt? place with
      | none => simp
      | some entry =>
          cases entry with
          | directory => simp
          | link target => simp
          | file content =>
              simp only
              cases Text.decode? content <;> simp

/-! ## Tightened trees -/

theorem tightenedAt_nil : tree.tightenedAt [] = tree := by
  refine mapContents_eq_self tree _ fun place content _ => ?_
  simp [Reaches]

theorem reaches_append_iff {first second : List Path} {place : Place} :
    tree.Reaches (first ++ second) place ↔
      tree.Reaches first place ∨ tree.Reaches second place := by
  simp [Reaches, or_and_right, exists_or]

@[simp] theorem reaches_mapContents_iff {change : Place → ByteArray → ByteArray}
    {paths : List Path} {place : Place} :
    (tree.mapContents change).Reaches paths place ↔ tree.Reaches paths place := by
  simp [Reaches]

theorem tightenedAt_tightenedAt (first second : List Path) :
    (tree.tightenedAt first).tightenedAt second = tree.tightenedAt (first ++ second) := by
  rw [tightenedAt, tightenedAt, mapContents_mapContents, tightenedAt]
  refine congrArg tree.mapContents (funext fun place => funext fun content => ?_)
  simp only [reaches_append_iff, reaches_mapContents_iff]
  by_cases inFirst : tree.Reaches first place
  · by_cases inSecond : tree.Reaches second place <;>
      simp [inFirst, inSecond, tightenedBytes_tightenedBytes]
  · by_cases inSecond : tree.Reaches second place <;> simp [inFirst, inSecond]

theorem textAt?_tightenedAt (paths : List Path) (place : Place) :
    (tree.tightenedAt paths).textAt? place =
      (tree.textAt? place).map fun text =>
        if tree.Reaches paths place then text.tightened else text := by
  rw [textAt?, textAt?, tightenedAt, entryAt?_mapContents]
  cases tree.entryAt? place with
  | none => rfl
  | some entry =>
      cases entry with
      | directory => rfl
      | link target => rfl
      | file content =>
          simp only [Option.map_some, Entry.mapContent_file]
          split
          · exact decode?_tightenedBytes content
          · simp

/-- Only the notes that are reached matter, and a file that holds no text is no note. -/
theorem tightenedAt_congr {first second : List Path}
    (same : ∀ place text, tree.textAt? place = some text →
      (tree.Reaches first place ↔ tree.Reaches second place)) :
    tree.tightenedAt first = tree.tightenedAt second := by
  refine tree.mapContents_congr ?_
  intro place content member
  cases decoded : Text.decode? content with
  | none => simp [tightenedBytes, decoded]
  | some text =>
      have holds := (tree.textAt?_eq_some_iff).mpr
        ⟨content, entryAt?_of_mem_entries member, decoded⟩
      simp only [same place text holds]

theorem entryAt?_tightenedAt_of_textAt? {paths : List Path} {place : Place} {text : Text}
    (holds : tree.textAt? place = some text) (reached : tree.Reaches paths place) :
    (tree.tightenedAt paths).entryAt? place = some (.file text.tightened.encode) := by
  obtain ⟨content, file, decoded⟩ := (tree.textAt?_eq_some_iff).mp holds
  rw [tightenedAt, entryAt?_mapContents, file]
  simp [reached, tightenedBytes_of_decode? decoded]

theorem entryAt?_tightenedAt_of_not_reaches {paths : List Path} {place : Place}
    (untouched : ∀ text, tree.textAt? place = some text → ¬tree.Reaches paths place) :
    (tree.tightenedAt paths).entryAt? place = tree.entryAt? place := by
  rw [tightenedAt, entryAt?_mapContents]
  cases found : tree.entryAt? place with
  | none => rfl
  | some entry =>
      cases entry with
      | directory => rfl
      | link target => rfl
      | file content =>
          cases decoded : Text.decode? content with
          | none => simp [tightenedBytes, decoded]
          | some text =>
              have holds := (tree.textAt?_eq_some_iff).mpr ⟨content, found, decoded⟩
              simp [untouched text holds]

/-- Tightening changes nothing exactly where every note that is reached is tight. -/
theorem tightenedAt_eq_self_iff {paths : List Path} :
    tree.tightenedAt paths = tree ↔
      ∀ place text, tree.Reaches paths place → tree.textAt? place = some text →
        text.tightened = text := by
  constructor
  · intro same place text reached found
    have later := tree.textAt?_tightenedAt paths place
    rw [same, found, Option.map_some, if_pos reached] at later
    exact (Option.some.inj later).symm
  · intro tight
    refine mapContents_eq_self tree _ ?_
    intro place content member
    split
    · rename_i reached
      cases decoded : Text.decode? content with
      | none => simp [tightenedBytes, decoded]
      | some text =>
          have found := (tree.textAt?_eq_some_iff).mpr
            ⟨content, entryAt?_of_mem_entries member, decoded⟩
          rw [tightenedBytes_of_decode? decoded, tight place text reached found,
            Text.encode_of_decode? decoded]
    · rfl

/-- A tightened tree reads like the tree before, except that the notes are tight where
it has been tightened. -/
theorem readNote_tightenedAt (paths : List Path) (path : Path) :
    (tree.tightenedAt paths).readNote path =
      (tree.readNote path).map fun text =>
        if ∃ other ∈ paths, tree.placeOf? other = tree.placeOf? path then text.tightened
        else text := by
  rw [readNote_eq, readNote_eq, tightenedAt, placeOf?_mapContents]
  cases tree.placeOf? path with
  | none => rfl
  | some place =>
      simp only [entryAt?_mapContents, Reaches]
      cases tree.entryAt? place with
      | none => rfl
      | some entry =>
          cases entry with
          | directory => rfl
          | link target => rfl
          | file content =>
              simp only [Option.map_some, Entry.mapContent_file]
              by_cases reached : ∃ other ∈ paths, tree.placeOf? other = some place
              · simp only [reached, if_true, decode?_tightenedBytes]
                cases Text.decode? content <;> rfl
              · simp only [reached, if_false]
                cases Text.decode? content <;> rfl

/-! ## Fixing -/

theorem overwrite_eq_tightenedAt {path : Path} {place : Place} {text : Text}
    (leads : tree.placeOf? path = some place) (found : tree.textAt? place = some text) :
    tree.overwrite place text.tightened.encode = tree.tightenedAt [path] := by
  obtain ⟨content, file, decoded⟩ := (tree.textAt?_eq_some_iff).mp found
  rw [overwrite_eq_mapContents, tightenedAt]
  refine mapContents_congr tree ?_
  intro listed old member
  have reached : tree.Reaches [path] listed ↔ listed = place := by
    simp [Reaches, leads, eq_comm]
  by_cases here : listed = place
  · subst here
    have listedFile := entryAt?_of_mem_entries member
    rw [file] at listedFile
    cases listedFile
    simp [reached, tightenedBytes_of_decode? decoded]
  · simp [reached, here]

theorem writeNote_tightened {path : Path} {text : Text}
    (read : tree.readNote path = .ok text) :
    tree.writeNote path text.tightened =
      { tree := tree.tightenedAt [path], answer := .ok () } := by
  obtain ⟨place, leads, found⟩ := (tree.readNote_eq_ok_iff).mp read
  obtain ⟨content, file, -⟩ := (tree.textAt?_eq_some_iff).mp found
  rw [writeNote_of_file leads file, tree.overwrite_eq_tightenedAt leads found]

/-- The answer about a note is read off its text, whether it is written back or not. -/
theorem answer_fixFile (mode : WriteMode) (path : Path) :
    (tree.fixFile mode path).answer =
      (tree.readNote path).map fun text => text.tighten.report path := by
  rw [fixFile]
  cases read : tree.readNote path with
  | error error => rfl
  | ok text =>
      have written : tree.writeNote path text.tighten.text =
          { tree := tree.tightenedAt [path], answer := .ok () } :=
        tree.writeNote_tightened read
      simp only [written]
      split <;> rfl

theorem tree_fixFile_dryRun (path : Path) : (tree.fixFile .dryRun path).tree = tree := by
  rw [fixFile]
  cases tree.readNote path with
  | error error => rfl
  | ok text => simp

theorem tree_fixFile_of_error (mode : WriteMode) {path : Path} {error : NotesError}
    (failed : tree.readNote path = .error error) :
    (tree.fixFile mode path).tree = tree := by
  rw [fixFile, failed]

theorem tree_fixFile_inPlace {path : Path} {text : Text}
    (read : tree.readNote path = .ok text) :
    (tree.fixFile .inPlace path).tree = tree.tightenedAt [path] := by
  have written : tree.writeNote path text.tighten.text =
      { tree := tree.tightenedAt [path], answer := .ok () } :=
    tree.writeNote_tightened read
  rw [fixFile, read]
  simp only [written]
  split
  · rfl
  · rename_i kept
    -- Nothing is written, which is right only because the note is tight.
    have tight : text.tightened = text := by
      refine Classical.byContradiction fun different => kept ?_
      simp [Tightening.report, (Text.changed_tighten_iff text).mpr different]
    refine ((tree.tightenedAt_eq_self_iff).mpr ?_).symm
    rintro place other ⟨_, member, leads⟩ found
    obtain rfl := List.mem_singleton.mp member
    have same := (tree.readNote_eq_ok_iff).mpr ⟨place, leads, found⟩
    rw [read] at same
    exact Except.ok.inj same ▸ tight

end FileTree

end TightLists
