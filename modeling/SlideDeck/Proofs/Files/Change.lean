import SlideDeck.Proofs.Files.Walk
import SlideDeck.Proofs.Path.Ending
import SlideDeck.Proofs.Text.Utf8

/-!
# What a change changes

Writing, removing and making a directory each change one place, which is in a directory
(`HasRoom.write`, `exists_of_removeFile`, `exists_of_makeDirectory`). So all directories stay, paths
lead where they led, and what was written is found again under the same path.
-/

set_option autoImplicit false

namespace SlideDeck.FileTree

open SlideDeck.Text

variable {tree after : FileTree} {here place around : Location} {path : Path} {name : Text}

/-! ## The place of a file -/

theorem ne_nil_of_not_isTurn (noTurn : isTurn name = false) : name ≠ [] := by
  rintro rfl
  simp [isTurn, Path.isIdle] at noTurn

/-- The location of a file that is to be written is what its path ends in. -/
theorem locateFile_eq_ok : tree.locateFile here path = .ok place ↔
    checkPath path = .ok () ∧ ∃ around name, place = name :: around ∧
      LeadsInto tree here path around name ∧ checkName name = .ok () := by
  rw [locateFile, check_eq_ok]
  refine and_congr_right fun _ => ?_
  constructor
  · intro located
    split at located
    · simp at located
    next ending found =>
      obtain ⟨empty, whole, -, slashed⟩ := Path.exists_of_ending? found
      rw [bind_eq_ok] at located
      obtain ⟨around, followed, located⟩ := located
      rw [check_eq_ok, checkDirectory_eq_ok] at located
      obtain ⟨inside, located⟩ := located
      split at located
      · simp at located
      next plain =>
        rw [check_eq_ok] at located
        obtain ⟨short, same⟩ := located
        rw [Bool.or_eq_true, not_or, slashed, Nat.pos_iff_ne_zero, not_not] at plain
        obtain ⟨rfl, noTurn⟩ := plain
        refine ⟨around, ending.last, (pure_eq_ok _ _).mp same |>.symm, ?_, short⟩
        exact ⟨⟨ending.before, whole, followed⟩, inside, by simpa using noTurn⟩
  · rintro ⟨around, name, rfl, into, short⟩
    obtain ⟨before, cut, followed⟩ := into.leads
    have found := Path.ending?_of_pieces cut (ne_nil_of_not_isTurn into.noTurn)
    rw [found]
    refine bind_eq_ok.mpr ⟨around, followed, check_eq_ok.mpr ⟨?_, ?_⟩⟩
    · exact checkDirectory_eq_ok.mpr into.inside
    · rw [if_neg (by simp [into.noTurn])]
      exact check_eq_ok.mpr ⟨short, rfl⟩

/-- A path to an entry has a name, that of the entry. -/
theorem LeadsInto.fileName? {around : Location} (into : LeadsInto tree here path around name) :
    Path.fileName? path = some name := by
  obtain ⟨before, cut, -⟩ := into.leads
  exact Path.fileName?_of_pieces cut into.noIdle into.notAbove

theorem locate_of_locateFile (located : tree.locateFile here path = .ok place) :
    tree.locate here path = .ok place := by
  obtain ⟨possible, around, name, rfl, into, short⟩ := locateFile_eq_ok.mp located
  exact into.locate possible short

/-! ## One place at a time -/

/-- Two trees that agree everywhere but at one place. -/
def AgreeBut (place : Location) (before after : FileTree) : Prop :=
  ∀ other, other ≠ place → after.entryAt other = before.entryAt other

/-- A change where no directory was keeps all directories. -/
theorem AgreeBut.keepsDirectories (agree : AgreeBut place tree after)
    (leaf : tree.entryAt place ≠ some .directory) : KeepsDirectories tree after := by
  intro other inside
  have differ : other ≠ place := fun same => leaf (same ▸ inside)
  rw [agree other differ, inside]

/-- What is at another place is found as before. -/
theorem AgreeBut.find {other : Location} {entry : FileEntry} (agree : AgreeBut other tree after)
    (leaf : tree.entryAt other ≠ some .directory) (differ : place ≠ other)
    (found : tree.find here path = .ok (place, entry)) :
    after.find here path = .ok (place, entry) := by
  obtain ⟨located, held⟩ := find_eq_ok.mp found
  refine find_of_locate ((agree.keepsDirectories leaf).locate located) ?_
  rw [agree place differ, held]

theorem agreeBut_insert (entry : FileEntry) (inside : tree.entryAt around = some .directory)
    (leaf : tree.entryAt (name :: around) ≠ some .directory) :
    AgreeBut (name :: around) tree (tree.insert (name :: around) entry) := by
  intro other differ
  rw [entryAt_insert inside leaf, if_neg differ]

/-- There is room for a file at a path: it leads into a directory, in which nothing or a file is
under its name. -/
structure HasRoom (tree : FileTree) (here : Location) (path : Path) (place : Location) : Prop where
  located : tree.locateFile here path = .ok place
  free : tree.entryAt place = none ∨ ∃ content executable,
    tree.entryAt place = some (.file content executable)

theorem HasRoom.not_directory (room : HasRoom tree here path place) :
    tree.entryAt place ≠ some .directory := by
  rcases room.free with free | ⟨content, executable, held⟩
  · simp [free]
  · simp [held]

/-- **Where there is room for a file it can be written. It is found again under its path, and
nothing else has changed.** -/
theorem HasRoom.write (room : HasRoom tree here path place) (content : List UInt8) :
    ∃ after executable, tree.write here path content = .ok after ∧
      after.find here path = .ok (place, .file content executable) ∧
      AgreeBut place tree after := by
  obtain ⟨possible, around, name, rfl, into, short⟩ := locateFile_eq_ok.mp room.located
  obtain ⟨executable, written⟩ : ∃ executable, tree.write here path content =
      .ok (tree.insert (name :: around) (.file content executable)) := by
    rw [write, room.located]
    rcases room.free with free | ⟨old, executable, held⟩
    · exact ⟨false, by simp [bind, Except.bind, free, pure, Except.pure]⟩
    · exact ⟨executable, by simp [bind, Except.bind, held, pure, Except.pure]⟩
  have leaf := room.not_directory
  have agree := agreeBut_insert (.file content executable) into.inside leaf
  have later := (agree.keepsDirectories leaf).leadsInto into
  refine ⟨_, executable, written, ?_, agree⟩
  refine find_of_locate (later.locate possible short) ?_
  rw [entryAt_insert into.inside leaf, if_pos rfl]

/-- What writing answers: the sink stays as it is, and for anything else there was room. -/
theorem sink_or_hasRoom_of_write {content : List UInt8}
    (written : tree.write here path content = .ok after) :
    ∃ place, (tree.find here path = .ok (place, .sink) ∧ after = tree) ∨
      HasRoom tree here path place := by
  rw [FileTree.write, bind_eq_ok] at written
  obtain ⟨place, located, written⟩ := written
  refine ⟨place, ?_⟩
  split at written
  · simp at written
  · next old executable held => exact Or.inr ⟨located, Or.inr ⟨old, executable, held⟩⟩
  · next held =>
      exact Or.inl ⟨find_of_locate (locate_of_locateFile located) held,
        ((pure_eq_ok _ _).mp written).symm⟩
  · next held => exact Or.inr ⟨located, Or.inl held⟩

/-- The text of a file is the text that was written. -/
theorem readText_of_find {text : Text} {executable : Bool}
    (found : tree.find here path = .ok (place, .file (Utf8.encode text) executable)) :
    tree.readText here path = .ok text := by
  simp [readText, read, found, bind, Except.bind, pure, Except.pure, Utf8.decode?_encode]

/-! ## Removing a file -/

/-- What can be removed is there, and no directory. -/
theorem exists_find_of_removeFile (removed : tree.removeFile here path = .ok after) :
    ∃ place entry, tree.find here path = .ok (place, entry) ∧ entry ≠ .directory := by
  rw [removeFile, bind_eq_ok] at removed
  obtain ⟨⟨place, entry⟩, found, removed⟩ := removed
  refine ⟨place, entry, found, ?_⟩
  rintro rfl
  simp at removed

/-- Removing a file empties its place. -/
theorem exists_of_removeFile (removed : tree.removeFile here path = .ok after) :
    ∃ place, tree.locate here path = .ok place ∧ after.entryAt place = none ∧
      tree.entryAt place ≠ some .directory ∧ AgreeBut place tree after := by
  obtain ⟨place, entry, found, leaf⟩ := exists_find_of_removeFile removed
  rw [removeFile, found] at removed
  obtain ⟨located, held⟩ := find_eq_ok.mp found
  have same : after = tree.remove place := by
    cases entry with
    | directory => exact absurd rfl leaf
    | file content executable => exact ((pure_eq_ok _ _).mp removed).symm
    | sink => exact ((pure_eq_ok _ _).mp removed).symm
  subst same
  obtain ⟨around, name, rfl, into, -, -⟩ := exists_of_find_leaf found leaf
  have noDirectory : tree.entryAt (name :: around) ≠ some .directory := by
    rw [held]
    simpa using leaf
  refine ⟨_, located, ?_, noDirectory, fun other differ => ?_⟩
  · rw [entryAt_remove into.inside noDirectory, if_pos rfl]
  · rw [entryAt_remove into.inside noDirectory, if_neg differ]

/-- Behind a removal nothing is at the path. -/
theorem holds_of_removeFile (removed : tree.removeFile here path = .ok after) :
    after.holds here path = false := by
  obtain ⟨place, located, gone, leaf, agree⟩ := exists_of_removeFile removed
  have still := (agree.keepsDirectories leaf).locate located
  rw [← Bool.not_eq_true, holds_iff]
  rintro ⟨other, entry, found⟩
  obtain ⟨located', held⟩ := find_eq_ok.mp found
  rw [still, Except.ok.injEq] at located'
  subst located'
  rw [gone] at held
  simp at held

/-- What is there and no directory can be removed. -/
theorem exists_removeFile {entry : FileEntry} (found : tree.find here path = .ok (place, entry))
    (leaf : entry ≠ .directory) : ∃ after, tree.removeFile here path = .ok after := by
  rw [removeFile, found]
  cases entry with
  | directory => exact absurd rfl leaf
  | file content executable => exact ⟨_, rfl⟩
  | sink => exact ⟨_, rfl⟩

/-! ## Making a directory -/

/-- A tree with more directories: elsewhere nothing has changed. -/
def Grows (before after : FileTree) : Prop :=
  ∀ place, after.entryAt place = before.entryAt place ∨
    before.entryAt place = none ∧ after.entryAt place = some .directory

theorem Grows.refl (tree : FileTree) : Grows tree tree := fun _ => Or.inl rfl

theorem Grows.trans {first second third : FileTree} (earlier : Grows first second)
    (later : Grows second third) : Grows first third := by
  intro place
  rcases earlier place with same | ⟨free, made⟩
  · rw [← same]
    exact later place
  · rcases later place with same | ⟨free', -⟩
    · exact Or.inr ⟨free, by rw [same, made]⟩
    · rw [made] at free'
      simp at free'

theorem Grows.keepsDirectories {before after : FileTree} (grows : Grows before after) :
    KeepsDirectories before after := by
  intro place inside
  rcases grows place with same | ⟨free, -⟩
  · rw [same, inside]
  · simp [inside] at free

theorem grows_insert (inside : tree.entryAt around = some .directory)
    (free : tree.entryAt (name :: around) = none) :
    Grows tree (tree.insert (name :: around) .directory) := by
  have leaf : tree.entryAt (name :: around) ≠ some .directory := by simp [free]
  have filled : ∀ other, (tree.insert (name :: around) .directory).entryAt other =
      if other = name :: around then some .directory else tree.entryAt other :=
    entryAt_insert inside leaf
  intro other
  by_cases same : other = name :: around
  · subst same
    exact Or.inr ⟨free, by rw [filled, if_pos rfl]⟩
  · exact Or.inl (by rw [filled, if_neg same])

/-- What making a directory does: its path ends in the name of a free place in a directory, perhaps
with slashes behind, and this place is filled. -/
theorem exists_insert_of_makeDirectory (made : tree.makeDirectory here path = .ok after) :
    checkPath path = .ok () ∧ ∃ before name around, ∃ empty : Nat,
      Path.pieces path = before ++ name :: List.replicate empty [] ∧
        tree.follow (origin here path) before = .ok around ∧
        tree.entryAt around = some .directory ∧ isTurn name = false ∧ checkName name = .ok () ∧
        tree.entryAt (name :: around) = none ∧
        after = tree.insert (name :: around) .directory := by
  rw [makeDirectory, check_eq_ok] at made
  obtain ⟨possible, made⟩ := made
  split at made
  · simp at made
  next ending found =>
    obtain ⟨empty, whole, -, -⟩ := Path.exists_of_ending? found
    rw [bind_eq_ok] at made
    obtain ⟨around, followed, made⟩ := made
    rw [check_eq_ok, checkDirectory_eq_ok] at made
    obtain ⟨inside, made⟩ := made
    dsimp only at made
    by_cases turn : isTurn ending.last = true
    · rw [if_pos turn, throw_bind_ne_ok] at made
      exact made.elim
    · rw [if_neg turn, check_eq_ok] at made
      obtain ⟨short, made⟩ := made
      split at made
      · simp at made
      next free =>
        exact ⟨possible, ending.before, ending.last, around, empty, whole, followed, inside,
          by simpa using turn, short, free, ((pure_eq_ok _ _).mp made).symm⟩

/-- Making a directory fills one free place with it, and its path leads there. -/
theorem exists_of_makeDirectory (made : tree.makeDirectory here path = .ok after) :
    Grows tree after ∧ ∃ place, after.find here path = .ok (place, .directory) := by
  obtain ⟨possible, before, name, around, empty, whole, followed, inside, noTurn,
      short, free, rfl⟩ :=
    exists_insert_of_makeDirectory made
  have grows := grows_insert inside free
  have keeps := grows.keepsDirectories
  have there : (tree.insert (name :: around) .directory).entryAt (name :: around) =
      some .directory := by
    rw [entryAt_insert inside (by simp [free]), if_pos rfl]
  refine ⟨grows, name :: around, find_of_locate ?_ there⟩
  rw [locate_eq_ok, whole, List.append_cons, follow_append_eq_ok]
  refine ⟨possible, name :: around, ?_, ?_⟩
  · rw [follow_concat_eq_ok]
    exact ⟨around, keeps.follow followed, keeps around inside, short,
      (move_of_not_isTurn noTurn).symm⟩
  · refine follow_idle there fun piece member => ?_
    rw [List.eq_of_mem_replicate member]
    rfl

end SlideDeck.FileTree
