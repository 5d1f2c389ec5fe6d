import SlideDeck.Files.Change
import SlideDeck.Proofs.Path.Child

/-!
# Where a path leads

A path leads through directories. So it leads to the same place in every tree that has the
directories of the first one (`KeepsDirectories.follow`), and a path that leads to anything but a
directory ends with the name of an entry: what stands before the name leads to the directory that
holds it (`exists_of_find_leaf`).
-/

set_option autoImplicit false

namespace SlideDeck.FileTree

open SlideDeck.Text

variable {tree : FileTree} {place last : Location} {names : List Text} {name : Text}

/-! ## Answers -/

section Answers

variable {ε α β : Type} {answer : Except ε α} {next : α → Except ε β} {value : β}

/-- One answer after another is there if both are. -/
theorem bind_eq_ok : answer >>= next = .ok value ↔ ∃ a, answer = .ok a ∧ next a = .ok value := by
  cases answer with
  | error fault => simp [bind, Except.bind]
  | ok a => simp [bind, Except.bind]

/-- An answer behind a check is there if the check is passed. -/
theorem check_eq_ok {check : Except ε Unit} {next : Unit → Except ε β} :
    check >>= next = .ok value ↔ check = .ok () ∧ next () = .ok value := by
  rw [bind_eq_ok]
  exact ⟨fun ⟨_, passed, answered⟩ => ⟨passed, answered⟩, fun both => ⟨(), both⟩⟩

@[simp] theorem throw_ne_ok (fault : ε) (a : α) : (throw fault : Except ε α) = .ok a ↔ False :=
  ⟨nofun, nofun⟩

@[simp] theorem throw_bind_ne_ok (fault : ε) (next : α → Except ε β) (value : β) :
    (throw fault : Except ε α) >>= next = .ok value ↔ False :=
  ⟨nofun, nofun⟩

@[simp] theorem pure_eq_ok (a b : α) : (pure a : Except ε α) = .ok b ↔ a = b :=
  ⟨fun same => Except.ok.inj same, fun same => same ▸ rfl⟩

end Answers

/-! ## Places -/

theorem entryAt_nil (tree : FileTree) : tree.entryAt [] = some .directory := rfl

/-- Whatever there is stands in a directory. -/
theorem entryAt_parent {entry : FileEntry} (held : tree.entryAt (name :: place) = some entry) :
    tree.entryAt place = some .directory := by
  simp only [entryAt, nodeAt_cons, Option.map_eq_some_iff, Option.bind_eq_some_iff] at held ⊢
  obtain ⟨node, ⟨around, found, within⟩, _⟩ := held
  refine ⟨around, found, ?_⟩
  cases around with
  | directory items => rfl
  | file content executable => simp [FileNode.item?, FileNode.items, Keyed.get?] at within
  | sink => simp [FileNode.item?, FileNode.items, Keyed.get?] at within

theorem checkDirectory_eq_ok :
    tree.checkDirectory place = .ok () ↔ tree.entryAt place = some .directory := by
  simp only [checkDirectory, entryAt]
  cases held : tree.nodeAt place with
  | none => simp [itemsOf, Except.map]
  | some node => cases node <;> simp [itemsOf, Except.map, FileNode.entry]

/-! ## Going through names -/

theorem enter_eq_ok : tree.enter place name = .ok last ↔
    tree.entryAt place = some .directory ∧ checkName name = .ok () ∧ last = move place name := by
  rw [enter, check_eq_ok, check_eq_ok, pure_eq_ok, checkDirectory_eq_ok, eq_comm (a := last)]

theorem follow_cons_eq_ok : tree.follow place (name :: names) = .ok last ↔
    ∃ next, tree.enter place name = .ok next ∧ tree.follow next names = .ok last := by
  rw [follow_cons]
  exact bind_eq_ok

theorem follow_append_eq_ok {front behind : List Text} :
    tree.follow place (front ++ behind) = .ok last ↔
      ∃ next, tree.follow place front = .ok next ∧ tree.follow next behind = .ok last := by
  induction front generalizing place with
  | nil => simp [follow_nil]
  | cons name front ih =>
      rw [List.cons_append, follow_cons_eq_ok]
      simp only [ih, follow_cons_eq_ok]
      constructor
      · rintro ⟨next, entered, middle, first, second⟩
        exact ⟨middle, ⟨next, entered, first⟩, second⟩
      · rintro ⟨middle, ⟨next, entered, first⟩, second⟩
        exact ⟨next, entered, middle, first, second⟩

theorem follow_concat_eq_ok : tree.follow place (names ++ [name]) = .ok last ↔
    ∃ around, tree.follow place names = .ok around ∧ tree.entryAt around = some .directory ∧
      checkName name = .ok () ∧ last = move around name := by
  rw [follow_append_eq_ok]
  refine exists_congr fun around => and_congr_right fun _ => ?_
  rw [follow_cons_eq_ok]
  constructor
  · rintro ⟨next, entered, stayed⟩
    rw [follow_nil, Except.ok.injEq] at stayed
    exact enter_eq_ok.mp (stayed ▸ entered)
  · intro entered
    exact ⟨last, enter_eq_ok.mpr entered, follow_nil tree last⟩

/-- Names that say nothing stay in their directory. -/
theorem follow_idle (inside : tree.entryAt place = some .directory)
    (idle : ∀ name ∈ names, Path.isIdle name = true) : tree.follow place names = .ok place := by
  induction names with
  | nil => exact follow_nil tree place
  | cons name names ih =>
      rw [List.forall_mem_cons] at idle
      have entered : tree.enter place name = .ok place := by
        rw [enter_eq_ok, move, if_pos idle.1]
        refine ⟨inside, ?_, rfl⟩
        rcases Path.isIdle_iff.mp idle.1 with rfl | rfl <;> rfl
      exact follow_cons_eq_ok.mpr ⟨place, entered, ih idle.2⟩

/-- A way ends where its names say, whatever tree it goes through. -/
theorem eq_foldl_of_follow (followed : tree.follow place names = .ok last) :
    last = names.foldl move place := by
  induction names generalizing place with
  | nil =>
      rw [follow_nil] at followed
      exact (Except.ok.inj followed).symm
  | cons name names ih =>
      obtain ⟨next, entered, followed⟩ := follow_cons_eq_ok.mp followed
      obtain ⟨-, -, rfl⟩ := enter_eq_ok.mp entered
      exact ih followed

/-- A tree that has all directories of another one. -/
def KeepsDirectories (before after : FileTree) : Prop :=
  ∀ place, before.entryAt place = some .directory → after.entryAt place = some .directory

/-- **A way through directories stays a way as long as the directories stay.** -/
theorem KeepsDirectories.follow {before after : FileTree} (keeps : KeepsDirectories before after)
    (followed : before.follow place names = .ok last) : after.follow place names = .ok last := by
  induction names generalizing place with
  | nil => rwa [follow_nil] at followed ⊢
  | cons name names ih =>
      obtain ⟨next, entered, followed⟩ := follow_cons_eq_ok.mp followed
      obtain ⟨inside, short, moved⟩ := enter_eq_ok.mp entered
      exact follow_cons_eq_ok.mpr
        ⟨next, enter_eq_ok.mpr ⟨keeps place inside, short, moved⟩, ih followed⟩

/-! ## Finding -/

section Finding

variable {here : Location} {path : Path} {entry : FileEntry}

theorem locate_eq_ok : tree.locate here path = .ok place ↔
    checkPath path = .ok () ∧ tree.follow (origin here path) (Path.pieces path) = .ok place := by
  rw [locate, check_eq_ok]

theorem find_eq_ok : tree.find here path = .ok (place, entry) ↔
    tree.locate here path = .ok place ∧ tree.entryAt place = some entry := by
  rw [find, bind_eq_ok]
  constructor
  · rintro ⟨found, located, answered⟩
    split at answered
    · next other held =>
        obtain ⟨rfl, rfl⟩ := Prod.mk.inj ((pure_eq_ok _ _).mp answered)
        exact ⟨located, held⟩
    · simp at answered
  · rintro ⟨located, held⟩
    refine ⟨place, located, ?_⟩
    rw [held]
    rfl

/-- What is found is at the location that the path means. -/
theorem eq_target_of_find (found : tree.find here path = .ok (place, entry)) :
    place = target here path :=
  eq_foldl_of_follow (locate_eq_ok.mp (find_eq_ok.mp found).1).2

theorem holds_iff : tree.holds here path = true ↔
    ∃ place entry, tree.find here path = .ok (place, entry) := by
  rw [holds]
  cases tree.find here path with
  | error fault => simp [Except.toOption]
  | ok found => simp [Except.toOption, Prod.ext_iff]

theorem holdsDirectory_iff : tree.holdsDirectory here path = true ↔
    ∃ place, tree.find here path = .ok (place, .directory) := by
  rw [holdsDirectory]
  split
  · next place found => simp [found]
  · next other =>
      simp only [Bool.false_eq_true, false_iff, not_exists]
      exact other

theorem holdsFile_iff : tree.holdsFile here path = true ↔
    ∃ place content executable, tree.find here path = .ok (place, .file content executable) := by
  rw [holdsFile]
  split
  · next place content executable found => simp [found]
  · next other =>
      simp only [Bool.false_eq_true, false_iff, not_exists]
      exact other

/-- What is found at a place is what is there. -/
theorem find_of_locate (located : tree.locate here path = .ok place)
    (held : tree.entryAt place = some entry) : tree.find here path = .ok (place, entry) :=
  find_eq_ok.mpr ⟨located, held⟩

theorem KeepsDirectories.locate {before after : FileTree} (keeps : KeepsDirectories before after)
    (located : before.locate here path = .ok place) : after.locate here path = .ok place := by
  rw [locate_eq_ok] at located ⊢
  exact ⟨located.1, keeps.follow located.2⟩

/-- A name that leads to an entry, and not to another directory. -/
theorem move_of_not_isTurn (turn : isTurn name = false) : move place name = name :: place := by
  rw [isTurn, Bool.or_eq_false_iff, beq_eq_false_iff_ne] at turn
  simp [move, turn.1, turn.2]

/-- The name behind a turn means a directory, if there are only directories on the way. -/
theorem entryAt_move_of_isTurn (turn : isTurn name = true)
    (inside : tree.entryAt place = some .directory) :
    tree.entryAt (move place name) = some .directory := by
  rw [move]
  split
  · exact inside
  next notIdle =>
    rw [isTurn, Bool.or_eq_true] at turn
    have up : name = Path.above := beq_iff_eq.mp (turn.resolve_left (by simpa using notIdle))
    rw [if_pos up]
    cases place with
    | nil => exact entryAt_nil tree
    | cons first place => exact entryAt_parent inside

/-- The end of a path: the names before the last one lead to a directory, in which the last one is
the name of an entry. -/
structure LeadsInto (tree : FileTree) (here : Location) (path : Path) (around : Location)
    (name : Text) : Prop where
  leads : ∃ before, Path.pieces path = before ++ [name] ∧
    tree.follow (origin here path) before = .ok around
  inside : tree.entryAt around = some .directory
  noTurn : isTurn name = false

theorem LeadsInto.noIdle {around : Location} (into : LeadsInto tree here path around name) :
    Path.isIdle name = false :=
  (Bool.or_eq_false_iff.mp into.noTurn).1

theorem LeadsInto.notAbove {around : Location} (into : LeadsInto tree here path around name) :
    name ≠ Path.above :=
  beq_eq_false_iff_ne.mp (Bool.or_eq_false_iff.mp into.noTurn).2

theorem LeadsInto.locate {around : Location} (into : LeadsInto tree here path around name)
    (possible : checkPath path = .ok ()) (short : checkName name = .ok ()) :
    tree.locate here path = .ok (name :: around) := by
  obtain ⟨before, cut, followed⟩ := into.leads
  rw [locate_eq_ok, cut, follow_concat_eq_ok]
  exact ⟨possible, around, followed, into.inside, short, (move_of_not_isTurn into.noTurn).symm⟩

theorem KeepsDirectories.leadsInto {before after : FileTree} {around : Location}
    (keeps : KeepsDirectories before after) (into : LeadsInto before here path around name) :
    LeadsInto after here path around name := by
  obtain ⟨front, cut, followed⟩ := into.leads
  exact ⟨⟨front, cut, keeps.follow followed⟩, keeps _ into.inside, into.noTurn⟩

/-- A path cut before its last name. -/
theorem exists_pieces_concat (path : Path) : ∃ before name, Path.pieces path = before ++ [name] :=
  ⟨_, _, (List.dropLast_append_getLast (splitAt_ne_nil '/' path)).symm⟩

/-- **A path to something that is no directory ends with the name of an entry.** -/
theorem exists_of_find_leaf (found : tree.find here path = .ok (place, entry))
    (leaf : entry ≠ .directory) :
    ∃ around name, place = name :: around ∧ LeadsInto tree here path around name ∧
      checkPath path = .ok () ∧ checkName name = .ok () := by
  obtain ⟨located, held⟩ := find_eq_ok.mp found
  obtain ⟨possible, followed⟩ := locate_eq_ok.mp located
  obtain ⟨before, name, cut⟩ := exists_pieces_concat path
  rw [cut, follow_concat_eq_ok] at followed
  obtain ⟨around, way, inside, short, rfl⟩ := followed
  have noTurn : isTurn name = false := by
    rw [← Bool.not_eq_true]
    intro turn
    rw [entryAt_move_of_isTurn turn inside, Option.some.injEq] at held
    exact leaf held.symm
  exact ⟨around, name, move_of_not_isTurn noTurn, ⟨⟨before, cut, way⟩, inside, noTurn⟩, possible,
    short⟩

end Finding

end SlideDeck.FileTree
