import Mathlib.Logic.Function.Basic
import SlideDeck.Proofs.Theme.Saving

/-!
# A store of themes is a map

A store whose directory is empty at first, or can be made and is empty then, answers every call as
a map from names to themes does, in whatever order its directory is listed (`answers_as_map`). What
carries this over a run is that the directory holds the files of the themes that were saved and not
removed since, and nothing else (`Shelves`); before anything is saved it may be missing.
-/

set_option autoImplicit false

namespace SlideDeck.ThemeStore

open SlideDeck.Text SlideDeck.FileTree SlideDeck.Activity

/-! ## Calls -/

/-- A call of a store, with its answer. -/
inductive Event where
  | save (theme : Theme) (answer : Except Failure Path)
  | remove (name : Text) (answer : Except Failure Bool)
  | get (name : Text) (answer : Except Failure (Option Theme))
  | loadAll (answer : Except Failure (List Theme))

/-- A call at some host with the current directory. -/
inductive Step (store : ThemeStore) (here : Location) : Workspace → Event → Workspace → Prop
  | save {w v : Workspace} {theme : Theme} {answer : Except Failure Path} (host : Host) :
      host.here = here → store.save theme host w = (answer, v) →
        Step store here w (.save theme answer) v
  | remove {w v : Workspace} {name : Text} {answer : Except Failure Bool} (host : Host) :
      host.here = here → store.remove name host w = (answer, v) →
        Step store here w (.remove name answer) v
  | get {w v : Workspace} {name : Text} {answer : Except Failure (Option Theme)} (host : Host) :
      host.here = here → store.get name host w = (answer, v) →
        Step store here w (.get name answer) v
  | loadAll {w v : Workspace} {answer : Except Failure (List Theme)} (host : Host) :
      host.here = here → store.loadAll host w = (answer, v) →
        Step store here w (.loadAll answer) v

/-- Calls one after the other. -/
inductive Run (store : ThemeStore) (here : Location) (start : Workspace) :
    List Event → Workspace → Prop
  | none : Run store here start [] start
  | step {events : List Event} {event : Event} {w v : Workspace} :
      Run store here start events w → Step store here w event v →
        Run store here start (events ++ [event]) v

/-! ## The map -/

/-- The themes under their names. -/
abbrev Shelf := Text → Option Theme

/-- What a call that succeeds does to the map. -/
def Event.apply (shelf : Shelf) : Event → Shelf
  | .save theme (.ok _) => Function.update shelf theme.name (some theme)
  | .remove name (.ok _) => Function.update shelf name none
  | _ => shelf

/-- Under each name the theme that was last saved and not removed since. -/
def shelved (events : List Event) : Shelf := events.foldl Event.apply fun _ => none

/-- A theme that can be saved: its name can be that of a file, no field is blank, and the name and
the path of its file are not too long. -/
structure Storable (store : ThemeStore) (theme : Theme) : Prop where
  name : Theme.isName theme.name = true
  complete : theme.isComplete = true
  shortName : byteLength (fileName theme.name) ≤ longestName
  shortPath : byteLength (store.fileOf theme.name) ≤ longestPath

/-- The answer to a call is the one that the map gives. -/
def Event.Right (store : ThemeStore) (shelf : Shelf) : Event → Prop
  | .save theme answer =>
      (store.Storable theme → answer = .ok (store.fileOf theme.name)) ∧
        (¬ store.Storable theme → ∃ failure, answer = .error failure)
  | .remove name answer =>
      (Theme.isName name = true → answer = .ok (shelf name).isSome) ∧
        (Theme.isName name = false → ∃ failure, answer = .error failure)
  | .get name answer => answer = .ok (shelf name)
  | .loadAll answer => ∃ themes, answer = .ok themes ∧
      (themes.Pairwise fun a b => le a b = true ∧ a.name ≠ b.name) ∧
        ∀ theme, theme ∈ themes ↔ shelf theme.name = some theme

/-- The directory of a store may have been made, with those around it, if it was not there. -/
structure Prepared (store : ThemeStore) (here : Location) (before after : FileTree) : Prop where
  grows : Grows before after
  same : before.holdsDirectory here store.directory = true → after = before

/-- What a call may change: nothing but the one file, and whether the directory is there. -/
def Event.Touches (store : ThemeStore) (here : Location) (before after : FileTree) : Event → Prop
  | .save theme (.ok _) => ∃ made place, store.Prepared here before made ∧
      made.find here store.directory = .ok (place, .directory) ∧
        AgreeBut (fileName theme.name :: place) made after
  | .save theme (.error _) => store.Prepared here before after ∧
      (¬ (Theme.isName theme.name = true ∧ theme.isComplete = true) → after = before)
  | .remove name (.ok true) => ∃ place,
      before.find here store.directory = .ok (place, .directory) ∧
        AgreeBut (fileName name :: place) before after
  | _ => after = before

/-! ## What the directory holds -/

/-- The directory holds the files of the themes, and nothing else. -/
structure Shelves (store : ThemeStore) (here : Location) (tree : FileTree) (place : Location)
    (shelf : Shelf) : Prop where
  found : tree.find here store.directory = .ok (place, .directory)
  held : ∀ name theme, shelf name = some theme → theme.name = name ∧ store.Storable theme ∧
    ∃ executable, tree.entryAt (fileName name :: place) =
      some (.file (Utf8.encode theme.render) executable)
  only : ∀ file, tree.entryAt (file :: place) ≠ none →
    ∃ name theme, shelf name = some theme ∧ file = fileName name

section Shelves

variable {store : ThemeStore} {here : Location} {tree after : FileTree} {place : Location}
  {shelf : Shelf} {theme : Theme} {name : Text}

theorem Shelves.named (shelves : store.Shelves here tree place shelf) : store.directory ≠ [] := by
  intro empty
  have possible := (locate_eq_ok.mp (find_eq_ok.mp shelves.found).1).1
  rw [empty] at possible
  simp [checkPath] at possible

/-- Whether the file of a theme can be reached is a matter of its length. -/
theorem Shelves.reachable_iff (shelves : store.Shelves here tree place shelf)
    (ok : Theme.isName name = true) :
    checkPath (store.fileOf name) = .ok () ∧ checkName (fileName name) = .ok () ↔
      byteLength (store.fileOf name) ≤ longestPath ∧
        byteLength (fileName name) ≤ longestName := by
  have possible := (locate_eq_ok.mp (find_eq_ok.mp shelves.found).1).1
  exact and_congr (checkPath_child (isName_fileName ok) (noNul_fileName ok) possible)
    checkName_eq_ok

theorem Shelves.find_file (shelves : store.Shelves here tree place shelf)
    (shelved : shelf name = some theme) : ∃ executable,
      tree.find here (store.fileOf name) =
        .ok (fileName name :: place, .file (Utf8.encode theme.render) executable) := by
  obtain ⟨rfl, fits, executable, entry⟩ := shelves.held name theme shelved
  obtain ⟨possible, short⟩ := (shelves.reachable_iff fits.name).mpr ⟨fits.shortPath, fits.shortName⟩
  exact ⟨executable, (find_child (isName_fileName fits.name) shelves.found).mpr
    ⟨possible, short, rfl, entry⟩⟩

/-- What is under the name of a file belongs to the theme. -/
theorem Shelves.entryAt_eq_none_iff (shelves : store.Shelves here tree place shelf) :
    tree.entryAt (fileName name :: place) = none ↔ shelf name = none := by
  constructor
  · intro free
    cases shelved : shelf name with
    | none => rfl
    | some theme =>
        obtain ⟨-, -, executable, entry⟩ := shelves.held name theme shelved
        rw [entry] at free
        simp at free
  · intro unshelved
    by_contra there
    obtain ⟨other, theme, shelved, same⟩ := shelves.only _ there
    rw [fileName_inj same, shelved] at unshelved
    simp at unshelved

/-- The files of the directory hold the themes of the shelf. -/
theorem Shelves.holds_iff (shelves : store.Shelves here tree place shelf) {file : Text} :
    store.Holds tree here file theme ↔
      shelf theme.name = some theme ∧ file = fileName theme.name := by
  have read : ∀ name theme, shelf name = some theme →
      examine tree here (store.fileOf name) = .inl theme := by
    intro name theme shelved
    obtain ⟨executable, found⟩ := shelves.find_file shelved
    obtain ⟨-, fits, -⟩ := shelves.held name theme shelved
    exact examine_of_find fits.complete found
  constructor
  · rintro ⟨place', found, listed, -, carries⟩
    obtain ⟨rfl, -⟩ := Prod.mk.inj (Except.ok.inj (shelves.found.symm.trans found))
    obtain ⟨name, other, shelved, rfl⟩ := shelves.only file (mem_names_iff.mp listed)
    obtain rfl := Sum.inl.inj ((read name other shelved).symm.trans carries)
    obtain ⟨rfl, -⟩ := shelves.held name other shelved
    exact ⟨shelved, rfl⟩
  · rintro ⟨shelved, rfl⟩
    obtain ⟨-, fits, executable, entry⟩ := shelves.held _ theme shelved
    refine ⟨place, shelves.found, ?_, hasExtension_fileOf shelves.named fits.name,
      read _ theme shelved⟩
    rw [mem_names_iff, entry]
    simp

/-! ## Looking up -/

theorem Shelves.get {host : Host} {w : Workspace}
    (shelves : store.Shelves host.here w.files place shelf) (name : Text) :
    (store.get name host w).1 = .ok (shelf name) := by
  cases shelved : shelf name with
  | none =>
      refine get_none_iff.mpr ⟨fun _ => holdsDirectory_iff.mpr ⟨place, shelves.found⟩, ?_⟩
      rintro file carried held rfl
      rw [(shelves.holds_iff.mp held).1] at shelved
      simp at shelved
  | some theme =>
      obtain ⟨rfl, -⟩ := shelves.held name theme shelved
      refine (get_some_iff (shelves.holds_iff.mpr ⟨shelved, rfl⟩)).mpr ?_ host rfl
      intro file carried held same
      have own := (shelves.holds_iff.mp held).1
      rw [same, shelved] at own
      exact (Option.some.inj own).symm

/-- Files with different names hold themes with different names. -/
theorem Shelves.distinct (shelves : store.Shelves here tree place shelf) {names : List Text}
    (once : names.Nodup) (within : ∀ name ∈ names, name ∈ tree.names place) :
    (store.themesOf tree here names).Pairwise fun a b => a.name ≠ b.name := by
  rw [themesOf, filesOf, List.pairwise_filterMap, List.pairwise_filter, List.pairwise_map]
  refine once.imp_of_mem ?_
  intro file other member member' differ listed listed' a read b read' same
  rw [Sum.getLeft?_eq_some_iff] at read read'
  have first := shelves.holds_iff.mp ⟨place, shelves.found, within file member, listed, read⟩
  have second := shelves.holds_iff.mp ⟨place, shelves.found, within other member', listed', read'⟩
  exact differ (by rw [first.2, second.2, same])

theorem Shelves.loadAll {host : Host} {w : Workspace}
    (shelves : store.Shelves host.here w.files place shelf) :
    ∃ themes, (store.loadAll host w).1 = .ok themes ∧
      (themes.Pairwise fun a b => le a b = true ∧ a.name ≠ b.name) ∧
        ∀ theme, theme ∈ themes ↔ shelf theme.name = some theme := by
  obtain ⟨notices, loaded⟩ := loadAll_of_find host shelves.found
  let names := host.listing.order (w.files.names place)
  have sorted := List.mergeSort_perm (store.themesOf w.files host.here names) le
  refine ⟨_, by rw [loaded], ?_, ?_⟩
  · refine List.Pairwise.and (List.pairwise_mergeSort le_trans le_total _) ?_
    refine (sorted.pairwise_iff fun differ => Ne.symm differ).mpr (shelves.distinct ?_ ?_)
    · exact (host.listing.perm _).nodup_iff.mpr (nodup_names _ _)
    · exact fun name member => mem_order.mp member
  · intro theme
    rw [sorted.mem_iff, mem_themesOf]
    constructor
    · rintro ⟨file, member, carries⟩
      exact (shelves.holds_iff.mp ⟨place, shelves.found, mem_order.mp member, carries⟩).1
    · intro shelved
      obtain ⟨place', found, listed, carries⟩ := shelves.holds_iff.mpr ⟨shelved, rfl⟩
      obtain ⟨rfl, -⟩ := Prod.mk.inj (Except.ok.inj (shelves.found.symm.trans found))
      exact ⟨_, mem_order.mpr listed, carries⟩

/-! ## Writing and removing one file -/

/-- Where the directory is there, a theme that is not too long is written. -/
theorem Shelves.write (shelves : store.Shelves here tree place shelf)
    (fits : store.Storable theme) : ∃ after,
      tree.write here (store.fileOf theme.name) (Utf8.encode theme.render) = .ok after ∧
        AgreeBut (fileName theme.name :: place) tree after ∧
        store.Shelves here after place (Function.update shelf theme.name (some theme)) := by
  obtain ⟨possible, short⟩ := (shelves.reachable_iff fits.name).mpr ⟨fits.shortPath, fits.shortName⟩
  have room : HasRoom tree here (store.fileOf theme.name) (fileName theme.name :: place) := by
    refine ⟨(locateFile_child (isName_fileName fits.name) shelves.found).mpr
      ⟨possible, short, rfl⟩, ?_⟩
    cases shelved : shelf theme.name with
    | none => exact Or.inl (shelves.entryAt_eq_none_iff.mpr shelved)
    | some other =>
        obtain ⟨-, -, executable, entry⟩ := shelves.held _ other shelved
        exact Or.inr ⟨_, executable, entry⟩
  obtain ⟨after, executable, written, found, agree⟩ := room.write (Utf8.encode theme.render)
  have keeps := agree.keepsDirectories room.not_directory
  obtain ⟨located, inside⟩ := find_eq_ok.mp shelves.found
  refine ⟨after, written, agree, find_of_locate (keeps.locate located) (keeps place inside), ?_, ?_⟩
  · intro name other shelved
    by_cases own : name = theme.name
    · subst own
      rw [Function.update_self, Option.some.injEq] at shelved
      subst shelved
      exact ⟨rfl, fits, executable, (find_eq_ok.mp found).2⟩
    · rw [Function.update_of_ne own] at shelved
      obtain ⟨same, fits', executable', entry⟩ := shelves.held name other shelved
      refine ⟨same, fits', executable', ?_⟩
      rw [agree _ fun clash => own (fileName_inj (List.cons.inj clash).1), entry]
  · intro file there
    by_cases own : file = fileName theme.name
    · exact ⟨theme.name, theme, Function.update_self .., own⟩
    · rw [agree _ fun clash => own (List.cons.inj clash).1] at there
      obtain ⟨name, other, shelved, rfl⟩ := shelves.only file there
      refine ⟨name, other, ?_, rfl⟩
      rw [Function.update_of_ne fun clash => own (by rw [clash]), shelved]

/-- A theme that is too long cannot be written. -/
theorem Shelves.write_of_long (shelves : store.Shelves here tree place shelf)
    (ok : Theme.isName theme.name = true) (complete : theme.isComplete = true)
    (long : ¬ store.Storable theme) : ∃ fault,
      tree.write here (store.fileOf theme.name) (Utf8.encode theme.render) = .error fault := by
  cases located : tree.locateFile here (store.fileOf theme.name) with
  | error fault => exact ⟨fault, by rw [FileTree.write, located]; rfl⟩
  | ok file =>
      obtain ⟨possible, short, -⟩ :=
        (locateFile_child (isName_fileName ok) shelves.found).mp located
      obtain ⟨shortPath, shortName⟩ := (shelves.reachable_iff ok).mp ⟨possible, short⟩
      exact absurd ⟨ok, complete, shortName, shortPath⟩ long

/-- Nothing is found at the file of a theme that was not saved. -/
theorem Shelves.missing (shelves : store.Shelves here tree place shelf)
    (ok : Theme.isName name = true) (unshelved : shelf name = none) :
    tree.holds here (store.fileOf name) = false := by
  rw [← Bool.not_eq_true, FileTree.holds_iff]
  rintro ⟨other, entry, found⟩
  obtain ⟨-, -, -, held⟩ := (find_child (isName_fileName ok) shelves.found).mp found
  rw [shelves.entryAt_eq_none_iff.mpr unshelved] at held
  simp at held

/-- The file of a theme that was saved can be removed. -/
theorem Shelves.removeFile (shelves : store.Shelves here tree place shelf)
    (shelved : shelf name = some theme) : ∃ after,
      tree.removeFile here (store.fileOf name) = .ok after ∧
        AgreeBut (fileName name :: place) tree after ∧
        store.Shelves here after place (Function.update shelf name none) := by
  obtain ⟨executable, found⟩ := shelves.find_file shelved
  obtain ⟨after, removed⟩ := exists_removeFile found (by simp)
  obtain ⟨file, located, gone, leaf, agree⟩ := exists_of_removeFile removed
  obtain rfl := Except.ok.inj ((find_eq_ok.mp found).1.symm.trans located)
  have keeps := agree.keepsDirectories leaf
  obtain ⟨located', inside⟩ := find_eq_ok.mp shelves.found
  refine ⟨after, removed, agree, find_of_locate (keeps.locate located') (keeps place inside),
    ?_, ?_⟩
  · intro other kept shelved'
    have differ : other ≠ name := by
      rintro rfl
      rw [Function.update_self] at shelved'
      simp at shelved'
    rw [Function.update_of_ne differ] at shelved'
    obtain ⟨same, fits, executable', entry⟩ := shelves.held other kept shelved'
    refine ⟨same, fits, executable', ?_⟩
    rw [agree _ fun clash => differ (fileName_inj (List.cons.inj clash).1), entry]
  · intro file there
    have differ : file ≠ fileName name := by
      rintro rfl
      exact there gone
    rw [agree _ fun clash => differ (List.cons.inj clash).1] at there
    obtain ⟨other, kept, shelved', rfl⟩ := shelves.only file there
    refine ⟨other, kept, ?_, rfl⟩
    rw [Function.update_of_ne fun clash => differ (by rw [clash]), shelved']

end Shelves

/-! ## Runs -/

/-- The directory of a store is empty, or can be made and is empty then. -/
def Fresh (store : ThemeStore) (host : Host) (start : Workspace) : Prop :=
  ∃ made place, ensureDirectory store.directory host start = (.ok (), made) ∧
    made.files.find host.here store.directory = .ok (place, .directory) ∧
      made.files.names place = []

/-- Making sure of the directory succeeds, and this is the tree after it. -/
def Makes (store : ThemeStore) (here : Location) (before made : FileTree) : Prop :=
  ∀ (host : Host) (w : Workspace), host.here = here → w.files = before →
    ensureDirectory store.directory host w = (.ok (), { w with files := made })

/-- The directory holds the themes of the shelf, or it is still missing and the shelf is empty. -/
inductive Kept (store : ThemeStore) (here : Location) (tree : FileTree) (shelf : Shelf) : Prop
  | missing {made : FileTree} {place : Location} :
      tree.holds here store.directory = false → (∀ name, shelf name = none) →
        store.Makes here tree made → store.Shelves here made place shelf →
          Kept store here tree shelf
  | there {place : Location} : store.Shelves here tree place shelf → Kept store here tree shelf

/-- A call keeps the directory as the map says, answers as the map does and changes only what it
may. -/
structure Serves (store : ThemeStore) (shelf : Shelf) (here : Location)
    (before : FileTree) (event : Event) (after : FileTree) : Prop where
  kept : store.Kept here after (event.apply shelf)
  right : event.Right store shelf
  touches : event.Touches store here before after

section Kept

variable {store : ThemeStore} {host : Host} {w v : Workspace} {shelf : Shelf} {theme : Theme}
  {name : Text}

theorem Fresh.kept (fresh : store.Fresh host w) :
    store.Kept host.here w.files fun _ => none := by
  obtain ⟨made, place, done, found, bare⟩ := fresh
  have empty : store.Shelves host.here made.files place fun _ => none := by
    refine ⟨found, nofun, fun file there => ?_⟩
    rw [← mem_names_iff, bare] at there
    exact absurd there List.not_mem_nil
  cases directory : w.files.holdsDirectory host.here store.directory with
  | true =>
      rw [ensureDirectory_of_holdsDirectory directory] at done
      obtain ⟨-, rfl⟩ := Prod.mk.inj done
      exact .there empty
  | false =>
      have makes : store.Makes host.here w.files made.files := by
        intro other u here files
        rw [(onFiles_ensureDirectory store.directory).same here files, done]
      refine .missing ?_ (fun _ => rfl) makes empty
      -- What is there and no directory would have been refused.
      cases there : w.files.holds host.here store.directory with
      | false => rfl
      | true =>
          rw [ensureDirectory_of_not_directory there directory] at done
          exact absurd (congrArg Prod.fst done) nofun

/-- In either case the directory can be made sure of, which changes nothing else. -/
theorem Kept.prepared {here : Location} {tree : FileTree} (kept : store.Kept here tree shelf) :
    ∃ made place, store.Makes here tree made ∧ store.Shelves here made place shelf ∧
      store.Prepared here tree made := by
  cases kept with
  | missing absent _ makes shelves =>
      refine ⟨_, _, makes, shelves, ?_, ?_⟩
      · have grows := onlyGrows_ensureDirectory store.directory { bareHost with here }
          { files := tree }
        rw [makes { bareHost with here } { files := tree } rfl rfl] at grows
        exact grows
      · intro directory
        obtain ⟨place, found⟩ := holdsDirectory_iff.mp directory
        rw [FileTree.holds_iff.mpr ⟨place, _, found⟩] at absent
        simp at absent
  | there shelves =>
      refine ⟨tree, _, ?_, shelves, Grows.refl tree, fun _ => rfl⟩
      rintro host w rfl rfl
      exact ensureDirectory_of_holdsDirectory (holdsDirectory_iff.mpr ⟨_, shelves.found⟩)

theorem Kept.save {answer : Except Failure Path} (kept : store.Kept host.here w.files shelf)
    (done : store.save theme host w = (answer, v)) :
    store.Serves shelf host.here w.files (.save theme answer) v.files := by
  by_cases valid : Theme.isName theme.name = true ∧ theme.isComplete = true
  · obtain ⟨made, place, makes, shelves, prepared⟩ := kept.prepared
    rw [save_eq valid.1 valid.2, bind_of_ok (makes host w rfl rfl)] at done
    by_cases fits : store.Storable theme
    · obtain ⟨after, written, agree, later⟩ := shelves.write fits
      have wrote : writeText .unreadable (store.fileOf theme.name) theme.render host
          { w with files := made } = (.ok (), { w with files := after }) := writeText_of_ok written
      rw [bind_of_ok wrote, pure_apply] at done
      obtain ⟨rfl, rfl⟩ := Prod.mk.inj done
      exact ⟨.there later, ⟨fun _ => rfl, fun long => absurd fits long⟩,
        made, place, prepared, shelves.found, agree⟩
    · obtain ⟨fault, refused⟩ := shelves.write_of_long valid.1 valid.2 fits
      have failed : writeText .unreadable (store.fileOf theme.name) theme.render host
          { w with files := made } = (.error (.unreadable fault), { w with files := made }) :=
        writeText_of_error refused
      rw [bind_of_error failed] at done
      obtain ⟨rfl, rfl⟩ := Prod.mk.inj done
      exact ⟨.there shelves, ⟨fun fits' => absurd fits' fits, fun _ => ⟨_, rfl⟩⟩,
        prepared, fun invalid => absurd valid invalid⟩
  · obtain ⟨failure, refused⟩ := save_of_refused store host w valid
    rw [refused] at done
    obtain ⟨rfl, rfl⟩ := Prod.mk.inj done
    exact ⟨kept, ⟨fun fits => absurd ⟨fits.name, fits.complete⟩ valid, fun _ => ⟨_, rfl⟩⟩,
      ⟨Grows.refl _, fun _ => rfl⟩, fun _ => rfl⟩

/-- A name without a theme is removed without effect. -/
theorem Kept.remove_of_missing (kept : store.Kept host.here w.files shelf)
    (ok : Theme.isName name = true)
    (missing : w.files.holds host.here (store.fileOf name) = false) (unshelved : shelf name = none)
    {answer : Except Failure Bool} (done : store.remove name host w = (answer, v)) :
    store.Serves shelf host.here w.files (.remove name answer) v.files := by
  rw [ThemeStore.remove_of_missing ok missing] at done
  obtain ⟨rfl, rfl⟩ := Prod.mk.inj done
  have same : Function.update shelf name none = shelf := by
    rw [← unshelved, Function.update_eq_self]
  refine ⟨?_, ⟨fun _ => by rw [unshelved]; rfl, fun refused => ?_⟩, rfl⟩
  · change store.Kept host.here w.files (Function.update shelf name none)
    rw [same]
    exact kept
  · rw [ok] at refused
    simp at refused

theorem Kept.remove {answer : Except Failure Bool} (kept : store.Kept host.here w.files shelf)
    (done : store.remove name host w = (answer, v)) :
    store.Serves shelf host.here w.files (.remove name answer) v.files := by
  by_cases ok : Theme.isName name = true
  · cases kept with
    | missing absent empty makes shelves =>
        have missing : w.files.holds host.here (store.fileOf name) = false := by
          rw [← Bool.not_eq_true, FileTree.holds_iff]
          rintro ⟨place, entry, found⟩
          obtain ⟨around, directory⟩ :=
            exists_of_find_child shelves.named (isName_fileName ok) found
          rw [FileTree.holds_iff.mpr ⟨around, _, directory⟩] at absent
          simp at absent
        exact Kept.remove_of_missing (.missing absent empty makes shelves) ok missing (empty name)
          done
    | there shelves =>
        cases shelved : shelf name with
        | none =>
            exact Kept.remove_of_missing (.there shelves) ok (shelves.missing ok shelved) shelved
              done
        | some theme =>
            obtain ⟨executable, found⟩ := shelves.find_file shelved
            obtain ⟨after, removed, agree, later⟩ := shelves.removeFile shelved
            rw [remove_of_removeFile ok (FileTree.holds_iff.mpr ⟨_, _, found⟩) removed] at done
            obtain ⟨rfl, rfl⟩ := Prod.mk.inj done
            refine ⟨.there later, ⟨fun _ => by rw [shelved]; rfl, fun refused => ?_⟩,
              _, shelves.found, agree⟩
            rw [ok] at refused
            simp at refused
  · have invalid : Theme.isName name = false := by simpa using ok
    obtain ⟨failure, refused⟩ := remove_of_refused store host w invalid
    rw [refused] at done
    obtain ⟨rfl, rfl⟩ := Prod.mk.inj done
    exact ⟨kept, ⟨fun valid => absurd valid ok, fun _ => ⟨_, rfl⟩⟩, rfl⟩

theorem Kept.get {answer : Except Failure (Option Theme)}
    (kept : store.Kept host.here w.files shelf) (done : store.get name host w = (answer, v)) :
    v.files = w.files ∧ answer = .ok (shelf name) := by
  cases kept with
  | missing absent empty _ _ =>
      rw [get_of_missing name absent] at done
      obtain ⟨rfl, rfl⟩ := Prod.mk.inj done
      exact ⟨rfl, by rw [empty name]⟩
  | there shelves =>
      have answered := shelves.get name
      obtain ⟨notices, all⟩ := get_of_find host name shelves.found
      rw [done] at answered
      rw [all] at done
      obtain ⟨-, rfl⟩ := Prod.mk.inj done
      exact ⟨rfl, answered⟩

theorem Kept.loadAll {answer : Except Failure (List Theme)}
    (kept : store.Kept host.here w.files shelf) (done : store.loadAll host w = (answer, v)) :
    v.files = w.files ∧ (Event.loadAll answer).Right store shelf := by
  cases kept with
  | missing absent empty _ _ =>
      rw [loadAll_of_missing absent] at done
      obtain ⟨rfl, rfl⟩ := Prod.mk.inj done
      exact ⟨rfl, [], rfl, List.Pairwise.nil, fun theme => by simp [empty theme.name]⟩
  | there shelves =>
      have answered := shelves.loadAll
      obtain ⟨notices, all⟩ := loadAll_of_find host shelves.found
      rw [done] at answered
      rw [all] at done
      obtain ⟨-, rfl⟩ := Prod.mk.inj done
      exact ⟨rfl, answered⟩

/-- Every call does so where the directory holds the themes of the map. -/
theorem Kept.step {here : Location} {event : Event} (kept : store.Kept here w.files shelf)
    (step : store.Step here w event v) : store.Serves shelf here w.files event v.files := by
  cases step with
  | save host same done =>
      subst same
      exact kept.save done
  | remove host same done =>
      subst same
      exact kept.remove done
  | get host same done =>
      subst same
      obtain ⟨unchanged, right⟩ := kept.get done
      exact ⟨unchanged ▸ kept, right, unchanged⟩
  | loadAll host same done =>
      subst same
      obtain ⟨unchanged, right⟩ := kept.loadAll done
      exact ⟨unchanged ▸ kept, right, unchanged⟩

theorem Run.kept {events : List Event} (fresh : store.Fresh host w)
    (run : store.Run host.here w events v) :
    store.Kept host.here v.files (shelved events) := by
  induction run with
  | none => exact fresh.kept
  | step run step ih =>
      rw [shelved, List.foldl_append]
      exact (ih.step step).kept

/-- **Over every run a store answers as a map from names to themes does**, and each call changes
only the file for its name, once the directory is there. -/
theorem answers_as_map {start : Workspace} {events : List Event} {event : Event}
    (fresh : store.Fresh host start) (run : store.Run host.here start events w)
    (step : store.Step host.here w event v) :
    event.Right store (shelved events) ∧ event.Touches store host.here w.files v.files :=
  have served := (run.kept fresh).step step
  ⟨served.right, served.touches⟩

end Kept

/-- A theme that is saved in an empty workspace is got. -/
theorem answers_as_map_empty : ∃ w v : Workspace,
    storeBelow.Fresh bareHost { files := .empty } ∧
      storeBelow.Run [] { files := .empty }
        [.save (themeX "Madrid") (.ok "themes/x.toml".toList)] w ∧
      storeBelow.Step [] w (.get "x".toList (.ok (some (themeX "Madrid")))) v ∧
      v.files = w.files := by
  let start : Workspace := { files := .empty }
  let w := (storeBelow.save (themeX "Madrid") bareHost start).2
  let v := (storeBelow.get "x".toList bareHost w).2
  have fresh : storeBelow.Fresh bareHost start :=
    ⟨(ensureDirectory storeBelow.directory bareHost start).2, ["themes".toList],
      Prod.ext rfl rfl, rfl, by decide⟩
  have run : storeBelow.Run [] start
      [.save (themeX "Madrid") (.ok "themes/x.toml".toList)] w :=
    .step .none (.save bareHost rfl (Prod.ext rfl rfl))
  obtain ⟨right, same⟩ := answers_as_map fresh run (.get bareHost rfl (Prod.ext rfl rfl) :
    storeBelow.Step [] w (.get "x".toList (storeBelow.get "x".toList bareHost w).1) v)
  exact ⟨w, v, fresh, run, .get bareHost rfl (Prod.ext right rfl), same⟩

/-- A name of letters may be too long for a file, and a directory that is missing may be one that
cannot be made: then saving fails, and in the first case it has made the directory. -/
theorem save_fails_for_long_name :
    (Theme.isName (List.replicate 251 'a') = true ∧
      FileTree.empty.holds [] storeBelow.directory = false ∧
      ∃ failure v, storeBelow.save { themeX "Madrid" with name := List.replicate 251 'a' }
          bareHost { files := .empty } = (.error failure, v) ∧
        v.files.holdsDirectory [] storeBelow.directory = true) ∧
    (FileTree.empty.insert ["file".toList] (.file [] false)).holds [] "file/themes".toList = false ∧
      ∃ v : Workspace, (⟨"file/themes".toList⟩ : ThemeStore).save (themeX "Madrid") bareHost
          { files := FileTree.empty.insert ["file".toList] (.file [] false) } =
        (.error (.unreadable .notDirectory), v) := by
  refine ⟨⟨by decide +kernel, rfl, ?_⟩, rfl, _, Prod.ext rfl rfl⟩
  let start : Workspace := { files := .empty }
  let theme : Theme := { themeX "Madrid" with name := List.replicate 251 'a' }
  let made := (ensureDirectory storeBelow.directory bareHost start).2
  have ensured : ensureDirectory storeBelow.directory bareHost start = (.ok (), made) :=
    Prod.ext rfl rfl
  have ok : Theme.isName theme.name = true := by decide +kernel
  have complete : theme.isComplete = true := by decide +kernel
  have long : ¬ byteLength (fileName theme.name) ≤ longestName := by decide +kernel
  have fresh : storeBelow.Fresh bareHost made :=
    ⟨made, ["themes".toList], ensureDirectory_of_holdsDirectory rfl, rfl, by decide⟩
  obtain ⟨files, place, makes, shelves, prepared⟩ := fresh.kept.prepared
  obtain rfl := prepared.same rfl
  obtain ⟨fault, refused⟩ := shelves.write_of_long ok complete fun fits => long fits.shortName
  refine ⟨.unreadable fault, made, ?_, rfl⟩
  rw [save_eq ok complete, bind_of_ok ensured]
  exact bind_of_error (writeText_of_error refused)

end SlideDeck.ThemeStore
