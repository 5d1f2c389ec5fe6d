import SlideDeck.Proofs.Files.Change
import SlideDeck.Proofs.Workspace.Activity

/-!
# Making sure of a directory

Making a directory with those around it only adds directories, also if it fails on the way
(`onlyGrows_makeDirectories`, by recursion on the directories around it). If it succeeds the
directory is there (`holdsDirectory_of_ensureDirectory`), and where it is there already nothing
happens (`ensureDirectory_of_holdsDirectory`).

Writing a file makes sure of its directory first, and whether both succeed is a matter of the files
alone (`writesTo_or_refuses`). Where there is room for the file (`Writable`) a text is written
(`Writable.writesTo`), and what was written is read (`WritesTo.readText`).
-/

set_option autoImplicit false

namespace SlideDeck.Activity

open FileTree

variable {host : Host} {w v : Workspace} {path : Path}

/-- An activity that only adds directories. -/
abbrev OnlyGrows {α : Type} (a : Activity α) : Prop :=
  Within (fun w v => Grows w.files v.files) a

theorem OnlyGrows.andThen {α β : Type} {a : Activity α} {f : α → Activity β}
    (first : OnlyGrows a) (later : ∀ x, OnlyGrows (f x)) : OnlyGrows (a >>= f) :=
  Within.bind (fun earlier later => earlier.trans later) first later

theorem onlyGrows_pure {α : Type} (x : α) : OnlyGrows (pure x : Activity α) :=
  fun _ w => Grows.refl w.files

theorem onlyGrows_throw {α : Type} (failure : Failure) : OnlyGrows (throw failure : Activity α) :=
  fun _ w => Grows.refl w.files

theorem onlyGrows_look {α : Type} (operation : FileTree → Location → α) :
    OnlyGrows (look operation) :=
  fun _ w => Grows.refl w.files

/-! ## One directory -/

theorem onlyGrows_makeDirectory (path : Path) :
    OnlyGrows (change fun tree here => tree.makeDirectory here path) := by
  intro host w
  cases answer : w.files.makeDirectory host.here path with
  | error fault =>
      rw [change_of_error answer]
      exact Grows.refl w.files
  | ok files =>
      rw [change_of_ok answer]
      exact (exists_of_makeDirectory answer).1

theorem onlyGrows_unlessThere (path : Path) (fault : SystemFault) :
    OnlyGrows (makeDirectories.unlessThere path fault) := by
  refine OnlyGrows.andThen (onlyGrows_look _) fun there => ?_
  cases there with
  | true => exact onlyGrows_pure ()
  | false => exact onlyGrows_throw _

theorem onFiles_unlessThere (path : Path) (fault : SystemFault) :
    OnFiles (makeDirectories.unlessThere path fault) := by
  refine OnFiles.bind (OnFiles.look _) fun there => ?_
  cases there with
  | true => exact OnFiles.pure ()
  | false => exact OnFiles.throw _

/-- A fault is passed over only if the directory is there. -/
theorem holdsDirectory_of_unlessThere {fault : SystemFault}
    (done : makeDirectories.unlessThere path fault host w = (.ok (), v)) :
    v.files.holdsDirectory host.here path = true := by
  rw [makeDirectories.unlessThere, bind_of_ok (look_apply _)] at done
  cases there : w.files.holdsDirectory host.here path with
  | false =>
      rw [there] at done
      exact absurd (congrArg Prod.fst done) nofun
  | true =>
      rw [there] at done
      obtain rfl := congrArg Prod.snd done
      exact there

/-- What is done about the answer to making a directory, when the directories around it have been
made. -/
theorem holdsDirectory_of_answer
    (done : (do
      match ← change fun tree here => tree.makeDirectory here path with
      | .ok () => return
      | .error fault => makeDirectories.unlessThere path fault : Activity Unit) host w =
        (.ok (), v)) :
    v.files.holdsDirectory host.here path = true := by
  cases answer : w.files.makeDirectory host.here path with
  | error fault =>
      rw [bind_of_ok (change_of_error answer)] at done
      exact holdsDirectory_of_unlessThere done
  | ok files =>
      rw [bind_of_ok (change_of_ok answer)] at done
      obtain rfl := congrArg Prod.snd done
      exact holdsDirectory_iff.mpr (exists_of_makeDirectory answer).2

/-! ## A directory and those around it -/

theorem onlyGrows_makeDirectories (paths : List Path) : OnlyGrows (makeDirectories paths) := by
  induction paths with
  | nil => exact onlyGrows_pure ()
  | cons path above ih =>
      rw [makeDirectories]
      split
      · exact onlyGrows_pure ()
      · refine OnlyGrows.andThen (onlyGrows_makeDirectory path) fun answer => ?_
        split
        · exact onlyGrows_pure ()
        · refine OnlyGrows.andThen ih fun _ =>
            OnlyGrows.andThen (onlyGrows_makeDirectory path) fun answer => ?_
          split
          · exact onlyGrows_pure ()
          · exact onlyGrows_unlessThere path _
        · exact onlyGrows_unlessThere path _

theorem onFiles_makeDirectories (paths : List Path) : OnFiles (makeDirectories paths) := by
  induction paths with
  | nil => exact OnFiles.pure ()
  | cons path above ih =>
      rw [makeDirectories]
      split
      · exact OnFiles.pure ()
      · refine OnFiles.bind (OnFiles.change _) fun answer => ?_
        split
        · exact OnFiles.pure ()
        · refine OnFiles.bind ih fun _ => OnFiles.bind (OnFiles.change _) fun answer => ?_
          split
          · exact OnFiles.pure ()
          · exact onFiles_unlessThere path _
        · exact onFiles_unlessThere path _

/-- If making directories succeeds, the first of them is there. -/
theorem holdsDirectory_of_makeDirectories {above : List Path} (nonempty : path ≠ [])
    (done : makeDirectories (path :: above) host w = (.ok (), v)) :
    v.files.holdsDirectory host.here path = true := by
  rw [makeDirectories, if_neg (by simpa using nonempty)] at done
  cases answer : w.files.makeDirectory host.here path with
  | ok files =>
      rw [bind_of_ok (change_of_ok answer)] at done
      obtain rfl := congrArg Prod.snd done
      exact holdsDirectory_iff.mpr (exists_of_makeDirectory answer).2
  | error fault =>
      rw [bind_of_ok (change_of_error answer)] at done
      cases fault with
      | notFound =>
          obtain ⟨_, u, -, done⟩ := exists_of_bind_eq_ok done
          exact holdsDirectory_of_answer done
      | _ => exact holdsDirectory_of_unlessThere done

/-! ## Making sure -/

theorem onFiles_ensureDirectory (path : Path) : OnFiles (ensureDirectory path) := by
  rw [ensureDirectory]
  split
  · exact OnFiles.pure ()
  · refine OnFiles.bind (OnFiles.look _) fun there => ?_
    split
    · exact onFiles_makeDirectories _
    · refine OnFiles.bind (OnFiles.look _) fun directory => ?_
      split
      · exact OnFiles.throw _
      · exact OnFiles.pure ()

theorem onlyGrows_ensureDirectory (path : Path) : OnlyGrows (ensureDirectory path) := by
  rw [ensureDirectory]
  split
  · exact onlyGrows_pure ()
  · refine OnlyGrows.andThen (onlyGrows_look _) fun there => ?_
    split
    · exact onlyGrows_makeDirectories _
    · refine OnlyGrows.andThen (onlyGrows_look _) fun directory => ?_
      split
      · exact onlyGrows_throw _
      · exact onlyGrows_pure ()

/-- After making sure of a directory it is there. -/
theorem holdsDirectory_of_ensureDirectory (nonempty : path ≠ [])
    (done : ensureDirectory path host w = (.ok (), v)) :
    v.files.holdsDirectory host.here path = true := by
  rw [ensureDirectory, if_neg (by simpa using nonempty), bind_of_ok (look_apply _)] at done
  cases there : w.files.holds host.here path with
  | false =>
      rw [there] at done
      exact holdsDirectory_of_makeDirectories nonempty done
  | true =>
      rw [there] at done
      change (look _ >>= _) host w = _ at done
      rw [bind_of_ok (look_apply _)] at done
      cases directory : w.files.holdsDirectory host.here path with
      | false =>
          rw [directory] at done
          exact absurd (congrArg Prod.fst done) nofun
      | true =>
          rw [directory] at done
          obtain rfl := congrArg Prod.snd done
          exact directory

/-- A directory that is there is left as it is. -/
theorem ensureDirectory_of_holdsDirectory
    (there : w.files.holdsDirectory host.here path = true) :
    ensureDirectory path host w = (.ok (), w) := by
  rw [ensureDirectory]
  split
  · rfl
  · obtain ⟨place, found⟩ := holdsDirectory_iff.mp there
    rw [bind_of_ok (look_apply _), holds_iff.mpr ⟨place, _, found⟩]
    change (look _ >>= _) host w = _
    rw [bind_of_ok (look_apply _), there]
    rfl

/-- What is there and no directory is refused. -/
theorem ensureDirectory_of_not_directory
    (there : w.files.holds host.here path = true)
    (file : w.files.holdsDirectory host.here path = false) :
    ensureDirectory path host w = (.error (.invalid (.notDirectory path)), w) := by
  have nonempty : path ≠ [] := by
    rintro rfl
    obtain ⟨place, entry, found⟩ := holds_iff.mp there
    have possible := (locate_eq_ok.mp (find_eq_ok.mp found).1).1
    simp [checkPath] at possible
  rw [ensureDirectory, if_neg (by simpa using nonempty), bind_of_ok (look_apply _), there]
  change (look _ >>= _) host w = _
  rw [bind_of_ok (look_apply _), file]
  rfl

/-! ## A file and its directory -/

theorem onFiles_ensureParent (path : Path) : OnFiles (ensureParent path) := by
  rw [ensureParent]
  split
  · exact onFiles_ensureDirectory _
  · exact OnFiles.pure ()

theorem onlyGrows_ensureParent (path : Path) : OnlyGrows (ensureParent path) := by
  rw [ensureParent]
  split
  · exact onlyGrows_ensureDirectory _
  · exact onlyGrows_pure ()

/-- There is room for a file at a path, once its directory is made if it is missing. -/
def Writable (host : Host) (w : Workspace) (path : Path) : Prop :=
  ∃ made place, ensureParent path host w = (.ok (), made) ∧
    HasRoom made.files host.here path place

/-- Whether there is room is a matter of the files. -/
theorem Writable.of_files (writable : Writable host w path) (same : v.files = w.files) :
    Writable host v path := by
  obtain ⟨made, place, ensured, room⟩ := writable
  exact ⟨{ v with files := made.files }, place,
    by rw [(onFiles_ensureParent path).same rfl same, ensured], room⟩

/-- A text is written to a file, whose directory is made if it is missing. -/
structure WritesTo (host : Host) (before : FileTree) (path : Path) (text : Text)
    (made after : FileTree) : Prop where
  ensures : ∀ w : Workspace, w.files = before →
    ensureParent path host w = (.ok (), { w with files := made })
  writes : made.write host.here path (Text.Utf8.encode text) = .ok after

/-- A text cannot be written to a file, or the directory of the file cannot be made. -/
def Refuses (host : Host) (before : FileTree) (path : Path) (text : Text) : Prop :=
  (∃ failure made, ∀ w : Workspace, w.files = before →
      ensureParent path host w = (.error failure, { w with files := made })) ∨
    ∃ made fault, (∀ w : Workspace, w.files = before →
        ensureParent path host w = (.ok (), { w with files := made })) ∧
      made.write host.here path (Text.Utf8.encode text) = .error fault

variable {text : Text} {made after : FileTree}

theorem writesTo_or_refuses (host : Host) (before : FileTree) (path : Path) (text : Text) :
    (∃ made after, WritesTo host before path text made after) ∨ Refuses host before path text := by
  obtain ⟨answer, made, all⟩ : ∃ answer made, ∀ w : Workspace, w.files = before →
      ensureParent path host w = (answer, { w with files := made }) := by
    obtain ⟨step, same⟩ := onFiles_ensureParent path
    refine ⟨(step before host.here).1, (step before host.here).2, ?_⟩
    rintro w rfl
    exact same host w
  rcases answer with failure | ⟨⟩
  · exact Or.inr (Or.inl ⟨failure, made, all⟩)
  · cases written : made.write host.here path (Text.Utf8.encode text) with
    | error fault => exact Or.inr (Or.inr ⟨made, fault, all, written⟩)
    | ok after => exact Or.inl ⟨made, after, all, written⟩

/-- There was room for a file just if a file is there when the text has been written, and not the
sink. -/
theorem WritesTo.writable_iff (done : WritesTo host w.files path text made after) :
    Writable host w path ↔ after.holdsFile host.here path = true := by
  constructor
  · rintro ⟨u, place, ensured, room⟩
    obtain ⟨-, rfl⟩ := Prod.mk.inj ((done.ensures w rfl).symm.trans ensured)
    obtain ⟨other, executable, written, found, -⟩ := room.write (Text.Utf8.encode text)
    obtain rfl := Except.ok.inj (done.writes.symm.trans written)
    exact holdsFile_iff.mpr ⟨_, _, _, found⟩
  · intro file
    obtain ⟨place, ⟨sink, rfl⟩ | room⟩ := sink_or_hasRoom_of_write done.writes
    · obtain ⟨other, content, executable, found⟩ := holdsFile_iff.mp file
      rw [sink] at found
      simp at found
    · exact ⟨_, place, done.ensures w rfl, room⟩

/-- What was written is read. -/
theorem WritesTo.readText (done : WritesTo host w.files path text made after)
    (writable : Writable host w path) : after.readText host.here path = .ok text := by
  obtain ⟨u, place, ensured, room⟩ := writable
  obtain ⟨-, rfl⟩ := Prod.mk.inj ((done.ensures w rfl).symm.trans ensured)
  obtain ⟨other, executable, written, found, -⟩ := room.write (Text.Utf8.encode text)
  obtain rfl := Except.ok.inj (done.writes.symm.trans written)
  exact readText_of_find found

theorem Refuses.not_writable (refuses : Refuses host w.files path text) :
    ¬ Writable host w path := by
  rintro ⟨u, place, ensured, room⟩
  rcases refuses with ⟨failure, made, failed⟩ | ⟨made, fault, done, refused⟩
  · rw [failed w rfl] at ensured
    exact absurd (congrArg Prod.fst ensured) nofun
  · obtain ⟨-, rfl⟩ := Prod.mk.inj ((done w rfl).symm.trans ensured)
    obtain ⟨other, executable, written, -⟩ := room.write (Text.Utf8.encode text)
    rw [refused] at written
    simp at written

/-- Where there is room a text is written. -/
theorem Writable.writesTo (writable : Writable host w path) (text : Text) :
    ∃ made after, WritesTo host w.files path text made after := by
  rcases writesTo_or_refuses host w.files path text with done | refuses
  · exact done
  · exact absurd writable refuses.not_writable

end SlideDeck.Activity
