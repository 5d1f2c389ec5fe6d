import SlideDeck.Html.Export
import SlideDeck.Proofs.Files.Directory
import SlideDeck.Proofs.Files.Listing
import SlideDeck.Proofs.Path.Extension

/-!
# A file beside another

A text is saved beside a file, under its name with another extension. The directory of the file is
there, so nothing has to be made (`ensureParent_of_holdsFile`), and the file stays as it is unless
it had this extension before (`read_save_withExtension`): then the text takes its place.
-/

set_option autoImplicit false

namespace SlideDeck.FileTree

open SlideDeck.Text

variable {tree before after : FileTree} {here place other around : Location} {path : Path}
  {name extension : Text} {entry : FileEntry} {names : List Text}

/-! ## The directory of a file -/

/-- Names that say nothing lead nowhere else. -/
theorem eq_of_follow_idle (followed : tree.follow place names = .ok other)
    (idle : ∀ name ∈ names, Path.isIdle name = true) : other = place := by
  rw [eq_foldl_of_follow followed]
  refine List.foldlRecOn (motive := (· = place)) names move rfl fun next same name member => ?_
  rw [same, move, if_pos (idle name member)]

/-- **The path without its last name leads to the directory that holds the entry.** -/
theorem find_parent {directory : Path} (into : LeadsInto tree here path around name)
    (possible : checkPath path = .ok ()) (parent : Path.parent? path = some directory)
    (nonempty : directory ≠ []) : tree.find here directory = .ok (around, .directory) := by
  obtain ⟨front, cut, followed⟩ := into.leads
  obtain ⟨kept, idle, idle', rfl, pieces, silent, behind, rfl⟩ :=
    Path.exists_of_parent? cut into.noIdle parent nonempty
  rw [List.forall_mem_append] at silent
  obtain ⟨next, way, stayed⟩ := follow_append_eq_ok.mp followed
  obtain rfl := eq_of_follow_idle stayed silent.1
  rw [origin, Path.isAbsolute_append nonempty, ← origin] at way
  have possible' :=
    checkPath_of_sublist possible (List.sublist_append_left directory behind) nonempty
  refine find_of_locate (locate_eq_ok.mpr ⟨possible', ?_⟩) into.inside
  rw [pieces, follow_append_eq_ok]
  exact ⟨around, way, follow_idle into.inside silent.2⟩

/-! ## The name with another extension -/

theorem origin_withExtension (into : LeadsInto tree here path around name)
    (noSlash : '/' ∉ extension) :
    origin here (Path.withExtension extension path) = origin here path := by
  obtain ⟨front, cut, -⟩ := into.leads
  have cut' := Path.pieces_withExtension cut into.noIdle into.notAbove noSlash
  rw [origin, origin, Path.isAbsolute_of_pieces cut, Path.isAbsolute_of_pieces cut']

/-- With another extension a path leads into the same directory. -/
theorem eq_of_locateFile_withExtension (into : LeadsInto tree here path around name)
    (noSlash : '/' ∉ extension)
    (located : tree.locateFile here (Path.withExtension extension path) = .ok place) :
    place = Path.renamed extension name :: around := by
  obtain ⟨front, cut, followed⟩ := into.leads
  have cut' := Path.pieces_withExtension cut into.noIdle into.notAbove noSlash
  obtain ⟨-, other, last, rfl, ⟨⟨front', cut'', followed'⟩, -, -⟩, -⟩ :=
    locateFile_eq_ok.mp located
  obtain ⟨rfl, same⟩ := List.append_inj' (cut'.symm.trans cut'') rfl
  rw [origin_withExtension into noSlash, followed, Except.ok.injEq] at followed'
  rw [followed', (List.cons.inj same).1]

/-! ## What stays -/

theorem Grows.find (grows : Grows before after)
    (found : before.find here path = .ok (place, entry)) :
    after.find here path = .ok (place, entry) := by
  obtain ⟨located, held⟩ := find_eq_ok.mp found
  refine find_of_locate (grows.keepsDirectories.locate located) ?_
  rcases grows place with same | ⟨free, -⟩
  · rw [same, held]
  · simp [held] at free

/-- What is written to another place leaves an entry alone. -/
theorem find_of_write {target : Path} {content : List UInt8}
    (written : tree.write here target content = .ok after)
    (elsewhere : ∀ place', tree.locateFile here target = .ok place' → place' ≠ place)
    (found : tree.find here path = .ok (place, entry)) :
    after.find here path = .ok (place, entry) := by
  obtain ⟨other, ⟨-, rfl⟩ | room⟩ := sink_or_hasRoom_of_write written
  · exact found
  · obtain ⟨changed, executable, same, -, agree⟩ := room.write content
    obtain rfl := Except.ok.inj (written.symm.trans same)
    exact agree.find room.not_directory (elsewhere other room.located).symm found

theorem read_of_find {content : List UInt8} {executable : Bool}
    (found : tree.find here path = .ok (place, .file content executable)) :
    tree.read here path = .ok content := by
  rw [read, found]
  rfl

/-- Where a file is there is room for one. -/
theorem hasRoom_of_find {content : List UInt8} {executable : Bool}
    (found : tree.find here path = .ok (place, .file content executable)) :
    HasRoom tree here path place := by
  obtain ⟨around, name, rfl, into, possible, short⟩ := exists_of_find_leaf found nofun
  exact ⟨locateFile_eq_ok.mpr ⟨possible, around, name, rfl, into, short⟩,
    Or.inr ⟨content, executable, (find_eq_ok.mp found).2⟩⟩

end SlideDeck.FileTree

namespace SlideDeck.Page

open SlideDeck.Text SlideDeck.FileTree SlideDeck.Activity

variable {host : Host} {w : Workspace} {path : Path} {extension text : Text}

theorem ensureParent_of_holdsFile (there : w.files.holdsFile host.here path = true) :
    ensureParent path host w = (.ok (), w) := by
  obtain ⟨place, content, executable, found⟩ := holdsFile_iff.mp there
  obtain ⟨around, name, -, into, possible, -⟩ := exists_of_find_leaf found nofun
  rw [ensureParent]
  cases parent : Path.parent? path with
  | none => rfl
  | some directory =>
      by_cases bare : directory = []
      · subst bare
        rfl
      · exact ensureDirectory_of_holdsDirectory
          (holdsDirectory_iff.mpr ⟨around, find_parent into possible parent bare⟩)

theorem onFiles_save (page : Text) (file : Path) : OnFiles (save page file) :=
  (onFiles_ensureParent file).bind fun _ => OnFiles.writeText _ _ _

/-- A text that is saved to a file takes the place of its content. -/
theorem read_save (text : Text) (there : w.files.holdsFile host.here path = true) :
    (save text path host w).2.files.read host.here path = .ok (Utf8.encode text) := by
  obtain ⟨place, content, executable, found⟩ := holdsFile_iff.mp there
  obtain ⟨after, executable', written, found', -⟩ :=
    (hasRoom_of_find found).write (Utf8.encode text)
  rw [save, bind_of_ok (ensureParent_of_holdsFile there), writeText_of_ok written]
  exact read_of_find found'

/-- A text that is saved to another place leaves a file alone. -/
theorem read_save_of_elsewhere {target : Path} {place : Location} {entry : FileEntry}
    (text : Text) (found : w.files.find host.here path = .ok (place, entry))
    (elsewhere : ∀ made : FileTree, KeepsDirectories w.files made →
      ∀ place', made.locateFile host.here target = .ok place' → place' ≠ place) :
    (save text target host w).2.files.find host.here path = .ok (place, entry) := by
  have grows : Grows w.files (ensureParent target host w).2.files :=
    onlyGrows_ensureParent target host w
  have found' := grows.find found
  rw [save]
  rcases bind_cases (ensureParent target)
      (fun _ => writeText (.unwritable target) target text) host w with
    ⟨failure, -, whole⟩ | ⟨_, -, whole⟩
  · rw [whole]
    exact found'
  · rw [whole]
    cases written : (ensureParent target host w).2.files.write host.here target
        (Utf8.encode text) with
    | error fault =>
        rw [writeText_of_error written]
        exact found'
    | ok after =>
        rw [writeText_of_ok written]
        exact find_of_write written (elsewhere _ grows.keepsDirectories) found'

/-- **A text that is saved beside a file**, under its name with another extension, leaves the file
as it is, unless this is the extension of the file: then the text takes the place of what the file
held. (The name `..tex` has the stem `.`, from which no other name is made.) -/
theorem read_save_withExtension (text : Text) (noSlash : '/' ∉ extension)
    (there : w.files.holdsFile host.here path = true) :
    (save text (Path.withExtension extension path) host w).2.files.read host.here path =
      if Path.extension? path = some extension ∧ Path.stem? path ≠ some Path.here then
        .ok (Utf8.encode text)
      else w.files.read host.here path := by
  obtain ⟨place, content, executable, found⟩ := holdsFile_iff.mp there
  obtain ⟨around, name, rfl, into, -, -⟩ := exists_of_find_leaf found nofun
  have same : Path.renamed extension name = name ↔
      Path.extension? path = some extension ∧ Path.stem? path ≠ some Path.here := by
    rw [Path.renamed_eq_self_iff into.notAbove, Path.extension?, Path.stem?, into.fileName?]
    simp
  split
  next own =>
    obtain ⟨front, cut, -⟩ := into.leads
    rw [Path.withExtension_eq_self cut into.noIdle into.notAbove noSlash (same.mpr own)]
    exact read_save text there
  next other =>
    have elsewhere : ∀ made : FileTree, KeepsDirectories w.files made → ∀ place',
        made.locateFile host.here (Path.withExtension extension path) = .ok place' →
          place' ≠ name :: around := by
      intro made keeps place' located
      rw [eq_of_locateFile_withExtension (keeps.leadsInto into) noSlash located]
      exact fun both => other (same.mp (List.cons.inj both).1)
    rw [read_of_find found, read_of_find (read_save_of_elsewhere text found elsewhere)]

end SlideDeck.Page
