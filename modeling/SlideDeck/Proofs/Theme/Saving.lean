import SlideDeck.Proofs.Files.Directory
import SlideDeck.Proofs.Text.Search
import SlideDeck.Proofs.Theme.Listing
import SlideDeck.Proofs.Toml.Document

/-!
# Saving and removing themes

The file of a theme is a document of four assignments, so it is read as this theme
(`Theme.read?_render`), whatever the fields are.

A theme is saved under the name of its file and looked up by the name that a file carries. So
saving replaces and removing removes just as long as no other file in the directory carries the
name (`get_after_change_iff`): then a theme that was saved is got, and one that was removed is not,
in whatever order the directory is listed.
-/

set_option autoImplicit false

namespace SlideDeck.Theme

open SlideDeck.Text

/-! ## The file of a theme -/

/-- The keys of a theme file, with the fields under them. -/
def fields (theme : Theme) : List (Text × Text) :=
  [("name".toList, theme.name), ("base_theme".toList, theme.base),
    ("color_theme".toList, theme.color), ("aspect_ratio".toList, theme.aspectRatio)]

theorem render_eq_terminated (theme : Theme) :
    theme.render =
      terminated (theme.fields.map fun field => Toml.assignment field.1 field.2) := rfl

theorem isKey_of_mem_fields (theme : Theme) : ∀ field ∈ theme.fields, Toml.IsKey field.1 := by
  simp only [fields, List.forall_mem_cons]
  exact ⟨⟨by decide, by decide⟩, ⟨by decide, by decide⟩, ⟨by decide, by decide⟩,
    ⟨by decide, by decide⟩, nofun⟩

/-- **A theme file is read as the theme that was written.** -/
theorem read?_render (theme : Theme) : read? theme.render = some theme := by
  have distinct : (theme.fields.map Prod.fst).Nodup := by
    change ["name".toList, "base_theme".toList, "color_theme".toList,
      "aspect_ratio".toList].Nodup
    decide
  have document := Toml.readDocument_assignments (isKey_of_mem_fields theme) distinct
  rw [read?, render_eq_terminated, document]
  rfl

end SlideDeck.Theme

namespace SlideDeck.ThemeStore

open SlideDeck.Text SlideDeck.FileTree SlideDeck.Activity

variable {store : ThemeStore} {host : Host} {w v : Workspace} {place : Location} {name : Text}
  {theme : Theme}

/-! ## Names of files -/

/-- The name of the file for a theme with a name. -/
def fileName (name : Text) : Text := name ++ ".toml".toList

theorem fileName_inj {other : Text} (same : fileName name = fileName other) : name = other :=
  List.append_cancel_right same

theorem ne_of_isNameChar {c : Char} (plain : Theme.isNameChar c = true) :
    c ≠ '/' ∧ c ≠ '\x00' := by
  constructor
  · rintro rfl
    exact absurd plain (by decide)
  · rintro rfl
    exact absurd plain (by decide)

theorem isNameChar_of_isName (ok : Theme.isName name = true) :
    ∀ c ∈ name, Theme.isNameChar c = true := by
  rw [Theme.isName, Bool.and_eq_true, List.all_eq_true] at ok
  exact ok.2

theorem isName_fileName (ok : Theme.isName name = true) : Path.IsName (fileName name) := by
  have long : 5 ≤ (fileName name).length := by
    rw [fileName, List.length_append]
    exact Nat.le_add_left 5 _
  refine ⟨?_, ?_, ?_⟩
  · rw [fileName, List.mem_append, not_or]
    exact ⟨fun member => (ne_of_isNameChar (isNameChar_of_isName ok _ member)).1 rfl, by decide⟩
  · rw [← Bool.not_eq_true, Path.isIdle_iff]
    rintro (empty | here)
    · simp [empty] at long
    · simp [here, Path.here] at long
  · intro above
    simp [above, Path.above] at long

theorem noNul_fileName (ok : Theme.isName name = true) : '\x00' ∉ fileName name := by
  rw [fileName, List.mem_append, not_or]
  exact ⟨fun member => (ne_of_isNameChar (isNameChar_of_isName ok _ member)).2 rfl, by decide⟩

/-- The file for a theme is listed. -/
theorem hasExtension_fileOf (notEmpty : store.directory ≠ []) (ok : Theme.isName name = true) :
    Path.hasExtension "toml".toList (store.fileOf name) = true := by
  have plain := isName_fileName ok
  obtain ⟨before, cut, -⟩ := exists_pieces_child notEmpty plain.noSlash
  have extension : Path.splitName (fileName name) = (name, some "toml".toList) := by
    have noStop : '.' ∉ "lmot".toList := by decide
    have parted := splitOnce_append noStop name.reverse
    have nonempty : name ≠ [] := by
      rintro rfl
      simp [Theme.isName] at ok
    have whole : (fileName name).reverse = "lmot".toList ++ '.' :: name.reverse := by
      rw [fileName, List.reverse_append]
      rfl
    rw [Path.splitName, whole, parted]
    simp [nonempty]
  have found : Path.fileName? (store.fileOf name) = some (fileName name) :=
    Path.fileName?_of_pieces cut plain.noIdle plain.notAbove
  have own : Path.extension? (store.fileOf name) = some "toml".toList := by
    rw [Path.extension?, found, Option.bind_some, extension]
  rw [Path.hasExtension, own]
  decide

/-! ## Saving -/

theorem checkName_of_isName (ok : Theme.isName name = true) : Theme.checkName name = .ok () := by
  rw [Theme.checkName, if_pos ok]

/-- A theme without a name for a file, or with a blank field, is refused. -/
theorem save_of_refused (store : ThemeStore) (host : Host) (w : Workspace)
    (refused : ¬ (Theme.isName theme.name = true ∧ theme.isComplete = true)) :
    ∃ failure, store.save theme host w = (.error failure, w) := by
  by_cases ok : Theme.isName theme.name = true
  · have blank : theme.isComplete = false := by simpa [ok] using refused
    rw [save, checkName_of_isName ok, blank]
    exact ⟨_, rfl⟩
  · rw [save, Theme.checkName, if_neg ok]
    exact ⟨_, rfl⟩

/-- Any other theme is written to its file, once the directory is there. -/
theorem save_eq (ok : Theme.isName theme.name = true) (complete : theme.isComplete = true) :
    store.save theme host w = (do
      ensureDirectory store.directory
      writeText .unreadable (store.fileOf theme.name) theme.render
      return store.fileOf theme.name : Activity Path) host w := by
  rw [save, checkName_of_isName ok, complete]
  rfl

/-- What a saving has done. -/
theorem exists_of_save {path : Path} (saved : store.save theme host w = (.ok path, v)) :
    Theme.isName theme.name = true ∧ theme.isComplete = true ∧ path = store.fileOf theme.name ∧
      ∃ u, ensureDirectory store.directory host w = (.ok (), u) ∧
        u.files.write host.here (store.fileOf theme.name) (Utf8.encode theme.render) =
          .ok v.files := by
  by_cases valid : Theme.isName theme.name = true ∧ theme.isComplete = true
  · rw [save_eq valid.1 valid.2] at saved
    obtain ⟨_, u, made, saved⟩ := exists_of_bind_eq_ok saved
    obtain ⟨_, t, written, returned⟩ := exists_of_bind_eq_ok saved
    obtain ⟨same, rfl⟩ := Prod.mk.inj returned
    refine ⟨valid.1, valid.2, (Except.ok.inj same).symm, u, made, ?_⟩
    cases answer : u.files.write host.here (store.fileOf theme.name) (Utf8.encode theme.render) with
    | error fault =>
        rw [writeText_of_error answer] at written
        exact absurd (congrArg Prod.fst written) nofun
    | ok files =>
        rw [writeText_of_ok answer] at written
        obtain ⟨-, rfl⟩ := Prod.mk.inj written
        rfl
  · obtain ⟨failure, refused⟩ := save_of_refused store host w valid
    rw [refused] at saved
    exact absurd (congrArg Prod.fst saved) nofun

/-! ## Removing -/

theorem remove_of_refused (store : ThemeStore) (host : Host) (w : Workspace)
    (refused : Theme.isName name = false) :
    ∃ failure, store.remove name host w = (.error failure, w) := by
  rw [remove, Theme.checkName, refused]
  exact ⟨_, rfl⟩

theorem remove_of_missing (ok : Theme.isName name = true)
    (missing : w.files.holds host.here (store.fileOf name) = false) :
    store.remove name host w = (.ok false, w) := by
  rw [remove, checkName_of_isName ok, bind_of_ok (ofExcept_ok ()), bind_of_ok (look_apply _),
    missing]
  rfl

/-- What is there is to be removed as a file. -/
theorem remove_of_there (ok : Theme.isName name = true)
    (there : w.files.holds host.here (store.fileOf name) = true) :
    store.remove name host w = (do
      orFail .unreadable
        (← change fun tree here => tree.removeFile here (store.fileOf name))
      return true : Activity Bool) host w := by
  rw [remove, checkName_of_isName ok, bind_of_ok (ofExcept_ok ()), bind_of_ok (look_apply _), there]
  rfl

theorem remove_of_removeFile {files : FileTree} (ok : Theme.isName name = true)
    (there : w.files.holds host.here (store.fileOf name) = true)
    (removed : w.files.removeFile host.here (store.fileOf name) = .ok files) :
    store.remove name host w = (.ok true, { w with files }) := by
  rw [remove_of_there ok there, bind_of_ok (change_of_ok removed)]
  rfl

/-- After a removal that succeeds there is nothing at the file. -/
theorem exists_of_remove {removed : Bool} (done : store.remove name host w = (.ok removed, v)) :
    Theme.isName name = true ∧ v.files.holds host.here (store.fileOf name) = false := by
  by_cases ok : Theme.isName name = true
  · refine ⟨ok, ?_⟩
    cases there : w.files.holds host.here (store.fileOf name) with
    | false =>
        rw [remove_of_missing ok there] at done
        obtain ⟨-, rfl⟩ := Prod.mk.inj done
        exact there
    | true =>
        cases answer : w.files.removeFile host.here (store.fileOf name) with
        | error fault =>
            rw [remove_of_there ok there, bind_of_ok (change_of_error answer)] at done
            exact absurd (congrArg Prod.fst done) nofun
        | ok files =>
            rw [remove_of_removeFile ok there answer] at done
            obtain ⟨-, rfl⟩ := Prod.mk.inj done
            exact holds_of_removeFile answer
  · obtain ⟨failure, refused⟩ :=
      remove_of_refused store host w (by simpa using ok)
    rw [refused] at done
    exact absurd (congrArg Prod.fst done) nofun

/-! ## Getting what was saved -/

/-- The file of a theme that was written is read as this theme. -/
theorem examine_of_find {tree : FileTree} {here : Location} {executable : Bool} {path : Path}
    (complete : theme.isComplete = true)
    (found : tree.find here path =
      .ok (place, .file (Utf8.encode theme.render) executable)) :
    examine tree here path = .inl theme := by
  have read : themeIn tree here path = .ok theme := by
    rw [themeIn, readText_of_find found]
    simp [Except.mapError, bind, Except.bind, Theme.read?_render]
  rw [examine, read]
  simp [complete]

/-- After a saving that succeeds, the directory of the store holds the theme under its name, if
what was written can be read. -/
theorem holds_of_save {path : Path} (nonempty : store.directory ≠ [])
    (saved : store.save theme host w = (.ok path, v))
    (readable : v.files.holdsFile host.here path = true) :
    store.Holds v.files host.here (fileName theme.name) theme := by
  obtain ⟨ok, complete, rfl, u, made, written⟩ := exists_of_save saved
  obtain ⟨around, found⟩ := holdsDirectory_iff.mp (holdsDirectory_of_ensureDirectory nonempty made)
  have plain := isName_fileName ok
  obtain ⟨place, ⟨sink, same⟩ | room⟩ := sink_or_hasRoom_of_write written
  · obtain ⟨other, content, executable, file⟩ := holdsFile_iff.mp readable
    rw [same, sink] at file
    simp at file
  · obtain ⟨-, -, rfl⟩ := (locateFile_child plain found).mp room.located
    obtain ⟨after, executable, again, there, agree⟩ := room.write (Utf8.encode theme.render)
    obtain rfl := Except.ok.inj (again.symm.trans written)
    have keeps := agree.keepsDirectories room.not_directory
    obtain ⟨located, inside⟩ := find_eq_ok.mp found
    refine ⟨around, find_of_locate (keeps.locate located) (keeps around inside), ?_, ?_, ?_⟩
    · rw [mem_names_iff, (find_eq_ok.mp there).2]
      simp
    · exact hasExtension_fileOf nonempty ok
    · exact examine_of_find complete there

/-- A saved theme is got just if no file but its own carries its name with another theme. -/
theorem get_of_save_iff {path : Path} (directory : store.directory ≠ [])
    (saved : store.save theme host w = (.ok path, v))
    (readable : v.files.holdsFile host.here path = true) :
    (∀ other : Host, other.here = host.here →
        (store.get theme.name other v).1 = .ok (some theme)) ↔
      ∀ file carried, file ≠ fileName theme.name →
        store.Holds v.files host.here file carried → carried.name = theme.name →
          carried = theme := by
  have own := holds_of_save directory saved readable
  rw [get_some_iff own]
  constructor
  · intro alike file carried _ held same
    exact alike file carried held same
  · intro alike file carried held same
    by_cases its : file = fileName theme.name
    · subst its
      exact held.unique own
    · exact alike file carried its held same

/-- After a removal no theme is got just if no file but the removed one carries the name, unless the
path of the directory is that of a file. -/
theorem get_of_remove_iff {removed : Bool} (done : store.remove name host w = (.ok removed, v)) :
    (∀ other : Host, other.here = host.here → (store.get name other v).1 = .ok none) ↔
      (v.files.holds host.here store.directory = true →
        v.files.holdsDirectory host.here store.directory = true) ∧
      ∀ file carried, file ≠ fileName name → store.Holds v.files host.here file carried →
        carried.name ≠ name := by
  obtain ⟨-, gone⟩ := exists_of_remove done
  have others : (∀ file carried, store.Holds v.files host.here file carried →
      carried.name ≠ name) ↔
      ∀ file carried, file ≠ fileName name → store.Holds v.files host.here file carried →
        carried.name ≠ name := by
    constructor
    · intro noTheme file carried _ held
      exact noTheme file carried held
    · intro noTheme file carried held
      refine noTheme file carried ?_ held
      rintro rfl
      obtain ⟨-, -, -, -, read⟩ := held
      have there : v.files.holds host.here (store.fileOf name) = true := holds_of_examine read
      rw [gone] at there
      simp at there
  rw [← others]
  constructor
  · intro got
    exact get_none_iff.mp (got host rfl)
  · rintro right other here
    rw [get_none_iff, here]
    exact right

/-- **Saving replaces and removing removes, as far as files carry the name of their theme.** After
a theme was saved it is got, in every order of listing, just if no file but its own carries its name
with another theme; and after a removal nothing is got just if no other file carries the name,
unless the path of the directory is that of a file. -/
theorem get_after_change_iff (store : ThemeStore) (host : Host) (w v : Workspace) :
    (∀ theme path, store.directory ≠ [] → store.save theme host w = (.ok path, v) →
        v.files.holdsFile host.here path = true →
        ((∀ other : Host, other.here = host.here →
            (store.get theme.name other v).1 = .ok (some theme)) ↔
          ∀ file carried, file ≠ fileName theme.name →
            store.Holds v.files host.here file carried → carried.name = theme.name →
              carried = theme)) ∧
      ∀ name removed, store.remove name host w = (.ok removed, v) →
        ((∀ other : Host, other.here = host.here → (store.get name other v).1 = .ok none) ↔
          (v.files.holds host.here store.directory = true →
            v.files.holdsDirectory host.here store.directory = true) ∧
          ∀ file carried, file ≠ fileName name → store.Holds v.files host.here file carried →
            carried.name ≠ name) := by
  constructor
  · intro theme path directory saved readable
    exact get_of_save_iff directory saved readable
  · intro name removed done
    exact get_of_remove_iff done

/-- A store below the root. -/
def storeBelow : ThemeStore := ⟨"themes".toList⟩

/-- A theme with the name `x`. -/
def themeX (base : String) : Theme := ⟨"x".toList, base.toList, "default".toList, "169".toList⟩

/-- In an empty workspace a theme is saved and got, removed and gone. -/
theorem get_after_change_iff_empty : ∃ v u : Workspace,
    storeBelow.save (themeX "Madrid") bareHost { files := .empty } =
        (.ok "themes/x.toml".toList, v) ∧
      (storeBelow.get "x".toList bareHost v).1 = .ok (some (themeX "Madrid")) ∧
      storeBelow.remove "x".toList bareHost v = (.ok true, u) ∧
      (storeBelow.get "x".toList bareHost u).1 = .ok none := by
  let v := (storeBelow.save (themeX "Madrid") bareHost { files := .empty }).2
  let u := (storeBelow.remove "x".toList bareHost v).2
  have saved : storeBelow.save (themeX "Madrid") bareHost { files := .empty } =
      (.ok "themes/x.toml".toList, v) := Prod.ext rfl rfl
  have removed : storeBelow.remove "x".toList bareHost v = (.ok true, u) := Prod.ext rfl rfl
  refine ⟨v, u, saved, ?_, removed, ?_⟩
  · refine ((get_after_change_iff storeBelow bareHost _ v).1 _ _ (by decide) saved rfl).mpr ?_
      bareHost rfl
    rintro file carried other ⟨place, found, listed, -⟩
    have there : v.files.find [] storeBelow.directory = .ok (["themes".toList], .directory) := rfl
    obtain ⟨rfl, -⟩ := Prod.mk.inj (Except.ok.inj (there.symm.trans found))
    have names : v.files.names ["themes".toList] = [fileName "x".toList] := by decide
    rw [names, List.mem_singleton] at listed
    exact absurd listed other
  · refine ((get_after_change_iff storeBelow bareHost v u).2 _ _ removed).mpr ⟨fun _ => rfl, ?_⟩
      bareHost rfl
    rintro file carried - ⟨place, found, listed, -⟩
    have there : u.files.find [] storeBelow.directory = .ok (["themes".toList], .directory) := rfl
    obtain ⟨rfl, -⟩ := Prod.mk.inj (Except.ok.inj (there.symm.trans found))
    have names : u.files.names ["themes".toList] = [] := by decide
    rw [names] at listed
    exact absurd listed List.not_mem_nil

/-- Where another file carries the name, neither does saving replace what is got under the name nor
does removing remove it. -/
theorem get_after_change_other_file : ∃ v u : Workspace,
    storeBelow.save (themeX "Madrid") bareHost { files := ((FileTree.empty.insert
        ["themes".toList] .directory).insert ["other.toml".toList, "themes".toList]
          (.file (Utf8.encode (themeX "Berlin").render) false)) } =
        (.ok "themes/x.toml".toList, v) ∧
      (storeBelow.get "x".toList bareHost v).1 = .ok (some (themeX "Berlin")) ∧
      storeBelow.remove "x".toList bareHost v = (.ok true, u) ∧
      (storeBelow.get "x".toList bareHost u).1 = .ok (some (themeX "Berlin")) := by
  let w : Workspace := { files := ((FileTree.empty.insert
    ["themes".toList] .directory).insert ["other.toml".toList, "themes".toList]
      (.file (Utf8.encode (themeX "Berlin").render) false)) }
  let v := (storeBelow.save (themeX "Madrid") bareHost w).2
  let u := (storeBelow.remove "x".toList bareHost v).2
  have first : ∀ t : Workspace, t = v ∨ t = u →
      (storeBelow.get "x".toList bareHost t).1 = .ok (some (themeX "Berlin")) := by
    intro t either
    have found : t.files.find bareHost.here storeBelow.directory =
        .ok (["themes".toList], .directory) := by rcases either with rfl | rfl <;> rfl
    have read : t.files.find bareHost.here (storeBelow.directory.child "other.toml".toList) =
        .ok (["other.toml".toList, "themes".toList],
          .file (Utf8.encode (themeX "Berlin").render) false) := by
      rcases either with rfl | rfl <;> rfl
    obtain ⟨names, order⟩ : ∃ names, bareHost.listing.order (t.files.names ["themes".toList]) =
        "other.toml".toList :: names := by
      rcases either with rfl | rfl <;> exact ⟨_, rfl⟩
    have carries : storeBelow.Carries t.files bareHost.here "other.toml".toList (themeX "Berlin") :=
      ⟨by decide, examine_of_find (by decide) read⟩
    obtain ⟨notices, got⟩ := get_of_find bareHost "x".toList found
    rw [got, order, themesOf_cons carries]
    rfl
  exact ⟨v, u, Prod.ext rfl rfl, first v (Or.inl rfl), Prod.ext rfl rfl, first u (Or.inr rfl)⟩

end SlideDeck.ThemeStore
