import SlideDeck.Proofs.Files.Listing
import SlideDeck.Proofs.Workspace.Activity
import SlideDeck.Theme.Store

/-!
# Listing the themes of a store

Whatever a directory holds, its themes are those of its listed files (`loadAll_of_find`), and the
theme with a name is that of the first listed file which carries the name (`get_of_find`): sorting
by name keeps the order of the files that carry one and the same name.
-/

set_option autoImplicit false

namespace SlideDeck.ThemeStore

open SlideDeck.Text SlideDeck.FileTree SlideDeck.Activity

variable {store : ThemeStore} {host : Host} {w : Workspace} {place : Location}

/-! ## The order of names -/

theorem le_total (a b : Theme) : (le a b || le b a) = true := Text.le_total a.name b.name

theorem le_trans (a b c : Theme) (first : le a b = true) (second : le b c = true) :
    le a c = true :=
  Text.le_trans first second

/-- Sorting keeps the order of the themes with one name. -/
theorem filter_mergeSort (name : Text) (themes : List Theme) :
    (themes.mergeSort le).filter (fun theme => theme.name == name) =
      themes.filter fun theme => theme.name == name := by
  let named := themes.filter fun theme => theme.name == name
  have alike : named.Pairwise fun a b => le a b = true := by
    refine List.pairwise_of_forall_mem_list fun a first b second => ?_
    rw [List.mem_filter, beq_iff_eq] at first second
    have same : a.name = b.name := first.2.trans second.2.symm
    have reflexive := Text.le_total b.name b.name
    rw [Bool.or_self] at reflexive
    rw [le, same, reflexive]
  have kept : named.Sublist (themes.mergeSort le) :=
    List.sublist_mergeSort le_trans le_total alike List.filter_sublist
  have within := kept.filter fun theme => theme.name == name
  rw [List.filter_filter] at within
  simp only [Bool.and_self] at within
  refine (within.eq_of_length ?_).symm
  exact ((List.mergeSort_perm themes le).filter _).length_eq.symm

theorem find?_mergeSort (name : Text) (themes : List Theme) :
    (themes.mergeSort le).find? (fun theme => theme.name == name) =
      themes.find? fun theme => theme.name == name := by
  rw [← List.head?_filter, filter_mergeSort, List.head?_filter]

/-! ## The themes of a directory -/

/-- The themes of files with the names, in the order of the names. -/
def themesOf (store : ThemeStore) (tree : FileTree) (here : Location) (names : List Text) :
    List Theme :=
  (store.filesOf names).filterMap fun file => (examine tree here file).getLeft?

/-- Under a name the directory of the store has the file of a theme. -/
structure Carries (store : ThemeStore) (tree : FileTree) (here : Location) (name : Text)
    (theme : Theme) : Prop where
  listed : Path.hasExtension "toml".toList (store.directory.child name) = true
  theme : examine tree here (store.directory.child name) = .inl theme

theorem mem_themesOf {tree : FileTree} {here : Location} {names : List Text} {theme : Theme} :
    theme ∈ store.themesOf tree here names ↔
      ∃ name ∈ names, store.Carries tree here name theme := by
  simp only [themesOf, filesOf, List.mem_filterMap, List.mem_filter, List.mem_map,
    Sum.getLeft?_eq_some_iff]
  constructor
  · rintro ⟨file, ⟨⟨name, member, rfl⟩, listed⟩, theme⟩
    exact ⟨name, member, listed, theme⟩
  · rintro ⟨name, member, listed, theme⟩
    exact ⟨_, ⟨⟨name, member, rfl⟩, listed⟩, theme⟩

/-- A file of a theme adds the theme. -/
theorem themesOf_cons {tree : FileTree} {here : Location} {name : Text} {names : List Text}
    {theme : Theme} (carries : store.Carries tree here name theme) :
    store.themesOf tree here (name :: names) = theme :: store.themesOf tree here names := by
  rw [themesOf, filesOf, List.map_cons, List.filter_cons_of_pos carries.listed,
    List.filterMap_cons, carries.theme]
  rfl

/-- Only what is found is read as a theme. -/
theorem holds_of_examine {tree : FileTree} {here : Location} {file : Path} {theme : Theme}
    (read : examine tree here file = .inl theme) : tree.holds here file = true := by
  rw [← Bool.not_eq_false]
  intro missing
  cases found : tree.find here file with
  | ok answer =>
      rw [holds, found] at missing
      simp [Except.toOption] at missing
  | error fault =>
      have unread : themeIn tree here file = .error (.unreadable fault) := by
        rw [themeIn, FileTree.readText, FileTree.read, found]
        rfl
      rw [examine, unread] at read
      simp at read

/-- A file in the directory of a store holds a theme. -/
def Holds (store : ThemeStore) (tree : FileTree) (here : Location) (file : Text)
    (theme : Theme) : Prop :=
  ∃ place, tree.find here store.directory = .ok (place, .directory) ∧
    file ∈ tree.names place ∧ store.Carries tree here file theme

theorem Holds.unique {tree : FileTree} {here : Location} {file : Text} {theme other : Theme}
    (first : store.Holds tree here file theme) (second : store.Holds tree here file other) :
    theme = other := by
  obtain ⟨-, -, -, -, first⟩ := first
  obtain ⟨-, -, -, -, second⟩ := second
  exact Sum.inl.inj (first.symm.trans second)

theorem listNames_of_find {path : Path}
    (found : w.files.find host.here path = .ok (place, .directory)) :
    listNames path host w = (.ok (host.listing.order (w.files.names place)), w) := by
  rw [listNames, bind_of_ok (look_apply _), list_eq_ok.mpr ⟨place, found, rfl⟩]
  rfl

/-- **The themes of a store are those of its listed files, by name.** -/
theorem loadAll_of_find (host : Host)
    (found : w.files.find host.here store.directory = .ok (place, .directory)) :
    ∃ notices, store.loadAll host w =
      (.ok ((store.themesOf w.files host.here
        (host.listing.order (w.files.names place))).mergeSort le), { w with notices }) := by
  have there : w.files.holds host.here store.directory = true := holds_iff.mpr ⟨_, _, found⟩
  let names := host.listing.order (w.files.names place)
  let examined := (store.filesOf names).map (examine w.files host.here)
  refine ⟨w.notices ++ examined.filterMap Sum.getRight?, ?_⟩
  rw [loadAll, bind_of_ok (look_apply _), there]
  change (listNames store.directory >>= _) host w = _
  rw [bind_of_ok (listNames_of_find found)]
  change (Except.ok ((examined.filterMap Sum.getLeft?).mergeSort le), _) = _
  rw [List.filterMap_map]
  rfl

/-- A store whose directory is missing has no themes. -/
theorem loadAll_of_missing (missing : w.files.holds host.here store.directory = false) :
    store.loadAll host w = (.ok [], w) := by
  rw [loadAll, bind_of_ok (look_apply _), missing]
  rfl

/-- What is there and no directory cannot be listed. -/
theorem loadAll_of_not_directory (there : w.files.holds host.here store.directory = true)
    (file : w.files.holdsDirectory host.here store.directory = false) :
    ∃ failure, store.loadAll host w = (.error failure, w) := by
  cases listed : w.files.list host.here store.directory with
  | ok names =>
      obtain ⟨place, found, -⟩ := list_eq_ok.mp listed
      rw [holdsDirectory_iff.mpr ⟨place, found⟩] at file
      simp at file
  | error fault =>
      have unlisted : listNames store.directory host w = (.error (.unreadable fault), w) := by
        rw [listNames, bind_of_ok (look_apply _), listed]
        rfl
      refine ⟨.unreadable fault, ?_⟩
      rw [loadAll, bind_of_ok (look_apply _), there]
      exact bind_of_error unlisted

/-- **The theme with a name is that of the first listed file that carries the name.** -/
theorem get_of_find (host : Host) (name : Text)
    (found : w.files.find host.here store.directory = .ok (place, .directory)) :
    ∃ notices, store.get name host w =
      (.ok ((store.themesOf w.files host.here (host.listing.order (w.files.names place))).find?
        fun theme => theme.name == name), { w with notices }) := by
  obtain ⟨notices, loaded⟩ := loadAll_of_find host found
  refine ⟨notices, ?_⟩
  rw [get, bind_of_ok loaded, find?_mergeSort]
  rfl

theorem get_of_missing (name : Text)
    (missing : w.files.holds host.here store.directory = false) :
    store.get name host w = (.ok none, w) := by
  rw [get, bind_of_ok (loadAll_of_missing missing)]
  rfl

/-- To look up a theme leaves everything but the notices alone. -/
theorem exists_notices_get (store : ThemeStore) (name : Text) (host : Host) (w : Workspace) :
    ∃ notices, (store.get name host w).2 = { w with notices } := by
  cases there : w.files.holds host.here store.directory with
  | false => exact ⟨w.notices, by rw [get_of_missing name there]⟩
  | true =>
      cases directory : w.files.holdsDirectory host.here store.directory with
      | false =>
          obtain ⟨failure, failed⟩ := loadAll_of_not_directory there directory
          exact ⟨w.notices, by rw [get, bind_of_error failed]⟩
      | true =>
          obtain ⟨place, found⟩ := holdsDirectory_iff.mp directory
          obtain ⟨notices, all⟩ := get_of_find host name found
          exact ⟨notices, by rw [all]⟩

/-! ## Every order of listing -/

/-- A listing in which a name comes first, if it is there at all. -/
def beginningWith (name : Text) : Listing where
  order names := if name ∈ names then name :: names.erase name else names
  perm names := by
    split
    next member => exact (List.perm_cons_erase member).symm
    next => exact List.Perm.refl names

theorem mem_order {listing : Listing} {names : List Text} {name : Text} :
    name ∈ listing.order names ↔ name ∈ names :=
  (listing.perm names).mem_iff

/-- A theme that a file holds is got in every order of listing just if every file that carries the
name of the theme holds the same one. -/
theorem get_some_iff {file : Text} {theme : Theme}
    (holds : store.Holds w.files host.here file theme) :
    (∀ other : Host, other.here = host.here →
        (store.get theme.name other w).1 = .ok (some theme)) ↔
      ∀ file carried, store.Holds w.files host.here file carried → carried.name = theme.name →
        carried = theme := by
  obtain ⟨place, found, listed, carries⟩ := holds
  constructor
  · intro got file carried held same
    obtain ⟨place', found', listed', carries'⟩ := held
    obtain ⟨rfl, -⟩ := Prod.mk.inj (Except.ok.inj (found.symm.trans found'))
    -- The file is listed first, so that its theme is the one that is got.
    let other : Host := { host with listing := beginningWith file }
    have got := got other rfl
    obtain ⟨notices, all⟩ := get_of_find other theme.name found
    have first : other.listing.order (w.files.names place) =
        file :: (w.files.names place).erase file := if_pos listed'
    rw [all, first, themesOf_cons carries', List.find?_cons_of_pos (by simpa using same)] at got
    simpa using got
  · intro alike other here
    rw [← here] at found carries alike
    obtain ⟨notices, all⟩ := get_of_find other theme.name found
    have own : theme ∈ store.themesOf w.files other.here
        (other.listing.order (w.files.names place)) :=
      mem_themesOf.mpr ⟨file, mem_order.mpr listed, carries⟩
    rw [all]
    cases first : (store.themesOf w.files other.here (other.listing.order
        (w.files.names place))).find? fun carried => carried.name == theme.name with
    | none =>
        have differ := List.find?_eq_none.mp first theme own
        simp at differ
    | some carried =>
        have same : carried.name = theme.name := by simpa using List.find?_some first
        obtain ⟨file, member, carries'⟩ := mem_themesOf.mp (List.mem_of_find?_eq_some first)
        rw [alike file carried ⟨place, found, mem_order.mp member, carries'⟩ same]

/-- No theme is got just if no file carries the name and what is at the path of the directory, if
anything, is a directory. -/
theorem get_none_iff {name : Text} : (store.get name host w).1 = .ok none ↔
    (w.files.holds host.here store.directory = true →
      w.files.holdsDirectory host.here store.directory = true) ∧
    ∀ file carried, store.Holds w.files host.here file carried → carried.name ≠ name := by
  cases there : w.files.holds host.here store.directory with
  | false =>
      rw [get_of_missing name there]
      simp only [Bool.false_eq_true, false_imp_iff, true_and, true_iff]
      rintro file carried ⟨place, found, -⟩
      rw [holds_iff.mpr ⟨place, _, found⟩] at there
      simp at there
  | true =>
      cases directory : w.files.holdsDirectory host.here store.directory with
      | false =>
          obtain ⟨failure, failed⟩ := loadAll_of_not_directory there directory
          rw [get, bind_of_error failed]
          simp
      | true =>
          obtain ⟨place, found⟩ := holdsDirectory_iff.mp directory
          obtain ⟨notices, all⟩ := get_of_find host name found
          rw [all, Except.ok.injEq, List.find?_eq_none]
          simp only [forall_const, true_and, beq_iff_eq]
          constructor
          · rintro noTheme file carried ⟨place', found', listed, carries⟩
            obtain ⟨rfl, -⟩ := Prod.mk.inj (Except.ok.inj (found.symm.trans found'))
            exact noTheme carried (mem_themesOf.mpr ⟨file, mem_order.mpr listed, carries⟩)
          · intro noTheme carried member
            obtain ⟨file, listed, carries⟩ := mem_themesOf.mp member
            exact noTheme file carried ⟨place, found, mem_order.mp listed, carries⟩

end SlideDeck.ThemeStore
