import SlideDeck.Build.PageImage
import SlideDeck.Proofs.Files.Listing
import SlideDeck.Proofs.Path.Ending

/-!
# The directory that is searched

The search for images goes along the names of a directory, one by one, and leaves out a `.` at its
front. It arrives at the location of the directory (`target_arrival`). In whatever tree, it lists
what the directory holds (`lists_of_plain`), unless the path goes on with an empty name behind such
a `.`: then the empty name would have to be found by itself.
-/

set_option autoImplicit false

namespace SlideDeck.PageImage

open SlideDeck.Text SlideDeck.FileTree

variable {name : Text} {names : List Text} {tree : FileTree} {here place : Location}
  {directory path : Path}

/-! ## Where a search arrives -/

/-- The path of a name behind a path: behind a `.` it stands alone. -/
def below (path : Path) (name : Text) : Path :=
  if path == Path.here then name else Path.child path name

/-- The path at which the search of a directory arrives, if it gets there. -/
def arrival (directory : Path) : Path :=
  if directory.isEmpty then ['/']
  else if Path.isAbsolute directory then (Path.pieces directory).tail.foldl below ['/']
  else (Path.pieces directory).foldl below Path.here

theorem eq_below_of_descend {next : Path} (found : descend tree here path name = some next) :
    next = below path name := by
  rw [descend, Option.ite_none_right_eq_some, Option.some.injEq] at found
  exact found.2.symm

theorem eq_foldl_of_descend {names : List Text} {last : Path}
    (found : names.foldlM (descend tree here) path = some last) :
    last = names.foldl below path := by
  induction names generalizing path with
  | nil => exact (Option.some.inj found).symm
  | cons name names ih =>
      rw [List.foldlM_cons, Option.bind_eq_bind, Option.bind_eq_some_iff] at found
      obtain ⟨next, first, found⟩ := found
      rw [List.foldl_cons, ← eq_below_of_descend first]
      exact ih found

theorem eq_arrival_of_searched? (found : searched? tree here directory = some path) :
    path = arrival directory := by
  rw [arrival]
  unfold searched? at found
  split at found
  next empty => rw [if_pos empty, ← Option.some.inj found]
  next nonempty =>
    rw [if_neg nonempty]
    split at found
    next absolute => rw [if_pos absolute, eq_foldl_of_descend found]
    next relative => rw [if_neg relative, eq_foldl_of_descend found]

/-- A name behind a path means the same as the name in the directory at the path. -/
theorem target_below (here : Location) (path : Path) (noSlash : '/' ∉ name) :
    target here (below path name) = move (target here path) name := by
  have alone : target here name = move here name := by
    rw [target, origin, Path.not_isAbsolute_of_noSlash noSlash, Path.pieces,
      splitAt_of_not_mem noSlash]
    rfl
  rw [below]
  split
  next bare => rw [alone, eq_of_beq bare]; rfl
  next =>
    by_cases empty : path = []
    · subst empty
      have same : Path.child [] name = name := by
        simp [Path.child]
      rw [same, alone]
      rfl
    · obtain ⟨before, cut, same | same⟩ := exists_pieces_child empty noSlash
      · rw [target, target, cut, same, origin_child empty noSlash, List.foldl_append]
        rfl
      · rw [target, target, cut, same, origin_child empty noSlash, List.foldl_append,
          List.foldl_append]
        rfl

theorem target_foldl_below {names : List Text} (slashless : ∀ name ∈ names, '/' ∉ name) :
    target here (names.foldl below path) = names.foldl move (target here path) := by
  induction names generalizing path with
  | nil => rfl
  | cons name names ih =>
      rw [List.forall_mem_cons] at slashless
      rw [List.foldl_cons, ih slashless.2, target_below here path slashless.1, List.foldl_cons]

/-- **A search arrives at the location of its directory.** -/
theorem target_arrival (here : Location) (nonempty : directory ≠ []) :
    target here (arrival directory) = target here directory := by
  have slashless : ∀ name ∈ Path.pieces directory, '/' ∉ name := fun _ =>
    Path.slash_not_mem_of_mem_pieces directory
  rw [arrival, if_neg (by simpa using nonempty)]
  split
  next absolute =>
    obtain ⟨c, rest, rfl⟩ := List.exists_cons_of_ne_nil nonempty
    rw [Path.isAbsolute_cons, beq_iff_eq] at absolute
    subst absolute
    have cut : Path.pieces ('/' :: rest) = [] :: splitAt '/' rest := splitAt_append_cons '/' [] rest
    rw [cut, List.forall_mem_cons] at slashless
    rw [cut, List.tail_cons, target_foldl_below slashless.2, target, target, cut]
    rfl
  next relative =>
    rw [target_foldl_below slashless, target, target, origin, origin, if_neg relative]
    rfl

/-! ## What is listed -/

/-- The names in a directory. There are none if it is not there. -/
def held (tree : FileTree) (here : Location) (directory : Path) : List Text :=
  (tree.list here directory).toOption.getD []

/-- The names that a search of a directory lists. -/
def listed (tree : FileTree) (here : Location) (directory : Path) : List Text :=
  ((searched? tree here directory).bind fun place => (tree.list here place).toOption).getD []

/-- In every tree a search of the directory lists what the directory holds. -/
def Lists (here : Location) (directory : Path) : Prop :=
  ∀ tree, listed tree here directory = held tree here directory

theorem mem_held_iff : name ∈ held tree here directory ↔
    ∃ place, tree.find here directory = .ok (place, .directory) ∧
      tree.entryAt (name :: place) ≠ none := by
  rw [held]
  cases answer : tree.list here directory with
  | error fault =>
      simp only [Except.toOption, Option.getD_none, List.not_mem_nil, false_iff]
      rintro ⟨place, found, -⟩
      rw [list_eq_ok.mpr ⟨place, found, rfl⟩] at answer
      cases answer
  | ok names =>
      obtain ⟨place, found, rfl⟩ := list_eq_ok.mp answer
      simp only [Except.toOption, Option.getD_some, mem_names_iff]
      constructor
      · intro there
        exact ⟨place, found, there⟩
      · rintro ⟨other, found', there⟩
        rw [found, Except.ok.injEq, Prod.mk.injEq] at found'
        rwa [found'.1]

theorem nodup_held (tree : FileTree) (here : Location) (directory : Path) :
    (held tree here directory).Nodup := by
  rw [held]
  cases answer : tree.list here directory with
  | error fault => exact List.nodup_nil
  | ok names =>
      obtain ⟨place, -, rfl⟩ := list_eq_ok.mp answer
      exact nodup_names tree place

/-- Different names behind a path are different paths. -/
theorem eq_of_below_eq {other : Text} (noSlash : '/' ∉ name) (noSlash' : '/' ∉ other)
    (same : below path name = below path other) : name = other := by
  rw [below, below] at same
  split at same
  · exact same
  · rw [Path.child, Path.child, Path.not_isAbsolute_of_noSlash noSlash,
      Path.not_isAbsolute_of_noSlash noSlash', if_neg Bool.false_ne_true,
      if_neg Bool.false_ne_true] at same
    split at same
    · exact List.append_cancel_left same
    · exact (List.cons.inj (List.append_cancel_left same)).2

/-! ## A search follows the names -/

/-- A way that ends at a directory begins at one. -/
theorem entryAt_of_follow {last : Location} (followed : tree.follow place names = .ok last)
    (inside : tree.entryAt last = some .directory) : tree.entryAt place = some .directory := by
  cases names with
  | nil =>
      rw [follow_nil, Except.ok.injEq] at followed
      rwa [followed]
  | cons name names =>
      obtain ⟨next, entered, -⟩ := follow_cons_eq_ok.mp followed
      exact (enter_eq_ok.mp entered).1

theorem find_here_iff : tree.find here Path.here = .ok (place, .directory) ↔
    place = here ∧ tree.entryAt here = some .directory := by
  have idle : ∀ name ∈ Path.pieces Path.here, Path.isIdle name = true := by decide
  constructor
  · intro found
    have same : place = here := eq_target_of_find found
    rw [same] at found
    exact ⟨same, (find_eq_ok.mp found).2⟩
  · rintro ⟨rfl, inside⟩
    exact find_of_locate (locate_eq_ok.mpr ⟨by decide, follow_idle inside idle⟩) inside

theorem find_root : tree.find here ['/'] = .ok ([], .directory) := by
  have idle : ∀ name ∈ Path.pieces ['/'], Path.isIdle name = true := by decide
  exact find_of_locate (locate_eq_ok.mpr ⟨by decide, follow_idle (entryAt_nil tree) idle⟩)
    (entryAt_nil tree)

/-- The names before the last one lead to the directory at the path. -/
theorem exists_pieces_below (tree : FileTree) (here : Location) (noSlash : '/' ∉ name)
    (possible : checkPath path = .ok ()) :
    ∃ before, Path.pieces (below path name) = before ++ [name] ∧
      ∀ place, tree.find here path = .ok (place, .directory) ↔
        tree.follow (origin here (below path name)) before = .ok place ∧
          tree.entryAt place = some .directory := by
  by_cases bare : path = Path.here
  · subst bare
    have alone : below Path.here name = name := if_pos rfl
    refine ⟨[], by rw [alone]; exact splitAt_of_not_mem noSlash, fun place => ?_⟩
    rw [find_here_iff, alone, origin, Path.not_isAbsolute_of_noSlash noSlash,
      if_neg Bool.false_ne_true, follow_nil, Except.ok.injEq, eq_comm]
    exact and_congr_right fun same => by rw [same]
  · have behind : below path name = path.child name := if_neg (by simpa using bare)
    have nonempty := (checkPath_eq_ok.mp possible).2.1
    obtain ⟨before, cut, same⟩ := exists_pieces_child nonempty noSlash
    refine ⟨before, by rw [behind, cut], fun place => ?_⟩
    rw [find_eq_ok, locate_eq_ok, behind, origin_child nonempty noSlash]
    constructor
    · rintro ⟨⟨-, followed⟩, inside⟩
      exact ⟨(follow_front inside same).mp followed, inside⟩
    · rintro ⟨followed, inside⟩
      exact ⟨⟨possible, (follow_front inside same).mpr followed⟩, inside⟩

/-- A name behind a path leads to a directory if it does so from the directory at the path. -/
theorem find_below_iff (noSlash : '/' ∉ name) (possible : checkPath path = .ok ())
    (possible' : checkPath (below path name) = .ok ()) :
    tree.find here (below path name) = .ok (place, .directory) ↔
      ∃ around, tree.find here path = .ok (around, .directory) ∧
        tree.enter around name = .ok place ∧ tree.entryAt place = some .directory := by
  obtain ⟨before, cut, leads⟩ := exists_pieces_below tree here noSlash possible
  simp only [leads, enter_eq_ok]
  rw [find_eq_ok, locate_eq_ok, cut, follow_concat_eq_ok]
  constructor
  · rintro ⟨⟨-, around, followed, inside, short, same⟩, there⟩
    exact ⟨around, ⟨followed, inside⟩, ⟨inside, short, same⟩, there⟩
  · rintro ⟨around, ⟨followed, inside⟩, ⟨-, short, same⟩, there⟩
    exact ⟨⟨possible', around, followed, inside, short, same⟩, there⟩

/-- The search goes on along the path of a directory. -/
theorem descend_of_find (noSlash : '/' ∉ name) (possible : checkPath path = .ok ())
    (found : tree.find here (below path name) = .ok (place, .directory)) :
    descend tree here path name = some (below path name) := by
  obtain ⟨around, around', -, -⟩ := (find_below_iff noSlash possible
    (locate_eq_ok.mp (find_eq_ok.mp found).1).1).mp found
  have there : (if name == Path.here || name == Path.above then tree.holdsDirectory here path
      else tree.holds here (below path name)) = true := by
    split
    · exact holdsDirectory_iff.mpr ⟨around, around'⟩
    · exact holds_iff.mpr ⟨place, _, found⟩
  exact if_pos there

/-- The search finds a directory behind a path just if the names lead there from the directory at
the path. -/
theorem foldlM_descend_iff (slashless : ∀ name ∈ names, '/' ∉ name)
    (possible : ∀ front, front <+: names → checkPath (front.foldl below path) = .ok ()) :
    (∃ last, names.foldlM (descend tree here) path = some last ∧
        tree.find here last = .ok (place, .directory)) ↔
      ∃ around, tree.find here path = .ok (around, .directory) ∧
        tree.follow around names = .ok place ∧ tree.entryAt place = some .directory := by
  induction names generalizing path with
  | nil =>
      simp only [List.foldlM_nil, Option.pure_def, Option.some.injEq, exists_eq_left', follow_nil,
        Except.ok.injEq]
      constructor
      · intro found
        exact ⟨place, found, rfl, (find_eq_ok.mp found).2⟩
      · rintro ⟨around, found, rfl, -⟩
        exact found
  | cons name names ih =>
      rw [List.forall_mem_cons] at slashless
      have here' : checkPath path = .ok () := possible [] List.nil_prefix
      have next' : checkPath (below path name) = .ok () := possible [name] (by simp)
      have later := @ih (below path name) slashless.2 fun front begins =>
        possible (name :: front) (List.cons_prefix_cons.mpr ⟨rfl, begins⟩)
      simp only [List.foldlM_cons, Option.bind_eq_bind, Option.bind_eq_some_iff]
      constructor
      · rintro ⟨last, ⟨next, first, descended⟩, found⟩
        obtain rfl := eq_below_of_descend first
        obtain ⟨around, found', followed, inside⟩ := later.mp ⟨last, descended, found⟩
        obtain ⟨start, begun, entered, -⟩ := (find_below_iff slashless.1 here' next').mp found'
        exact ⟨start, begun, follow_cons_eq_ok.mpr ⟨around, entered, followed⟩, inside⟩
      · rintro ⟨start, begun, followed, inside⟩
        obtain ⟨next, entered, followed⟩ := follow_cons_eq_ok.mp followed
        have found := (find_below_iff slashless.1 here' next').mpr
          ⟨start, begun, entered, entryAt_of_follow followed inside⟩
        obtain ⟨last, descended, found'⟩ := later.mpr ⟨next, found, followed, inside⟩
        exact ⟨last, ⟨_, descend_of_find slashless.1 here' found, descended⟩, found'⟩

/-! ## Directories that are listed -/

/-- The path is one that a search can follow: behind a `.` at its front comes no empty name. -/
def IsPlain (directory : Path) : Prop :=
  Path.isAbsolute directory = true ∨
    ((Path.pieces directory).dropWhile (· == Path.here)).head? ≠ some []

instance (directory : Path) : Decidable (IsPlain directory) :=
  inferInstanceAs (Decidable (_ ∨ _))

theorem below_here (name : Text) : below Path.here name = name := if_pos rfl

theorem below_root (name : Text) (noSlash : '/' ∉ name) : below ['/'] name = ['/'] ++ name := by
  rw [below, if_neg (by decide), Path.child, Path.not_isAbsolute_of_noSlash noSlash,
    if_neg Bool.false_ne_true, if_pos (by decide)]

theorem below_sublist (path : Path) (noSlash : '/' ∉ name) :
    List.Sublist (below path name) (path ++ '/' :: name) := by
  have behind : List.Sublist name ('/' :: name) := List.sublist_cons_self '/' name
  rw [below]
  split
  · exact behind.trans (List.sublist_append_right path _)
  · obtain ⟨slash, whole, rfl | rfl⟩ := exists_child_eq_append path noSlash
    · rw [whole]
      exact List.Sublist.append_left behind path
    · rw [whole]
      exact List.Sublist.refl _

/-- A search makes its paths of pieces of the path of the directory. -/
theorem foldl_below_sublist {start lead : Path}
    (first : ∀ name, '/' ∉ name → below start name = lead ++ name) (nonempty : names ≠ [])
    (slashless : ∀ name ∈ names, '/' ∉ name) :
    List.Sublist (names.foldl below start) (lead ++ join ['/'] names) := by
  induction names using List.reverseRecOn with
  | nil => exact absurd rfl nonempty
  | append_singleton names name ih =>
      rw [List.forall_mem_append, List.forall_mem_singleton] at slashless
      rw [List.foldl_append, List.foldl_cons, List.foldl_nil]
      by_cases empty : names = []
      · subst empty
        rw [List.foldl_nil, first name slashless.2]
        exact List.Sublist.refl _
      · have earlier := ih empty slashless.1
        rw [join_append _ empty (List.cons_ne_nil name []), ← List.append_assoc,
          ← List.append_assoc, List.append_assoc _ ['/']]
        exact (below_sublist _ slashless.2).trans (earlier.append_right _)

theorem join_isPrefix {front : List Text} (nonempty : front ≠ []) (begins : front <+: names) :
    join ['/'] front <+: join ['/'] names := by
  obtain ⟨more, rfl⟩ := begins
  by_cases empty : more = []
  · rw [empty, List.append_nil]
  · rw [join_append _ nonempty empty, List.append_assoc]
    exact List.prefix_append _ _

theorem below_ne (nonempty : path ≠ []) (notBare : path ≠ Path.here) (noSlash : '/' ∉ name) :
    below path name ≠ [] ∧ below path name ≠ Path.here := by
  obtain ⟨slash, whole, -⟩ := exists_child_eq_append path noSlash
  rw [below, if_neg (by simpa using notBare), whole]
  obtain ⟨c, path, rfl⟩ := List.exists_cons_of_ne_nil nonempty
  refine ⟨List.cons_ne_nil _ _, fun same => notBare ?_⟩
  obtain ⟨rfl, empty⟩ := List.cons.inj same
  rw [(List.append_eq_nil_iff.mp empty).1]
  rfl

theorem foldl_below_ne_nil (slashless : ∀ name ∈ names, '/' ∉ name) (nonempty : path ≠ [])
    (plain : path = Path.here → (names.dropWhile (· == Path.here)).head? ≠ some [])
    {front : List Text} (begins : front <+: names) : front.foldl below path ≠ [] := by
  induction names generalizing path front with
  | nil =>
      rw [List.prefix_nil.mp begins]
      exact nonempty
  | cons name names ih =>
      rw [List.forall_mem_cons] at slashless
      rcases front with _ | ⟨first, front⟩
      · exact nonempty
      obtain ⟨rfl, begins'⟩ := List.cons_prefix_cons.mp begins
      rw [List.foldl_cons]
      by_cases bare : path = Path.here
      · subst bare
        rw [below_here]
        by_cases same : first = Path.here
        · subst same
          exact ih slashless.2 (List.cons_ne_nil _ _) (fun _ => plain rfl) begins'
        · have someFirst : first ≠ [] := by
            rintro rfl
            exact plain rfl rfl
          exact ih slashless.2 someFirst (fun bare => absurd bare same) begins'
      · obtain ⟨someNext, notBare⟩ := below_ne nonempty bare slashless.1
        exact ih slashless.2 someNext (fun same => absurd same notBare) begins'

/-- **A search finds the directories that are there**, and no others. -/
theorem searched?_iff (possible : checkPath directory = .ok ()) (plain : IsPlain directory) :
    (∃ last, searched? tree here directory = some last ∧
        tree.find here last = .ok (place, .directory)) ↔
      tree.find here directory = .ok (place, .directory) := by
  have nonempty := (checkPath_eq_ok.mp possible).2.1
  have slashless : ∀ name ∈ Path.pieces directory, '/' ∉ name := fun _ =>
    Path.slash_not_mem_of_mem_pieces directory
  rw [searched?, if_neg (by simpa using nonempty)]
  by_cases absolute : Path.isAbsolute directory = true
  · obtain ⟨c, rest, rfl⟩ := List.exists_cons_of_ne_nil nonempty
    rw [Path.isAbsolute_cons, beq_iff_eq] at absolute
    subst absolute
    have cut : Path.pieces ('/' :: rest) = [] :: splitAt '/' rest := splitAt_append_cons '/' [] rest
    rw [cut, List.forall_mem_cons] at slashless
    have fits : ∀ front, front <+: splitAt '/' rest →
        checkPath (front.foldl below ['/']) = .ok () := by
      intro front begins
      by_cases empty : front = []
      · rw [empty]
        rfl
      have within := foldl_below_sublist below_root empty fun name member =>
        slashless.2 name (begins.subset member)
      refine checkPath_of_sublist possible (within.trans ?_) (foldl_below_ne_nil slashless.2
        (List.cons_ne_nil _ _) (fun same => absurd same (by decide)) begins)
      rw [← join_splitAt '/' rest]
      exact (join_isPrefix empty begins).sublist.append_left ['/']
    have root : Path.isAbsolute ('/' :: rest) = true := by simp [Path.isAbsolute_cons]
    rw [if_pos root, cut, List.tail_cons, foldlM_descend_iff slashless.2 fits, find_eq_ok,
      locate_eq_ok, origin, if_pos root, cut]
    constructor
    · rintro ⟨around, found, followed, inside⟩
      obtain rfl : around = [] := eq_target_of_find found
      exact ⟨⟨possible, follow_cons_eq_ok.mpr
        ⟨[], enter_eq_ok.mpr ⟨entryAt_nil tree, rfl, rfl⟩, followed⟩⟩, inside⟩
    · rintro ⟨⟨-, followed⟩, inside⟩
      obtain ⟨next, entered, followed⟩ := follow_cons_eq_ok.mp followed
      obtain ⟨-, -, rfl⟩ := enter_eq_ok.mp entered
      exact ⟨[], find_root, followed, inside⟩
  · have fits : ∀ front, front <+: Path.pieces directory →
        checkPath (front.foldl below Path.here) = .ok () := by
      intro front begins
      by_cases empty : front = []
      · rw [empty]
        rfl
      have within : List.Sublist (front.foldl below Path.here) ([] ++ join ['/'] front) :=
        foldl_below_sublist (fun name _ => below_here name) empty
          fun name member => slashless name (begins.subset member)
      refine checkPath_of_sublist possible (within.trans ?_) (foldl_below_ne_nil slashless
        (List.cons_ne_nil _ _) (fun _ => plain.resolve_left absolute) begins)
      rw [← Path.join_pieces directory]
      exact (join_isPrefix empty begins).sublist
    rw [if_neg absolute, foldlM_descend_iff slashless fits, find_eq_ok, locate_eq_ok, origin,
      if_neg absolute]
    constructor
    · rintro ⟨around, found, followed, inside⟩
      rw [(find_here_iff.mp found).1] at followed
      exact ⟨⟨possible, followed⟩, inside⟩
    · rintro ⟨⟨-, followed⟩, inside⟩
      exact ⟨here, find_here_iff.mpr ⟨rfl, entryAt_of_follow followed inside⟩, followed, inside⟩

/-- **Such a directory is listed as it is.** -/
theorem lists_of_plain (possible : checkPath directory = .ok ()) (plain : IsPlain directory) :
    Lists here directory := by
  intro tree
  have same : ∀ names, (∃ last, searched? tree here directory = some last ∧
      tree.list here last = .ok names) ↔ tree.list here directory = .ok names := by
    intro names
    simp only [list_eq_ok, ← searched?_iff possible plain]
    constructor
    · rintro ⟨last, searched, place, found, rfl⟩
      exact ⟨place, ⟨last, searched, found⟩, rfl⟩
    · rintro ⟨place, ⟨last, searched, found⟩, rfl⟩
      exact ⟨last, searched, place, found, rfl⟩
  rw [listed, held]
  cases answer : tree.list here directory with
  | ok names =>
      obtain ⟨last, searched, listed⟩ := (same names).mpr answer
      rw [searched, Option.bind_some, listed]
  | error fault =>
      cases searched : searched? tree here directory with
      | none => rfl
      | some last =>
          cases listed : tree.list here last with
          | error other => rw [Option.bind_some, listed]; rfl
          | ok names =>
              rw [(same names).mp ⟨last, searched, listed⟩] at answer
              exact absurd answer nofun

end SlideDeck.PageImage
