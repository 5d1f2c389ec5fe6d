import SlideDeck.Proofs.Files.Change
import SlideDeck.Proofs.Keyed

/-!
# What a directory holds

The names in a directory are those under which there is something in it, each of them once
(`mem_names_iff`, `nodup_names`). A name behind the path of a directory leads to what the directory
holds under it (`find_child`), and if anything is found there the directory is
(`exists_of_find_child`).
-/

set_option autoImplicit false

namespace SlideDeck.FileTree

open SlideDeck.Text

variable {tree : FileTree} {here place : Location} {path : Path} {name : Text}

/-! ## Names -/

/-- **The names in a directory are those under which it holds something.** -/
theorem mem_names_iff : name ∈ tree.names place ↔ tree.entryAt (name :: place) ≠ none := by
  rw [names, List.mem_eraseDups, Keyed.mem_keys_iff, entryAt, nodeAt_cons]
  cases tree.nodeAt place with
  | none => simp [Keyed.get?]
  | some node => simp [FileNode.item?]

theorem nodup_names (tree : FileTree) (place : Location) : (tree.names place).Nodup :=
  Keyed.nodup_eraseDups _

/-- Only a directory is listed. -/
theorem list_eq_ok {names : List Text} : tree.list here path = .ok names ↔
    ∃ place, tree.find here path = .ok (place, .directory) ∧ names = tree.names place := by
  rw [list, bind_eq_ok]
  constructor
  · rintro ⟨⟨place, entry⟩, found, listed⟩
    cases entry with
    | directory => exact ⟨place, found, ((pure_eq_ok _ _).mp listed).symm⟩
    | file content executable => simp at listed
    | sink => simp at listed
  · rintro ⟨place, found, rfl⟩
    exact ⟨_, found, rfl⟩

/-! ## A name behind the path of a directory -/

section Child

variable {before : List Text} {around : Location}

theorem isTurn_eq_false (ok : Path.IsName name) : isTurn name = false := by
  rw [isTurn, ok.noIdle, Bool.false_or]
  exact beq_eq_false_iff_ne.mpr ok.notAbove

theorem origin_child (nonempty : path ≠ []) (noSlash : '/' ∉ name) :
    origin here (path.child name) = origin here path := by
  rw [origin, origin, Path.child, Path.not_isAbsolute_of_noSlash noSlash,
    if_neg Bool.false_ne_true]
  split <;> rw [Path.isAbsolute_append nonempty]

/-- The pieces before the name lead to the directory: they are its own, without an empty one at
the end. -/
theorem exists_pieces_child (nonempty : path ≠ []) (noSlash : '/' ∉ name) :
    ∃ before, Path.pieces (path.child name) = before ++ [name] ∧
      (Path.pieces path = before ∨ Path.pieces path = before ++ [[]]) := by
  have alone : splitAt '/' name = [name] := splitAt_of_not_mem noSlash
  have full : path.isEmpty = false := by simpa using nonempty
  rw [Path.child, Path.not_isAbsolute_of_noSlash noSlash, full, if_neg Bool.false_ne_true,
    Bool.false_or]
  by_cases slashed : endsWith ['/'] path = true
  · obtain ⟨front, rfl⟩ : ['/'] <:+ path := by simpa [endsWith] using slashed
    rw [if_pos slashed, Path.pieces, List.append_assoc, List.singleton_append,
      splitAt_append_cons, alone]
    exact ⟨_, rfl, Or.inr (by rw [Path.pieces, splitAt_append_cons]; rfl)⟩
  · rw [if_neg slashed, Path.pieces, splitAt_append_cons, alone]
    exact ⟨_, rfl, Or.inl rfl⟩

/-- Following the path of a directory ends where following it without the slash at its end does. -/
theorem follow_front (inside : tree.entryAt around = some .directory)
    (same : Path.pieces path = before ∨ Path.pieces path = before ++ [[]]) :
    tree.follow (origin here path) (Path.pieces path) = .ok around ↔
      tree.follow (origin here path) before = .ok around := by
  rcases same with same | same
  · rw [same]
  · rw [same, follow_concat_eq_ok]
    constructor
    · rintro ⟨last, followed, -, -, rfl⟩
      exact followed
    · intro followed
      exact ⟨around, followed, inside, rfl, rfl⟩

theorem leadsInto_child (ok : Path.IsName name)
    (found : tree.find here path = .ok (around, .directory)) :
    LeadsInto tree here (path.child name) around name := by
  obtain ⟨located, inside⟩ := find_eq_ok.mp found
  obtain ⟨possible, followed⟩ := locate_eq_ok.mp located
  have nonempty : path ≠ [] := by
    rintro rfl
    simp [checkPath] at possible
  obtain ⟨before, cut, same⟩ := exists_pieces_child nonempty ok.noSlash
  refine ⟨⟨before, cut, ?_⟩, inside, isTurn_eq_false ok⟩
  rw [origin_child nonempty ok.noSlash]
  exact (follow_front inside same).mp followed

/-- A name behind the path of a directory is located in it. -/
theorem locateFile_child (ok : Path.IsName name)
    (found : tree.find here path = .ok (around, .directory)) :
    tree.locateFile here (path.child name) = .ok place ↔
      checkPath (path.child name) = .ok () ∧ checkName name = .ok () ∧ place = name :: around := by
  have into := leadsInto_child ok found
  rw [locateFile_eq_ok]
  refine and_congr_right fun _ => ?_
  constructor
  · rintro ⟨other, last, rfl, ⟨⟨front, cut, followed⟩, -, -⟩, short⟩
    obtain ⟨before, cut', followed'⟩ := into.leads
    obtain ⟨rfl, same⟩ := List.append_inj' (cut.symm.trans cut') rfl
    obtain ⟨rfl, -⟩ := List.cons.inj same
    rw [followed, Except.ok.injEq] at followed'
    exact ⟨short, by rw [followed']⟩
  · rintro ⟨short, rfl⟩
    exact ⟨around, name, rfl, into, short⟩

/-- A name behind the path of a directory leads to what the directory holds under it. -/
theorem find_child {entry : FileEntry} (ok : Path.IsName name)
    (found : tree.find here path = .ok (around, .directory)) :
    tree.find here (path.child name) = .ok (place, entry) ↔
      checkPath (path.child name) = .ok () ∧ checkName name = .ok () ∧ place = name :: around ∧
        tree.entryAt (name :: around) = some entry := by
  have into := leadsInto_child ok found
  obtain ⟨before, cut, followed⟩ := into.leads
  rw [find_eq_ok, locate_eq_ok, cut, follow_concat_eq_ok]
  constructor
  · rintro ⟨⟨possible, other, followed', -, short, rfl⟩, held⟩
    rw [followed, Except.ok.injEq] at followed'
    subst followed'
    rw [move_of_not_isTurn into.noTurn] at held ⊢
    exact ⟨possible, short, rfl, held⟩
  · rintro ⟨possible, short, rfl, held⟩
    exact ⟨⟨possible, around, followed, into.inside, short,
      (move_of_not_isTurn into.noTurn).symm⟩, held⟩

theorem byteLength_append (s t : Text) : byteLength (s ++ t) = byteLength s + byteLength t := by
  induction s with
  | nil => simp [byteLength]
  | cons c s ih =>
      rw [List.cons_append, byteLength, byteLength, ih]
      omega

theorem byteLength_le_of_sublist {s t : Text} (within : List.Sublist s t) :
    byteLength s ≤ byteLength t := by
  induction within with
  | slnil => exact Nat.le_refl _
  | cons c _ ih =>
      rw [byteLength]
      omega
  | cons_cons c _ ih =>
      rw [byteLength, byteLength]
      omega

theorem checkPath_eq_ok : checkPath path = .ok () ↔
    '\x00' ∉ path ∧ path ≠ [] ∧ byteLength path ≤ longestPath := by
  rw [checkPath]
  by_cases nul : '\x00' ∈ path
  · simp [nul]
  · by_cases empty : path = []
    · simp [empty]
    · by_cases long : longestPath < byteLength path
      · simp [nul, empty, long]
      · simp [nul, empty, long, Nat.le_of_not_lt long]

/-- What is left of a path can be a path. -/
theorem checkPath_of_sublist {whole : Path} (possible : checkPath whole = .ok ())
    (within : List.Sublist path whole) (nonempty : path ≠ []) : checkPath path = .ok () := by
  rw [checkPath_eq_ok] at possible ⊢
  exact ⟨fun member => possible.1 (within.subset member), nonempty,
    Nat.le_trans (byteLength_le_of_sublist within) possible.2.2⟩

theorem checkName_eq_ok : checkName name = .ok () ↔ byteLength name ≤ longestName := by
  rw [checkName]
  by_cases long : longestName < byteLength name
  · simp [long]
  · simp [long, Nat.le_of_not_lt long]

/-- The name comes behind the path as it is written, with a slash between them if there is none. -/
theorem exists_child_eq_append (path : Path) (noSlash : '/' ∉ name) :
    ∃ slash, path.child name = path ++ (slash ++ name) ∧ (slash = [] ∨ slash = ['/']) := by
  rw [Path.child, Path.not_isAbsolute_of_noSlash noSlash, if_neg Bool.false_ne_true]
  split
  · exact ⟨[], rfl, Or.inl rfl⟩
  · exact ⟨['/'], rfl, Or.inr rfl⟩

/-- If something is found under a name behind a path, the path leads to a directory. -/
theorem exists_of_find_child {entry : FileEntry} (nonempty : path ≠ []) (ok : Path.IsName name)
    (found : tree.find here (path.child name) = .ok (place, entry)) :
    ∃ around, tree.find here path = .ok (around, .directory) := by
  obtain ⟨before, cut, same⟩ := exists_pieces_child nonempty ok.noSlash
  rw [find_eq_ok, locate_eq_ok, cut, origin_child nonempty ok.noSlash, follow_concat_eq_ok] at found
  obtain ⟨⟨possible, around, followed, inside, -, -⟩, -⟩ := found
  obtain ⟨slash, whole, -⟩ := exists_child_eq_append path ok.noSlash
  rw [whole, checkPath_eq_ok, byteLength_append, List.mem_append, not_or] at possible
  have reachable : checkPath path = .ok () :=
    checkPath_eq_ok.mpr ⟨possible.1.1, nonempty, by omega⟩
  have located : tree.locate here path = .ok around :=
    locate_eq_ok.mpr ⟨reachable, (follow_front inside same).mpr followed⟩
  exact ⟨around, find_of_locate located inside⟩

/-- Behind the path of a directory only the lengths of a name and of its path matter. -/
theorem checkPath_child (ok : Path.IsName name) (noNul : '\x00' ∉ name)
    (possible : checkPath path = .ok ()) :
    checkPath (path.child name) = .ok () ↔ byteLength (path.child name) ≤ longestPath := by
  obtain ⟨slash, whole, kind⟩ := exists_child_eq_append path ok.noSlash
  obtain ⟨pathNoNul, nonempty, -⟩ := checkPath_eq_ok.mp possible
  have slashNoNul : '\x00' ∉ slash := by rcases kind with rfl | rfl <;> decide
  rw [checkPath_eq_ok, whole]
  simp [pathNoNul, nonempty, slashNoNul, noNul]

end Child

end SlideDeck.FileTree
