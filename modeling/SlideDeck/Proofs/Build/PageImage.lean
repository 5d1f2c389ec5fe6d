import SlideDeck.Proofs.Build.DirectorySearch
import SlideDeck.Proofs.Path.Extension
import SlideDeck.Proofs.Text.Number

/-!
# The images that are found

An image of a page is recognised by its name: the stem, a number behind a hyphen or no number at
all, and the ending (`number?_eq_some_iff`). Where a search lists what a directory holds, it finds
the images among the names of the directory, each of them once (`mem_findAll`, `nodup_paths`), by
number and then by path (`pairwise_findAll`).
-/

set_option autoImplicit false

namespace SlideDeck.PageImage

open SlideDeck.Text SlideDeck.FileTree

variable {stem name : Text} {number : Nat} {tree : FileTree} {here : Location} {directory : Path}
  {image : PageImage}

/-! ## Names -/

/-- The names of the image of a page: the stem, the number of the page behind a hyphen, and the
ending. The image of a single page may go without a number. -/
inductive IsImage (stem : Text) : Text → Nat → Prop
  | single : IsImage stem (stem ++ suffix) 1
  | page {digits : Text} {number : Nat} (written : WritesNat digits number)
      (small : number < bound32) : IsImage stem (stem ++ '-' :: digits ++ suffix) number

theorem numberOf?_eq_some_iff {rest : Text} : numberOf? rest = some number ↔
    rest = [] ∧ number = 1 ∨
      ∃ digits, rest = '-' :: digits ∧ WritesNat digits number ∧ number < bound32 := by
  unfold numberOf?
  split
  · simp [eq_comm]
  · simp [nat32?, boundedNat?_eq_some_iff]
  · next notEmpty noHyphen =>
      simp only [reduceCtorEq, false_iff, not_or, not_and, not_exists]
      exact ⟨fun empty => absurd empty notEmpty, fun digits same => absurd same (noHyphen digits)⟩

/-- Between the stem and the ending stands what gives the number. -/
theorem number?_append (nonempty : stem ≠ []) (rest : Text) :
    number? stem (stem ++ rest ++ suffix) = numberOf? rest := by
  have parted : Path.splitName (stem ++ rest ++ suffix) = (stem ++ rest, some "png".toList) :=
    Path.splitName_eq_some_iff.mpr ⟨rfl, by simp [nonempty], by decide⟩
  have begins : startsWith stem (stem ++ rest ++ suffix) = true := by
    simp [startsWith, List.append_assoc]
  have ends : endsWith suffix ((stem ++ rest ++ suffix).drop stem.length) = true := by
    simp [endsWith, List.append_assoc]
  rw [number?, begins, ends, parted, skip?_eq_some_iff.mpr rfl]
  rfl

/-- **The recogniser takes exactly the names of images.** -/
theorem number?_eq_some_iff (nonempty : stem ≠ []) :
    number? stem name = some number ↔ IsImage stem name number := by
  constructor
  · intro found
    have checked := found
    rw [number?, Option.ite_none_right_eq_some, Bool.and_eq_true, startsWith,
      List.isPrefixOf_iff_prefix] at checked
    obtain ⟨⟨⟨behind, rfl⟩, ends⟩, -⟩ := checked
    rw [List.drop_left, endsWith, List.isSuffixOf_iff_suffix] at ends
    obtain ⟨rest, rfl⟩ := ends
    rw [← List.append_assoc, number?_append nonempty, numberOf?_eq_some_iff] at found
    rw [← List.append_assoc]
    rcases found with ⟨rfl, rfl⟩ | ⟨digits, rfl, written, small⟩
    · rw [List.append_nil]
      exact .single
    · exact .page written small
  · rintro (_ | ⟨written, small⟩)
    · have whole : stem ++ suffix = stem ++ [] ++ suffix := by simp
      rw [whole, number?_append nonempty]
      rfl
    · rw [number?_append nonempty]
      exact numberOf?_eq_some_iff.mpr (Or.inr ⟨_, rfl, written, small⟩)

/-- The name of an image is that of an entry. -/
theorem IsImage.isName (image : IsImage stem name number) (nonempty : stem ≠ [])
    (noSlash : '/' ∉ stem) :
    Path.IsName name := by
  obtain ⟨rest, rfl, plain⟩ : ∃ rest, name = stem ++ rest ++ suffix ∧ '/' ∉ rest := by
    rcases image with _ | ⟨written, -⟩
    · exact ⟨[], by simp, by simp⟩
    · refine ⟨'-' :: _, rfl, ?_⟩
      rw [List.mem_cons, not_or]
      refine ⟨by decide, fun member => ?_⟩
      rcases written.isDigit_or_plus '/' member with digit | same
      · exact absurd digit (by decide)
      · exact absurd same (by decide)
  have last : (stem ++ rest ++ suffix).getLast? = some 'g' := by simp [suffix]
  refine ⟨?_, ?_, ?_⟩
  · simp [noSlash, plain, suffix]
  · rw [← Bool.not_eq_true, Path.isIdle_iff]
    rintro (empty | same)
    · simp [nonempty] at empty
    · rw [same] at last
      exact absurd last (by decide)
  · intro same
    rw [same] at last
    exact absurd last (by decide)

/-! ## What is found -/

theorem findAll_eq (lists : Lists here directory) :
    findAll tree here directory stem = ((held tree here directory).filterMap fun name =>
      (number? stem name).map fun number =>
        ⟨number, below (arrival directory) name⟩).mergeSort le := by
  rw [← lists tree, listed, findAll]
  cases found : searched? tree here directory with
  | none => simp
  | some place =>
      rw [eq_arrival_of_searched? found]
      rfl

/-- **What is found are the images among the names of the directory.** -/
theorem mem_findAll (lists : Lists here directory) (nonempty : stem ≠ []) :
    image ∈ findAll tree here directory stem ↔
      ∃ name, IsImage stem name image.number ∧ name ∈ held tree here directory ∧
        image.path = below (arrival directory) name := by
  rw [findAll_eq lists, List.mem_mergeSort, List.mem_filterMap]
  simp only [Option.map_eq_some_iff, number?_eq_some_iff nonempty]
  constructor
  · rintro ⟨name, member, number, isImage, rfl⟩
    exact ⟨name, isImage, member, rfl⟩
  · rintro ⟨name, isImage, member, same⟩
    exact ⟨name, member, image.number, isImage, by rw [← same]⟩

/-- Each image is found once. -/
theorem nodup_paths (lists : Lists here directory) (nonempty : stem ≠ []) (noSlash : '/' ∉ stem) :
    ((findAll tree here directory stem).map PageImage.path).Nodup := by
  rw [findAll_eq lists, ((List.mergeSort_perm _ le).map PageImage.path).nodup_iff,
    List.map_filterMap]
  refine (nodup_held tree here directory).filterMap fun name other path first second => ?_
  simp only [Option.mem_def, Option.map_eq_some_iff, number?_eq_some_iff nonempty] at first second
  obtain ⟨_, ⟨_, isImage, rfl⟩, same⟩ := first
  obtain ⟨_, ⟨_, isImage', rfl⟩, same'⟩ := second
  exact eq_of_below_eq (isImage.isName nonempty noSlash).noSlash
    (isImage'.isName nonempty noSlash).noSlash
    (same.trans same'.symm)

/-! ## The order of images -/

theorem le_iff {a b : PageImage} : le a b = true ↔
    a.number < b.number ∨ a.number = b.number ∧ Text.le a.path b.path = true := by
  simp [le]

theorem le_total (a b : PageImage) : (le a b || le b a) = true := by
  rw [Bool.or_eq_true, le_iff, le_iff]
  have paths := Text.le_total a.path b.path
  rw [Bool.or_eq_true] at paths
  rcases Nat.lt_trichotomy a.number b.number with less | same | more
  · exact Or.inl (Or.inl less)
  · exact paths.imp (fun first => Or.inr ⟨same, first⟩) fun second => Or.inr ⟨same.symm, second⟩
  · exact Or.inr (Or.inl more)

theorem le_trans (a b c : PageImage) (first : le a b = true) (second : le b c = true) :
    le a c = true := by
  rw [le_iff] at first second ⊢
  rcases first with less | ⟨same, first⟩
  · exact Or.inl (by omega)
  · rcases second with less | ⟨same', second⟩
    · exact Or.inl (by omega)
    · exact Or.inr ⟨same.trans same', Text.le_trans first second⟩

/-- **Images are found by number, and then by path.** -/
theorem pairwise_findAll (tree : FileTree) (here : Location) (directory : Path) (stem : Text) :
    (findAll tree here directory stem).Pairwise fun a b =>
      a.number < b.number ∨ a.number = b.number ∧ Text.le a.path b.path = true := by
  rw [findAll]
  split
  · exact List.Pairwise.nil
  · exact (List.pairwise_mergeSort le_trans le_total _).imp le_iff.mp

end SlideDeck.PageImage
