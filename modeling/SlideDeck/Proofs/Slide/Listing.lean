import SlideDeck.Proofs.Slide.Fence
import SlideDeck.Proofs.Slide.Segments

/-!
# Slides that hold a listing

A block of code stands between a fence and the next one, or the end of the content (`Fenced`). The
writer finds these blocks and no others: what it takes for code are the lines between the two
fences, under the tag of the first (`exists_code_iff`).

A body begins a listing just where a block is written as one (`begins_listing_iff`). Neither running
text nor the picture of a diagram can spell the command that begins it, whatever they hold, since
they escape the backslash. So a content has a listing if it has a block of code with text in it that
is no diagram, and only then (`begins_listing_iff_exists_fenced`).
-/

set_option autoImplicit false

namespace SlideDeck.Slide

open SlideDeck SlideDeck.Text SlideDeck.Latex SlideDeck.Markdown

/-! ## Blocks of code in a content -/

/-- The lines `code` are a block of code with the tag: a fence with the tag opens it, and it reaches
to the next fence or to the end of the content. A fence opens a block if those before it come in
pairs. -/
def Fenced (content : List Text) (tag : Text) (code : List Text) : Prop :=
  ∃ before opening behind, content = before ++ opening :: (code ++ behind) ∧
    Even (before.countP isFence) ∧ (fenceTag? opening).map trim = some tag ∧
    (∀ line ∈ code, isFence line = false) ∧ ∀ line ∈ behind.head?, isFence line = true

/-- The tag that the writer gives to code under a fence with the tag. -/
def writtenTag (tag : Text) : Text := if tag.isEmpty then untagged else tag

/-- Code that is `acc` and the lines up to the next fence. -/
def GoesOn (acc ls code : List Text) : Prop :=
  ∃ own behind, ls = own ++ behind ∧ code = acc ++ own ∧ (∀ line ∈ own, isFence line = false) ∧
    ∀ line ∈ behind.head?, isFence line = true

/-- A block of code in the lines, where `inside` tells whether the first is inside of code. -/
def FencedFrom (inside : Bool) (ls : List Text) (tag : Text) (code : List Text) : Prop :=
  ∃ before opening behind, ls = before ++ opening :: behind ∧ insideBehind inside before = false ∧
    (fenceTag? opening).map trim = some tag ∧ GoesOn [] behind code

theorem fencedFrom_false_iff {content : List Text} {tag : Text} {code : List Text} :
    FencedFrom false content tag code ↔ Fenced content tag code := by
  constructor
  · rintro ⟨before, opening, _, rfl, outside, tagged, own, behind, rfl, rfl, noFence, ended⟩
    exact ⟨before, opening, behind, rfl, insideBehind_iff.mp outside, tagged, noFence, ended⟩
  · rintro ⟨before, opening, behind, rfl, even, tagged, noFence, ended⟩
    exact ⟨before, opening, _, rfl, insideBehind_iff.mpr even, tagged, code, behind,
      rfl, rfl, noFence, ended⟩

section Cons

variable {inside : Bool} {line : Text} {acc rest code : List Text} {tag : Text}

theorem goesOn_nil : GoesOn acc [] code ↔ code = acc := by
  constructor
  · rintro ⟨own, behind, empty, rfl, -⟩
    rw [(List.append_eq_nil_iff.mp empty.symm).1, List.append_nil]
  · rintro rfl
    exact ⟨[], [], rfl, (List.append_nil code).symm, nofun, nofun⟩

theorem goesOn_fence (fence : isFence line = true) :
    GoesOn acc (line :: rest) code ↔ code = acc := by
  constructor
  · rintro ⟨own, behind, whole, rfl, noFence, -⟩
    cases own with
    | nil => exact List.append_nil acc
    | cons first own =>
        obtain ⟨rfl, -⟩ := List.cons.inj whole
        rw [noFence line List.mem_cons_self] at fence
        cases fence
  · rintro rfl
    refine ⟨[], line :: rest, rfl, (List.append_nil code).symm, nofun, ?_⟩
    rintro _ ⟨⟩
    exact fence

theorem goesOn_line (noFence : isFence line = false) :
    GoesOn acc (line :: rest) code ↔ GoesOn (acc ++ [line]) rest code := by
  constructor
  · rintro ⟨own, behind, whole, rfl, each, ended⟩
    cases own with
    | nil =>
        rw [List.nil_append] at whole
        rw [ended line (by simp [← whole])] at noFence
        cases noFence
    | cons first own =>
        obtain ⟨rfl, rfl⟩ := List.cons.inj whole
        exact ⟨own, behind, rfl, List.append_cons .., (List.forall_mem_cons.mp each).2, ended⟩
  · rintro ⟨own, behind, rfl, rfl, each, ended⟩
    exact ⟨line :: own, behind, rfl, (List.append_cons ..).symm,
      List.forall_mem_cons.mpr ⟨noFence, each⟩, ended⟩

/-- A block of code begins with the first line, if that is a fence outside of code, or behind it. -/
theorem fencedFrom_cons : FencedFrom inside (line :: rest) tag code ↔
    (inside = false ∧ (fenceTag? line).map trim = some tag ∧ GoesOn [] rest code) ∨
      FencedFrom (insideAfter inside line) rest tag code := by
  constructor
  · rintro ⟨before, opening, behind, whole, outside, tagged, goesOn⟩
    cases before with
    | nil =>
        obtain ⟨rfl, rfl⟩ := List.cons.inj whole
        exact .inl ⟨outside, tagged, goesOn⟩
    | cons first before =>
        obtain ⟨rfl, rfl⟩ := List.cons.inj whole
        exact .inr ⟨before, opening, behind, rfl, outside, tagged, goesOn⟩
  · rintro (⟨outside, tagged, goesOn⟩ | ⟨before, opening, behind, rfl, outside, tagged, goesOn⟩)
    · exact ⟨[], line, rest, rfl, outside, tagged, goesOn⟩
    · exact ⟨line :: before, opening, behind, rfl, outside, tagged, goesOn⟩

end Cons

/-! ## The blocks of code that the writer finds -/

theorem LineKind.of_eq_fence_iff {line tag : Text} :
    LineKind.of line = .fence tag ↔ (fenceTag? line).map trim = some tag := by
  cases found : fenceTag? line with
  | some behind => simp [LineKind.of, found]
  | none =>
      have noFence : (LineKind.of line).isFence = false := by
        rw [LineKind.isFence_of, Markdown.isFence, found]
        rfl
      refine iff_of_false (fun same => ?_) (by simp)
      rw [same] at noFence
      cases noFence

/-- Outside of code, a fence opens code under its tag, and nothing else does. -/
theorem Opened.meet_eq_code_iff {opened : Opened} (outside : opened.isCode = false) {line : Text}
    {tag : Text} {acc : List Text} :
    (opened.meet (LineKind.of line)).2 = .code tag acc ↔
      ∃ own, (fenceTag? line).map trim = some own ∧ tag = writtenTag own ∧ acc = [] := by
  simp only [← LineKind.of_eq_fence_iff]
  constructor
  · intro same
    have fence := Opened.isCode_meet outside (LineKind.of line)
    rw [same] at fence
    cases kind : LineKind.of line with
    | fence own =>
        rw [kind] at same
        cases same
        exact ⟨own, rfl, rfl, rfl⟩
    | _ =>
        rw [kind] at fence
        cases fence
  · rintro ⟨own, kind, rfl, rfl⟩
    rw [kind]
    rfl

/-- **What the writer takes for code is what stands between fences.** Behind what is open, it finds
the lines that go on with open code, and the blocks of code in the lines. -/
theorem exists_code_iff {opened : Opened} {ls : List Text} {tag : Text} {code : List Text} :
    (∃ closed, Block.code tag code closed ∈ blocksFrom opened ls) ↔
      (∃ acc, opened = .code tag acc ∧ GoesOn acc ls code) ∨
        ∃ own, tag = writtenTag own ∧ FencedFrom opened.isCode ls own code := by
  induction ls generalizing opened with
  | nil =>
      have unfenced : ∀ own, ¬ FencedFrom opened.isCode [] own code := by
        rintro own ⟨before, opening, behind, empty, -⟩
        simp at empty
      simp only [unfenced, and_false, exists_false, or_false, goesOn_nil, blocksFrom]
      cases opened <;> simp [Opened.blocks, eq_comm]
  | cons line ls ih =>
      have rest : blocksFrom opened (line :: ls) =
          (opened.step line).1 ++ blocksFrom (opened.step line).2 ls := rfl
      simp only [rest, List.mem_append, exists_or, ih, opened.isCode_step, fencedFrom_cons]
      cases inside : opened.isCode with
      | true =>
          cases opened with
          | code openTag acc =>
              cases fence : isFence line with
              | true => simp [Opened.step, fence, goesOn_fence fence, eq_comm]
              | false => simp [Opened.step, fence, goesOn_line fence]
          | _ => cases inside
      | false =>
          have noCode :
              ∀ closed, Block.code tag code closed ∉ (opened.meet (LineKind.of line)).1 := by
            intro closed member
            have other := Opened.isCode_of_mem_meet inside member
            cases other
          have noneOpen : ∀ acc, opened ≠ .code tag acc := by
            rintro acc rfl
            cases inside
          simp only [opened.step_of_not_isCode inside, noCode, Opened.meet_eq_code_iff inside,
            noneOpen, false_and, exists_false, false_or, true_and]
          constructor
          · rintro (⟨_, ⟨own, tagged, same, rfl⟩, goesOn⟩ | ⟨own, same, later⟩)
            · exact ⟨own, same, .inl ⟨tagged, goesOn⟩⟩
            · exact ⟨own, same, .inr later⟩
          · rintro ⟨own, same, ⟨tagged, goesOn⟩ | later⟩
            · exact .inl ⟨[], ⟨own, tagged, same, rfl⟩, goesOn⟩
            · exact .inr ⟨own, same, later⟩

/-! ## The command that begins a listing -/

theorem listing?_ne_none_iff {block : Block} :
    block.listing? ≠ none ↔ ∃ tag code closed, block = .code tag code closed ∧ tag ≠ diagramTag ∧
      ∃ line ∈ code, isBlankText line = false := by
  simp only [← dropBlankEnds_ne_nil_iff]
  cases block with
  | code tag code closed => simp [Block.listing?, and_comm]
  | _ => simp [Block.listing?]

/-- A body begins a listing just where a block is written as one. -/
theorem begins_listing_iff (content : List Text) :
    beginEnvironment listing <:+: body content ↔ ∃ block ∈ blocksOf content,
      block.listing? ≠ none := by
  have kept : beginEnvironment listing ≠ [] ∧ '\n' ∉ beginEnvironment listing ∧
      ∀ c ∈ beginEnvironment listing, isBlank c = false := by decide
  obtain ⟨nonempty, oneLine, visible⟩ := kept
  constructor
  · intro occurs
    have whole := occurs.trans (trim_isInfix _)
    obtain ⟨part, member, here⟩ := exists_line_of_isInfix nonempty oneLine whole
    obtain ⟨block, inside, isPart⟩ := List.mem_flatMap.mp member
    refine ⟨block, inside, fun noListing => ?_⟩
    exact not_isInfix_part (by decide) noListing (fun same => absurd same (by decide))
      part isPart here
  · rintro ⟨block, member, isListing⟩
    obtain ⟨⟨option, code⟩, found⟩ := Option.ne_none_iff_exists'.mp isListing
    obtain ⟨-, -, -, -, -, -, -, parts⟩ := listing?_eq_some found
    have begins : beginEnvironment listing ++ option ∈ (blocksOf content).flatMap Block.parts :=
      List.mem_flatMap.mpr ⟨block, member, parts ▸ List.mem_cons_self⟩
    exact isInfix_trim visible (isInfix_unlines begins (List.prefix_append _ option).isInfix)

/-- **A content has a listing just if it has fenced code with text that is no diagram.** -/
theorem begins_listing_iff_exists_fenced (content : List Text) :
    beginEnvironment listing <:+: body content ↔ ∃ tag code, Fenced content tag code ∧
      tag ≠ diagramTag ∧ ∃ line ∈ code, isBlankText line = false := by
  have ordinary : ∀ tag, writtenTag tag ≠ diagramTag ↔ tag ≠ diagramTag := by
    intro tag
    have fixed : untagged ≠ diagramTag ∧ [] ≠ diagramTag := by decide
    rw [writtenTag]
    split
    · next empty => simp [List.isEmpty_iff.mp empty, fixed]
    · rfl
  have codes : ∀ tag code, (∃ closed, Block.code tag code closed ∈ blocksOf content) ↔
      ∃ own, tag = writtenTag own ∧ Fenced content own code := by
    intro tag code
    rw [blocksOf, exists_code_iff]
    simp only [Opened.isCode, fencedFrom_false_iff, reduceCtorEq, false_and, exists_false, false_or]
  rw [begins_listing_iff]
  simp only [listing?_ne_none_iff]
  constructor
  · rintro ⟨_, member, tag, code, closed, rfl, isOrdinary, visible⟩
    obtain ⟨own, rfl, fenced⟩ := (codes tag code).mp ⟨closed, member⟩
    exact ⟨own, code, fenced, (ordinary own).mp isOrdinary, visible⟩
  · rintro ⟨own, code, fenced, isOrdinary, visible⟩
    obtain ⟨closed, member⟩ := (codes _ code).mpr ⟨own, rfl, fenced⟩
    exact ⟨_, member, _, code, closed, rfl, (ordinary own).mpr isOrdinary, visible⟩

end SlideDeck.Slide
