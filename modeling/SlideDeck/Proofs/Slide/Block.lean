import SlideDeck.Proofs.Markdown.Fences
import SlideDeck.Slide.Block

/-!
# Where the text of blocks comes from

A block holds texts, which are formatted, and code, which is not. Each text is a part of a
line of the content (`LineKind.texts_subset`), and each line of code stands between fences
in it: reading blocks and looking for fences agree on what is code
(`Block.holds_of_mem_blocksOf`).
-/

set_option autoImplicit false

namespace SlideDeck.Slide

open SlideDeck SlideDeck.Text SlideDeck.Markdown

/-! ## The texts of a line -/

/-- The texts that a line brings into a block. -/
def LineKind.texts : LineKind → List Text
  | .row cells => cells
  | .item _ text | .minorHeading text | .majorHeading text | .quote text | .paragraph text => [text]
  | .fence _ | .separator | .blank => []

/-- Whether the line is a fence. -/
def LineKind.isFence : LineKind → Bool
  | .fence _ => true
  | _ => false

theorem dropEmptyFirst_subset (cells : List Text) : Table.dropEmptyFirst cells ⊆ cells := by
  rw [Table.dropEmptyFirst.eq_def]
  split
  · exact List.subset_cons_self _ _
  · exact List.Subset.refl _

theorem dropEmptyLast_subset (cells : List Text) : Table.dropEmptyLast cells ⊆ cells := by
  fun_induction Table.dropEmptyLast cells with
  | case1 => exact List.Subset.refl _
  | case2 => exact List.nil_subset _
  | case3 cell cells _ ih => exact List.cons_subset_cons cell ih

theorem subset_of_mem_cellsOf {line cell : Text} (member : cell ∈ Table.cellsOf line) :
    cell ⊆ line := by
  have found := dropEmptyFirst_subset _ (dropEmptyLast_subset _ member)
  obtain ⟨piece, inside, rfl⟩ := List.mem_map.mp found
  exact trim_subset (List.Subset.trans (subset_of_mem_splitAt inside)
    (trim_subset (List.Subset.refl line)))

theorem itemText?_subset {behind text : Text} (found : itemText? behind = some text) :
    text ⊆ behind := by
  rw [itemText?.eq_def] at found
  split at found
  · cases found
  · simp only at found
    split at found
    · cases found
      exact trim_subset (trimStart_isSuffix _).subset
    · cases found

theorem bulleted?_subset {line text : Text} (found : bulleted? line = some text) : text ⊆ line := by
  rw [bulleted?] at found
  split at found
  · next c behind leading =>
      split at found
      · have part : behind ⊆ trimStart line := leading ▸ List.subset_cons_self c behind
        exact List.Subset.trans (List.Subset.trans (itemText?_subset found) part)
          (trimStart_isSuffix line).subset
      · cases found
  · cases found

theorem numbered?_subset {line text : Text} (found : numbered? line = some text) : text ⊆ line := by
  rw [numbered?] at found
  split at found
  · next d digits behind _ rest =>
      have part : behind ⊆ (trimStart line).dropWhile isDecimalDigit :=
        rest ▸ List.subset_cons_self '.' behind
      have whole : (trimStart line).dropWhile isDecimalDigit ⊆ line :=
        ((List.dropWhile_suffix _).trans (trimStart_isSuffix line)).subset
      exact List.Subset.trans (List.Subset.trans (itemText?_subset found) part) whole
  · cases found

theorem LineKind.ofText_texts_subset (line : Text) : ∀ text ∈ (ofText line).texts, text ⊆ line := by
  intro text member
  rw [ofText] at member
  split at member
  · next found =>
      rw [List.mem_singleton.mp member]
      exact trim_subset (subset_of_skip? found)
  · split at member
    · next found =>
        rw [List.mem_singleton.mp member]
        exact trim_subset (subset_of_skip? found)
    · split at member
      · next found =>
          rw [List.mem_singleton.mp member]
          exact trim_subset (subset_of_skip? found)
      · rw [List.mem_singleton.mp member]
        exact List.Subset.refl line

theorem LineKind.texts_subset (line : Text) : ∀ text ∈ (LineKind.of line).texts, text ⊆ line := by
  intro text member
  rw [LineKind.of] at member
  split at member
  · cases member
  · split at member
    · split at member
      · cases member
      · exact subset_of_mem_cellsOf member
    · split at member
      · cases member
      · split at member
        · next found =>
            rw [List.mem_singleton.mp member]
            exact bulleted?_subset found
        · split at member
          · next found =>
              rw [List.mem_singleton.mp member]
              exact numbered?_subset found
          · exact List.Subset.trans (ofText_texts_subset _ text member)
              (trim_subset (List.Subset.refl line))

/-- Both readers see the same fences. -/
theorem LineKind.isFence_of (line : Text) : (LineKind.of line).isFence = Markdown.isFence line := by
  have running : ∀ s, (ofText s).isFence = false := by
    intro s
    rw [ofText]
    repeat' split
    all_goals rfl
  rw [LineKind.of, Markdown.isFence]
  split
  · next found =>
      rw [found]
      rfl
  · next quiet =>
      rw [quiet]
      repeat' split
      all_goals first | rfl | exact running _

/-! ## The texts of a block -/

/-- The texts of a block that are formatted. -/
def Block.texts : Block → List Text
  | .list _ items => items
  | .table rows => rows.flatten
  | .code .. => []
  | .minorHeading text | .majorHeading text | .quote text | .paragraph text => [text]

/-- The lines of a block that are code. -/
def Block.codeLines : Block → List Text
  | .code _ lines _ => lines
  | _ => []

/-- The lines of a block that are typeset as they are: code, unless it is a diagram. -/
def Block.listed : Block → List Text
  | .code tag lines _ => if tag = diagramTag then [] else lines
  | _ => []

/-- The lines of a content that are typeset as they are. -/
def listedLines (content : List Text) : List Text := (blocksOf content).flatMap Block.listed

/-- Whether the open block is code. -/
def Opened.isCode : Opened → Bool
  | .code .. => true
  | _ => false

/-- Something is left of code if a line of it is not blank. -/
theorem dropBlankEnds_ne_nil_iff {ls : List Text} :
    dropBlankEnds ls ≠ [] ↔ ∃ line ∈ ls, isBlankText line = false := by
  have blank : dropBlankEnds ls = [] ↔ ∀ line ∈ ls, isBlankText line = true := by
    rw [dropBlankEnds, List.reverse_eq_nil_iff, List.dropWhile_eq_nil_iff]
    constructor
    · intro allBlank
      refine List.dropWhile_eq_nil_iff.mp ?_
      cases left : ls.dropWhile isBlankText with
      | nil => rfl
      | cons first later =>
          have stopped := List.head?_dropWhile_not isBlankText ls
          have isBlank := allBlank first (by simp [left])
          simp [left, isBlank] at stopped
    · intro areBlank line member
      rw [List.dropWhile_eq_nil_iff.mpr areBlank] at member
      cases member
  rw [Ne, blank]
  simp

section Holds

variable {isText isCode : Text → Prop} {opened : Opened}

/-- The texts and the code of a block are of the given kinds. -/
structure Block.Holds (isText isCode : Text → Prop) (block : Block) : Prop where
  texts : ∀ text ∈ block.texts, isText text
  code : ∀ line ∈ block.codeLines, isCode line

/-- The open block, if there is one, holds texts and code of the given kinds. -/
def Opened.Holds (isText isCode : Text → Prop) (opened : Opened) : Prop :=
  ∀ block ∈ opened.blocks, block.Holds isText isCode

theorem Block.holds_list {kind : ListKind} {items : List Text} :
    (Block.list kind items).Holds isText isCode ↔ ∀ text ∈ items, isText text :=
  ⟨fun holds => holds.texts, fun texts => ⟨texts, by simp [codeLines]⟩⟩

theorem Block.holds_table {rows : List (List Text)} :
    (Block.table rows).Holds isText isCode ↔ ∀ text ∈ rows.flatten, isText text :=
  ⟨fun holds => holds.texts, fun texts => ⟨texts, by simp [codeLines]⟩⟩

theorem Block.holds_code {tag : Text} {lines : List Text} {closed : Bool} :
    (Block.code tag lines closed).Holds isText isCode ↔ ∀ line ∈ lines, isCode line :=
  ⟨fun holds => holds.code, fun code => ⟨by simp [Block.texts], code⟩⟩

theorem Opened.Holds.concat (holds : opened.Holds isText isCode) {last : Block}
    (lastHolds : last.Holds isText isCode) :
    ∀ block ∈ opened.blocks ++ [last], block.Holds isText isCode := by
  intro block member
  rcases List.mem_append.mp member with member | member
  · exact holds block member
  · rw [List.mem_singleton.mp member]
    exact lastHolds

/-- A line outside of code completes and opens blocks that hold its own texts and those of
the block that was open. -/
theorem Opened.Holds.meet (holds : opened.Holds isText isCode) {kind : LineKind}
    (texts : ∀ text ∈ kind.texts, isText text) :
    (∀ block ∈ (opened.meet kind).1, block.Holds isText isCode) ∧
      (opened.meet kind).2.Holds isText isCode := by
  have nothing : Opened.nothing.Holds isText isCode := by simp [Opened.Holds, Opened.blocks]
  cases kind with
  | fence tag => exact ⟨holds, by simp [Opened.meet, Opened.Holds, Opened.blocks, Block.holds_code]⟩
  | blank => exact ⟨holds, nothing⟩
  | minorHeading text =>
      have one : (Block.minorHeading text).Holds isText isCode := ⟨texts, by simp [Block.codeLines]⟩
      exact ⟨holds.concat one, nothing⟩
  | majorHeading text =>
      have one : (Block.majorHeading text).Holds isText isCode := ⟨texts, by simp [Block.codeLines]⟩
      exact ⟨holds.concat one, nothing⟩
  | quote text =>
      have one : (Block.quote text).Holds isText isCode := ⟨texts, by simp [Block.codeLines]⟩
      exact ⟨holds.concat one, nothing⟩
  | paragraph text =>
      have one : (Block.paragraph text).Holds isText isCode := ⟨texts, by simp [Block.codeLines]⟩
      exact ⟨holds.concat one, nothing⟩
  | separator =>
      cases opened with
      | table rows => exact ⟨by simp [Opened.meet], holds⟩
      | _ => exact ⟨holds, nothing⟩
  | row cells =>
      simp only [LineKind.texts] at texts
      have single : (Opened.table [cells]).Holds isText isCode := by
        simpa [Opened.Holds, Opened.blocks, Block.holds_table] using texts
      cases opened with
      | table rows =>
          refine ⟨by simp [Opened.meet], ?_⟩
          simp only [Opened.Holds, Opened.blocks, List.forall_mem_singleton, Block.holds_table,
            Opened.meet] at holds ⊢
          intro text member
          rw [List.flatten_append, List.mem_append] at member
          rcases member with member | member
          · exact holds text member
          · exact texts text (by simpa using member)
      | _ => exact ⟨holds, single⟩
  | item kind text =>
      have isOne : isText text := texts text (List.mem_singleton_self text)
      have single : (Opened.list kind [text]).Holds isText isCode := by
        simpa [Opened.Holds, Opened.blocks, Block.holds_list] using isOne
      cases opened with
      | list openKind items =>
          rw [Opened.meet]
          split
          · refine ⟨by simp, ?_⟩
            simp only [Opened.Holds, Opened.blocks, List.forall_mem_singleton,
              Block.holds_list] at holds ⊢
            intro other member
            rcases List.mem_append.mp member with member | member
            · exact holds other member
            · rw [List.mem_singleton.mp member]
              exact isOne
          · exact ⟨holds, single⟩
      | _ => exact ⟨holds, single⟩

/-- Outside of code, a line opens code exactly when it is a fence. -/
theorem Opened.isCode_meet (outside : opened.isCode = false) (kind : LineKind) :
    (opened.meet kind).2.isCode = kind.isFence := by
  cases opened with
  | code tag lines => cases outside
  | list openKind items =>
      cases kind with
      | item kind text =>
          rw [Opened.meet]
          split <;> rfl
      | _ => rfl
  | _ => cases kind <;> rfl

/-- One line: what stands between fences from here on stands there behind the line, or is the
line itself in the open block. -/
theorem Opened.Holds.step (holds : opened.Holds isText isCode) {line : Text} {rest : List Text}
    (texts : ∀ text, text ⊆ line → isText text)
    (code : ∀ found ∈ fencedFrom opened.isCode (line :: rest), isCode found) :
    (∀ block ∈ (opened.step line).1, block.Holds isText isCode) ∧
      (opened.step line).2.Holds isText isCode ∧
      ∀ found ∈ fencedFrom (opened.step line).2.isCode rest, isCode found := by
  cases outside : opened.isCode with
  | true =>
      cases opened with
      | code tag lines =>
          have kept : ∀ found ∈ lines, isCode found :=
            Block.holds_code.mp (holds _ (List.mem_singleton_self _))
          rw [outside, fencedFrom] at code
          rw [Opened.step]
          cases fence : isFence line with
          | true =>
              rw [fence] at code
              exact ⟨by simpa [Block.holds_code] using kept,
                by simp [Opened.Holds, Opened.blocks], code⟩
          | false =>
              simp only [fence, Bool.false_eq_true, if_false, if_true, List.forall_mem_cons] at code
              refine ⟨by simp, ?_, code.2⟩
              simp only [Bool.false_eq_true, if_false, Opened.Holds, Opened.blocks,
                List.forall_mem_singleton, Block.holds_code]
              intro found member
              rcases List.mem_append.mp member with member | member
              · exact kept found member
              · rw [List.mem_singleton.mp member]
                exact code.1
      | _ => cases outside
  | false =>
      have met := holds.meet fun text member => texts text (LineKind.texts_subset line text member)
      have same : opened.step line = opened.meet (LineKind.of line) := by
        cases opened with
        | code tag lines => cases outside
        | _ => rfl
      rw [same]
      refine ⟨met.1, met.2, ?_⟩
      rw [outside, fencedFrom] at code
      rw [Opened.isCode_meet outside, LineKind.isFence_of]
      cases fence : isFence line with
      | true => simpa [fence] using code
      | false => simpa [fence] using code

/-- The blocks of lines hold parts of the lines, and the code between their fences. -/
theorem holds_of_mem_blocksFrom (holds : opened.Holds isText isCode) {ls : List Text}
    (texts : ∀ line ∈ ls, ∀ text, text ⊆ line → isText text)
    (code : ∀ line ∈ fencedFrom opened.isCode ls, isCode line) :
    ∀ block ∈ blocksFrom opened ls, block.Holds isText isCode := by
  induction ls generalizing opened with
  | nil => exact holds
  | cons line ls ih =>
      rw [List.forall_mem_cons] at texts
      obtain ⟨done, next, later⟩ := holds.step texts.1 code
      intro block member
      rw [blocksFrom] at member
      rcases List.mem_append.mp member with member | member
      · exact done block member
      · exact ih next texts.2 later block member

end Holds

/-- The blocks of a content hold parts of its lines, and as code the lines between its
fences. -/
theorem Block.holds_of_mem_blocksOf {isText isCode : Text → Prop} {content : List Text}
    (texts : ∀ line ∈ content, ∀ text, text ⊆ line → isText text)
    (code : ∀ line ∈ fencedLines content, isCode line) :
    ∀ block ∈ blocksOf content, block.Holds isText isCode :=
  holds_of_mem_blocksFrom (by simp [Opened.Holds, Opened.blocks]) texts code

/-- The texts of the blocks of a content are single lines. -/
theorem Block.holds_of_oneLine {isCode : Text → Prop} {content : List Text}
    (oneLine : ∀ line ∈ content, '\n' ∉ line) (code : ∀ line ∈ fencedLines content, isCode line) :
    ∀ block ∈ blocksOf content, block.Holds (fun text => '\n' ∉ text) isCode :=
  Block.holds_of_mem_blocksOf
    (fun line member _ part inside => oneLine line member (part inside)) code

/-! ## The options of a listing -/

/-- A listing names no language, or one of those that are known. -/
theorem languageOption_eq_nil_or (tag : Text) : languageOption tag = [] ∨
    ∃ entry ∈ languages, languageOption tag = "[language=".toList ++ entry.2 ++ [']'] := by
  rw [languageOption]
  split
  · next name found =>
      obtain ⟨entry, searched, rfl⟩ := Option.map_eq_some_iff.mp found
      exact .inr ⟨entry, List.mem_of_find?_eq_some searched, rfl⟩
  · exact .inl rfl

end SlideDeck.Slide
