import SlideDeck.Proofs.Document.Parts

/-!
# Emoji in documents

The typesetting engine has no glyphs for emoji, so none should reach it outside of listings.
Every text that is formatted is sanitized first, and so are the texts of the title page; what
formatting and escaping add are characters of commands. So the emoji of a document can only
stand in the names of its themes, in listings, and in the labels of its diagrams.

The labels are the one place that is missed: they are escaped without having been sanitized
(`emojiFree_ofMarkdown_label`). Where they have no emoji, the document has none
(`emojiFree_ofMarkdown`).
-/

set_option autoImplicit false

namespace SlideDeck

open SlideDeck.Text SlideDeck.Latex SlideDeck.Markdown

/-- Text without emoji. -/
def EmojiFree (s : Text) : Prop := ∀ c ∈ s, Inline.isEmoji c = false

instance (s : Text) : Decidable (EmojiFree s) := inferInstanceAs (Decidable (∀ c ∈ s, _))

namespace EmojiFree

variable {s t : Text}

theorem nil : EmojiFree [] := by
  intro c member
  cases member

theorem append (first : EmojiFree s) (second : EmojiFree t) : EmojiFree (s ++ t) :=
  List.forall_mem_append.mpr ⟨first, second⟩

theorem trim (free : EmojiFree s) : EmojiFree (trim s) := fun c member =>
  free c (mem_of_mem_trim member)

theorem group (free : EmojiFree s) : EmojiFree (group s) := by
  have opening : EmojiFree ['\x7b'] := by decide
  have closing : EmojiFree ['\x7d'] := by decide
  exact (opening.append free).append closing

theorem command {name : Text} (named : EmojiFree ('\\' :: name)) (free : EmojiFree s) :
    EmojiFree (command name s) :=
  named.append free.group

theorem join {separator : Text} {pieces : List Text} (between : EmojiFree separator)
    (each : ∀ piece ∈ pieces, EmojiFree piece) : EmojiFree (join separator pieces) :=
  join_induction EmojiFree nil append between each

theorem unlines {ls : List Text} (each : ∀ line ∈ ls, EmojiFree line) : EmojiFree (unlines ls) :=
  join (by decide) each

theorem terminated {ls : List Text} (each : ∀ line ∈ ls, EmojiFree line) :
    EmojiFree (terminated ls) := by
  intro c member
  obtain ⟨line, inside, member⟩ := List.mem_flatMap.mp member
  have newline : EmojiFree ['\n'] := by decide
  exact (each line inside).append newline c member

end EmojiFree

/-! ## Formatted text -/

namespace Inline

variable {c : Char}

theorem isEmoji_of_ascii (ascii : c.toNat < 0x80) : isEmoji c = false := by
  simp only [isEmoji, Bool.or_eq_false_iff, Bool.and_eq_false_iff, decide_eq_false_iff_not,
    beq_eq_false_iff_ne]
  omega

theorem toNat_of_isAlphanum (alphanumeric : c.isAlphanum = true) : c.toNat < 0x80 := by
  unfold Char.isAlphanum Char.isAlpha Char.isUpper Char.isLower Char.isDigit at alphanumeric
  simp only [Bool.or_eq_true, Bool.and_eq_true, decide_eq_true_eq, ge_iff_le,
    UInt32.le_iff_toNat_le] at alphanumeric
  have same : c.toNat = c.val.toNat := rfl
  rw [same]
  have bounds : '9'.val.toNat < 0x80 ∧ 'Z'.val.toNat < 0x80 ∧ 'z'.val.toNat < 0x80 := by decide
  omega

/-- Formatting writes no emoji itself. -/
theorem isWritten_of_isEmoji (emoji : isEmoji c = true) : isWritten c = false := by
  rw [Bool.eq_false_iff]
  intro written
  have free : isEmoji c = false := by
    rcases Bool.or_eq_true_iff.mp written with letter | mark
    · refine isEmoji_of_ascii (toNat_of_isAlphanum ?_)
      rw [Char.isAlphanum, letter, Bool.true_or]
    · have marks : EmojiFree "\\\x7b\x7d[]!->*:".toList := by decide
      exact marks c (List.contains_iff_mem.mp mark)
  rw [emoji] at free
  cases free

theorem emojiFree_sanitize (s : Text) : EmojiFree (sanitize s) := fun _ =>
  isEmoji_of_mem_sanitize

theorem emojiFree_escape {s : Text} (free : EmojiFree s) : EmojiFree (escape s) := by
  intro c member
  by_contra emoji
  rw [Bool.not_eq_false] at emoji
  refine not_mem_escape (isWritten_of_isEmoji emoji) (fun inside => ?_) member
  rw [free c inside] at emoji
  cases emoji

/-- **A formatted text has no emoji,** whatever the text is. -/
theorem emojiFree_format (s : Text) : EmojiFree (format s) := by
  intro c member
  by_contra emoji
  rw [Bool.not_eq_false] at emoji
  refine not_mem_format_of_sanitize (isWritten_of_isEmoji emoji) (fun inside => ?_) member
  rw [isEmoji_of_mem_sanitize inside] at emoji
  cases emoji

end Inline

/-! ## Diagrams -/

namespace Diagram

/-- The names of nodes have no emoji. -/
theorem IsId.emojiFree {id : Text} (isId : IsId id) : EmojiFree (pageName id) := by
  intro c member
  obtain ⟨d, inside, rfl⟩ := List.mem_map.mp member
  split
  · decide
  · next differ =>
      rcases Bool.or_eq_true_iff.mp (isId d inside) with named | score
      · exact Inline.isEmoji_of_ascii (Inline.toNat_of_isAlphanum named)
      · exact absurd (beq_iff_eq.mp score) differ

/-- The labels of the nodes of the diagram that a text describes. -/
def labelsOf (source : Text) : List Text := (read source).nodes.map Prod.snd

/-- A picture has the emoji of its labels. -/
theorem emojiFree_pictureOf {source : Text} (labels : ∀ label ∈ labelsOf source, EmojiFree label) :
    EmojiFree (pictureOf source) := by
  have sound := sound_read source
  rw [pictureOf]
  split
  · decide +kernel
  · refine .unlines ?_
    have composes : Composes EmojiFree (read source).nodes :=
      ⟨.append, by decide, IsId.emojiFree, fun node member =>
        (Inline.emojiFree_escape (labels node.2 (List.mem_map_of_mem member))).group⟩
    have inner := composes.forall_mem_lines sound
    have begins : EmojiFree (beginEnvironment "center".toList) ∧
        EmojiFree (beginEnvironment "tikzpicture".toList) := by decide
    have style : EmojiFree "[node distance=3cm, every node/.style=".toList ∧
        EmojiFree "draw, rounded corners, align=center, minimum height=1cm".toList ∧
        EmojiFree [']'] := by decide
    have options : EmojiFree pictureOptions := (style.1.append style.2.1.group).append style.2.2
    have back : ∀ line ∈ [endEnvironment "tikzpicture".toList, endEnvironment "center".toList],
        EmojiFree line := by decide
    rw [List.append_assoc, List.append_assoc, ← List.append_assoc (nodeLines _ _ _)]
    simp only [List.forall_mem_append, List.forall_mem_cons] at inner back ⊢
    exact ⟨⟨begins.1, begins.2.append options, by simp⟩, inner, back⟩

end Diagram

/-! ## Blocks -/

namespace Slide

/-- The labels of a block that is a diagram. -/
def Block.labels : Block → List Text
  | .code tag lines _ =>
    if tag = diagramTag then Diagram.labelsOf (unlines (dropBlankEnds lines)) else []
  | _ => []

/-- The labels of the diagrams of a content. -/
def diagramLabels (content : List Text) : List Text := (blocksOf content).flatMap Block.labels

theorem emojiFree_languageOption (tag : Text) : EmojiFree (languageOption tag) := by
  have known : ∀ entry ∈ languages, EmojiFree ("[language=".toList ++ entry.2 ++ [']']) := by
    decide +kernel
  rcases languageOption_eq_nil_or tag with empty | ⟨entry, member, same⟩
  · rw [empty]
    exact .nil
  · rw [same]
    exact known entry member

theorem emojiFree_bold (text : Text) :
    EmojiFree (Latex.command "textbf".toList (Inline.format text)) :=
  .command (by decide) (Inline.emojiFree_format text)

theorem emojiFree_rowLine {cells : List Text} (each : ∀ cell ∈ cells, EmojiFree cell) :
    EmojiFree (Table.rowLine cells) := by
  have between : EmojiFree " & ".toList := by decide
  have ending : EmojiFree Table.rowEnd := by decide
  exact (EmojiFree.join between each).append ending

theorem emojiFree_render (rows : List (List Text)) : EmojiFree (Table.render rows) := by
  match rows with
  | [] => exact .nil
  | [] :: _ => exact .nil
  | (cell :: header) :: rows =>
      have columns : EmojiFree (group (List.replicate (cell :: header).length 'l')) := by
        refine EmojiFree.group fun c member => ?_
        rw [List.eq_of_mem_replicate member]
        decide
      have head : EmojiFree (Table.headerLine (cell :: header)) := by
        refine emojiFree_rowLine (List.forall_mem_map.mpr ?_)
        exact fun text _ => emojiFree_bold text
      have data : ∀ line ∈ (Table.fitting (cell :: header).length rows).map
          (Table.dataLine (cell :: header).length), EmojiFree line := by
        refine List.forall_mem_map.mpr fun row _ => emojiFree_rowLine ?_
        refine List.forall_mem_append.mpr ⟨List.forall_mem_map.mpr ?_, ?_⟩
        · exact fun text _ => Inline.emojiFree_format text
        · intro filler member
          rw [List.eq_of_mem_replicate member]
          exact .nil
      have center : EmojiFree (beginEnvironment "center".toList) := by decide
      have begins : EmojiFree (beginEnvironment "tabular".toList) := by decide
      have rules : EmojiFree "\\toprule".toList ∧ EmojiFree "\\midrule".toList := by decide
      have back : ∀ line ∈ ["\\bottomrule".toList, endEnvironment "tabular".toList,
          endEnvironment "center".toList], EmojiFree line := by decide
      refine EmojiFree.unlines ?_
      simp only [Table.linesOf, List.forall_mem_append]
      refine ⟨⟨?_, data⟩, back⟩
      simp only [List.forall_mem_cons]
      exact ⟨center, begins.append columns, rules.1, head, rules.2, by simp⟩

/-- The parts of a block have the emoji of its listed lines and of its labels. -/
theorem emojiFree_parts {block : Block} (code : ∀ line ∈ block.listed, EmojiFree line)
    (labels : ∀ label ∈ block.labels, EmojiFree label) : ∀ part ∈ block.parts, EmojiFree part := by
  cases block with
  | list kind items =>
      have item : EmojiFree "\\item ".toList := by decide
      have ends : EmojiFree (beginEnvironment kind.environment) ∧
          EmojiFree (endEnvironment kind.environment) := by cases kind <;> decide
      simp only [Block.parts, List.forall_mem_cons, List.forall_mem_append, List.forall_mem_map]
      exact ⟨⟨ends.1, fun text _ => item.append (Inline.emojiFree_format text)⟩, ends.2, by simp⟩
  | table rows =>
      intro part member
      rw [Block.parts] at member
      split at member
      · cases member
      · rw [List.mem_singleton.mp member]
        exact emojiFree_render rows
  | code tag lines closed =>
      intro part member
      have kept := dropBlankEnds_subset lines
      rw [Block.parts] at member
      split at member
      · cases member
      · rw [codeLines] at member
        split at member
        · next isDiagram =>
            rw [Block.labels, if_pos isDiagram] at labels
            rw [List.mem_singleton.mp member]
            exact Diagram.emojiFree_pictureOf labels
        · next ordinary =>
            rw [Block.listed, if_neg ordinary] at code
            have begins : EmojiFree (beginEnvironment listing) := by decide
            have ends : EmojiFree (endEnvironment listing) := by decide
            revert part
            simp only [List.forall_mem_cons]
            exact ⟨begins.append (emojiFree_languageOption tag),
              .unlines fun line inside => code line (kept inside), ends, by simp⟩
  | minorHeading text =>
      simp only [Block.parts, List.forall_mem_cons]
      exact ⟨emojiFree_bold text, .nil, by simp⟩
  | majorHeading text =>
      have large : EmojiFree "\\large".toList := by decide
      simp only [Block.parts, List.forall_mem_cons]
      exact ⟨(large.append (emojiFree_bold text)).group, .nil, by simp⟩
  | quote text =>
      have begins : EmojiFree (beginEnvironment "quote".toList) := by decide
      have ends : EmojiFree (endEnvironment "quote".toList) := by decide
      simp only [Block.parts, List.forall_mem_cons]
      exact ⟨begins, Inline.emojiFree_format text, ends, by simp⟩
  | paragraph text =>
      simp only [Block.parts, List.forall_mem_cons]
      exact ⟨Inline.emojiFree_format text, .nil, by simp⟩

/-- So has the body of a slide. -/
theorem emojiFree_body {content : List Text} (code : ∀ line ∈ listedLines content, EmojiFree line)
    (labels : ∀ label ∈ diagramLabels content, EmojiFree label) : EmojiFree (body content) := by
  refine (EmojiFree.unlines fun part member => ?_).trim
  obtain ⟨block, inside, member⟩ := List.mem_flatMap.mp member
  refine emojiFree_parts (fun line found => ?_) (fun label found => ?_) part member
  · exact code line (List.mem_flatMap.mpr ⟨block, inside, found⟩)
  · exact labels label (List.mem_flatMap.mpr ⟨block, inside, found⟩)

theorem emojiFree_noteBody (notes : List Text) : EmojiFree (noteBody notes) :=
  .join (by decide) (List.forall_mem_map.mpr fun text _ => Inline.emojiFree_format text)

end Slide

/-! ## Documents -/

namespace Document

open SlideDeck.Slide

/-- In front of the text only the themes can have emoji. -/
theorem emojiFree_opening {metadata : Entries} {options : Options}
    (theme : EmojiFree (settings metadata options).theme)
    (colorTheme : EmojiFree (settings metadata options).colorTheme) (hasNotes : Bool) :
    ∀ part ∈ opening (settings metadata options) hasNotes, EmojiFree part := by
  have ratio : ∀ ratio ∈ aspectRatios, EmojiFree (commandWith "documentclass".toList
      ("aspectratio=".toList ++ ratio) "beamer".toList) := by decide +kernel
  have named : ∀ name ∈ settingNames, EmojiFree ('\\' :: name) := by decide
  have fixed : ∀ part ∈ commonParts, EmojiFree part := by decide +kernel
  refine forall_mem_opening fixed ratio (fun name member {_} free => ?_) theme colorTheme
    (fun text => ?_) (by decide) hasNotes
  · exact .command (named name member) free
  · exact Inline.emojiFree_escape (Inline.emojiFree_sanitize text)

theorem emojiFree_frame {slide : Slide} (code : ∀ line ∈ listedLines slide.content, EmojiFree line)
    (labels : ∀ label ∈ diagramLabels slide.content, EmojiFree label) :
    ∀ part ∈ frame slide, EmojiFree part := by
  have body := emojiFree_body code labels
  have option : EmojiFree (fragileOption (Slide.body slide.content)) := by
    rcases fragileOption_eq_or (Slide.body slide.content) with same | same <;> rw [same] <;> decide
  have begins : EmojiFree (beginEnvironment "frame".toList) := by decide
  have ends : EmojiFree (endEnvironment "frame".toList) := by decide
  have bodyPart : ∀ part ∈ bodyParts slide, EmojiFree part := by
    intro part member
    rw [bodyParts] at member
    split at member
    · cases member
    · rw [List.mem_singleton.mp member]
      exact body
  have note : ∀ part ∈ noteLines (Slide.noteBody slide.notes), EmojiFree part := by
    have around : EmojiFree "\\note\x7b".toList ∧ EmojiFree "\x7d".toList := by decide
    rw [noteLines]
    split
    · simp
    · simp only [List.forall_mem_cons]
      exact ⟨around.1, emojiFree_noteBody slide.notes, around.2, by simp⟩
  rw [frame_eq]
  simp only [List.forall_mem_cons, List.forall_mem_append]
  refine ⟨?_, bodyPart, ends, note, .nil, by simp⟩
  exact begins.append (option.append (Inline.emojiFree_format slide.title).group)

/-- **Emoji do not reach the typesetting engine outside of listings.** If the themes, the code that
is no diagram, and the labels of the diagrams have no emoji, then neither has the document,
whatever else the source and the options say. -/
theorem emojiFree_ofMarkdown (source : Text) (options : Options)
    (theme : EmojiFree (settings (Presentation.read source).metadata options).theme)
    (colorTheme : EmojiFree (settings (Presentation.read source).metadata options).colorTheme)
    (code : ∀ slide ∈ (Presentation.read source).slides,
      ∀ line ∈ listedLines slide.content, EmojiFree line)
    (labels : ∀ slide ∈ (Presentation.read source).slides,
      ∀ label ∈ diagramLabels slide.content, EmojiFree label) :
    EmojiFree (ofMarkdown source options) := by
  have fixed : (∀ part ∈ titleFrame, EmojiFree part) ∧ ∀ part ∈ closing, EmojiFree part := by decide
  refine .terminated ?_
  simp only [List.forall_mem_append]
  refine ⟨⟨⟨emojiFree_opening theme colorTheme _, fixed.1⟩, fun part member => ?_⟩, fixed.2⟩
  obtain ⟨slide, inside, member⟩ := List.mem_flatMap.mp member
  exact emojiFree_frame (code slide inside) (labels slide inside) part member

/-- A slide with emoji in its title, an item and its notes, and with a diagram and a listing. -/
def emojiEverywhere : Text :=
  unlines [
    "## ✅ A".toList, "- 🎉".toList, "```mermaid".toList, "X[One] --> Y".toList, "```".toList,
    "```c".toList, "int x;".toList, "```".toList, "Note: 💡".toList]

theorem emojiFree_ofMarkdown_everywhere :
    EmojiFree (settings (Presentation.read emojiEverywhere).metadata {}).theme ∧
      EmojiFree (settings (Presentation.read emojiEverywhere).metadata {}).colorTheme ∧
      (∀ slide ∈ (Presentation.read emojiEverywhere).slides,
        ∀ line ∈ listedLines slide.content, EmojiFree line) ∧
      (∀ slide ∈ (Presentation.read emojiEverywhere).slides,
        ∀ label ∈ diagramLabels slide.content, EmojiFree label) ∧
      EmojiFree (ofMarkdown emojiEverywhere {}) := by
  have theme : EmojiFree (settings (Presentation.read emojiEverywhere).metadata {}).theme := by
    decide +kernel
  have colorTheme :
      EmojiFree (settings (Presentation.read emojiEverywhere).metadata {}).colorTheme := by
    decide +kernel
  have code : ∀ slide ∈ (Presentation.read emojiEverywhere).slides,
      ∀ line ∈ listedLines slide.content, EmojiFree line := by decide +kernel
  have labels : ∀ slide ∈ (Presentation.read emojiEverywhere).slides,
      ∀ label ∈ diagramLabels slide.content, EmojiFree label := by decide +kernel
  exact ⟨theme, colorTheme, code, labels,
    emojiFree_ofMarkdown emojiEverywhere {} theme colorTheme code labels⟩

/-- The label of a node keeps its emoji. -/
theorem emojiFree_ofMarkdown_label :
    ¬ ∀ source options, EmojiFree (settings (Presentation.read source).metadata options).theme →
      EmojiFree (settings (Presentation.read source).metadata options).colorTheme →
      (∀ slide ∈ (Presentation.read source).slides,
        ∀ line ∈ listedLines slide.content, EmojiFree line) →
      EmojiFree (ofMarkdown source options) := by
  intro all
  have free := all
    (unlines ["## A".toList, "```mermaid".toList, "X[🚀]".toList, "```".toList]) {}
    (by decide +kernel) (by decide +kernel) (by decide +kernel)
  revert free
  decide +kernel

end Document

end SlideDeck
