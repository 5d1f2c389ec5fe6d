import SlideDeck.Proofs.Html.Marked
import SlideDeck.Proofs.Inline.Formatted
import SlideDeck.Proofs.Text.Silent
import SlideDeck.Proofs.Text.Trim

/-!
# Text on its way to the page

Between its LaTeX and its HTML, a formatted text is made of characters that no conversion
looks at and of the *words* of a fixed vocabulary: escapes, entities, tags, and the two ends
of groups and arguments. `Strand depth s` says that `s` is such a text and closes as many
groups as were open in front of it, and those it opens itself. A stray end of a group does
no harm, so the depth stays at least zero.

Formatted text is a strand when its angle brackets are entities (`strand_of_formatted`), and
blanks at the ends of a strand can be cut off.
-/

set_option autoImplicit false

namespace SlideDeck.Html

open SlideDeck SlideDeck.Text SlideDeck.Latex

/-! ## The vocabulary -/

/-- The characters that no conversion looks at. -/
def isText (c : Char) : Bool := !"\\\x7b\x7d%<>&".toList.contains c

/-- The elements inside of lines. -/
def inlineNames : List Text := ["strong".toList, "em".toList, "code".toList]

/-- The environments that stand among the lines of a page by themselves. -/
def plainEnvironments : List Text := ["center".toList, "quote".toList]

/-- The elements around lines, and those of tables. -/
def blockNames : List Text := [
  "blockquote".toList, "table".toList, "tr".toList, "th".toList, "td".toList]

/-- The words that open and close no group. -/
def levelWords : List Text :=
  [lessThan, greaterThan, backslash] ++
    "_&%$#\x7b\x7d".toList.map (fun c => ['\\', c]) ++
    Inline.symbolNames.map Latex.symbol ++
    (inlineNames ++ blockNames).flatMap (fun name => [openTag name, closeTag name]) ++
    -- An escaped closing brace may have ended an argument.
    inlineNames.map (fun name => '\\' :: closeTag name) ++
    plainEnvironments.flatMap (fun name => [beginEnvironment name, endEnvironment name]) ++
    ["\\large".toList ++ openTag "strong".toList, openTag "br".toList]

/-- What a word does to the groups around it. -/
inductive Effect where
  | none
  | opens
  | closes
  deriving DecidableEq

/-- The number of open groups behind a word. -/
def Effect.after : Effect → Nat → Nat
  | none, depth => depth
  | opens, depth => depth + 1
  | closes, depth => depth - 1

/-- The words that open a group. -/
def openings : List Text :=
  ["\x7b".toList, "\\large\\textbf\x7b".toList] ++
    Inline.styleNames.map fun name => '\\' :: name ++ ['\x7b']

/-- The vocabulary. -/
def words : List (Text × Effect) :=
  levelWords.map (·, .none) ++ openings.map (·, .opens) ++ [("\x7d".toList, .closes)]

/-- Text of words and of characters that no conversion looks at, which closes the groups that
are open in front of it. -/
inductive Strand : Nat → Text → Prop where
  | nil : Strand 0 []
  | char {depth : Nat} {c : Char} {s : Text} (text : isText c = true) (rest : Strand depth s) :
      Strand depth (c :: s)
  | word {depth : Nat} {w s : Text} {effect : Effect} (member : (w, effect) ∈ words)
      (rest : Strand (effect.after depth) s) : Strand depth (w ++ s)

theorem mem_words_of_level {w : Text} (member : w ∈ levelWords) : (w, Effect.none) ∈ words :=
  List.mem_append_left _ (List.mem_append_left _ (List.mem_map_of_mem member))

/-- No word begins with a character that no conversion looks at. -/
theorem word_shape {w : Text} {effect : Effect} (member : (w, effect) ∈ words) :
    ∃ c tail, w = c :: tail ∧ isText c = false := by
  have each : ∀ entry ∈ words, (entry.1.head?.any fun c => !isText c) = true := by decide
  have first := each (w, effect) member
  cases w with
  | nil => cases first
  | cons c tail => exact ⟨c, tail, rfl, by simpa using first⟩

theorem ne_nil_of_mem_words {w : Text} {effect : Effect} (member : (w, effect) ∈ words) :
    w ≠ [] := by
  obtain ⟨c, tail, rfl, -⟩ := word_shape member
  exact List.cons_ne_nil c tail

namespace Strand

variable {depth outer : Nat} {c : Char} {s t w : Text}

/-- With fewer groups open in front of it, a strand is one too. -/
theorem mono (strand : Strand depth s) {lower : Nat} (le : lower ≤ depth) : Strand lower s := by
  induction strand generalizing lower with
  | nil =>
      obtain rfl := Nat.le_zero.mp le
      exact .nil
  | char text _ ih => exact .char text (ih le)
  | @word depth w s effect member _ ih =>
      refine .word member (ih ?_)
      cases effect with
      | none => exact le
      | opens => exact Nat.succ_le_succ le
      | closes => exact Nat.sub_le_sub_right le 1

theorem append (first : Strand depth s) (second : Strand outer t) :
    Strand (depth + outer) (s ++ t) := by
  induction first with
  | nil => simpa using second
  | char text _ ih => exact .char text ih
  | @word depth w s effect member _ ih =>
      rw [List.append_assoc]
      refine .word member (ih.mono ?_)
      cases effect with
      | none => exact Nat.le_refl _
      | opens => exact (Nat.add_right_comm depth outer 1).le
      | closes => change depth + outer - 1 ≤ depth - 1 + outer; omega

/-- A strand by itself, in front of a strand. -/
theorem inside (first : Strand 0 s) (second : Strand depth t) : Strand depth (s ++ t) :=
  Nat.zero_add depth ▸ first.append second

theorem level (member : w ∈ levelWords) (rest : Strand depth s) : Strand depth (w ++ s) :=
  .word (mem_words_of_level member) rest

theorem opening (member : w ∈ openings) (rest : Strand (depth + 1) s) : Strand depth (w ++ s) :=
  .word (List.mem_append_left _ (List.mem_append_right _ (List.mem_map_of_mem member))) rest

theorem closing (rest : Strand (depth - 1) s) : Strand depth ("\x7d".toList ++ s) :=
  .word (List.mem_append_right _ (List.mem_singleton_self _)) rest

theorem of_level (member : w ∈ levelWords) : Strand 0 w := List.append_nil w ▸ level member .nil

theorem of_text (each : ∀ c ∈ s, isText c = true) : Strand 0 s := by
  induction s with
  | nil => exact .nil
  | cons c s ih =>
      rw [List.forall_mem_cons] at each
      exact .char each.1 (ih each.2)

theorem flatten {pieces : List Text} (each : ∀ piece ∈ pieces, Strand 0 piece) :
    Strand 0 pieces.flatten := by
  induction pieces with
  | nil => exact .nil
  | cons piece pieces ih =>
      rw [List.forall_mem_cons] at each
      exact each.1.inside (ih each.2)

/-- What no conversion looks at can be cut off. -/
theorem tail (strand : Strand depth (c :: s)) (text : isText c = true) : Strand depth s := by
  generalize whole : c :: s = u at strand
  cases strand with
  | nil => cases whole
  | char _ rest =>
      cases whole
      exact rest
  | word member _ =>
      obtain ⟨d, tail, rfl, notText⟩ := word_shape member
      obtain rfl := (List.cons.inj whole).1
      simp [text] at notText

theorem behind (strand : Strand depth (t ++ s)) (each : ∀ c ∈ t, isText c = true) :
    Strand depth s := by
  induction t with
  | nil => exact strand
  | cons c t ih =>
      rw [List.forall_mem_cons] at each
      exact ih (strand.tail each.1) each.2

/-! ## What is not found in a strand -/

/-- A scanner is silent in strands if it is in words, and at what no conversion looks at. -/
theorem silent {α : Type} {look : Text → Option α} (strand : Strand depth s)
    (quiet : ∀ {c}, isText c = true → ∀ t, look (c :: t) = none)
    (each : ∀ entry ∈ words, Silent look entry.1) : Silent look s := by
  induction strand with
  | nil => trivial
  | char text _ ih => exact ⟨fun t => quiet text _, ih⟩
  | word member _ ih => exact (each _ member).append ih

/-- What begins with a special character is not found at what no conversion looks at. -/
theorem quiet_of_special {α : Type} {look : Text → Option α} {literals : List Text}
    (led : LedBy literals look)
    (special : ∀ literal ∈ literals, ∃ d name, literal = d :: name ∧ isText d = false)
    (text : isText c = true) (t : Text) : look (c :: t) = none := by
  by_contra answers
  obtain ⟨literal, member, begins⟩ := led _ answers
  obtain ⟨d, name, rfl, notText⟩ := special literal member
  obtain ⟨rfl, -⟩ := List.cons_prefix_cons.mp begins
  simp [text] at notText

theorem quiet_of_ledBy {α : Type} {look : Text → Option α} {literals : List Text}
    (led : LedBy literals look) (slash : ∀ literal ∈ literals, literal.head? = some '\\')
    (text : isText c = true) (t : Text) : look (c :: t) = none := by
  refine quiet_of_special led (fun literal member => ?_) text t
  obtain ⟨name, rfl⟩ := List.head?_eq_some_iff.mp (slash literal member)
  exact ⟨'\\', name, rfl, by decide⟩

/-- A text that is apart from all words is not found. -/
theorem silent_special {name : Text} (strand : Strand depth s) (special : isText c = false)
    (each : ∀ entry ∈ words, avoids (c :: name) entry.1 = true) : Silent (skip? (c :: name)) s :=
  strand.silent (quiet_of_special (.skip _) (List.forall_mem_singleton.mpr ⟨c, name, rfl, special⟩))
    fun entry member => Text.silent_skip (each entry member)

/-- A command that is apart from all words is not found. -/
theorem silent_skip {name : Text} (strand : Strand depth s)
    (each : ∀ entry ∈ words, avoids ('\\' :: name) entry.1 = true) :
    Silent (skip? ('\\' :: name)) s :=
  strand.silent_special (by decide) each

/-! ## Blanks at the ends -/

theorem isText_of_isBlank (blank : isBlank c = true) : isText c = true := by
  by_contra special
  have each : ∀ c ∈ "\\\x7b\x7d%<>&".toList, isBlank c = false := by decide
  simp only [isText, Bool.not_eq_true, Bool.not_eq_false', List.contains_eq_mem,
    decide_eq_true_eq] at special
  simp [each c special] at blank

/-- No word holds a blank. -/
theorem isBlank_of_mem_word {effect : Effect} (member : (w, effect) ∈ words) (inside : c ∈ w) :
    isBlank c = false := by
  have each : ∀ entry ∈ words, ∀ c ∈ entry.1, isBlank c = false := by decide
  exact each (w, effect) member c inside

theorem front_blank (blank : isBlank c = true) (strand : Strand depth (s ++ [c])) :
    Strand depth s := by
  generalize whole : s ++ [c] = u at strand
  induction strand generalizing s with
  | nil => simp at whole
  | char text rest ih =>
      cases s with
      | nil =>
          cases whole
          exact rest
      | cons d s =>
          obtain ⟨rfl, later⟩ := List.cons.inj whole
          exact .char text (ih later)
  | @word _ w u _ member rest ih =>
      rcases List.append_eq_append_iff.mp whole with ⟨between, rfl, same⟩ | ⟨between, rfl, same⟩
      · cases between with
        | nil =>
            have emptied : Strand _ [] := ih same
            simpa using Strand.word member emptied
        | cons d between =>
            -- The word would end in the blank.
            obtain ⟨rfl, -⟩ := List.cons.inj same
            have visible := isBlank_of_mem_word (c := c) member (by simp)
            rw [blank] at visible
            cases visible
      · exact .word member (ih same.symm)

/-- Blanks at the end are no part of the words. -/
theorem front {blanks : Text} (areBlank : ∀ c ∈ blanks, isBlank c = true)
    (strand : Strand depth (s ++ blanks)) : Strand depth s := by
  induction blanks generalizing s with
  | nil => simpa using strand
  | cons c blanks ih =>
      rw [List.forall_mem_cons] at areBlank
      rw [List.append_cons] at strand
      exact (ih areBlank.2 strand).front_blank areBlank.1

theorem trimStart (strand : Strand depth s) : Strand depth (trimStart s) := by
  rw [← List.takeWhile_append_dropWhile (p := isBlank) (l := s)] at strand
  exact strand.behind fun c member => isText_of_isBlank (List.mem_takeWhile_imp member)

theorem trimEnd (strand : Strand depth s) : Strand depth (trimEnd s) := by
  obtain ⟨blanks, whole, areBlank⟩ := exists_blanks_trimEnd s
  rw [whole] at strand
  exact strand.front areBlank

theorem trim (strand : Strand depth s) : Strand depth (trim s) := strand.trimStart.trimEnd

theorem dropReturn (strand : Strand depth s) : Strand depth (dropReturn s) := by
  rcases eq_dropReturn_or s with same | same
  · rwa [same]
  · rw [← same] at strand
    exact strand.front_blank (by decide)

end Strand

/-! ## From formatted text -/

theorem isText_of_isPlain {c : Char} (plain : Inline.isPlain c = true) (notLess : c ≠ '<')
    (notGreater : c ≠ '>') : isText c = true := by
  simp_all [Inline.isPlain, backslashEscaped, isText]

/-- **Formatted text is a strand** once its angle brackets are entities. -/
theorem strand_of_formatted {depth last : Nat} {s t : Text}
    (formatted : Inline.Formatted depth s last)
    (rest : Strand last t) : Strand depth (escapeAngles s ++ t) := by
  induction formatted with
  | nil => exact rest
  | @token depth middle last w s token _ ih =>
      rw [escapeAngles, List.flatMap_append, List.append_assoc]
      have later := ih rest
      cases token with
      | @plain _ c plain =>
          simp only [List.flatMap_singleton]
          rw [escapeAngle]
          split
          · exact .level (by decide) later
          · split
            · exact .level (by decide) later
            · next notLess notGreater =>
                exact .char (isText_of_isPlain plain notLess notGreater) later
      | @escaped _ c escaped =>
          simp only [backslashEscaped, Bool.or_eq_true, beq_iff_eq] at escaped
          rcases escaped with (((((rfl | rfl) | rfl) | rfl) | rfl) | rfl) | rfl <;>
            exact .level (by decide) later
      | @symbol _ name member =>
          have each : ∀ name ∈ Inline.symbolNames,
              (Latex.symbol name).flatMap escapeAngle = Latex.symbol name ∧
                Latex.symbol name ∈ levelWords := by decide
          obtain ⟨same, known⟩ := each name member
          rw [same]
          exact .level known later
      | @opening _ name member =>
          have each : ∀ name ∈ Inline.styleNames,
              ('\\' :: name ++ ['\x7b']).flatMap escapeAngle = '\\' :: name ++ ['\x7b'] ∧
                ('\\' :: name ++ ['\x7b'], Effect.opens) ∈ words := by decide
          obtain ⟨same, known⟩ := each name member
          rw [same]
          exact .word known later
      | closing => exact .closing later

theorem Strand.of_formatted {s : Text} (formatted : Inline.Formatted 0 s 0) :
    Strand 0 (escapeAngles s) :=
  List.append_nil (escapeAngles s) ▸ strand_of_formatted formatted .nil

end SlideDeck.Html
