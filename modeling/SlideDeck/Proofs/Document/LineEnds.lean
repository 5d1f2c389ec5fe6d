import SlideDeck.Proofs.Html.Deck
import SlideDeck.Proofs.Latex.Environment
import SlideDeck.Lint.Source
import SlideDeck.Markdown.Presentation

/-!
# Line ends

A text can be written with a carriage return in front of each newline (`withReturns`). For the
readers that go line by line this is the same text, since a line loses the return that ends it
(`lines_withReturns`), and a search for a text on one line finds the same
(`isInfix_withReturns_iff`). So a presentation is read as before, and the checks find the same.

The reader of decks goes by characters. Behind the title of a frame it passes over blanks and
tabs and then wants a newline; a return is none of these, so it finds no frame at all
(`framesOf_withReturns`).
-/

set_option autoImplicit false

namespace SlideDeck

namespace Text

/-- The text with a carriage return in front of each newline. -/
def withReturns (s : Text) : Text := s.flatMap fun c => if c = '\n' then ['\r', '\n'] else [c]

/-- The pieces between newlines with a carriage return behind all but the last. -/
def returned : List Text → List Text
  | [] => []
  | [last] => [last]
  | piece :: next :: pieces => (piece ++ ['\r']) :: returned (next :: pieces)

theorem withReturns_cons {c : Char} (other : c ≠ '\n') (s : Text) :
    withReturns (c :: s) = c :: withReturns s := by
  simp [withReturns, other]

theorem withReturns_newline (s : Text) :
    withReturns ('\n' :: s) = '\r' :: '\n' :: withReturns s := rfl

theorem splitAt_withReturns (s : Text) :
    splitAt '\n' (withReturns s) = returned (splitAt '\n' s) := by
  induction s with
  | nil => rfl
  | cons c s ih =>
      obtain ⟨piece, pieces, cut⟩ := List.exists_cons_of_ne_nil (splitAt_ne_nil '\n' s)
      rw [cut] at ih
      by_cases newline : c = '\n'
      · subst newline
        simp [withReturns_newline, splitAt, cut, returned, ih]
      · have tail : splitAt '\n' (c :: s) = (c :: piece) :: pieces := by
          simp [splitAt, newline, cut]
        rw [withReturns_cons newline, tail]
        cases pieces <;> simp [splitAt, newline, ih, returned]

/-! ## Reading by lines -/

/-- A line loses the carriage return that ends it. -/
theorem linesOfPieces_returned {pieces : List Text} (absent : ∀ piece ∈ pieces, '\r' ∉ piece) :
    linesOfPieces (returned pieces) = linesOfPieces pieces := by
  induction pieces with
  | nil => rfl
  | cons piece pieces ih =>
      cases pieces with
      | nil => rfl
      | cons next pieces =>
          rw [List.forall_mem_cons] at absent
          have dropped : dropReturn (piece ++ ['\r']) = piece := by
            rw [dropReturn_append piece (by simp)]
            exact List.append_nil piece
          have kept : dropReturn piece = piece := Slide.dropReturn_of_not_mem absent.1
          have nonempty : returned (next :: pieces) ≠ [] := by cases pieces <;> simp [returned]
          have later := linesOfPieces_append [piece ++ ['\r']] nonempty
          rw [linesOfPieces, kept, ← ih absent.2]
          simpa [returned, dropped] using later

/-- **The lines of a text do not depend on its line ends.** -/
theorem lines_withReturns {s : Text} (absent : '\r' ∉ s) : lines (withReturns s) = lines s := by
  rw [lines, splitAt_withReturns, lines]
  exact linesOfPieces_returned fun piece member inside =>
    absent (subset_of_mem_splitAt member inside)

/-! ## Searching -/

section Searching

variable {literal : Text}

theorem isInfix_iff_exists_piece (nonempty : literal ≠ []) (newline : '\n' ∉ literal) (s : Text) :
    literal <:+: s ↔ ∃ piece ∈ splitAt '\n' s, literal <:+: piece := by
  have whole : unlines (splitAt '\n' s) = s := join_splitAt '\n' s
  constructor
  · intro occurs
    rw [← whole] at occurs
    exact exists_line_of_isInfix nonempty newline occurs
  · rintro ⟨piece, member, occurs⟩
    rw [← whole]
    exact isInfix_unlines member occurs

theorem exists_returned_iff (noReturn : '\r' ∉ literal) (pieces : List Text) :
    (∃ piece ∈ returned pieces, literal <:+: piece) ↔ ∃ piece ∈ pieces, literal <:+: piece := by
  have same : ∀ piece, literal <:+: piece ++ ['\r'] ↔ literal <:+: piece := by
    intro piece
    constructor
    · intro occurs
      rcases isInfix_of_isInfix_append_cons noReturn occurs with here | behind
      · exact here
      · rw [List.infix_nil.mp behind]
        exact List.nil_infix
    · intro occurs
      exact occurs.trans (List.prefix_append piece ['\r']).isInfix
  induction pieces with
  | nil => rfl
  | cons piece pieces ih =>
      cases pieces with
      | nil => rfl
      | cons next pieces =>
          rw [returned, List.exists_mem_cons_iff, List.exists_mem_cons_iff]
          exact or_congr (same piece) ih

/-- A text without line ends occurs where it did. -/
theorem isInfix_withReturns_iff (nonempty : literal ≠ []) (newline : '\n' ∉ literal)
    (noReturn : '\r' ∉ literal) (s : Text) : literal <:+: withReturns s ↔ literal <:+: s := by
  rw [isInfix_iff_exists_piece nonempty newline, splitAt_withReturns, exists_returned_iff noReturn,
    ← isInfix_iff_exists_piece nonempty newline]

end Searching

/-- In front of each newline there is a carriage return. -/
theorem exists_return_of_withReturns {s front behind : Text}
    (whole : withReturns s = front ++ '\n' :: behind) : ∃ before, front = before ++ ['\r'] := by
  induction s generalizing front with
  | nil => simp [withReturns] at whole
  | cons c s ih =>
      by_cases newline : c = '\n'
      · subst newline
        rw [withReturns_newline] at whole
        match front with
        | [] => cases whole
        | ['\r'] => exact ⟨[], rfl⟩
        | d :: e :: front =>
            obtain ⟨rfl, later⟩ := List.cons.inj whole
            obtain ⟨rfl, rest⟩ := List.cons.inj later
            obtain ⟨before, rfl⟩ := ih rest
            exact ⟨'\r' :: '\n' :: before, rfl⟩
      · rw [withReturns_cons newline] at whole
        cases front with
        | nil => exact absurd (List.cons.inj whole).1 newline
        | cons d front =>
            obtain ⟨rfl, rest⟩ := List.cons.inj whole
            obtain ⟨before, rfl⟩ := ih rest
            exact ⟨c :: before, rfl⟩

end Text

open SlideDeck.Text SlideDeck.Markdown

/-! ## Reading line by line -/

theorem Markdown.read_withReturns {s : Text} (absent : '\r' ∉ s) :
    Presentation.read (withReturns s) = Presentation.read s := by
  rw [Presentation.read, lines_withReturns absent, Presentation.read]

namespace Lint

theorem markerIssues_withReturns (s : Text) : markerIssues (withReturns s) = markerIssues s := by
  have one : ∀ marker : Marker, includes marker.text (withReturns s) = includes marker.text s := by
    intro marker
    have onLine : marker.text ≠ [] ∧ '\n' ∉ marker.text ∧ '\r' ∉ marker.text := by
      cases marker <;> decide
    rw [Bool.eq_iff_iff, includes_iff, includes_iff]
    exact isInfix_withReturns_iff onLine.1 onLine.2.1 onLine.2.2 s
  simp only [markerIssues, one]

theorem issues_withReturns {s : Text} (absent : '\r' ∉ s) :
    issues (withReturns s) = issues s := by
  rw [issues, markerIssues_withReturns, lines_withReturns absent, issues]

end Lint

/-! ## Reading a deck -/

namespace Deck

/-- A frame has its title behind a brace, and ends the line with it. -/
theorem exists_line_of_frame?_eq_some {s behind : Text} {frame : Frame}
    (found : frame? s = some (frame, behind)) :
    ∃ front line rest, s = front ++ '\x7b' :: (line ++ '\n' :: rest) ∧
      lineTitle? line = some frame.title := by
  obtain ⟨rest, begun, found⟩ := Option.bind_eq_some_iff.mp found
  split at found
  · next behindBrace brace =>
      obtain ⟨⟨line, later⟩, cut, found⟩ := Option.bind_eq_some_iff.mp found
      obtain ⟨title, titled, found⟩ := Option.bind_eq_some_iff.mp found
      obtain ⟨⟨body, last⟩, -, same⟩ := Option.map_eq_some_iff.mp found
      cases same
      obtain ⟨option, whole⟩ := Latex.dropBracketed_isSuffix rest
      rw [brace, (splitOnce_eq_some cut).1] at whole
      refine ⟨Latex.beginEnvironment "frame".toList ++ option, line, later, ?_, titled⟩
      rw [skip?_eq_some_iff.mp begun, ← whole, List.append_assoc]
  · cases found

theorem lineTitle?_return (line : Text) : lineTitle? (line ++ ['\r']) = none := by
  have stops : Html.isLineBlank '\r' = false := by decide
  simp [lineTitle?, stops]

/-- **With returns no frame is found.** -/
theorem framesOf_withReturns (s : Text) : framesOf (withReturns s) = [] := by
  rw [List.eq_nil_iff_forall_not_mem]
  rintro ⟨frame, behind⟩ member
  obtain ⟨t, rest, ⟨before, part⟩, found⟩ := exists_of_mem_matchesOf member
  obtain ⟨answer, answered, -⟩ := Option.map_eq_some_iff.mp found
  obtain ⟨front, line, later, whole, titled⟩ := exists_line_of_frame?_eq_some answered
  have ends : withReturns s = (before ++ front ++ '\x7b' :: line) ++ '\n' :: later := by
    rw [← part, whole]
    simp
  obtain ⟨first, same⟩ := exists_return_of_withReturns ends
  -- The return is the last character of the line, unless the line is empty: then it were the brace.
  rcases List.eq_nil_or_concat line with rfl | ⟨text, last, rfl⟩
  · have brace := (List.append_inj' same rfl).2
    cases brace
  · rw [List.concat_eq_append, ← List.cons_append, ← List.append_assoc] at same
    have isReturn := (List.append_inj' same rfl).2
    cases isReturn
    rw [List.concat_eq_append, lineTitle?_return] at titled
    cases titled

theorem slides_withReturns (s : Text) : (read (withReturns s)).slides = [] := by
  rw [read, framesOf_withReturns]
  rfl

end Deck

/-! ## All readers -/

namespace Document

/-- **Line ends make no difference to the presentation and to the checks, but they do to the
deck:** its slides are the same only where there are none. -/
theorem withReturns_read (s : Text) (absent : '\r' ∉ s) :
    Presentation.read (withReturns s) = Presentation.read s ∧
      Lint.issues (withReturns s) = Lint.issues s ∧
      ((Deck.read (withReturns s)).slides.map DeckSlide.title =
        (Deck.read s).slides.map DeckSlide.title ↔ (Deck.read s).slides = []) := by
  refine ⟨Markdown.read_withReturns absent, Lint.issues_withReturns absent, ?_⟩
  rw [Deck.slides_withReturns, List.map_nil, eq_comm, List.map_eq_nil_iff]

/-- A document with one frame. -/
def oneFrame : Text := "\\begin\x7bframe\x7d\x7bA\x7d\n\\end\x7bframe\x7d".toList

theorem withReturns_read_oneFrame :
    '\r' ∉ oneFrame ∧
      Presentation.read (withReturns oneFrame) = Presentation.read oneFrame ∧
      Lint.issues (withReturns oneFrame) = Lint.issues oneFrame ∧
      ((Deck.read (withReturns oneFrame)).slides.map DeckSlide.title =
        (Deck.read oneFrame).slides.map DeckSlide.title ↔ (Deck.read oneFrame).slides = []) := by
  have absent : '\r' ∉ oneFrame := by decide
  exact ⟨absent, withReturns_read oneFrame absent⟩

/-- With returns the frame is no slide any more. -/
theorem slides_withReturns_oneFrame :
    ¬ ∀ s, '\r' ∉ s →
      (Deck.read (withReturns s)).slides.map DeckSlide.title =
        (Deck.read s).slides.map DeckSlide.title := by
  intro all
  have same := all oneFrame (by decide)
  revert same
  decide

end Document

end SlideDeck
