import Mathlib.Algebra.GroupWithZero.Nat
import Mathlib.Data.List.Infix
import SlideDeck.Proofs.Text.Search
import SlideDeck.Proofs.Text.Trim

/-!
# Lines

Writing lines and reading them again. Parts of a text that are written one after the
other, each with a newline behind it, are read as their own lines (`lines_terminated`);
a part that was put together from lines is cut into those lines again
(`splitAt_unlines`). A text without newline that occurs in the whole occurs in one of
the lines (`exists_line_of_isInfix`).
-/

set_option autoImplicit false

namespace SlideDeck.Text

/-! ## Cutting at a separator -/

theorem splitAt_append_cons (sep : Char) (s t : Text) :
    splitAt sep (s ++ sep :: t) = splitAt sep s ++ splitAt sep t := by
  induction s with
  | nil => simp [splitAt]
  | cons c s ih =>
      obtain ⟨piece, pieces, cut⟩ := List.exists_cons_of_ne_nil (splitAt_ne_nil sep s)
      by_cases same : c = sep
      · simp [splitAt, same, ih]
      · simp [splitAt, same, ih, cut]

theorem splitAt_of_not_mem {sep : Char} {s : Text} (absent : sep ∉ s) : splitAt sep s = [s] := by
  induction s with
  | nil => rfl
  | cons c s ih =>
      rw [List.mem_cons, not_or] at absent
      simp [splitAt, Ne.symm absent.1, ih absent.2]

theorem subset_of_mem_splitAt {sep : Char} {s piece : Text} (member : piece ∈ splitAt sep s) :
    piece ⊆ s := by
  induction s generalizing piece with
  | nil =>
      rw [List.mem_singleton.mp member]
      exact List.nil_subset _
  | cons c s ih =>
      obtain ⟨first, pieces, cut⟩ := List.exists_cons_of_ne_nil (splitAt_ne_nil sep s)
      have each : ∀ piece ∈ first :: pieces, piece ⊆ s := fun piece member => ih (cut ▸ member)
      rw [splitAt, cut] at member
      split at member
      · rcases List.mem_cons.mp member with rfl | member
        · exact List.nil_subset _
        · exact List.subset_cons_of_subset c (each piece member)
      · rcases List.mem_cons.mp member with rfl | member
        · exact List.cons_subset_cons c (each first List.mem_cons_self)
        · exact List.subset_cons_of_subset c (each piece (List.mem_cons_of_mem _ member))

/-- A text without separator in front belongs to the first piece. -/
theorem splitAt_append {sep : Char} {front s piece : Text} {pieces : List Text}
    (absent : sep ∉ front) (cut : splitAt sep s = piece :: pieces) :
    splitAt sep (front ++ s) = (front ++ piece) :: pieces := by
  induction front with
  | nil => exact cut
  | cons c front ih =>
      rw [List.mem_cons, not_or] at absent
      simp [splitAt, Ne.symm absent.1, ih absent.2]

/-- What holds of the pieces and of what comes between them holds of the joined text, if it holds of
two texts behind each other. -/
theorem join_induction (P : Text → Prop) {sep : Text} {pieces : List Text} (nil : P [])
    (append : ∀ {s t}, P s → P t → P (s ++ t)) (between : P sep)
    (each : ∀ piece ∈ pieces, P piece) :
    P (join sep pieces) := by
  induction pieces with
  | nil => exact nil
  | cons piece pieces ih =>
      rw [List.forall_mem_cons] at each
      cases pieces with
      | nil => exact each.1
      | cons next pieces => exact append (append each.1 between) (ih each.2)

theorem not_mem_join {c : Char} {sep : Text} {pieces : List Text} (absent : c ∉ sep)
    (each : ∀ piece ∈ pieces, c ∉ piece) : c ∉ join sep pieces :=
  join_induction (c ∉ ·) List.not_mem_nil List.not_mem_append absent each

theorem join_append (sep : Text) {front back : List Text} (someFront : front ≠ [])
    (someBack : back ≠ []) : join sep (front ++ back) = join sep front ++ sep ++ join sep back := by
  obtain ⟨first, back, rfl⟩ := List.exists_cons_of_ne_nil someBack
  induction front with
  | nil => exact absurd rfl someFront
  | cons piece front ih =>
      cases front with
      | nil => rfl
      | cons next front =>
          have later := ih (List.cons_ne_nil next front)
          rw [List.cons_append, List.cons_append, join, ← List.cons_append, later, join]
          simp only [List.append_assoc]

/-- Joined pieces are cut into the same pieces. -/
theorem splitAt_join {c : Char} {pieces : List Text} (nonempty : pieces ≠ [])
    (each : ∀ piece ∈ pieces, c ∉ piece) : splitAt c (join [c] pieces) = pieces := by
  induction pieces with
  | nil => exact absurd rfl nonempty
  | cons piece pieces ih =>
      rw [List.forall_mem_cons] at each
      cases pieces with
      | nil => exact splitAt_of_not_mem each.1
      | cons next pieces =>
          rw [join, List.append_assoc, List.singleton_append, splitAt_append_cons,
            splitAt_of_not_mem each.1, ih (List.cons_ne_nil next pieces) each.2]
          rfl

theorem join_eq_nil_iff {sep piece : Text} {pieces : List Text} (nonempty : sep ≠ []) :
    join sep (piece :: pieces) = [] ↔ piece = [] ∧ pieces = [] := by
  cases pieces <;> simp [join, nonempty]

/-- The last piece of a text is its end. -/
theorem isSuffix_of_mem_getLast? {sep : Char} {s last : Text}
    (isLast : last ∈ (splitAt sep s).getLast?) : last <:+ s := by
  obtain ⟨front, cut⟩ := List.getLast?_eq_some_iff.mp isLast
  have whole := join_splitAt sep s
  rw [cut] at whole
  by_cases empty : front = []
  · subst empty
    exact ⟨[], whole⟩
  · rw [join_append [sep] empty (by simp)] at whole
    exact ⟨_, whole⟩

@[simp] theorem unlines_cons_cons (line next : Text) (ls : List Text) :
    unlines (line :: next :: ls) = line ++ '\n' :: unlines (next :: ls) := by
  simp [unlines, join]

theorem unlines_ne_nil (c : Char) (s : Text) (ls : List Text) : unlines ((c :: s) :: ls) ≠ [] := by
  cases ls <;> simp [unlines, join]

theorem unlines_append {front back : List Text} (someFront : front ≠ []) (someBack : back ≠ []) :
    unlines (front ++ back) = unlines front ++ '\n' :: unlines back := by
  rw [unlines, join_append ['\n'] someFront someBack, List.append_assoc]
  rfl

/-- What stands behind lines is the later lines, if there are any behind a newline. -/
theorem exists_unlines_append {front : List Text} (nonempty : front ≠ []) (back : List Text) :
    ∃ t, unlines (front ++ back) = unlines front ++ t ∧
      (t = unlines back ∨ t = '\n' :: unlines back) := by
  by_cases empty : back = []
  · subst empty
    exact ⟨[], by simp, .inl rfl⟩
  · exact ⟨_, unlines_append nonempty empty, .inr rfl⟩

/-! ## Trimming joined lines -/

/-- A visible character at the front of the first line stays. -/
theorem trimStart_unlines {c : Char} (visible : isBlank c = false) (s : Text) (ls : List Text) :
    trimStart (unlines ((c :: s) :: ls)) = unlines ((c :: s) :: ls) := by
  cases ls with
  | nil => exact trimStart_cons visible s
  | cons next ls => exact trimStart_cons visible _

/-- A first line that is not all blank is trimmed alone. -/
theorem trimStart_unlines_of_ne_nil {line : Text} (nonempty : trimStart line ≠ [])
    (ls : List Text) :
    trimStart (unlines (line :: ls)) = unlines (trimStart line :: ls) := by
  cases ls with
  | nil => rfl
  | cons next ls => rw [unlines_cons_cons, unlines_cons_cons, trimStart_append nonempty]

/-- A blank first line goes. -/
theorem trimStart_unlines_of_eq_nil {line : Text} (empty : trimStart line = []) (ls : List Text) :
    trimStart (unlines (line :: ls)) = trimStart (unlines ls) := by
  cases ls with
  | nil => exact empty
  | cons next ls =>
      rw [unlines_cons_cons, trimStart_append_of_eq_nil empty, trimStart_cons_of_blank (by decide)]

/-- Lines in front of lines that are not all blank stay. -/
theorem trimEnd_unlines_of_ne_nil {front back trimmed : List Text} (someFront : front ≠ [])
    (same : trimEnd (unlines back) = unlines trimmed) (nonempty : unlines trimmed ≠ []) :
    trimEnd (unlines (front ++ back)) = unlines (front ++ trimmed) := by
  have someBack : back ≠ [] := by
    rintro rfl
    exact nonempty same.symm
  have someTrimmed : trimmed ≠ [] := by
    rintro rfl
    exact nonempty rfl
  have newline : trimEnd ('\n' :: unlines back) = '\n' :: unlines trimmed := by
    rw [trimEnd_cons_of_ne_nil _ (same ▸ nonempty), same]
  rw [unlines_append someFront someBack, unlines_append someFront someTrimmed,
    trimEnd_append_of_ne_nil _ (by simp [newline]), newline]

/-- Blank lines at the back go. -/
theorem trimEnd_unlines_of_eq_nil {front back : List Text} (nonempty : front ≠ [])
    (isNil : trimEnd (unlines back) = []) :
    trimEnd (unlines (front ++ back)) = trimEnd (unlines front) := by
  by_cases empty : back = []
  · rw [empty, List.append_nil]
  · have newline : trimEnd ('\n' :: unlines back) = [] := by
      rw [trimEnd, isNil]
      rfl
    rw [unlines_append nonempty empty, trimEnd_append_of_eq_nil _ newline]

/-- A visible character at the back of the last line stays. -/
theorem trimEnd_unlines_concat (front : List Text) (s : Text) {c : Char}
    (visible : isBlank c = false) :
    trimEnd (unlines (front ++ [s ++ [c]])) = unlines (front ++ [s ++ [c]]) := by
  by_cases empty : front = []
  · rw [empty]
    exact trimEnd_append_singleton s visible
  · have last : unlines [s ++ [c]] = s ++ [c] := rfl
    rw [unlines_append empty (by simp), last, ← List.cons_append, ← List.append_assoc]
    exact trimEnd_append_singleton _ visible

section Trimmed

variable {P : Text → Prop} {size : Text → Nat} {parts : List Text}

theorem sum_of_unlines_eq_nil (empty : size [] = 0) (isNil : unlines parts = []) :
    (parts.map size).sum = 0 := by
  match parts with
  | [] => rfl
  | [part] =>
      have same : part = [] := isNil
      simpa [same] using empty
  | part :: next :: parts =>
      rw [unlines_cons_cons] at isNil
      simp at isNil

theorem exists_trimEnd_unlines (empty : size [] = 0)
    (ended : ∀ s, P s → P (trimEnd s) ∧ size (trimEnd s) = size s) (each : ∀ part ∈ parts, P part) :
    ∃ trimmed, (∀ part ∈ trimmed, P part) ∧ (trimmed.map size).sum = (parts.map size).sum ∧
      trimEnd (unlines parts) = unlines trimmed := by
  induction parts with
  | nil => exact ⟨[], by simp, rfl, rfl⟩
  | cons part parts ih =>
      rw [List.forall_mem_cons] at each
      obtain ⟨trimmed, kept, sum, same⟩ := ih each.2
      by_cases isNil : unlines trimmed = []
      · obtain ⟨holds, sizeEnd⟩ := ended part each.1
        refine ⟨[trimEnd part], List.forall_mem_singleton.mpr holds, ?_,
          trimEnd_unlines_of_eq_nil (List.cons_ne_nil part []) (same.trans isNil)⟩
        simp [sizeEnd, ← sum, sum_of_unlines_eq_nil empty isNil]
      · refine ⟨part :: trimmed, List.forall_mem_cons.mpr ⟨each.1, kept⟩, ?_,
          trimEnd_unlines_of_ne_nil (List.cons_ne_nil part []) same isNil⟩
        simp [sum]

/-- Trimming joined parts trims some of them and drops blank ones: what trimming keeps of a part
holds of all that are left, and a size that it keeps of each part stays the same in sum. -/
theorem exists_trim_unlines (size : Text → Nat) (empty : size [] = 0)
    (begun : ∀ s, P s → P (trimStart s) ∧ size (trimStart s) = size s)
    (ended : ∀ s, P s → P (trimEnd s) ∧ size (trimEnd s) = size s) (each : ∀ part ∈ parts, P part) :
    ∃ trimmed, (∀ part ∈ trimmed, P part) ∧ (trimmed.map size).sum = (parts.map size).sum ∧
      trim (unlines parts) = unlines trimmed := by
  induction parts with
  | nil => exact ⟨[], by simp, rfl, rfl⟩
  | cons part parts ih =>
      rw [List.forall_mem_cons] at each
      obtain ⟨holds, sizeStart⟩ := begun part each.1
      by_cases isNil : trimStart part = []
      · rw [trim, trimStart_unlines_of_eq_nil isNil]
        obtain ⟨trimmed, kept, sum, same⟩ := ih each.2
        rw [isNil, empty] at sizeStart
        exact ⟨trimmed, kept, by simp [sum, ← sizeStart], same⟩
      · rw [trim, trimStart_unlines_of_ne_nil isNil]
        have trimmed := exists_trimEnd_unlines empty ended
          (List.forall_mem_cons.mpr ⟨holds, each.2⟩)
        rwa [List.map_cons, sizeStart, ← List.map_cons] at trimmed

end Trimmed

/-! ## Cutting joined lines -/

/-- Cutting at the newlines takes joined lines apart again. -/
theorem splitAt_unlines {ls : List Text} (nonempty : ls ≠ []) (each : ∀ line ∈ ls, '\n' ∉ line) :
    splitAt '\n' (unlines ls) = ls :=
  splitAt_join nonempty each

/-- Lines of a kind that an empty line is not of are as many in joined lines as before. -/
theorem countP_splitAt_unlines {p : Text → Bool} (visible : p [] = false) {ls : List Text}
    (each : ∀ line ∈ ls, '\n' ∉ line) : (splitAt '\n' (unlines ls)).countP p = ls.countP p := by
  by_cases empty : ls = []
  · have cut : splitAt '\n' (unlines []) = [[]] := rfl
    rw [empty, cut, List.countP_singleton, visible]
    rfl
  · rw [splitAt_unlines empty each]

/-! ## Reading lines -/

/-- Pieces in front of others are lines, without a carriage return at the back. -/
theorem linesOfPieces_append (front : List Text) {pieces : List Text} (nonempty : pieces ≠ []) :
    linesOfPieces (front ++ pieces) = front.map dropReturn ++ linesOfPieces pieces := by
  induction front with
  | nil => rfl
  | cons piece front ih =>
      obtain ⟨next, later, same⟩ := List.exists_cons_of_ne_nil
        (List.append_ne_nil_of_right_ne_nil front nonempty)
      rw [same] at ih
      rw [List.cons_append, same, linesOfPieces, ih, List.map_cons, List.cons_append]

theorem linesOfPieces_append_nil (pieces : List Text) :
    linesOfPieces (pieces ++ [[]]) = pieces.map dropReturn := by
  rw [linesOfPieces_append pieces (by simp)]
  exact List.append_nil _

/-- The last piece is a line as it is. -/
theorem linesOfPieces_concat (pieces : List Text) {last : Text} (nonempty : last ≠ []) :
    linesOfPieces (pieces ++ [last]) = pieces.map dropReturn ++ [last] := by
  rw [linesOfPieces_append pieces (by simp)]
  simp [linesOfPieces, nonempty]

theorem terminated_nil : terminated [] = [] := rfl

theorem terminated_cons (line : Text) (ls : List Text) :
    terminated (line :: ls) = line ++ '\n' :: terminated ls := by
  simp [terminated]

theorem terminated_append (front back : List Text) :
    terminated (front ++ back) = terminated front ++ terminated back :=
  List.flatMap_append

theorem splitAt_terminated (pieces : List Text) :
    splitAt '\n' (terminated pieces) = pieces.flatMap (splitAt '\n') ++ [[]] := by
  induction pieces with
  | nil => rfl
  | cons piece pieces ih =>
      rw [terminated_cons, splitAt_append_cons, ih, List.flatMap_cons, List.append_assoc]

/-- The lines of a text that has a newline behind it. -/
def partLines (part : Text) : List Text := (splitAt '\n' part).map dropReturn

/-- The lines of parts that were written one after the other are the lines of each. -/
theorem lines_terminated (parts : List Text) :
    lines (terminated parts) = parts.flatMap partLines := by
  rw [lines, splitAt_terminated, linesOfPieces_append_nil, List.map_flatMap]
  rfl

theorem partLines_of_not_mem {line : Text} (oneLine : '\n' ∉ line) :
    partLines line = [dropReturn line] := by
  rw [partLines, splitAt_of_not_mem oneLine, List.map_singleton]

theorem partLines_unlines {ls : List Text} (nonempty : ls ≠ []) (each : ∀ line ∈ ls, '\n' ∉ line) :
    partLines (unlines ls) = ls.map dropReturn := by
  rw [partLines, splitAt_unlines nonempty each]

/-- Joined lines are read as the lines, without the carriage returns that stand before their
ends. -/
theorem lines_unlines {ls : List Text} {last : Text} (each : ∀ line ∈ ls ++ [last], '\n' ∉ line)
    (nonempty : last ≠ []) : lines (unlines (ls ++ [last])) = ls.map dropReturn ++ [last] := by
  rw [lines, splitAt_unlines (by simp) each, linesOfPieces_concat ls nonempty]

/-- Lines in front of others are read on their own. -/
theorem lines_unlines_append {front back : List Text} (each : ∀ line ∈ front, '\n' ∉ line)
    (nonempty : back ≠ []) :
    lines (unlines (front ++ back)) = front.map dropReturn ++ lines (unlines back) := by
  by_cases empty : front = []
  · rw [empty]
    rfl
  · rw [unlines_append empty nonempty, lines, splitAt_append_cons, splitAt_unlines empty each,
      linesOfPieces_append front (splitAt_ne_nil _ _), lines]

/-- Lines that end neither in nothing nor in a carriage return are read on their own, also where
none is behind them. -/
theorem lines_unlines_append_of_kept {front : List Text} (oneLine : ∀ line ∈ front, '\n' ∉ line)
    (kept : ∀ line ∈ front, line ≠ [] ∧ dropReturn line = line) (back : List Text) :
    lines (unlines (front ++ back)) = front ++ lines (unlines back) := by
  have same : front.map dropReturn = front :=
    (List.map_congr_left fun line member => (kept line member).2).trans (List.map_id front)
  by_cases empty : back = []
  · subst empty
    rcases List.eq_nil_or_concat front with rfl | ⟨first, last, rfl⟩
    · rfl
    · rw [List.concat_eq_append] at *
      rw [List.map_append, List.map_singleton] at same
      have nonempty := (kept last (by simp)).1
      rw [List.append_nil, lines_unlines oneLine nonempty, (List.append_inj' same rfl).1]
      exact (List.append_nil _).symm
  · rw [lines_unlines_append oneLine empty, same]

/-- Each part stands in the text. -/
theorem isInfix_terminated {part : Text} {parts : List Text} (member : part ∈ parts) :
    part <:+: terminated parts := by
  obtain ⟨front, back, rfl⟩ := List.append_of_mem member
  exact ⟨terminated front, '\n' :: terminated back, by simp [terminated_append, terminated_cons]⟩

/-- A line is a piece between two newlines, or the beginning of one. -/
theorem exists_piece_of_mem_linesOfPieces {pieces : List Text} {line : Text}
    (member : line ∈ linesOfPieces pieces) : ∃ piece ∈ pieces, line <+: piece := by
  fun_induction linesOfPieces pieces with
  | case1 => simp at member
  | case2 last empty => simp at member
  | case3 last _ =>
      rw [List.mem_singleton] at member
      exact ⟨last, List.mem_singleton_self _, member ▸ List.prefix_rfl⟩
  | case4 piece next pieces ih =>
      rcases List.mem_cons.mp member with rfl | member
      · exact ⟨piece, List.mem_cons_self, dropReturn_isPrefix piece⟩
      · obtain ⟨found, isPiece, begins⟩ := ih member
        exact ⟨found, List.mem_cons_of_mem _ isPiece, begins⟩

/-- No line holds a newline. -/
theorem not_mem_of_mem_lines {s line : Text} (member : line ∈ lines s) : '\n' ∉ line := by
  obtain ⟨piece, isPiece, begins⟩ := exists_piece_of_mem_linesOfPieces member
  exact fun inside => not_mem_of_mem_splitAt isPiece (begins.subset inside)

/-- Joined lines with a newline behind the last. -/
theorem terminated_eq {ls : List Text} (nonempty : ls ≠ []) :
    terminated ls = unlines ls ++ ['\n'] := by
  induction ls with
  | nil => exact absurd rfl nonempty
  | cons line ls ih =>
      cases ls with
      | nil => exact List.append_nil _
      | cons next ls =>
          rw [terminated_cons, ih (by simp), unlines_cons_cons, List.append_assoc, List.cons_append]

/-- Lines that stand in front of others have a newline behind each. -/
theorem unlines_append_of_ne_nil (front : List Text) {back : List Text} (nonempty : back ≠ []) :
    unlines (front ++ back) = terminated front ++ unlines back := by
  by_cases empty : front = []
  · rw [empty]
    rfl
  · rw [unlines_append empty nonempty, terminated_eq empty, List.append_assoc]
    rfl

/-! ## What occurs in joined lines -/

/-- What occurs in two texts around a character that it does not hold occurs in one of
them. -/
theorem isInfix_of_isInfix_append_cons {literal s t : Text} {c : Char} (absent : c ∉ literal)
    (occurs : literal <:+: s ++ c :: t) : literal <:+: s ∨ literal <:+: t := by
  obtain ⟨before, after, whole⟩ := occurs
  rw [List.append_assoc, List.append_eq_append_iff] at whole
  rcases whole with ⟨middle, rfl, rest⟩ | ⟨middle, rfl, rest⟩
  · -- The literal begins in the first text: the character stands behind it.
    rcases List.append_eq_append_iff.mp rest with ⟨gap, rfl, -⟩ | ⟨gap, rfl, crossed⟩
    · exact .inl ⟨before, gap, List.append_assoc ..⟩
    · cases gap with
      | nil => exact .inl ⟨before, [], by simp⟩
      | cons d gap =>
          rw [List.cons_append] at crossed
          obtain ⟨rfl, -⟩ := List.cons.inj crossed
          simp at absent
  · cases middle with
    | nil =>
        rw [List.nil_append] at rest
        cases literal with
        | nil => exact .inl (List.nil_infix)
        | cons d literal =>
            obtain ⟨rfl, -⟩ := List.cons.inj rest
            simp at absent
    | cons d middle =>
        obtain ⟨-, rest⟩ := List.cons.inj rest
        exact .inr ⟨middle, after, (List.append_assoc ..).trans rest.symm⟩

/-- What begins a text and holds no character of it begins what stands in front of that. -/
theorem isPrefix_of_isPrefix_append_cons {literal s t : Text} {c : Char} (absent : c ∉ literal)
    (begins : literal <+: s ++ c :: t) : literal <+: s := by
  rcases List.prefix_or_prefix_of_prefix begins
    (List.prefix_append s (c :: t)) with here | ⟨rest, rfl⟩
  · exact here
  · cases rest with
    | nil => simp
    | cons d rest =>
        have next := (List.prefix_append_right_inj s).mp begins
        rw [(List.cons_prefix_cons.mp next).1] at absent
        simp at absent

/-- A search for what begins with a text passes over a line in which that does not occur. -/
theorem find?_append_cons {α : Type} {literal line : Text} {read : Text → Option α}
    (newline : '\n' ∉ literal) (absent : ¬ literal <:+: line) (s : Text) :
    find? (fun rest => (skip? literal rest).bind read) (line ++ '\n' :: s) =
      find? (fun rest => (skip? literal rest).bind read) s := by
  induction line with
  | nil =>
      have skipped : skip? literal ('\n' :: s) = none := skip?_eq_none fun begins =>
        absent (isPrefix_of_isPrefix_append_cons (s := []) newline begins).isInfix
      rw [List.nil_append, find?, skipped]
      rfl
  | cons c line ih =>
      have skipped : skip? literal (c :: (line ++ '\n' :: s)) = none := skip?_eq_none fun begins =>
        absent (isPrefix_of_isPrefix_append_cons (s := c :: line) newline begins).isInfix
      rw [List.cons_append, find?, skipped]
      exact ih fun occurs => absent (occurs.trans (List.suffix_cons c line).isInfix)

theorem find?_terminated {α : Type} {literal : Text} {read : Text → Option α} {parts : List Text}
    (newline : '\n' ∉ literal) (absent : ∀ part ∈ parts, ¬ literal <:+: part) (s : Text) :
    find? (fun rest => (skip? literal rest).bind read) (terminated parts ++ s) =
      find? (fun rest => (skip? literal rest).bind read) s := by
  induction parts with
  | nil => rfl
  | cons part parts ih =>
      rw [List.forall_mem_cons] at absent
      rw [terminated_cons, List.append_assoc, List.cons_append, find?_append_cons newline absent.1,
        ih absent.2]

/-- Where a text is cut at its first occurrence of another, lines in front make no difference. -/
theorem splitOnText?_append_cons {literal s t before after : Text} {c : Char} (absent : c ∉ literal)
    (intact : ¬ literal <:+: s) (cut : splitOnText? literal t = some (before, after)) :
    splitOnText? literal (s ++ c :: t) = some (s ++ c :: before, after) := by
  induction s with
  | nil =>
      have skipped : skip? literal (c :: t) = none := skip?_eq_none fun begins =>
        intact (isPrefix_of_isPrefix_append_cons (s := []) absent begins).isInfix
      rw [splitOnText?] at cut
      simp [splitOnText?, splitBefore, skipped, cut]
  | cons d s ih =>
      have skipped : skip? literal (d :: (s ++ c :: t)) = none := skip?_eq_none fun begins =>
        intact (isPrefix_of_isPrefix_append_cons (s := d :: s) absent begins).isInfix
      have later := ih fun occurs => intact (occurs.trans (List.suffix_cons d s).isInfix)
      rw [splitOnText?] at later
      simp [splitOnText?, splitBefore, skipped, later]

/-- The first occurrence of a text is behind lines in which it does not occur. -/
theorem splitOnText?_terminated {c : Char} {literal : Text} {parts : List Text}
    (absent : '\n' ∉ c :: literal) (intact : ∀ part ∈ parts, ¬ c :: literal <:+: part)
    (after : Text) :
    splitOnText? (c :: literal) (terminated parts ++ (c :: literal ++ after)) =
      some (terminated parts, after) := by
  induction parts with
  | nil => exact splitOnText?_append c literal after
  | cons part parts ih =>
      rw [List.forall_mem_cons] at intact
      rw [terminated_cons, List.append_assoc, List.cons_append]
      exact splitOnText?_append_cons absent intact.1 (ih intact.2)

/-- What occurs in joined lines and holds no newline occurs in one of the lines. -/
theorem exists_line_of_isInfix {literal : Text} {ls : List Text} (nonempty : literal ≠ [])
    (absent : '\n' ∉ literal) (occurs : literal <:+: unlines ls) :
    ∃ line ∈ ls, literal <:+: line := by
  induction ls with
  | nil => exact absurd (List.infix_nil.mp occurs) nonempty
  | cons line ls ih =>
      cases ls with
      | nil => exact ⟨line, List.mem_singleton_self _, occurs⟩
      | cons next ls =>
          rw [unlines_cons_cons] at occurs
          rcases isInfix_of_isInfix_append_cons absent occurs with here | later
          · exact ⟨line, List.mem_cons_self, here⟩
          · obtain ⟨found, member, inside⟩ := ih later
            exact ⟨found, List.mem_cons_of_mem _ member, inside⟩

/-- What occurs in a line occurs in the joined lines. -/
theorem isInfix_unlines {literal line : Text} {ls : List Text} (member : line ∈ ls)
    (occurs : literal <:+: line) : literal <:+: unlines ls := by
  induction ls with
  | nil => cases member
  | cons first ls ih =>
      cases ls with
      | nil =>
          rw [List.mem_singleton.mp member] at occurs
          exact occurs
      | cons next ls =>
          rw [unlines_cons_cons]
          rcases List.mem_cons.mp member with rfl | later
          · exact occurs.trans (List.prefix_append _ _).isInfix
          · exact (ih later).trans ⟨first ++ ['\n'], [], by simp⟩

/-- A line is a part of its text. -/
theorem isInfix_of_mem_lines {s line : Text} (member : line ∈ lines s) : line <:+: s := by
  obtain ⟨piece, isPiece, begins⟩ := exists_piece_of_mem_linesOfPieces member
  have whole : piece <:+: unlines (splitAt '\n' s) := isInfix_unlines isPiece List.infix_rfl
  rw [unlines, join_splitAt] at whole
  exact begins.isInfix.trans whole

/-- A character of joined lines stands in one of them. -/
theorem exists_line_of_mem {c : Char} {ls : List Text} (other : c ≠ '\n')
    (member : c ∈ unlines ls) : ∃ line ∈ ls, c ∈ line := by
  have occurs : [c] <:+: unlines ls := (List.singleton_infix_iff c _).mpr member
  obtain ⟨line, inside, here⟩ := exists_line_of_isInfix (by simp) (by simpa using other.symm) occurs
  exact ⟨line, inside, here.subset List.mem_cons_self⟩

end SlideDeck.Text
