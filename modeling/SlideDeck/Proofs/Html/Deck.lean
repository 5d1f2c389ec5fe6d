import SlideDeck.Proofs.Latex.Depth
import SlideDeck.Proofs.Slide.Page
import SlideDeck.Html.Deck

/-!
# What a deck reads

A frame is found where it begins, and nowhere else: lines in which no frame begins are
passed over (`framesOf_terminated`), and a frame that is written with its title in braces
and its body in lines is read as it was written (`framesOf_titled`).

The scanner of notes counts the braces of guarded lines like everything else that counts
them (`balancedFrom_line`), so a note is read up to its own closing brace (`note?_written`).
-/

set_option autoImplicit false

namespace SlideDeck.Deck

open SlideDeck SlideDeck.Text SlideDeck.Latex SlideDeck.Slide

/-! ## Where no frame begins -/

theorem frame?_eq_none {s : Text} (absent : ¬ beginEnvironment "frame".toList <+: s) :
    frame? s = none := by
  rw [frame?, skip?_eq_none absent]
  rfl

theorem framesOf_cons_of_none {c : Char} {s : Text} (quiet : frame? (c :: s) = none) :
    framesOf (c :: s) = framesOf s :=
  matchesOf_cons_of_none (by rw [quiet]; rfl)

theorem framesOf_cons_of_some {c : Char} {s behind : Text} {frame : Frame}
    (found : frame? (c :: s) = some (frame, behind)) (part : behind <:+ s) :
    framesOf (c :: s) = (frame, behind) :: framesOf behind :=
  matchesOf_cons_of_some (by rw [found]; rfl) part

/-- A line in which no frame begins is passed over. -/
theorem framesOf_append_cons {line : Text} (absent : ¬ beginEnvironment "frame".toList <:+: line)
    (s : Text) : framesOf (line ++ '\n' :: s) = framesOf s := by
  have newline : '\n' ∉ beginEnvironment "frame".toList := by decide
  induction line with
  | nil =>
      exact framesOf_cons_of_none (frame?_eq_none fun begins =>
        absent (isPrefix_of_isPrefix_append_cons (s := []) newline begins).isInfix)
  | cons c line ih =>
      have quiet : frame? (c :: (line ++ '\n' :: s)) = none := frame?_eq_none fun begins =>
        absent (isPrefix_of_isPrefix_append_cons (s := c :: line) newline begins).isInfix
      rw [List.cons_append, framesOf_cons_of_none quiet]
      exact ih fun occurs => absent (occurs.trans (List.suffix_cons c line).isInfix)

theorem framesOf_terminated {parts : List Text}
    (absent : ∀ part ∈ parts, ¬ beginEnvironment "frame".toList <:+: part) (s : Text) :
    framesOf (terminated parts ++ s) = framesOf s := by
  induction parts with
  | nil => rfl
  | cons part parts ih =>
      rw [List.forall_mem_cons] at absent
      rw [terminated_cons, List.append_assoc, List.cons_append, framesOf_append_cons absent.1,
        ih absent.2]

/-- A frame without a title in braces is no frame of a deck. -/
theorem framesOf_untitled {args : Text} (untitled : args = [] ∨ args = "[plain]".toList)
    (s : Text) :
    framesOf (beginEnvironment "frame".toList ++ args ++ '\n' :: s) = framesOf s := by
  have quiet : frame? (beginEnvironment "frame".toList ++ args ++ '\n' :: s) = none := by
    rcases untitled with rfl | rfl <;> rfl
  have absent : ¬ beginEnvironment "frame".toList <:+: "begin\x7bframe\x7d".toList ++ args := by
    rw [← includes_iff]
    rcases untitled with rfl | rfl <;> decide
  exact (framesOf_cons_of_none quiet).trans (framesOf_append_cons absent s)

/-! ## Where a frame begins -/

theorem lineTitle?_append (title : Text) : lineTitle? (title ++ ['\x7d']) = some title := by
  have stops : Html.isLineBlank '\x7d' = false := by decide
  simp [lineTitle?, stops]

section Titled

variable {option title : Text} {parts : List Text}

/-- A titled frame is read as it is written. -/
theorem frame?_titled (known : option = "[fragile]".toList ∨ option = []) (oneLine : '\n' ∉ title)
    (noEnd : ∀ part ∈ parts, ¬ endEnvironment "frame".toList <:+: part) (behind : Text) :
    frame? (beginEnvironment "frame".toList ++ (option ++ group title) ++
        '\n' :: (terminated parts ++ (endEnvironment "frame".toList ++ behind))) =
      some (⟨title, terminated parts⟩, behind) := by
  have start :
      ∀ rest, skip? (beginEnvironment "frame".toList) (beginEnvironment "frame".toList ++ rest) =
      some rest := fun rest => skip?_eq_some_iff.mpr rfl
  have braces : ∀ rest, dropBracketed (option ++ group title ++ '\n' :: rest) =
      '\x7b' :: (title ++ ['\x7d'] ++ '\n' :: rest) := by
    intro rest
    rcases known with rfl | rfl <;> rfl
  have line : ∀ rest, splitOnce '\n' (title ++ ['\x7d'] ++ '\n' :: rest) =
      some (title ++ ['\x7d'], rest) := fun rest => splitOnce_append (by simp [oneLine]) rest
  have body : splitOnText? (endEnvironment "frame".toList)
      (terminated parts ++ (endEnvironment "frame".toList ++ behind)) =
        some (terminated parts, behind) := splitOnText?_terminated (by decide) noEnd behind
  rw [frame?, List.append_assoc, start, Option.bind_some, braces]
  simp only [line, lineTitle?_append, body, Option.bind_some, Option.map_some]

theorem framesOf_titled (known : option = "[fragile]".toList ∨ option = []) (oneLine : '\n' ∉ title)
    (noEnd : ∀ part ∈ parts, ¬ endEnvironment "frame".toList <:+: part) (behind : Text) :
    framesOf (beginEnvironment "frame".toList ++ (option ++ group title) ++
        '\n' :: (terminated parts ++ (endEnvironment "frame".toList ++ behind))) =
      (⟨title, terminated parts⟩, behind) :: framesOf behind := by
  refine framesOf_cons_of_some (frame?_titled known oneLine noEnd behind) ?_
  have ending : behind <:+ terminated parts ++ (endEnvironment "frame".toList ++ behind) :=
    (List.suffix_append _ behind).trans (List.suffix_append _ _)
  exact (ending.trans (List.suffix_cons '\n' _)).trans (List.suffix_append _ _)

end Titled

/-! ## Notes -/

/-- A guarded line leads the scanner from one depth to another, as its braces do. -/
theorem balancedFrom_line {row : Bool} {line : Text} (guarded : Guarded escapable row line)
    {depth last : Nat} (leads : depthAfter depth (bracesOf line) = some last) (s : Text) :
    balancedFrom false depth (line ++ '\n' :: s) =
      (balancedFrom false last s).map fun rest => line ++ '\n' :: rest := by
  induction guarded generalizing depth with
  | nil =>
      cases leads
      rfl
  | rowEnd =>
      cases leads
      -- Each of the two backslashes makes the scanner skip the next character; that is no brace.
      have step : balancedFrom false last ('\\' :: '\\' :: '\n' :: s) =
          (((balancedFrom false last s).map ('\n' :: ·)).map ('\\' :: ·)).map ('\\' :: ·) := rfl
      rw [List.cons_append, List.singleton_append, step, Option.map_map, Option.map_map]
      rfl
  | @char _ c line loose _ ih =>
      have alone : Guarded escapable false [c] := .char loose .nil
      rw [← List.singleton_append, alone.bracesOf_append] at leads
      by_cases opening : c = '\x7b'
      · subst opening
        have step : balancedFrom false depth ('\x7b' :: (line ++ '\n' :: s)) =
            (balancedFrom false (depth + 1) (line ++ '\n' :: s)).map ('\x7b' :: ·) := rfl
        rw [List.cons_append, step, ih leads, Option.map_map]
        rfl
      by_cases closing : c = '\x7d'
      · subst closing
        cases depth with
        | zero => cases leads
        | succ depth =>
            have step : balancedFrom false (depth + 1) ('\x7d' :: (line ++ '\n' :: s)) =
                (balancedFrom false depth (line ++ '\n' :: s)).map ('\x7d' :: ·) := rfl
            rw [List.cons_append, step, ih leads, Option.map_map]
            rfl
      have braceless : bracesOf [c] = [] := by simp [bracesOf, bracesFrom, opening, closing]
      rw [braceless, List.nil_append] at leads
      have step : balancedFrom false depth (c :: (line ++ '\n' :: s)) =
          (balancedFrom false depth (line ++ '\n' :: s)).map (c :: ·) := by
        simp [balancedFrom, opening, closing, beq_eq_false_iff_ne.mpr (isLoose_iff.mp loose).1]
      rw [List.cons_append, step, ih leads, Option.map_map]
      rfl
  | @pair _ c line other follows _ ih =>
      have same : bracesOf ('\\' :: c :: line) = bracesOf line := by
        simp [bracesOf, bracesFrom, escapesNext]
      rw [same] at leads
      have step : balancedFrom false depth ('\\' :: c :: (line ++ '\n' :: s)) =
          ((balancedFrom false depth (line ++ '\n' :: s)).map (c :: ·)).map ('\\' :: ·) := by
        simp [balancedFrom, beq_eq_false_iff_ne.mpr other]
      rw [List.cons_append, List.cons_append, step, ih leads, Option.map_map, Option.map_map]
      rfl

/-- Lines of a page leave the depth as it is. -/
theorem balancedFrom_terminated {rows : List Text} (isLine : ∀ row ∈ rows, PageLine row)
    (s : Text) :
    balancedFrom false 0 (terminated rows ++ '\x7d' :: s) = some (terminated rows) := by
  induction rows with
  | nil => rfl
  | cons row rows ih =>
      rw [List.forall_mem_cons] at isLine
      obtain ⟨ends, guarded⟩ := isLine.1.guarded
      rw [terminated_cons, List.append_assoc, List.cons_append,
        balancedFrom_line guarded isLine.1.balanced, ih isLine.2, Option.map_some]

/-- A note is read up to its own closing brace, and trimmed. -/
theorem note?_written {rows : List Text} (isLine : ∀ row ∈ rows, PageLine row)
    (nonempty : rows ≠ [])
    (s : Text) :
    note? ('\n' :: ("\\note\x7b\n".toList ++ (unlines rows ++ '\n' :: '\x7d' :: s))) =
      some (trim (unlines rows)) := by
  have whole : unlines rows ++ '\n' :: '\x7d' :: s = terminated rows ++ '\x7d' :: s := by
    rw [terminated_eq nonempty, List.append_assoc, List.singleton_append]
  have start : ∀ rest, noteStart? ('\n' :: ("\\note\x7b\n".toList ++ rest)) = some ('\n' :: rest) :=
    fun rest => rfl
  have step :
      ∀ rest, balancedFrom false 0 ('\n' :: rest) = (balancedFrom false 0 rest).map ('\n' :: ·) :=
    fun rest => rfl
  rw [note?, start, Option.bind_some, step, whole, balancedFrom_terminated isLine, Option.map_some,
    Option.map_some, trim_cons_of_blank (by decide), terminated_eq nonempty,
    trim_append_of_blank _ (by decide)]

/-- Where an environment begins, no note stands. -/
theorem note?_eq_none (s : Text) : note? ('\n' :: '\n' :: ("\\begin".toList ++ s)) = none := rfl

end SlideDeck.Deck
