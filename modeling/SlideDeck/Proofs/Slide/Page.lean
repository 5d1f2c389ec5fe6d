import SlideDeck.Proofs.Slide.Block
import SlideDeck.Proofs.Slide.Diagram
import SlideDeck.Proofs.Lint.Fit

/-!
# The lines of a page

The body of a frame is a *page* (`Page`): quiet lines with balanced braces, environments
around pages, and listings, whose lines come from the source as they are. What is known of
those lines is a parameter.

A page stays one when the blanks at its ends are trimmed (`Page.trim`) and when its line
ends are read again (`Page.map_dropReturn`). A page whose listings hold nothing that ends
an environment passes the checks (`Page.closed`).
-/

set_option autoImplicit false

namespace SlideDeck.Slide

open SlideDeck SlideDeck.Text SlideDeck.Latex SlideDeck.Markdown

/-! ## Lines -/

/-- A line of a page outside of listings. -/
structure PageLine (line : Text) : Prop where
  guarded : ∃ row, Guarded escapable row line
  calm : Calm line
  balanced : Balanced (bracesOf line)
  oneLine : '\n' ∉ line

theorem escapable_of_still {c : Char} (follows : still c = true) : escapable c = true := by
  simp_all [still]

theorem isBlank_of_escapable (c : Char) (follows : escapable c = true) : isBlank c = false := by
  simpa [escapable] using follows

namespace PageLine

variable {line : Text}

theorem of_neat (neat : Neat line) : PageLine line where
  guarded := ⟨false, neat.tidy.guarded.mono fun _ => escapable_of_still⟩
  calm := neat.tidy.guarded.calm
  balanced := neat.tidy.depth
  oneLine := neat.oneLine

/-- Neat text as a row of a table. -/
theorem of_row (neat : Neat line) : PageLine (line ++ Table.rowEnd) := by
  have ending : Guarded still true Table.rowEnd := by decide
  have guarded := neat.tidy.guarded.append ending
  refine ⟨⟨true, guarded.mono fun _ => escapable_of_still⟩, guarded.calm, ?_, ?_⟩
  · rw [neat.tidy.guarded.bracesOf_append]
    exact Balanced.append neat.tidy.depth (by decide)
  · simp [neat.oneLine, Table.rowEnd]

/-- The blanks at the front of a line group nothing. -/
theorem bracesOf_trimStart (s : Text) : bracesOf (trimStart s) = bracesOf s := by
  refine apply_trimStart bracesOf (fun c s blank => ?_) s
  have plain : c ≠ '\\' ∧ c ≠ '\x7b' ∧ c ≠ '\x7d' := by
    refine ⟨?_, ?_, ?_⟩ <;> rintro rfl <;> exact absurd blank (by decide)
  simp [bracesOf, bracesFrom, escapesNext, beq_eq_false_iff_ne.mpr plain.1, plain.2.1, plain.2.2]

theorem bracesOf_of_blanks {s : Text} (blanks : ∀ c ∈ s, isBlank c = true) : bracesOf s = [] := by
  rw [← bracesOf_trimStart, trimStart, List.dropWhile_eq_nil_iff.mpr blanks]
  rfl

theorem trimStart (isLine : PageLine line) : PageLine (trimStart line) := by
  obtain ⟨row, guarded⟩ := isLine.guarded
  have part := trimStart_isSuffix line
  refine ⟨⟨row, guarded.trimStart⟩, isLine.calm.of_isInfix part.isInfix, ?_,
    fun inside => isLine.oneLine (part.subset inside)⟩
  rw [bracesOf_trimStart]
  exact isLine.balanced

theorem trimEnd (isLine : PageLine line) : PageLine (trimEnd line) := by
  obtain ⟨row, guarded⟩ := isLine.guarded
  have kept := guarded.trimEnd isBlank_of_escapable
  have part := trimEnd_isPrefix line
  refine ⟨⟨row, kept⟩, isLine.calm.of_isInfix part.isInfix, ?_,
    fun inside => isLine.oneLine (part.subset inside)⟩
  obtain ⟨blanks, whole, areBlank⟩ := exists_blanks_trimEnd line
  have balanced := isLine.balanced
  rwa [whole, kept.bracesOf_append, bracesOf_of_blanks areBlank, List.append_nil] at balanced

theorem dropReturn (isLine : PageLine line) : PageLine (dropReturn line) := by
  obtain ⟨row, guarded⟩ := isLine.guarded
  have kept := guarded.dropReturn isBlank_of_escapable
  have part := dropReturn_isPrefix line
  refine ⟨⟨row, kept⟩, isLine.calm.of_isInfix part.isInfix, ?_,
    fun inside => isLine.oneLine (part.subset inside)⟩
  rw [guarded.bracesOf_dropReturn isBlank_of_escapable]
  exact isLine.balanced

theorem quiet (isLine : PageLine line) : Lint.Quiet line := by
  obtain ⟨row, guarded⟩ := isLine.guarded
  have same := guarded.codeOf
  exact ⟨⟨row, same.symm ▸ guarded⟩, same.symm ▸ isLine.calm⟩

/-- A line of a page is closed by itself. -/
theorem closed (isLine : PageLine line) : Lint.Closed [line] := by
  obtain ⟨row, guarded⟩ := isLine.guarded
  refine .quietLine isLine.quiet ?_
  rw [guarded.codeOf]
  exact isLine.balanced

end PageLine

/-! ## Pages -/

/-- The environments of a page. -/
def pageEnvironments : List Text := [
  "itemize".toList, "enumerate".toList, "center".toList, "tabular".toList, "quote".toList,
  "tikzpicture".toList]

/-- What stands behind the name of an environment on its line. -/
structure Arguments (args : Text) : Prop where
  neat : Neat args
  noReturn : '\r' ∉ args

instance (args : Text) : Decidable (Arguments args) :=
  decidable_of_iff (Neat args ∧ '\r' ∉ args)
    ⟨fun both => ⟨both.1, both.2⟩, fun arguments => ⟨arguments.1, arguments.2⟩⟩

/-- The lines of a page, where the lines of listings are `listed`. -/
inductive Page (listed : Text → Prop) : List Text → Prop where
  | nil : Page listed []
  | line {line : Text} {rest : List Text} (isLine : PageLine line) (later : Page listed rest) :
      Page listed (line :: rest)
  | environment {name args : Text} {inner rest : List Text} (member : name ∈ pageEnvironments)
      (arguments : Arguments args) (page : Page listed inner) (later : Page listed rest) :
      Page listed ((beginEnvironment name ++ args) :: (inner ++ endEnvironment name :: rest))
  | listing {args : Text} {code rest : List Text} (arguments : Arguments args)
      (each : ∀ line ∈ code, listed line ∧ '\n' ∉ line) (later : Page listed rest) :
      Page listed ((beginEnvironment listing ++ args) :: (code ++ endEnvironment listing :: rest))
  | placeholder {rest : List Text} (later : Page listed rest) :
      Page listed (Diagram.placeholder :: rest)

namespace Page

variable {listed : Text → Prop} {front back ls : List Text}

theorem append (first : Page listed front) (second : Page listed back) :
    Page listed (front ++ back) := by
  induction first with
  | nil => exact second
  | line isLine _ ih => exact .line isLine ih
  | environment member arguments page _ _ ih =>
      simpa using environment member arguments page ih
  | listing arguments each _ ih => simpa using listing arguments each ih
  | placeholder _ ih => exact .placeholder ih

/-- An environment without arguments. -/
theorem plain {name : Text} {inner rest : List Text} (member : name ∈ pageEnvironments)
    (page : Page listed inner) (later : Page listed rest) :
    Page listed (beginEnvironment name :: (inner ++ endEnvironment name :: rest)) := by
  have arguments : Arguments [] := by decide
  simpa using environment member arguments page later

/-- Lines that begin no environment are a page. -/
theorem of_lines (each : ∀ line ∈ ls, PageLine line) : Page listed ls := by
  induction ls with
  | nil => exact nil
  | cons line ls ih =>
      rw [List.forall_mem_cons] at each
      exact .line each.1 (ih each.2)

theorem of_neat (each : ∀ line ∈ ls, Neat line) : Page listed ls :=
  of_lines fun line member => .of_neat (each line member)

end Page

theorem isName_of_mem_pageEnvironments {name : Text} (member : name ∈ pageEnvironments) :
    IsName name :=
  (by decide : ∀ name ∈ pageEnvironments, IsName name) name member

/-! ## Line ends -/

theorem dropReturn_of_not_mem {s : Text} (absent : '\r' ∉ s) : dropReturn s = s := by
  rcases eq_dropReturn_or s with same | same
  · exact same
  · rw [← same] at absent
    simp at absent

theorem dropReturn_beginEnvironment {name args : Text} (isName : IsName name)
    (arguments : Arguments args) :
    dropReturn (beginEnvironment name ++ args) = beginEnvironment name ++ args := by
  refine dropReturn_of_not_mem ?_
  simp [beginEnvironment, command, group, isName.not_mem (c := '\r') (by decide),
    arguments.noReturn]

theorem dropReturn_endEnvironment {name : Text} (isName : IsName name) :
    dropReturn (endEnvironment name) = endEnvironment name := by
  refine dropReturn_of_not_mem ?_
  simp [endEnvironment, command, group, isName.not_mem (c := '\r') (by decide)]

namespace Page

variable {listed : Text → Prop} {ls : List Text}

/-- Reading the line ends again drops no more than a carriage return from a line. -/
theorem map_dropReturn (kept : ∀ line, listed line → listed (dropReturn line))
    (page : Page listed ls) : Page listed (ls.map dropReturn) := by
  induction page with
  | nil => exact nil
  | line isLine _ ih => exact .line isLine.dropReturn ih
  | @environment name args inner rest member arguments _ _ ihInner ih =>
      have isName := isName_of_mem_pageEnvironments member
      rw [List.map_cons, List.map_append, List.map_cons,
        dropReturn_beginEnvironment isName arguments, dropReturn_endEnvironment isName]
      exact .environment member arguments ihInner ih
  | @listing args code rest arguments each _ ih =>
      have isName : IsName Slide.listing := by decide
      rw [List.map_cons, List.map_append, List.map_cons,
        dropReturn_beginEnvironment isName arguments, dropReturn_endEnvironment isName]
      refine .listing arguments (fun line member => ?_) ih
      obtain ⟨source, inside, rfl⟩ := List.mem_map.mp member
      obtain ⟨isListed, oneLine⟩ := each source inside
      exact ⟨kept source isListed, fun found => oneLine ((dropReturn_isPrefix source).subset found)⟩
  | placeholder _ ih => exact .placeholder ih

/-- The lines of a page are single lines. -/
theorem oneLine (page : Page listed ls) : ∀ line ∈ ls, '\n' ∉ line := by
  induction page with
  | nil => simp
  | line isLine _ ih => exact List.forall_mem_cons.mpr ⟨isLine.oneLine, ih⟩
  | @environment name args inner rest member arguments _ _ ihInner ih =>
      have isName := isName_of_mem_pageEnvironments member
      simp only [List.forall_mem_cons, List.forall_mem_append]
      refine ⟨?_, ihInner, ?_, ih⟩
      · simp [beginEnvironment, command, group, isName.not_mem (c := '\n') (by decide),
          arguments.neat.oneLine]
      · simp [endEnvironment, command, group, isName.not_mem (c := '\n') (by decide)]
  | listing arguments each _ ih =>
      simp only [List.forall_mem_cons, List.forall_mem_append]
      refine ⟨?_, fun line member => (each line member).2, by decide, ih⟩
      have start : '\n' ∉ beginEnvironment Slide.listing := by decide
      simp [start, arguments.neat.oneLine]
  | placeholder _ ih => exact List.forall_mem_cons.mpr ⟨by decide, ih⟩

/-! ## Trimming -/

theorem trimStart (page : Page listed ls) :
    ∃ trimmed, Page listed trimmed ∧ trimStart (unlines ls) = unlines trimmed := by
  induction page with
  | nil => exact ⟨[], nil, rfl⟩
  | @line first rest isLine later ih =>
      by_cases empty : Text.trimStart first = []
      · rw [trimStart_unlines_of_eq_nil empty]
        exact ih
      · exact ⟨_, .line isLine.trimStart later, trimStart_unlines_of_ne_nil empty rest⟩
  | environment member arguments page later _ _ =>
      exact ⟨_, .environment member arguments page later, trimStart_unlines (by decide) _ _⟩
  | listing arguments each later _ =>
      exact ⟨_, .listing arguments each later, trimStart_unlines (by decide) _ _⟩
  | placeholder later _ => exact ⟨_, .placeholder later, trimStart_unlines (by decide) _ _⟩

/-- Behind lines whose last ends in a visible character, trimming stops. -/
theorem trimEnd_behind {group rest trimmed : List Text} {last : Text} {c : Char}
    (visible : isBlank c = false) (wrap : ∀ rest, Page listed rest →
      Page listed (group ++ [last ++ [c]] ++ rest))
    (page : Page listed trimmed) (same : Text.trimEnd (unlines rest) = unlines trimmed) :
    ∃ trimmed, Page listed trimmed ∧
      Text.trimEnd (unlines (group ++ [last ++ [c]] ++ rest)) = unlines trimmed := by
  by_cases empty : unlines trimmed = []
  · refine ⟨_, wrap [] nil, ?_⟩
    rw [trimEnd_unlines_of_eq_nil (by simp) (same.trans empty), List.append_nil]
    exact trimEnd_unlines_concat group last visible
  · exact ⟨_, wrap trimmed page, trimEnd_unlines_of_ne_nil (by simp) same empty⟩

theorem trimEnd (page : Page listed ls) :
    ∃ trimmed, Page listed trimmed ∧ trimEnd (unlines ls) = unlines trimmed := by
  induction page with
  | nil => exact ⟨[], nil, rfl⟩
  | @line first rest isLine later ih =>
      obtain ⟨trimmed, page, same⟩ := ih
      by_cases empty : unlines trimmed = []
      · refine ⟨[Text.trimEnd first], .line isLine.trimEnd nil, ?_⟩
        exact trimEnd_unlines_of_eq_nil (List.cons_ne_nil first []) (same.trans empty)
      · exact ⟨first :: trimmed, .line isLine page,
          trimEnd_unlines_of_ne_nil (List.cons_ne_nil first []) same empty⟩
  | @environment name args inner rest member arguments page later _ ih =>
      obtain ⟨trimmed, pageTrimmed, same⟩ := ih
      have whole :
          ∀ rest, (beginEnvironment name ++ args) :: (inner ++ endEnvironment name :: rest) =
          ((beginEnvironment name ++ args) :: inner) ++
            [('\\' :: "end".toList ++ '\x7b' :: name) ++ ['\x7d']] ++ rest := by
        intro rest
        simp [endEnvironment, command, group]
      rw [whole]
      refine trimEnd_behind (by decide) (fun rest later => ?_) pageTrimmed same
      exact whole rest ▸ .environment member arguments page later
  | @listing args code rest arguments each later ih =>
      obtain ⟨trimmed, pageTrimmed, same⟩ := ih
      have whole : ∀ rest, (beginEnvironment Slide.listing ++ args) ::
          (code ++ endEnvironment Slide.listing :: rest) =
            ((beginEnvironment Slide.listing ++ args) :: code) ++
              ["\\end\x7blstlisting".toList ++ ['\x7d']] ++ rest := by
        intro rest
        rw [List.append_assoc]
        rfl
      rw [whole]
      refine trimEnd_behind (by decide) (fun rest later => ?_) pageTrimmed same
      exact whole rest ▸ .listing arguments each later
  | @placeholder rest later ih =>
      obtain ⟨trimmed, pageTrimmed, same⟩ := ih
      have whole : ∀ rest, Diagram.placeholder :: rest =
          [] ++ ["% diagram: no nodes could be parse".toList ++ ['d']] ++ rest := fun rest => rfl
      rw [whole]
      exact trimEnd_behind (by decide) (fun rest later => .placeholder later) pageTrimmed same

/-- Trimming a page leaves a page. -/
theorem trim (page : Page listed ls) :
    ∃ trimmed, Page listed trimmed ∧ trim (unlines ls) = unlines trimmed := by
  obtain ⟨begun, pageBegun, same⟩ := page.trimStart
  rw [Text.trim, same]
  exact pageBegun.trimEnd

/-! ## Checking -/

/-- **Pages are closed.** A page whose listings cannot end an environment has balanced braces,
and no check but theirs finds anything in it. -/
theorem closed (noEnd : ∀ line, listed line → ¬ "\\end\x7b".toList <:+: line)
    (page : Page listed ls) : Lint.Closed ls := by
  induction page with
  | nil => exact .nil
  | line isLine _ ih => exact isLine.closed.append ih
  | @environment name args inner rest member arguments _ _ ihInner ih =>
      have isName := isName_of_mem_pageEnvironments member
      have tidy := arguments.neat.tidy
      have known : name ∉ verbatimEnvironments ∧ "frame".toList ≠ name :=
        (by decide : ∀ name ∈ pageEnvironments,
          name ∉ verbatimEnvironments ∧ "frame".toList ≠ name) name member
      have titled : ∀ next, Lint.lacksTitle (beginEnvironment name ++ args) next = false := by
        refine Lint.lacksTitle_of_absent ?_
        rw [(Lint.guarded_beginning isName tidy).codeOf]
        exact not_isInfix_beginEnvironment isName (by decide) known.2 tidy.guarded.calm
      have around := Lint.Closed.environment isName known.1 tidy (titled _) ihInner
      simpa using around.append ih
  | @listing args code rest arguments each _ ih =>
      have known : Slide.listing ∈ verbatimEnvironments := by decide
      have listing := Lint.Closed.listing known arguments.neat.tidy
        fun line member => noEnd line (each line member).1
      simpa using listing.append ih
  | placeholder _ ih =>
      have quiet : Lint.Quiet Diagram.placeholder := ⟨⟨false, by decide⟩, by decide⟩
      exact (Lint.Closed.quietLine quiet (by decide)).append ih

end Page

end SlideDeck.Slide
