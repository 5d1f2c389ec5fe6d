import Mathlib.Data.Bool.AllAny
import SlideDeck.Proofs.Html.Fragment
import SlideDeck.Proofs.Text.Lines

/-!
# Listings on the page

A frame that is one listing becomes one element of code (`fragment_listingLines`), if its lines
are *intact* (`Intact`): no line holds what the conversions before the listings are taken
out would change. The text of the element is the code with its special characters as
entities.

All conversions of commands look for a backslash first, so they pass over the code
(`Passes.substitute`). The listing ends at its own end, because only there a command
begins (`listingBody?_listing`).
-/

set_option autoImplicit false

namespace SlideDeck.Html

open SlideDeck SlideDeck.Text

/-! ## Conversions that pass over listings -/

/-- An environment with what stands between its two ends. -/
def environment (name inner : Text) : Text :=
  Latex.beginEnvironment name ++ (inner ++ Latex.endEnvironment name)

/-- A search that finds nothing in a listing whose code has no commands. -/
structure Passes {α : Type} (look : Text → Option α) : Prop where
  plain : ∀ c cs, c ≠ '\\' → look (c :: cs) = none
  beginnings : ∀ name ∈ codeEnvironments, ∀ rest, look (Latex.beginEnvironment name ++ rest) = none
  endings : ∀ name ∈ codeEnvironments, look (Latex.endEnvironment name) = none

namespace Passes

variable {α β : Type}

/-- A command that is no end of a listing. -/
theorem skip {literal : Text} (isCommand : literal.head? = some '\\')
    (foreign : ∀ name ∈ codeEnvironments, ¬ literal <+: Latex.beginEnvironment name ∧
      ¬ Latex.beginEnvironment name <+: literal ∧ ¬ literal <+: Latex.endEnvironment name) :
    Passes (skip? literal) where
  plain c cs other := by
    obtain ⟨tail, rfl⟩ := List.head?_eq_some_iff.mp isCommand
    exact if_neg other.symm
  beginnings name member rest := by
    obtain ⟨shorter, longer, -⟩ := foreign name member
    refine skip?_eq_none fun begins => ?_
    rcases List.prefix_or_prefix_of_prefix begins (List.prefix_append _ rest) with before | behind
    · exact shorter before
    · exact longer behind
  endings name member := skip?_eq_none (foreign name member).2.2

theorem bind {look : Text → Option α} (passes : Passes look) (read : α → Option β) :
    Passes fun s => (look s).bind read where
  plain c cs other := by rw [passes.plain c cs other]; rfl
  beginnings name member rest := by rw [passes.beginnings name member rest]; rfl
  endings name member := by rw [passes.endings name member]; rfl

theorem findSome {entries : List β} {look : β → Text → Option α}
    (each : ∀ entry ∈ entries, Passes (look entry)) :
    Passes fun s => entries.findSome? fun entry => look entry s where
  plain c cs other := List.findSome?_eq_none_iff.mpr fun entry member =>
    (each entry member).plain c cs other
  beginnings name known rest := List.findSome?_eq_none_iff.mpr fun entry member =>
    (each entry member).beginnings name known rest
  endings name known := List.findSome?_eq_none_iff.mpr fun entry member =>
    (each entry member).endings name known

theorem literally {literal : Text} (passes : Passes (skip? literal)) (replacement : Text) :
    Passes (literally literal replacement) where
  plain c cs other := by rw [Text.literally, passes.plain c cs other]; rfl
  beginnings name member rest := by rw [Text.literally, passes.beginnings name member rest]; rfl
  endings name member := by rw [Text.literally, passes.endings name member]; rfl

/-- Substituting leaves a listing alone whose code has no commands. -/
theorem substitute {matcher : Matcher Text} (passes : Passes matcher) {name inner : Text}
    (member : name ∈ codeEnvironments) (noCommand : '\\' ∉ inner) :
    Text.substitute matcher (environment name inner) = environment name inner := by
  have quiet : ∀ {s : Text}, '\\' ∉ s → ∀ c ∈ s, ∀ cs, matcher (c :: cs) = none :=
    fun absent c inside cs => passes.plain c cs fun same => absent (same ▸ inside)
  have heads : ∀ name ∈ codeEnvironments, '\\' ∉ "begin".toList ++ Latex.group name ∧
      '\\' ∉ "end".toList ++ Latex.group name := by decide
  obtain ⟨noneBefore, noneBehind⟩ := heads name member
  have last : Text.substitute matcher (Latex.endEnvironment name) = Latex.endEnvironment name := by
    have whole := substitute_append_of_quiet (t := []) (quiet noneBehind)
    rw [List.append_nil, substitute_nil, List.append_nil] at whole
    exact (substitute_cons_of_none (passes.endings name member)).trans (congrArg ('\\' :: ·) whole)
  have first := passes.beginnings name member (inner ++ Latex.endEnvironment name)
  calc Text.substitute matcher
        ('\\' :: (("begin".toList ++ Latex.group name) ++ (inner ++ Latex.endEnvironment name)))
      = '\\' :: Text.substitute matcher
          (("begin".toList ++ Latex.group name) ++ (inner ++ Latex.endEnvironment name)) :=
        substitute_cons_of_none first
    _ = '\\' :: (("begin".toList ++ Latex.group name) ++ (inner ++ Latex.endEnvironment name)) := by
        rw [substitute_append_of_quiet (quiet noneBefore),
          substitute_append_of_quiet (quiet noCommand), last]

end Passes

section Conversions

variable {name inner : Text}

/-- The conversions of commands leave a listing alone. -/
theorem convertEnvironments_listing (member : name ∈ codeEnvironments) (noCommand : '\\' ∉ inner) :
    convertEnvironments (environment name inner) = environment name inner := by
  have passes : ∀ names ∈ listEnvironments,
      Passes (skip? (Latex.beginEnvironment names.1)) ∧
        Passes (skip? (Latex.endEnvironment names.1)) := by
    intro names known
    have foreign : ∀ names ∈ listEnvironments, ∀ name ∈ codeEnvironments,
        (¬ Latex.beginEnvironment names.1 <+: Latex.beginEnvironment name ∧
          ¬ Latex.beginEnvironment name <+: Latex.beginEnvironment names.1 ∧
          ¬ Latex.beginEnvironment names.1 <+: Latex.endEnvironment name) ∧
        (¬ Latex.endEnvironment names.1 <+: Latex.beginEnvironment name ∧
          ¬ Latex.beginEnvironment name <+: Latex.endEnvironment names.1 ∧
          ¬ Latex.endEnvironment names.1 <+: Latex.endEnvironment name) := by decide
    exact ⟨.skip rfl fun name code => (foreign names known name code).1,
      .skip rfl fun name code => (foreign names known name code).2⟩
  rw [convertEnvironments]
  generalize listEnvironments = entries at passes
  induction entries with
  | nil => rfl
  | cons names entries ih =>
      rw [List.forall_mem_cons] at passes
      have one : convertEnvironment (environment name inner) names = environment name inner := by
        rw [convertEnvironment, replace, replace,
          (passes.1.1.literally _).substitute member noCommand,
          (passes.1.2.literally _).substitute member noCommand]
      rw [List.foldl_cons, one, ih passes.2]

theorem convertItems_listing (member : name ∈ codeEnvironments) (noCommand : '\\' ∉ inner) :
    convertItems (environment name inner) = environment name inner := by
  have item : Passes (skip? "\\item".toList) := .skip rfl (by decide)
  exact (item.bind _).substitute member noCommand

theorem convertSymbols_listing (member : name ∈ codeEnvironments) (noCommand : '\\' ∉ inner) :
    convertSymbols (environment name inner) = environment name inner := by
  have backslashes : Passes (skip? (Latex.symbol "textbackslash".toList)) := .skip rfl (by decide)
  have tildes : Passes (skip? (Latex.symbol "textasciitilde".toList)) := .skip rfl (by decide)
  have circumflexes : Passes (skip? (Latex.symbol "textasciicircum".toList)) :=
    .skip rfl (by decide)
  rw [convertSymbols, replace, replace, replace,
    (backslashes.literally _).substitute member noCommand,
    (tildes.literally _).substitute member noCommand,
    (circumflexes.literally _).substitute member noCommand]

theorem passes_spanCommand (names : List Text) (tag : Text)
    (foreign : ∀ command ∈ names, ∀ name ∈ codeEnvironments,
      ¬ '\\' :: command <+: Latex.beginEnvironment name ∧
        ¬ Latex.beginEnvironment name <+: '\\' :: command ∧
        ¬ '\\' :: command <+: Latex.endEnvironment name) :
    Passes (spanCommand names tag) := by
  have each : ∀ command ∈ names, Passes fun s => (skip? ('\\' :: command) s).bind fun rest =>
      (innermost? rest).map fun found => (element tag found.1, found.2) := by
    intro command member
    have literal : Passes (skip? ('\\' :: command)) := .skip rfl (foreign command member)
    exact literal.bind _
  exact .findSome each

theorem convertEmphasis_listing (member : name ∈ codeEnvironments) (noCommand : '\\' ∉ inner) :
    convertEmphasis (environment name inner) = environment name inner := by
  have bold := passes_spanCommand ["textbf".toList] "strong".toList (by decide)
  have italic := passes_spanCommand ["textit".toList, "emph".toList] "em".toList (by decide)
  have typewriter := passes_spanCommand ["texttt".toList] "code".toList (by decide)
  have one : convertInnermost (environment name inner) = environment name inner := by
    rw [convertInnermost, convertBold, bold.substitute member noCommand,
      italic.substitute member noCommand, typewriter.substitute member noCommand]
  rw [convertEmphasis]
  generalize 4 = levels
  induction levels with
  | zero => rfl
  | succ levels ih => rw [repeated, one, ih]

end Conversions

/-! ## Lines without tags -/

/-- Lines that begin with no tag are left alone. -/
theorem closeItemsFrom_of_not_mem {ls : List Text} (noLess : ∀ line ∈ ls, '<' ∉ line) :
    closeItemsFrom [] ls = ls := by
  induction ls with
  | nil => rfl
  | cons line ls ih =>
      rw [List.forall_mem_cons] at noLess
      have begins : ∀ tag, startsWith ('<' :: tag) (trimStart line) = false := by
        intro tag
        rw [Bool.eq_false_iff, Ne, startsWith_iff]
        exact fun isPrefix =>
          noLess.1 ((trimStart_isSuffix line).subset (isPrefix.subset List.mem_cons_self))
      have mark : ListMark.of line = .none := by
        simp [ListMark.of, openTag, closeTag, begins]
      rw [closeItemsFrom, mark]
      exact congrArg (line :: ·) (ih noLess.2)

theorem mem_escapeAngles {c : Char} {s : Text} (member : c ∈ escapeAngles s) :
    c ∈ "&ltg;".toList ∨ (c ∈ s ∧ c ≠ '<' ∧ c ≠ '>') := by
  obtain ⟨d, inside, written⟩ := List.mem_flatMap.mp member
  unfold escapeAngle at written
  split at written
  · exact .inl ((by decide : lessThan ⊆ "&ltg;".toList) written)
  · split at written
    · exact .inl ((by decide : greaterThan ⊆ "&ltg;".toList) written)
    · obtain rfl := List.mem_singleton.mp written
      exact .inr ⟨inside, by assumption, by assumption⟩

theorem escapeAngles_eq_self {s : Text} (noLess : '<' ∉ s) (noGreater : '>' ∉ s) :
    escapeAngles s = s := by
  induction s with
  | nil => rfl
  | cons c s ih =>
      rw [List.mem_cons, not_or] at noLess noGreater
      have kept : escapeAngle c = [c] := by
        simp [escapeAngle, Ne.symm noLess.1, Ne.symm noGreater.1]
      rw [escapeAngles, List.flatMap_cons, kept]
      exact congrArg (c :: ·) (ih noLess.2 noGreater.2)

theorem escapeAngles_unlines (ls : List Text) :
    escapeAngles (unlines ls) = unlines (ls.map escapeAngles) := by
  induction ls with
  | nil => rfl
  | cons line ls ih =>
      cases ls with
      | nil => rfl
      | cons next ls =>
          rw [unlines_cons_cons, List.map_cons, List.map_cons, unlines_cons_cons, ← List.map_cons,
            ← ih]
          exact List.flatMap_append

theorem getLast?_escapeAngles {d : Char} {s : Text} (noEntity : ';' ≠ d)
    (other : s.getLast? ≠ some d) : (escapeAngles s).getLast? ≠ some d := by
  rcases List.eq_nil_or_concat s with rfl | ⟨front, c, rfl⟩
  · exact other
  · rw [List.concat_eq_append, List.getLast?_concat] at other
    obtain ⟨last, found, differs⟩ :
        ∃ last, (escapeAngle c).getLast? = some last ∧ last ≠ d := by
      unfold escapeAngle
      split
      · exact ⟨';', rfl, noEntity⟩
      · split
        · exact ⟨';', rfl, noEntity⟩
        · exact ⟨c, rfl, fun same => other (congrArg some same)⟩
    rw [List.concat_eq_append, escapeAngles, List.flatMap_append, List.flatMap_singleton,
      List.getLast?_append, found, Option.some_or]
    exact fun same => differs (Option.some.inj same)

/-! ## Reading a listing -/

/-- The options of a listing as they are written. -/
def writtenOptions : Option Text → Text
  | none => []
  | some options => '[' :: options ++ [']']

/-- Options that the conversions leave alone. -/
structure Inert (options : Text) : Prop where
  plain : ∀ c ∈ options, c ∉ "<>\\[]\n".toList
  notFragile : options ≠ "fragile".toList

/-- A line of code that the conversions leave alone. -/
structure Intact (line : Text) : Prop where
  noCommand : '\\' ∉ line
  oneLine : '\n' ∉ line
  noReturn : line.getLast? ≠ some '\r'
  notFragile : ¬ "[fragile]".toList <:+: line
  noLess : ¬ lessThan <:+: line
  noGreater : ¬ greaterThan <:+: line

instance (line : Text) : Decidable (Intact line) :=
  decidable_of_iff
    ('\\' ∉ line ∧ '\n' ∉ line ∧ line.getLast? ≠ some '\r' ∧
      includes "[fragile]".toList line = false ∧ includes lessThan line = false ∧
      includes greaterThan line = false) <| by
    simp only [← Bool.not_eq_true, includes_iff]
    exact ⟨fun ⟨command, newline, last, option, less, greater⟩ =>
        ⟨command, newline, last, option, less, greater⟩,
      fun intact => ⟨intact.noCommand, intact.oneLine, intact.noReturn, intact.notFragile,
        intact.noLess, intact.noGreater⟩⟩

/-- In front of a line end, no command follows blanks. -/
theorem dropWhile_isLineBlank {s : Text} (noCommand : '\\' ∉ s) (rest : Text) :
    ∃ c cs, (s ++ '\n' :: rest).dropWhile isLineBlank = c :: cs ∧ c ≠ '\\' := by
  induction s with
  | nil => exact ⟨'\n', rest, rfl, by decide⟩
  | cons c s ih =>
      rw [List.mem_cons, not_or] at noCommand
      rw [List.cons_append]
      cases blank : isLineBlank c with
      | true =>
          rw [List.dropWhile_cons_of_pos blank]
          exact ih noCommand.2
      | false =>
          rw [List.dropWhile_cons_of_neg (by simp [blank])]
          exact ⟨c, _, rfl, Ne.symm noCommand.1⟩

theorem skipAny?_eq_none {literals : List Text} {c : Char} {cs : Text}
    (each : ∀ literal ∈ literals, ∃ d tail, literal = d :: tail ∧ d ≠ c) :
    skipAny? literals (c :: cs) = none := by
  rw [skipAny?, List.findSome?_eq_none_iff]
  intro literal member
  obtain ⟨d, tail, rfl, differs⟩ := each literal member
  exact if_neg differs

/-- A listing does not end within code without commands. -/
theorem listingEnd?_eq_none {c : Char} {cs : Text} (noCommand : '\\' ∉ c :: cs) (rest : Text) :
    listingEnd? (c :: (cs ++ '\n' :: rest)) = none := by
  have inner : ∃ s, '\\' ∉ s ∧ dropNewline (c :: (cs ++ '\n' :: rest)) = s ++ '\n' :: rest := by
    rw [dropNewline.eq_def]
    split
    · next same =>
        cases same
        exact ⟨cs, fun member => noCommand (List.mem_cons_of_mem _ member), rfl⟩
    · exact ⟨c :: cs, noCommand, rfl⟩
  obtain ⟨s, absent, same⟩ := inner
  obtain ⟨d, ds, dropped, differs⟩ := dropWhile_isLineBlank absent rest
  rw [listingEnd?, same, dropped]
  refine skipAny?_eq_none fun literal member => ?_
  obtain ⟨name, -, rfl⟩ := List.mem_map.mp member
  exact ⟨'\\', _, rfl, Ne.symm differs⟩

section Reading

variable {name code : Text}

/-- The code of a listing is what stands between the lines of its two ends. -/
theorem listingBody?_listing (member : name ∈ codeEnvironments) (noCommand : '\\' ∉ code) :
    listingBody? ('\n' :: (code ++ '\n' :: Latex.endEnvironment name)) = some (code, []) := by
  have ends : ∀ name ∈ codeEnvironments,
      listingEnd? ('\n' :: Latex.endEnvironment name) = some [] := by decide
  refine splitBefore_append (fun c cs part => ?_) (ends name member)
  exact listingEnd?_eq_none (fun inside => noCommand (part.subset inside)) _

theorem listing?_listing (member : name ∈ codeEnvironments) (noCommand : '\\' ∉ code)
    {options : Option Text} (inert : ∀ content ∈ options, Inert content) :
    listing? (Latex.beginEnvironment name ++
        (writtenOptions options ++ '\n' :: (code ++ '\n' :: Latex.endEnvironment name))) =
      some (codeBlock options code, []) := by
  have body := listingBody?_listing member noCommand
  have head : ∀ rest, skipAny? (codeEnvironments.map Latex.beginEnvironment)
      (Latex.beginEnvironment name ++ rest) = some rest := by
    intro rest
    rw [codeEnvironments, List.mem_cons, List.mem_singleton] at member
    rcases member with rfl | rfl <;> rfl
  rw [listing?, head, Option.bind_some, listingTail?]
  cases options with
  | none =>
      have noBracket : Latex.bracketed?
          (writtenOptions none ++ '\n' :: (code ++ '\n' :: Latex.endEnvironment name)) = none := rfl
      rw [noBracket, writtenOptions, List.nil_append, body]
      rfl
  | some content =>
      have closing : ']' ∉ content := fun inside =>
        (inert content rfl).plain _ inside (by decide)
      have bracketed : Latex.bracketed? (writtenOptions (some content) ++
          '\n' :: (code ++ '\n' :: Latex.endEnvironment name)) =
            some (content, '\n' :: (code ++ '\n' :: Latex.endEnvironment name)) := by
        rw [writtenOptions, List.append_assoc, List.cons_append]
        exact splitOnce_append closing _
      rw [bracketed, Option.bind_some]
      simp only [body]
      rfl

end Reading

/-! ## A listing as a fragment -/

/-- A listing is taken out whole and put back. -/
theorem fragment_of_listing? {body block : Text} {c : Char} {cs : Text}
    (converted : convertMarkup body = c :: cs) (found : listing? (c :: cs) = some (block, [])) :
    fragment body = block := by
  have taken : takeListings (convertMarkup body) = (marker 0, [block]) := by
    rw [converted, takeListings, takeListingsFrom_cons_of_some found List.nil_suffix]
    rfl
  have kept : trim (convertRest (marker 0)) = marker 0 := by decide +kernel
  have here : literally (marker 0) block (marker 0) = some (block, []) := by
    have skipped : skip? (marker 0) (marker 0) = some [] :=
      skip?_eq_some_iff.mpr (List.append_nil _).symm
    rw [literally, skipped]
    rfl
  rw [fragment_eq, taken, kept, putListings, putListingsFrom, putListingsFrom, replace]
  exact (substitute_cons_of_some here List.nil_suffix).trans (List.append_nil block)

/-! ## The lines of a listing -/

/-- The head of a listing: the line at which it begins. -/
def listingHead (name : Text) (options : Option Text) : Text :=
  Latex.beginEnvironment name ++ writtenOptions options

/-- The lines of a listing, from its head to its end. -/
def listingLines (name : Text) (options : Option Text) (code : List Text) : List Text :=
  listingHead name options :: (code ++ [Latex.endEnvironment name])

/-- An escaped line of code that the conversions leave alone. -/
structure Escaped (line : Text) : Prop where
  noCommand : '\\' ∉ line
  oneLine : '\n' ∉ line
  noReturn : dropReturn line = line
  noTag : '<' ∉ line

theorem Intact.escaped {line : Text} (intact : Intact line) : Escaped (escapeAngles line) where
  noCommand member := by
    rcases mem_escapeAngles member with entity | ⟨plain, -⟩
    · exact absurd entity (by decide)
    · exact intact.noCommand plain
  oneLine member := by
    rcases mem_escapeAngles member with entity | ⟨plain, -⟩
    · exact absurd entity (by decide)
    · exact intact.oneLine plain
  noReturn := dropReturn_eq_self (getLast?_escapeAngles (by decide) intact.noReturn)
  noTag member := by
    rcases mem_escapeAngles member with entity | ⟨-, other, -⟩
    · exact absurd entity (by decide)
    · exact other rfl

section Listing

variable {name : Text} {options : Option Text} {code : List Text}

/-- A listing as one text. -/
theorem unlines_listingLines (nonempty : code ≠ []) :
    unlines (listingLines name options code) =
      Latex.beginEnvironment name ++ (writtenOptions options ++
        '\n' :: (unlines code ++ '\n' :: Latex.endEnvironment name)) := by
  have behind : unlines (code ++ [Latex.endEnvironment name]) =
      unlines code ++ '\n' :: Latex.endEnvironment name :=
    unlines_append nonempty (List.cons_ne_nil _ [])
  obtain ⟨next, later, same⟩ := List.exists_cons_of_ne_nil
    (List.append_ne_nil_of_right_ne_nil code (List.cons_ne_nil (Latex.endEnvironment name) []))
  rw [listingLines, same, unlines_cons_cons, ← same, behind, listingHead, List.append_assoc]

theorem not_mem_writtenOptions (inert : ∀ content ∈ options, Inert content) {c : Char}
    (special : c ∈ "<>\\\n".toList) : c ∉ writtenOptions options := by
  have brackets : ∀ c ∈ "<>\\\n".toList, c ∈ "<>\\[]\n".toList ∧ c ≠ '[' ∧ c ≠ ']' :=
    List.all_iff_forall_prop.mp (by decide)
  obtain ⟨known, notOpening, notClosing⟩ := brackets c special
  cases options with
  | none => exact List.not_mem_nil
  | some content =>
      intro member
      rcases List.mem_append.mp member with member | member
      · rcases List.mem_cons.mp member with same | inside
        · exact notOpening same
        · exact (inert content rfl).plain c inside known
      · exact notClosing (List.mem_singleton.mp member)

theorem not_mem_listingHead (member : name ∈ codeEnvironments)
    (inert : ∀ content ∈ options, Inert content) {c : Char} (special : c ∈ "<>\n".toList) :
    c ∉ listingHead name options := by
  have absent : ∀ name ∈ codeEnvironments, "<>\n".toList.all (· ∉ Latex.beginEnvironment name) := by
    decide
  rw [listingHead, List.mem_append, not_or]
  exact ⟨List.all_iff_forall_prop.mp (absent name member) c special, not_mem_writtenOptions inert
    ((by decide : "<>\n".toList ⊆ "<>\\\n".toList) special)⟩

theorem not_mem_listingEnd (member : name ∈ codeEnvironments) {c : Char}
    (special : c ∈ "<>[\n".toList) : c ∉ Latex.endEnvironment name := by
  have absent : ∀ name ∈ codeEnvironments, "<>[\n".toList.all (· ∉ Latex.endEnvironment name) := by
    decide
  exact List.all_iff_forall_prop.mp (absent name member) c special

theorem dropReturn_listingHead (name : Text) (options : Option Text) :
    dropReturn (listingHead name options) = listingHead name options := by
  cases options with
  | none =>
      rw [listingHead, writtenOptions, List.append_nil, Latex.beginEnvironment, Latex.command,
        Latex.group, ← List.append_assoc]
      exact dropReturn_append_singleton _ (by decide)
  | some content =>
      rw [listingHead, writtenOptions, ← List.append_assoc]
      exact dropReturn_append_singleton _ (by decide)

/-! ## Before the listings are taken out -/

theorem escapeAngles_listingLines (member : name ∈ codeEnvironments)
    (inert : ∀ content ∈ options, Inert content) (code : List Text) :
    escapeAngles (unlines (listingLines name options code)) =
      unlines (listingLines name options (code.map escapeAngles)) := by
  rw [escapeAngles_unlines, listingLines, List.map_cons, List.map_append, List.map_singleton,
    escapeAngles_eq_self (not_mem_listingHead member inert (by decide))
      (not_mem_listingHead member inert (by decide)),
    escapeAngles_eq_self (not_mem_listingEnd member (by decide))
      (not_mem_listingEnd member (by decide)), listingLines]

theorem fragile_eq : "[fragile]".toList = '[' :: ("fragile".toList ++ [']']) := by decide

theorem fragile_not_isInfix_writtenOptions (inert : ∀ content ∈ options, Inert content) :
    ¬ '[' :: ("fragile".toList ++ [']']) <:+: writtenOptions options := by
  cases options with
  | none =>
      intro occurs
      cases List.infix_nil.mp occurs
  | some content =>
      have plain : ∀ c ∈ "[]".toList, c ∉ content := fun c bracket inside =>
        (inert content rfl).plain c inside ((by decide : "[]".toList ⊆ "<>\\[]\n".toList) bracket)
      have whole : writtenOptions (some content) = '[' :: (content ++ [']']) := rfl
      rw [whole, List.infix_cons_iff, List.cons_prefix_cons]
      rintro (⟨-, rest, same⟩ | later)
      · have cut := splitOnce_append (plain ']' (by decide)) []
        have cutFragile : splitOnce ']' ("fragile".toList ++ ']' :: rest) =
            some ("fragile".toList, rest) := splitOnce_append (by decide) rest
        rw [← same, List.append_assoc, List.singleton_append, cutFragile, Option.some_inj,
          Prod.mk.injEq] at cut
        exact (inert content rfl).notFragile cut.1.symm
      · rcases List.mem_append.mp (later.subset List.mem_cons_self) with inside | last
        · exact plain '[' (by decide) inside
        · exact absurd last (by decide)

/-- No option of a frame occurs in a listing, escaped or not. -/
theorem fragile_not_isInfix_listing (member : name ∈ codeEnvironments)
    (inert : ∀ content ∈ options, Inert content) (intact : ∀ line ∈ code, Intact line) :
    ¬ "[fragile]".toList <:+: escapeAngles (unlines (listingLines name options code)) := by
  rw [fragile_eq]
  intro occurs
  have before :=
    isInfix_of_isInfix_flatMap writesEntities_escapeAngle (by decide) (by decide) occurs
  obtain ⟨line, inside, here⟩ := exists_line_of_isInfix (by decide) (by decide) before
  rcases List.mem_cons.mp inside with rfl | inside
  · have noBracket : ∀ name ∈ codeEnvironments, '[' ∉ Latex.beginEnvironment name := by decide
    exact fragile_not_isInfix_writtenOptions inert
      (isInfix_of_isInfix_append (noBracket name member) here)
  · rcases List.mem_append.mp inside with inside | last
    · rw [← fragile_eq] at here
      exact (intact line inside).notFragile here
    · rw [List.mem_singleton.mp last] at here
      exact not_mem_listingEnd member (by decide) (here.subset List.mem_cons_self)

theorem closeItems_listingLines (member : name ∈ codeEnvironments)
    (inert : ∀ content ∈ options, Inert content) (escaped : ∀ line ∈ code, Escaped line) :
    closeItems (unlines (listingLines name options code)) =
      unlines (listingLines name options code) := by
  have each : ∀ line ∈ listingLines name options code, '\n' ∉ line ∧ '<' ∉ line := by
    simp only [listingLines, List.forall_mem_cons, List.forall_mem_append]
    refine ⟨⟨not_mem_listingHead member inert (by decide),
      not_mem_listingHead member inert (by decide)⟩,
      fun line inside => ⟨(escaped line inside).oneLine, (escaped line inside).noTag⟩,
      ⟨not_mem_listingEnd member (by decide), not_mem_listingEnd member (by decide)⟩, by simp⟩
  have kept :
      (listingHead name options :: code).map dropReturn = listingHead name options :: code := by
    rw [List.map_cons, dropReturn_listingHead,
      List.map_congr_left fun line inside => (escaped line inside).noReturn, List.map_id']
  have read :
      lines (unlines (listingLines name options code)) = listingLines name options code := by
    have notEmpty : Latex.endEnvironment name ≠ [] := by
      simp [Latex.endEnvironment, Latex.command]
    have whole : lines (unlines (listingHead name options :: code ++ [Latex.endEnvironment name])) =
        (listingHead name options :: code).map dropReturn ++ [Latex.endEnvironment name] :=
      lines_unlines (fun line inside => (each line inside).1) notEmpty
    rw [kept] at whole
    exact whole
  rw [closeItems, read, closeItemsFrom_of_not_mem fun line inside => (each line inside).2]

/-- Up to the listings, the conversions only escape the code. -/
theorem convertMarkup_listingLines (member : name ∈ codeEnvironments) (nonempty : code ≠ [])
    (inert : ∀ content ∈ options, Inert content) (intact : ∀ line ∈ code, Intact line) :
    convertMarkup (unlines (listingLines name options code)) =
      unlines (listingLines name options (code.map escapeAngles)) := by
  have escaped : ∀ line ∈ code.map escapeAngles, Escaped line :=
    List.forall_mem_map.mpr fun line inside => (intact line inside).escaped
  have noCommand : '\\' ∉
      writtenOptions options ++ '\n' :: (unlines (code.map escapeAngles) ++ ['\n']) := by
    have noneInOptions := not_mem_writtenOptions inert (by decide : '\\' ∈ "<>\\\n".toList)
    have noneInCode : '\\' ∉ unlines (code.map escapeAngles) := by
      intro inside
      obtain ⟨line, isCode, here⟩ := exists_line_of_mem (by decide) inside
      exact (escaped line isCode).noCommand here
    simp [noneInOptions, noneInCode]
  have shape : unlines (listingLines name options (code.map escapeAngles)) =
      environment name
        (writtenOptions options ++ '\n' :: (unlines (code.map escapeAngles) ++ ['\n'])) := by
    rw [unlines_listingLines (by simpa using nonempty)]
    simp [environment]
  rw [convertMarkup, replace_eq_self _ (fragile_not_isInfix_listing member inert intact),
    escapeAngles_listingLines member inert, shape, convertEnvironments_listing member noCommand,
    convertItems_listing member noCommand, ← shape, closeItems_listingLines member inert escaped,
    shape, convertSymbols_listing member noCommand, convertEmphasis_listing member noCommand]

/-! ## The main result -/

/-- **A listing is shown as it is.** Its code becomes the text of one element, with its
special characters as entities. -/
theorem fragment_listingLines (member : name ∈ codeEnvironments) (nonempty : code ≠ [])
    (inert : ∀ content ∈ options, Inert content) (intact : ∀ line ∈ code, Intact line) :
    fragment (unlines (listingLines name options code)) =
      element "pre".toList
        (openTag ("code".toList ++ languageClass options) ++ (unlines code).flatMap escapeMarkup ++
          closeTag "code".toList) := by
  have noneLess : ¬ lessThan <:+: unlines code := by
    intro occurs
    obtain ⟨line, inside, here⟩ := exists_line_of_isInfix (by decide) (by decide) occurs
    exact (intact line inside).noLess here
  have noneGreater : ¬ greaterThan <:+: unlines code := by
    intro occurs
    obtain ⟨line, inside, here⟩ := exists_line_of_isInfix (by decide) (by decide) occurs
    exact (intact line inside).noGreater here
  have noCommand : '\\' ∉ escapeAngles (unlines code) := by
    rw [escapeAngles_unlines]
    intro inside
    obtain ⟨line, isCode, here⟩ := exists_line_of_mem (by decide) inside
    obtain ⟨source, isLine, rfl⟩ := List.mem_map.mp isCode
    exact (intact source isLine).escaped.noCommand here
  have converted := convertMarkup_listingLines member nonempty inert intact
  have escapedSome : code.map escapeAngles ≠ [] := by simpa using nonempty
  rw [unlines_listingLines escapedSome, ← escapeAngles_unlines] at converted
  have block : codeBlock options (escapeAngles (unlines code)) =
      element "pre".toList
        (openTag ("code".toList ++ languageClass options) ++ (unlines code).flatMap escapeMarkup ++
          closeTag "code".toList) := by
    rw [codeBlock, escapeCode, unescapeAngles_escapeAngles noneLess noneGreater]
  rw [← block]
  exact fragment_of_listing? converted (listing?_listing member noCommand inert)

end Listing

end SlideDeck.Html
