import SlideDeck.Proofs.Inline.Formatted
import SlideDeck.Proofs.Text.Lines
import SlideDeck.Proofs.Text.Silent
import SlideDeck.Slide.Block

/-!
# Brackets that are taken as options

An item and the end of a row take what stands in brackets behind them as an option, also where
blanks and line ends stand between (`option?`). What stands in listings is no LaTeX and does not
count (`withoutListings`).

Most text can be passed over: in it neither such a command nor a listing begins, whatever stands
behind it (`Mute`). Formatted text is mute (`mute_of_formatted`), since its backslashes begin other
commands. So it is the writer's own items and row ends that count, if the text behind them opens a
bracket (`optionsTaken_item`, `optionsTaken_rowEnd`). Text is put together from the back, since a
command takes an option from what stands behind it (`Takes`).
-/

set_option autoImplicit false

namespace SlideDeck.Latex

open SlideDeck SlideDeck.Text SlideDeck.Inline

/-- The commands that can have an option: that of an item and that of the end of a row. -/
def optionCommands : List Text := ["\\item".toList, "\\\\".toList]

/-- Whether a bracket is opened first, behind blanks. -/
def opensBracket (s : Text) : Bool := startsWith ['['] (trimStart s)

/-- Matches a command that takes an option from what stands behind it. -/
def option? : Matcher Unit := fun s =>
  optionCommands.findSome? fun command =>
    (skip? command s).bind fun rest => if opensBracket rest then some ((), rest) else none

/-- Matches a listing, up to its first end, and leaves its two ends. -/
def listing? : Matcher Text := fun s =>
  (skip? (beginEnvironment Slide.listing) s).bind fun rest =>
    (splitOnText? (endEnvironment Slide.listing) rest).map fun (_, behind) =>
      (beginEnvironment Slide.listing ++ endEnvironment Slide.listing, behind)

/-- The text without what stands in its listings. -/
def withoutListings (s : Text) : Text := substitute listing? s

/-- How many commands take an option, those in listings apart. -/
def optionsTaken (s : Text) : Nat := (matchesOf option? (withoutListings s)).length

/-! ## Where a bracket is opened -/

section Brackets

variable {c : Char} {s t : Text}

theorem opensBracket_cons (visible : isBlank c = false) (other : c ≠ '[') (s : Text) :
    opensBracket (c :: s) = false := by
  rw [opensBracket, trimStart_cons visible]
  simp [startsWith, List.isPrefixOf, Ne.symm other]

theorem opensBracket_backslash (s : Text) : opensBracket ('\\' :: s) = false :=
  opensBracket_cons (by decide) (by decide) s

theorem opensBracket_cons_of_blank (blank : isBlank c = true) (s : Text) :
    opensBracket (c :: s) = opensBracket s := by
  rw [opensBracket, trimStart_cons_of_blank blank, opensBracket]

theorem opensBracket_append (s : Text) (behind : opensBracket t = false) :
    opensBracket (s ++ t) = opensBracket s := by
  by_cases blank : trimStart s = []
  · have shut : opensBracket s = false := by rw [opensBracket, blank]; rfl
    rw [opensBracket, trimStart_append_of_eq_nil blank, shut]
    exact behind
  · obtain ⟨c, rest, same⟩ := List.exists_cons_of_ne_nil blank
    rw [opensBracket, trimStart_append blank, opensBracket, same]
    simp [startsWith, List.isPrefixOf]

end Brackets

/-! ## Text that can be passed over -/

/-- The texts with which a command that can have an option or a listing begins. -/
def watched : List Text := beginEnvironment Slide.listing :: optionCommands

/-- Text in which none of these texts begins, whatever stands behind it. -/
structure Mute (s : Text) : Prop where
  silent : ∀ literal ∈ watched, Silent (skip? literal) s

namespace Mute

variable {s t : Text}

theorem of_avoids (apart : ∀ literal ∈ watched, avoids literal s = true) : Mute s :=
  ⟨fun literal member => silent_skip (apart literal member)⟩

theorem of_not_mem (absent : '\\' ∉ s) : Mute s := by
  have begun : ∀ literal ∈ watched, literal.head? = some '\\' := by decide
  refine of_avoids fun literal member => ?_
  obtain ⟨rest, rfl⟩ := List.head?_eq_some_iff.mp (begun literal member)
  exact avoids_of_not_mem absent

theorem append (first : Mute s) (second : Mute t) : Mute (s ++ t) :=
  ⟨fun literal member => (first.silent literal member).append (second.silent literal member)⟩

theorem join {separator : Text} {pieces : List Text} (between : Mute separator)
    (each : ∀ piece ∈ pieces, Mute piece) : Mute (join separator pieces) :=
  ⟨fun literal member => (between.silent literal member).join fun piece inside =>
    (each piece inside).silent literal member⟩

theorem group (mute : Mute s) : Mute (group s) :=
  ((of_avoids (by decide : ∀ literal ∈ watched, avoids literal ['\x7b'] = true)).append mute).append
    (of_avoids (by decide : ∀ literal ∈ watched, avoids literal ['\x7d'] = true))

theorem option (mute : Mute s) : Silent option? s :=
  .findSome? fun command member => (mute.silent command (List.mem_cons_of_mem _ member)).bind _

theorem listing (mute : Mute s) : Silent listing? s :=
  (mute.silent _ List.mem_cons_self).bind _

theorem withoutListings_append (mute : Mute s) (t : Text) :
    withoutListings (s ++ t) = s ++ withoutListings t :=
  mute.listing.substitute_append t

theorem optionsTaken_append (mute : Mute s) (t : Text) :
    optionsTaken (s ++ t) = optionsTaken t := by
  rw [optionsTaken, mute.withoutListings_append, mute.option.matchesOf_append]
  rfl

theorem newline : Mute ['\n'] := of_avoids (by decide)

theorem withoutListings_line (mute : Mute s) (t : Text) :
    withoutListings (s ++ '\n' :: t) = s ++ '\n' :: withoutListings t := by
  rw [mute.withoutListings_append]
  exact congrArg (s ++ ·) (newline.withoutListings_append t)

theorem optionsTaken_line (mute : Mute s) (t : Text) :
    optionsTaken (s ++ '\n' :: t) = optionsTaken t := by
  rw [mute.optionsTaken_append]
  exact newline.optionsTaken_append t

end Mute

/-- Formatted text begins neither items nor rows nor listings. -/
theorem mute_of_formatted {depth last : Nat} {s : Text} (formatted : Formatted depth s last) :
    Mute s := by
  have foreign : ∀ literal ∈ watched, isForeign literal = true := by decide
  exact ⟨fun literal member => silent_of_formatted (foreign literal member) formatted⟩

theorem mute_format (s : Text) : Mute (format s) := mute_of_formatted (formatted_format s)

theorem mute_escape (s : Text) : Mute (escape s) := mute_of_formatted (formatted_escape s 0)

/-! ## What stands in listings -/

/-- Of a listing that nothing ends before its end, the two ends are left. -/
theorem withoutListings_listing {parts : List Text}
    (intact : ∀ part ∈ parts, ¬ endEnvironment Slide.listing <:+: part) (t : Text) :
    withoutListings (beginEnvironment Slide.listing ++ (terminated parts ++
      (endEnvironment Slide.listing ++ t))) =
        beginEnvironment Slide.listing ++ (endEnvironment Slide.listing ++ withoutListings t) := by
  have begun : ∀ rest, skip? (beginEnvironment Slide.listing)
      (beginEnvironment Slide.listing ++ rest) = some rest := fun rest => skip?_eq_some_iff.mpr rfl
  have cut : splitOnText? (endEnvironment Slide.listing)
      (terminated parts ++ (endEnvironment Slide.listing ++ t)) = some (terminated parts, t) :=
    splitOnText?_terminated (by decide) intact t
  have found : listing? (beginEnvironment Slide.listing ++ (terminated parts ++
      (endEnvironment Slide.listing ++ t))) =
        some (beginEnvironment Slide.listing ++ endEnvironment Slide.listing, t) := by
    rw [listing?, begun, Option.bind_some, cut]
    rfl
  have whole : beginEnvironment Slide.listing ++ (terminated parts ++
      (endEnvironment Slide.listing ++ t)) = (beginEnvironment Slide.listing ++
        (terminated parts ++ endEnvironment Slide.listing)) ++ t := by
    simp only [List.append_assoc]
  rw [whole] at found ⊢
  rw [withoutListings, substitute_append_of_some found (List.cons_ne_nil _ _), List.append_assoc]
  rfl

/-- A line in which no listing begins stays. -/
theorem withoutListings_line {line : Text} (listless : ¬ beginEnvironment Slide.listing <:+: line)
    (t : Text) : withoutListings (line ++ '\n' :: t) = line ++ '\n' :: withoutListings t := by
  have silent : Silent listing? (line ++ ['\n']) := (silent_skip_line (by decide) listless).bind _
  rw [List.append_cons, List.append_cons line '\n' (withoutListings t)]
  exact silent.substitute_append t

theorem withoutListings_eq_self {s : Text} (listless : ¬ beginEnvironment Slide.listing <:+: s) :
    withoutListings s = s :=
  substitute_eq_self fun c cs part => by
    rw [listing?, skip?_eq_none fun begins => listless (begins.isInfix.trans part.isInfix)]
    rfl

/-! ## Commands that can have an option -/

section Commands

variable {t : Text}

/-- A command with a blank behind it counts if a bracket is opened behind the blank. -/
theorem length_matchesOf_command {name : Text} {c : Char} (blank : isBlank c = true)
    (quiet : Silent option? (name ++ [c])) (alone : option? ('\\' :: (name ++ c :: t)) =
      if opensBracket (c :: t) then some ((), c :: t) else none) :
    (matchesOf option? ('\\' :: (name ++ c :: t))).length =
      (matchesOf option? t).length + if opensBracket t then 1 else 0 := by
  have behind : matchesOf option? (name ++ c :: t) = matchesOf option? t := by
    rw [List.append_cons]
    exact quiet.matchesOf_append t
  have last : matchesOf option? (c :: t) = matchesOf option? t :=
    (quiet.of_isSuffix (List.suffix_append name [c])).matchesOf_append t
  rw [opensBracket_cons_of_blank blank] at alone
  cases opens : opensBracket t with
  | true =>
      rw [opens, if_pos rfl] at alone
      rw [matchesOf_cons_of_some alone (List.suffix_append name _), last]
      rfl
  | false =>
      rw [opens, if_neg Bool.false_ne_true] at alone
      rw [matchesOf_cons_of_none alone, behind]
      rfl

theorem withoutListings_item (t : Text) :
    withoutListings ("\\item ".toList ++ t) = "\\item ".toList ++ withoutListings t :=
  ((silent_skip (by decide)).bind _).substitute_append t

theorem withoutListings_rowEnd (t : Text) :
    withoutListings (Table.rowEnd ++ '\n' :: t) = Table.rowEnd ++ '\n' :: withoutListings t := by
  have quiet : Silent listing? (Table.rowEnd ++ ['\n']) := (silent_skip (by decide)).bind _
  rw [List.append_cons, List.append_cons Table.rowEnd '\n' (withoutListings t)]
  exact quiet.substitute_append t

/-- An item takes an option if what stands behind it opens a bracket. -/
theorem optionsTaken_item (t : Text) :
    optionsTaken ("\\item ".toList ++ t) =
      optionsTaken t + if opensBracket (withoutListings t) then 1 else 0 := by
  have name : Mute ("item".toList ++ [' ']) := .of_avoids (by decide)
  rw [optionsTaken, withoutListings_item]
  refine length_matchesOf_command (by decide) name.option ?_
  cases opens : opensBracket (' ' :: withoutListings t) <;>
    simp [option?, optionCommands, skip?, opens]

/-- So does the end of a row. -/
theorem optionsTaken_rowEnd (t : Text) :
    optionsTaken (Table.rowEnd ++ '\n' :: t) =
      optionsTaken t + if opensBracket (withoutListings t) then 1 else 0 := by
  have blank : Mute [' '] := .of_avoids (by decide)
  have name : Mute (['\\'] ++ ['\n']) := .of_avoids (by decide)
  have whole : Table.rowEnd ++ '\n' :: withoutListings t =
      [' '] ++ '\\' :: (['\\'] ++ '\n' :: withoutListings t) := rfl
  rw [optionsTaken, withoutListings_rowEnd, whole, blank.option.matchesOf_append]
  exact length_matchesOf_command (by decide) name.option (by simp [option?, optionCommands, skip?])

/-- Of a listing whose code does not end it nothing counts, whatever its code is. -/
theorem optionsTaken_listing {args : Text} {code : List Text}
    (noArgs : ¬ endEnvironment Slide.listing <:+: args)
    (noEnd : ∀ line ∈ code, ¬ endEnvironment Slide.listing <:+: line) (t : Text) :
    optionsTaken (beginEnvironment Slide.listing ++ (terminated [args, unlines code] ++
      (endEnvironment Slide.listing ++ t))) = optionsTaken t := by
  have intact : ∀ part ∈ [args, unlines code], ¬ endEnvironment Slide.listing <:+: part := by
    simp only [List.forall_mem_cons, List.not_mem_nil, IsEmpty.forall_iff, implies_true, and_true]
    refine ⟨noArgs, fun occurs => ?_⟩
    obtain ⟨line, member, here⟩ := exists_line_of_isInfix (by decide) (by decide) occurs
    exact noEnd line member here
  have ends : Silent option? (beginEnvironment Slide.listing ++ endEnvironment Slide.listing) :=
    .findSome? fun command member =>
      (silent_skip ((by decide : ∀ command ∈ optionCommands, avoids command
        (beginEnvironment Slide.listing ++ endEnvironment Slide.listing) = true)
          command member)).bind _
  rw [optionsTaken, withoutListings_listing intact, ← List.append_assoc, ends.matchesOf_append]
  rfl

end Commands

/-! ## Parts of a document -/

/-- Parts that, written in front of a text, add a number of options taken. -/
def Takes (parts : List Text) (count : Nat) : Prop :=
  ∀ t, optionsTaken (terminated parts ++ t) = optionsTaken t + count

namespace Takes

variable {front back parts : List Text} {m n : Nat}

theorem nil : Takes [] 0 := fun _ => rfl

theorem append (first : Takes front m) (second : Takes back n) : Takes (front ++ back) (m + n) := by
  intro t
  rw [terminated_append, List.append_assoc, first, second]
  omega

theorem cons {part : Text} (first : Takes [part] m) (second : Takes back n) :
    Takes (part :: back) (m + n) :=
  first.append second

theorem of_mute {part : Text} (mute : Mute part) : Takes [part] 0 := by
  intro t
  rw [terminated_cons, List.append_assoc]
  exact mute.optionsTaken_line t

/-- The options taken in parts that add theirs are counted one part after the other. -/
theorem of_forall {count : Text → Nat} (each : ∀ part ∈ parts, Takes [part] (count part)) :
    Takes parts (parts.map count).sum := by
  induction parts with
  | nil => exact nil
  | cons part parts ih =>
      rw [List.forall_mem_cons] at each
      rw [List.map_cons, List.sum_cons]
      exact each.1.cons (ih each.2)

theorem of_forall_mute (each : ∀ part ∈ parts, Mute part) : Takes parts 0 := by
  induction parts with
  | nil => exact nil
  | cons part parts ih =>
      rw [List.forall_mem_cons] at each
      exact (of_mute each.1).cons (ih each.2)

theorem of_avoids (apart : ∀ part ∈ parts, ∀ literal ∈ watched, avoids literal part = true) :
    Takes parts 0 :=
  of_forall_mute fun part member => .of_avoids (apart part member)

/-- The texts that parts are counted by are counted over all of them. -/
theorem flatMap {α : Type} {items : List α} {write led : α → List Text} {p : Text → Bool}
    (each : ∀ item ∈ items, Takes (write item) ((led item).countP p)) :
    Takes (items.flatMap write) ((items.flatMap led).countP p) := by
  induction items with
  | nil => exact nil
  | cons item items ih =>
      rw [List.forall_mem_cons] at each
      rw [List.flatMap_cons, List.flatMap_cons, List.countP_append]
      exact each.1.append (ih each.2)

theorem eq_optionsTaken (takes : Takes parts n) : n = optionsTaken (terminated parts) := by
  have untaken : optionsTaken [] = 0 := rfl
  have whole := takes []
  rw [List.append_nil, untaken, Nat.zero_add] at whole
  exact whole.symm

theorem self (takes : Takes parts n) : Takes parts (optionsTaken (terminated parts)) :=
  takes.eq_optionsTaken ▸ takes

theorem unique (first : Takes parts m) (second : Takes parts n) : m = n :=
  first.eq_optionsTaken.trans second.eq_optionsTaken.symm

/-- Parts can be written as one. -/
theorem unlines (takes : Takes parts n) : Takes [unlines parts] n := by
  by_cases empty : parts = []
  · subst empty
    rw [takes.eq_optionsTaken]
    exact of_mute (.of_not_mem List.not_mem_nil)
  · intro t
    have same : terminated [Text.unlines parts] = terminated parts := by
      rw [terminated_eq empty, terminated_cons]
      rfl
    rw [same]
    exact takes t

end Takes

end SlideDeck.Latex
