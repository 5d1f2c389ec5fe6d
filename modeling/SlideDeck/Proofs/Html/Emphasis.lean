import SlideDeck.Proofs.Html.Line
import SlideDeck.Proofs.Html.TagReader

/-!
# Emphasis on the page

The tags of emphasis in a piece of HTML are nested when each element is closed by its own tag while
it is the innermost one that is open (`EmphasisTag.nested`).

A command of emphasis becomes an element when its argument holds no braces. So no element of
emphasis reaches across a brace that is left: `Tagged` says that the tags of a text are nested and
that every brace stands outside of all elements. The text between two braces is then nested by
itself, and may be enclosed in tags (`fitsTags_spanCommand`) or go together with its command
(`fitsTags_dropsArgument`). However bold, italic and code spans cross each other, and whatever
braces are escaped in them, the tags of a formatted line are nested (`nested_emphasisTags_format`).
-/

set_option autoImplicit false

namespace SlideDeck.Html

open SlideDeck SlideDeck.Text SlideDeck.Latex

/-! ## The tags -/

/-- The elements of emphasis. -/
inductive Emphasis where
  | strong
  | em
  | code
  deriving DecidableEq, Repr

/-- The name of an element of emphasis. -/
def Emphasis.name : Emphasis → Text
  | strong => "strong".toList
  | em => "em".toList
  | code => "code".toList

/-- The tags of emphasis. -/
inductive EmphasisTag where
  | opens (element : Emphasis)
  | closes (element : Emphasis)
  deriving DecidableEq, Repr

namespace EmphasisTag

/-- The tag as it stands in the text. -/
def written : EmphasisTag → Text
  | opens element => openTag element.name
  | closes element => closeTag element.name

/-- All tags of emphasis. -/
def all : List EmphasisTag := [
  opens .strong, opens .em, opens .code, closes .strong, closes .em, closes .code]

/-- Whether the tags are nested behind tags that have opened the elements around them, innermost
first. -/
def nestedIn : List Emphasis → List EmphasisTag → Bool
  | around, [] => around.isEmpty
  | around, opens element :: tags => nestedIn (element :: around) tags
  | inner :: around, closes element :: tags => inner == element && nestedIn around tags
  | [], closes _ :: _ => false

/-- Whether the tags are nested, and all closed. -/
def nested (tags : List EmphasisTag) : Bool := nestedIn [] tags

theorem isTag_written (tag : EmphasisTag) : IsTag tag.written := by
  have known : ∀ element : Emphasis, element.name ∈ elementNames := by rintro (_ | _ | _) <;> decide
  cases tag with
  | opens element => exact .opening (known element)
  | closes element => exact .closing (known element)

end EmphasisTag

/-- Matches a tag of emphasis. -/
def emphasisTag? : Matcher EmphasisTag := fun s =>
  EmphasisTag.all.findSome? fun tag => (skip? tag.written s).map fun rest => (tag, rest)

/-- The tags of emphasis in a text, in order. -/
def emphasisTags (s : Text) : List EmphasisTag := matchesOf emphasisTag? s

theorem readsTags_emphasisTag : ReadsTags EmphasisTag.written emphasisTag? where
  isTag := EmphasisTag.isTag_written
  reads tag s := by rcases tag with (_ | _ | _) | (_ | _ | _) <;> rfl
  whole := eq_of_findSome?_skip?

/-! ## Tagged text -/

/-- The elements that are open before and behind a tag, innermost first. -/
inductive EmphasisTag.Leads : List Emphasis → EmphasisTag → List Emphasis → Prop where
  | opens {around : List Emphasis} (element : Emphasis) :
      Leads around (.opens element) (element :: around)
  | closes {around : List Emphasis} (element : Emphasis) :
      Leads (element :: around) (.closes element) around

/-- Text whose tags of emphasis lead from some open elements to others, and whose braces stand
outside of all elements. -/
inductive Tagged : List Emphasis → Text → List Emphasis → Prop where
  | nil {around : List Emphasis} : Tagged around [] around
  | char {around last : List Emphasis} {c : Char} {s : Text} (notLess : c ≠ '<')
      (notGreater : c ≠ '>')
      (outside : isBrace c = true → around = []) (rest : Tagged around s last) :
      Tagged around (c :: s) last
  | tag {around middle last : List Emphasis} {tag : EmphasisTag} {s : Text}
      (leads : tag.Leads around middle) (rest : Tagged middle s last) :
      Tagged around (tag.written ++ s) last

theorem EmphasisTag.Leads.deeper {around middle : List Emphasis} {tag : EmphasisTag}
    (leads : tag.Leads around middle) (outer : List Emphasis) :
    tag.Leads (around ++ outer) (middle ++ outer) := by
  cases leads with
  | opens element => exact .opens element
  | closes element => exact .closes element

theorem EmphasisTag.Leads.nestedIn {around middle : List Emphasis} {tag : EmphasisTag}
    (leads : tag.Leads around middle) (tags : List EmphasisTag) :
    EmphasisTag.nestedIn around (tag :: tags) = EmphasisTag.nestedIn middle tags := by
  cases leads with
  | opens element => rfl
  | closes element => rw [EmphasisTag.nestedIn, beq_self_eq_true, Bool.true_and]

namespace Tagged

variable {around middle last : List Emphasis} {s t : Text} {c : Char}

theorem append (first : Tagged around s middle) (second : Tagged middle t last) :
    Tagged around (s ++ t) last := by
  induction first with
  | nil => exact second
  | char notLess notGreater outside _ ih => exact .char notLess notGreater outside (ih second)
  | tag leads _ ih => exact List.append_assoc .. ▸ .tag leads (ih second)

theorem of_tag {tag : EmphasisTag} (leads : tag.Leads around last) :
    Tagged around tag.written last :=
  List.append_nil tag.written ▸ .tag leads .nil

theorem of_plain (noLess : '<' ∉ s) (noGreater : '>' ∉ s) : Tagged [] s [] := by
  induction s with
  | nil => exact .nil
  | cons c s ih =>
      rw [List.mem_cons, not_or] at noLess noGreater
      exact .char (Ne.symm noLess.1) (Ne.symm noGreater.1) (fun _ => rfl) (ih noLess.2 noGreater.2)

theorem marked (tagged : Tagged around s last) : Marked s := by
  induction tagged with
  | nil => exact .nil
  | char notLess notGreater _ _ ih => exact .char notLess notGreater ih
  | @tag _ _ _ tag _ _ _ ih => exact .tag tag.isTag_written ih

/-- **The tags that are read in tagged text are nested.** -/
theorem nested (tagged : Tagged [] s []) : EmphasisTag.nested (emphasisTags s) = true := by
  have leads : ∀ {around last s}, Tagged around s last →
      EmphasisTag.nestedIn around (emphasisTags s) = last.isEmpty := by
    intro around last s tagged
    induction tagged with
    | @nil around => cases around <;> rfl
    | char notLess _ _ _ ih =>
        rw [emphasisTags, readsTags_emphasisTag.cons notLess]
        exact ih
    | @tag _ _ _ tag _ leads _ ih =>
        rw [emphasisTags, readsTags_emphasisTag.written_append, leads.nestedIn]
        exact ih
  exact leads tagged

/-! ### Parts of tagged text -/

theorem of_cons (other : c ≠ '<') (tagged : Tagged around (c :: s) last) :
    (isBrace c = true → around = []) ∧ Tagged around s last := by
  generalize whole : c :: s = u at tagged
  cases tagged with
  | nil => cases whole
  | char _ _ outside rest =>
      cases whole
      exact ⟨outside, rest⟩
  | @tag _ _ _ tag _ _ _ =>
      obtain ⟨inner, shape, -⟩ := tag.isTag_written.shape
      rw [shape] at whole
      exact absurd (List.cons.inj whole).1 other

theorem behind (noLess : '<' ∉ t) (tagged : Tagged around (t ++ s) last) :
    Tagged around s last := by
  induction t with
  | nil => exact tagged
  | cons c t ih =>
      rw [List.mem_cons, not_or] at noLess
      exact ih noLess.2 (tagged.of_cons (Ne.symm noLess.1)).2

/-- A brace is no part of a tag, so tagged text can be cut there. -/
theorem split (brace : isBrace c = true) (tagged : Tagged around (s ++ c :: t) last) :
    Tagged around s [] ∧ Tagged [] t last := by
  generalize whole : s ++ c :: t = u at tagged
  induction tagged generalizing s with
  | nil => simp at whole
  | char notLess notGreater outside rest ih =>
      cases s with
      | nil =>
          obtain ⟨rfl, rfl⟩ := List.cons.inj whole
          obtain rfl := outside brace
          exact ⟨.nil, rest⟩
      | cons d s =>
          obtain ⟨rfl, later⟩ := List.cons.inj whole
          obtain ⟨first, second⟩ := ih later
          exact ⟨.char notLess notGreater outside first, second⟩
  | @tag _ _ _ tag u leads rest ih =>
      rcases List.append_eq_append_iff.mp whole with ⟨gap, same, later⟩ | ⟨gap, rfl, later⟩
      · cases gap with
        | nil =>
            obtain ⟨first, second⟩ := ih (show [] ++ c :: t = u from later)
            have front := (of_tag leads).append first
            rw [List.append_nil] at same front
            exact ⟨same ▸ front, second⟩
        | cons d gap =>
            obtain ⟨rfl, -⟩ := List.cons.inj later
            have inside := tag.isTag_written.isBrace_eq_false c (same ▸ by simp)
            rw [brace] at inside
            cases inside
      · obtain ⟨first, second⟩ := ih later.symm
        exact ⟨.tag leads first, second⟩

/-- Without braces, further elements may be open around the text. -/
theorem deeper (noBraces : ∀ c ∈ s, isBrace c = false) (tagged : Tagged around s last)
    (outer : List Emphasis) : Tagged (around ++ outer) s (last ++ outer) := by
  induction tagged with
  | nil => exact .nil
  | char notLess notGreater _ _ ih =>
      rw [List.forall_mem_cons] at noBraces
      have outside : ∀ {elements : List Emphasis}, isBrace _ = true → elements = [] :=
        fun brace => by
        rw [noBraces.1] at brace
        cases brace
      exact .char notLess notGreater outside (ih noBraces.2)
  | tag leads _ ih =>
      rw [List.forall_mem_append] at noBraces
      exact .tag (leads.deeper outer) (ih noBraces.2)

/-- Text without braces may be enclosed in tags. -/
theorem element (noBraces : ∀ c ∈ s, isBrace c = false) (tagged : Tagged [] s []) (e : Emphasis) :
    Tagged [] (Html.element e.name s) [] := by
  have opened : Tagged [] (openTag e.name) [e] := of_tag (.opens e)
  have closed : Tagged [e] (closeTag e.name) [] := of_tag (.closes e)
  exact (opened.append (tagged.deeper noBraces [e])).append closed

end Tagged

/-! ## Substituting in tagged text -/

/-- Where the matcher answers, it looks at a character that is no part of a tag, and what it puts
there leads from the elements that are open before to those that are open behind the match. -/
def FitsTags (matcher : Matcher Text) (s : Text) : Prop :=
  ∀ ⦃replacement rest : Text⦄, matcher s = some (replacement, rest) →
    ∃ c cs, s = c :: cs ∧ isNeutral c = true ∧ rest <:+ cs ∧
      ∀ ⦃around last : List Emphasis⦄, Tagged around s last →
        ∃ middle, Tagged around replacement middle ∧ Tagged middle rest last

/-- Nothing is found in a tag. -/
theorem substitute_append_of_fits {matcher : Matcher Text} {s t : Text}
    (inTag : ∀ c ∈ t, isNeutral c = false) (fits : ∀ u, u <:+ t ++ s → FitsTags matcher u) :
    substitute matcher (t ++ s) = t ++ substitute matcher s := by
  induction t with
  | nil => rfl
  | cons c t ih =>
      rw [List.forall_mem_cons] at inTag
      have quiet : matcher (c :: (t ++ s)) = none := by
        cases found : matcher (c :: (t ++ s)) with
        | none => rfl
        | some answer =>
            obtain ⟨d, ds, same, neutral, -⟩ := fits _ List.suffix_rfl found
            rw [← (List.cons.inj same).1, inTag.1] at neutral
            cases neutral
      rw [List.cons_append, substitute_cons_of_none quiet,
        ih inTag.2 fun u part =>
          fits u (part.trans (List.suffix_cons c (t ++ s))), List.cons_append]

/-- **Substituting keeps a text tagged** when each match in it fits. The induction is on the length,
since a match is passed as a whole. -/
theorem Tagged.substitute {matcher : Matcher Text} {around last : List Emphasis} {s : Text}
    (fits : ∀ t, t <:+ s → FitsTags matcher t) (tagged : Tagged around s last) :
    Tagged around (Text.substitute matcher s) last := by
  induction size : s.length using Nat.strong_induction_on generalizing around s with
  | _ n ih =>
      subst size
      cases tagged with
      | nil => exact .nil
      | @char _ _ c s notLess notGreater outside rest =>
          cases found : matcher (c :: s) with
          | none =>
              rw [substitute_cons_of_none found]
              exact .char notLess notGreater outside (ih s.length (by simp)
                (fun t part => fits t (part.trans (List.suffix_cons c s))) rest rfl)
          | some answer =>
              obtain ⟨replacement, behind⟩ := answer
              obtain ⟨d, ds, same, -, isRest, leads⟩ := fits _ List.suffix_rfl found
              obtain ⟨rfl, rfl⟩ := List.cons.inj same
              obtain ⟨middle, first, second⟩ := leads (.char notLess notGreater outside rest)
              have shorter := isRest.length_le
              rw [substitute_cons_of_some found isRest]
              exact first.append (ih behind.length (by simp; omega)
                (fun t part => fits t (part.trans (isRest.trans (List.suffix_cons c s))))
                second rfl)
      | @tag _ middle _ tag s leads rest =>
          obtain ⟨inner, shape, -⟩ := tag.isTag_written.shape
          rw [substitute_append_of_fits (fun c => tag.isTag_written.not_neutral) fits]
          exact .tag leads (ih s.length (by rw [shape]; simp; omega)
            (fun t part => fits t (part.trans (List.suffix_append _ s))) rest rfl)

/-! ## Conversions of tagged text -/

/-- What is removed away from the tags fits. -/
theorem fitsTags_remove {look : Text → Option Text} (keeps : KeepsRest look)
    (avoids : AvoidsTags fun s => (look s).map fun rest => ([], rest)) (s : Text) :
    FitsTags (fun s => (look s).map fun rest => ([], rest)) s := by
  intro replacement rest matched
  obtain ⟨used, whole, noLess, -⟩ := avoids matched
  obtain ⟨behind, found, same⟩ := Option.map_eq_some_iff.mp matched
  cases same
  obtain ⟨c, cs, shape, neutral, cut⟩ := keeps found
  exact ⟨c, cs, shape, neutral, cut.isSuffix, fun around last tagged =>
    ⟨around, .nil, (whole ▸ tagged).behind noLess⟩⟩

theorem isBrace_of_innermost? {s body behind : Text} (found : innermost? s = some (body, behind)) :
    ∀ c ∈ body, isBrace c = false := by
  unfold innermost? at found
  split at found
  · split at found
    · cases found
      intro c member
      simpa using List.mem_takeWhile_imp member
    · cases found
  · cases found

/-- The text between innermost braces is nested by itself, and no element is open around it. -/
theorem Tagged.innermost {around last : List Emphasis} {used s body behind : Text}
    (noLess : '<' ∉ used)
    (found : innermost? s = some (body, behind)) (tagged : Tagged around (used ++ s) last) :
    around = [] ∧ Tagged [] body [] ∧ Tagged [] behind last := by
  have inside := tagged.behind noLess
  rw [innermost?_eq_some found] at inside
  obtain ⟨outside, rest⟩ := inside.of_cons (by decide)
  obtain rfl := outside (by decide)
  exact ⟨rfl, rest.split (by decide)⟩

/-- **A command of emphasis becomes an element** around text that is nested. -/
theorem fitsTags_spanCommand {names : List Text}
    (harmless : ∀ name ∈ names, isHarmless ('\\' :: name) = true)
    (e : Emphasis) (s : Text) : FitsTags (spanCommand names e.name) s := by
  intro replacement rest matched
  obtain ⟨name, known, argument, body, skipped, inner, rfl⟩ := spanCommand_eq_some matched
  obtain ⟨c, cs, shape, neutral, cut⟩ := keepsRest_skip (harmless name known) skipped
  refine ⟨c, cs, shape, neutral, (Behind.innermost inner).1.isSuffix.trans cut.isSuffix, ?_⟩
  intro around last tagged
  obtain ⟨_, _, same, -, noLess⟩ := exists_of_isHarmless (harmless name known)
  rw [skip?_eq_some_iff.mp skipped] at tagged
  have apart : '<' ∉ '\\' :: name := by
    rw [List.mem_cons, not_or]
    exact ⟨by decide, (List.cons.inj same).2 ▸ noLess⟩
  obtain ⟨rfl, nested, later⟩ := tagged.innermost apart inner
  exact ⟨[], nested.element (isBrace_of_innermost? inner) e, later⟩

theorem Tagged.convertEmphasis {s : Text} (tagged : Tagged [] s []) :
    Tagged [] (convertEmphasis s) [] := by
  have round : ∀ {s}, Tagged [] s [] → Tagged [] (convertInnermost s) [] := by
    intro s tagged
    have bold : Tagged [] (convertBold s) [] :=
      tagged.substitute fun t _ => fitsTags_spanCommand (by decide) .strong t
    have italic :
        Tagged [] (Text.substitute (spanCommand ["textit".toList, "emph".toList] "em".toList)
        (convertBold s)) [] := bold.substitute fun t _ => fitsTags_spanCommand (by decide) .em t
    exact italic.substitute fun t _ => fitsTags_spanCommand (by decide) .code t
  unfold Html.convertEmphasis
  generalize 4 = levels
  induction levels generalizing s with
  | zero => exact tagged
  | succ levels ih => exact ih (round tagged)

theorem avoidsTags_skipAny {literals : List Text} (noLess : ∀ literal ∈ literals, '<' ∉ literal) :
    AvoidsTags fun s => (skipAny? literals s).map fun rest => ([], rest) := by
  intro s replacement rest matched
  obtain ⟨behind, found, same⟩ := Option.map_eq_some_iff.mp matched
  cases same
  obtain ⟨literal, member, skipped⟩ := List.exists_of_findSome?_eq_some found
  exact ⟨literal, skip?_eq_some_iff.mp skipped, noLess literal member, List.not_mem_nil⟩

theorem avoidsTags_sizeCommand : AvoidsTags fun s =>
    (sizeCommand? s).map fun rest => ([], rest) := by
  intro s replacement rest matched
  obtain ⟨behind, found, same⟩ := Option.map_eq_some_iff.mp matched
  cases same
  obtain ⟨name, member, skipped⟩ := sizeCommand?_eq_some found
  have noLess : ∀ name ∈ sizes, '<' ∉ '\\' :: name := by decide
  exact ⟨_, skip?_eq_some_iff.mp skipped, noLess name member, List.not_mem_nil⟩

/-! ## Commands with arguments -/

/-- Matches a command with an option behind its name. -/
def optioned? (s : Text) : Option (Text × Text) := (commandName? s).bind bracketed?

/-- Whether no name stands at the front, or one with something behind it that is neither a star nor
the beginning of an option. -/
def bareName : Text → Bool
  | [] => false
  | d :: name =>
    !d.isAlpha || (name.dropWhile Char.isAlpha).head?.any fun e => e != '*' && e != '['

/-- Whether each backslash has a bare name behind it. -/
def optionless : Text → Bool
  | [] => true
  | c :: s => (c != '\\' || bareName s) && optionless s

theorem commandName?_of_ne {c : Char} (other : c ≠ '\\') (s : Text) :
    commandName? (c :: s) = none := by
  unfold commandName?
  split
  · next same => exact absurd (List.cons.inj same).1 other
  · rfl

theorem withoutStar_of_ne {c : Char} (other : c ≠ '*') (s : Text) :
    withoutStar (c :: s) = c :: s := by
  unfold withoutStar
  split
  · next same => exact absurd (List.cons.inj same).1 other
  · rfl

theorem bracketed?_of_ne {c : Char} (other : c ≠ '[') (s : Text) : bracketed? (c :: s) = none := by
  unfold bracketed?
  split
  · next same => exact absurd (List.cons.inj same).1 other
  · rfl

/-- A bare name has no option, whatever stands behind. -/
theorem optioned?_of_bareName {s : Text} (bare : bareName s = true) (t : Text) :
    optioned? ('\\' :: (s ++ t)) = none := by
  cases s with
  | nil => cases bare
  | cons d name =>
      rw [optioned?, List.cons_append, commandName?]
      cases letter : d.isAlpha with
      | false => rfl
      | true =>
          rw [bareName, letter, Bool.not_true, Bool.false_or] at bare
          cases last : name.dropWhile Char.isAlpha with
          | nil =>
              rw [last] at bare
              cases bare
          | cons e rest =>
              rw [last, List.head?_cons, Option.any_some, Bool.and_eq_true, bne_iff_ne,
                bne_iff_ne] at bare
              have behind : (name ++ t).dropWhile Char.isAlpha = e :: (rest ++ t) := by
                rw [List.dropWhile_append, last]
                rfl
              rw [if_pos rfl, behind, withoutStar_of_ne bare.1]
              exact bracketed?_of_ne bare.2 _

theorem silent_optioned {s : Text} (noOption : optionless s = true) : Silent optioned? s := by
  induction s with
  | nil => trivial
  | cons c s ih =>
      rw [optionless, Bool.and_eq_true, Bool.or_eq_true] at noOption
      refine ⟨fun t => ?_, ih noOption.2⟩
      by_cases slash : c = '\\'
      · subst slash
        exact optioned?_of_bareName (noOption.1.resolve_left (by decide)) t
      · rw [optioned?, commandName?_of_ne slash]
        rfl

theorem Strand.silent_optioned {depth : Nat} {s : Text} (strand : Strand depth s) :
    Silent optioned? s := by
  have each : ∀ entry ∈ words, optionless entry.1 = true := by decide +kernel
  refine strand.silent (fun {c} text t => ?_) fun entry member =>
    Html.silent_optioned (each entry member)
  have notSlash : c ≠ '\\' := by
    rintro rfl
    exact absurd text (by decide)
  rw [optioned?, commandName?_of_ne notSlash]
  rfl

/-- Where no command has an option, what goes with a command is nested. -/
theorem fitsTags_dropsArgument {s : Text} (bare : optioned? s = none) :
    FitsTags dropsArgument s := by
  intro replacement rest matched
  obtain ⟨behind, found, same⟩ := Option.map_eq_some_iff.mp matched
  cases same
  obtain ⟨c, cs, shape, neutral, cut⟩ := keepsRest_commandWithArgument found
  refine ⟨c, cs, shape, neutral, cut.isSuffix, fun around last tagged => ?_⟩
  obtain ⟨t, named, found⟩ := Option.bind_eq_some_iff.mp found
  obtain ⟨⟨body, _⟩, inner, same⟩ := Option.map_eq_some_iff.mp found
  cases same
  have plain : dropBracketed t = t := by
    rw [optioned?, named, Option.bind_some] at bare
    rw [dropBracketed, bare]
  have name : (commandName? s).map (fun rest => (([] : Text), rest)) = some ([], t) := by
    rw [named]
    rfl
  obtain ⟨used, whole, noLess, -⟩ := avoidsTags_commandName name
  rw [plain] at inner
  rw [whole] at tagged
  obtain ⟨rfl, -, later⟩ := tagged.innermost noLess inner
  exact ⟨[], .nil, later⟩

/-! ## Lines -/

/-- The tags of a formatted line are nested once its emphasis is converted. -/
theorem tagged_emphasized (s : Text) : Tagged [] (emphasized s) [] := by
  have absent : ∀ {c : Char}, c ∉ backslash ++ ['~', '^'] → c ∉ escapeAngles s →
      c ∉ convertSymbols (escapeAngles s) := by
    intro c unwritten absent
    simp only [List.mem_append, List.mem_cons, List.not_mem_nil, or_false, not_or] at unwritten
    refine not_mem_replace (not_mem_replace (not_mem_replace absent unwritten.1) ?_) ?_
    · simpa using unwritten.2.1
    · simpa using unwritten.2.2
  have angles := angles_not_mem_escapeAngles s
  exact (Tagged.of_plain (absent (by decide) angles.1)
    (absent (by decide) angles.2)).convertEmphasis

/-- The tags of a strand stay nested when the commands with arguments go. -/
theorem Tagged.dropArguments {s : Text} (tagged : Tagged [] s []) (strand : Strand 0 s) :
    Tagged [] (remove commandWithArgument?
      (Text.substitute picture? (remove sizeCommand? (removeAny centering s)))) [] := by
  have centered : Tagged [] (removeAny centering s) [] :=
    tagged.substitute fun t _ =>
      fitsTags_remove (keepsRest_skipAny (by decide)) (avoidsTags_skipAny (by decide)) t
  have sized : Tagged [] (remove sizeCommand? (removeAny centering s)) [] :=
    centered.substitute fun t _ => fitsTags_remove keepsRest_sizeCommand avoidsTags_sizeCommand t
  have left := weaves_sizes.strand (weaves_centering.strand strand)
  have picture :
      Silent (skip? (beginEnvironment "tikzpicture".toList))
        (remove sizeCommand? (removeAny centering s)) :=
    left.silent_skip (by decide +kernel)
  have drawn : Text.substitute picture? (remove sizeCommand? (removeAny centering s)) =
      remove sizeCommand? (removeAny centering s) := (picture.bind _).substitute_eq_self
  rw [drawn]
  refine sized.substitute fun t part => fitsTags_dropsArgument ?_
  have quiet := left.silent_optioned.of_isSuffix part
  cases t with
  | nil => rfl
  | cons c t =>
      have here := quiet.1 []
      rwa [List.append_nil] at here

/-- **Emphasis never produces mis-nested tags:** in the fragment of a formatted line, each element
of emphasis is closed by its own tag while it is the innermost one, and all are closed. -/
theorem nested_emphasisTags_format {t : Text} (oneLine : '\n' ∉ t) :
    EmphasisTag.nested (emphasisTags (fragment (Inline.format t))) = true := by
  have formatted : Inline.Formatted 0 (replace "[fragile]".toList [] (Inline.format t)) 0 :=
    (Inline.formatted_format t).remove_plain (by decide) (by decide)
  have still : '\n' ∉ replace "[fragile]".toList [] (Inline.format t) :=
    not_mem_replace (Inline.not_mem_format (by decide) oneLine) List.not_mem_nil
  rw [fragment_line formatted still rfl]
  generalize replace "[fragile]".toList [] (Inline.format t) = s at formatted
  have left := (tagged_emphasized s).dropArguments (strand_emphasized formatted)
  have finished := readsTags_emphasisTag.finished left.marked
  have nested := left.nested
  rw [emphasisTags, ← finished] at nested
  exact nested

/-- Spans that cross each other, and escaped braces in them. -/
theorem nested_emphasisTags_format_crossing :
    '\n' ∉ "**a *b** c* \x60d\x7d\x60 *\x7be*".toList ∧
      emphasisTags (fragment (Inline.format "**a *b** c* \x60d\x7d\x60 *\x7be*".toList)) =
        [.opens .strong, .opens .em, .closes .em, .closes .strong, .opens .code, .closes .code] ∧
      EmphasisTag.nested (emphasisTags
        (fragment (Inline.format "**a *b** c* \x60d\x7d\x60 *\x7be*".toList))) = true :=
  ⟨by decide, by decide +kernel, nested_emphasisTags_format (by decide)⟩

end SlideDeck.Html
