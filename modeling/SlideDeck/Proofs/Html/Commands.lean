import SlideDeck.Proofs.Html.Woven

/-!
# The last commands of a fragment

Behind its tables, what is left of the commands of a page leaves nothing: line breaks apart, the
commands that center text and set its size go, then every command with an argument, together with
that argument. An argument that goes is inside of a strand, because each group that a strand
opens ends in it (`weaving_dropsArgument`). So no tag of a list goes with one, and the list tags of
a fragment are those between the strands (`listTags_fragment`).
-/

set_option autoImplicit false

namespace SlideDeck.Html

open SlideDeck SlideDeck.Text SlideDeck.Latex

/-! ## Rows, sizes and pictures -/

theorem weaves_rowEnd : Weaves false (replace rowEnd (openTag "br".toList)) :=
  weaves_literally (.of_level (by decide)) (by decide) (by decide)

theorem ledBy_centering :
    LedBy centering fun s => centering.findSome? fun literal => skip? literal s := by
  have first :
      LedBy (centering.map id) fun s => centering.findSome? fun literal => skip? literal s :=
    .findSome? LedBy.skip
  rwa [List.map_id] at first

theorem weaves_centering : Weaves false (removeAny centering) := by
  have led : LedBy centering fun s =>
      (centering.findSome? fun literal => skip? literal s).map fun rest => (([] : Text), rest) :=
    ledBy_centering.map _
  refine .of_weaving (weaving_of_words led (by decide) fun entry member => ?_) fun part member => ?_
  · have each : ∀ entry ∈ words, (∀ literal ∈ centering, avoids literal entry.1 = true) ∨
        entry.2 = .none ∧ entry.1 ∈ centering := by decide
    refine (each entry member).imp_right ?_
    intro ⟨level, known⟩
    refine ⟨level, [], .nil, fun t => ?_⟩
    generalize entry.1 = w at known
    simp only [centering, List.mem_cons, List.not_mem_nil, or_false] at known
    rcases known with rfl | rfl | rfl <;> rfl
  · have each : ∀ part ∈ fixedTexts false, ∀ literal ∈ centering, avoids literal part = true := by
      decide
    exact led.silent (each part member)

theorem ledBy_sizeCommand : LedBy (sizes.map ('\\' :: ·)) sizeCommand? :=
  .findSome? fun name => (LedBy.skip ('\\' :: name)).bind _

/-- The size is a word of its own where no word goes on. -/
theorem sizeCommand?_large {c : Char} (word : isWordCharacter c = false) (t : Text) :
    sizeCommand? ("\\large".toList ++ c :: t) = some (c :: t) := by
  have shape : sizes = sizes.take 5 ++ "large".toList :: sizes.drop 6 := rfl
  have smaller : ((sizes.take 5).findSome? fun name =>
      (skip? ('\\' :: name) ("\\large".toList ++ c :: t)).bind fun rest =>
        if atWordEnd rest then some rest else none) = none := rfl
  have found : skip? ('\\' :: "large".toList) ("\\large".toList ++ c :: t) = some (c :: t) := rfl
  have ends : atWordEnd (c :: t) = true := by rw [atWordEnd, word, Bool.not_false]
  rw [sizeCommand?, shape, List.findSome?_append, smaller, Option.none_or,
    List.findSome?_cons, found, Option.bind_some, if_pos ends]

theorem weaves_sizes : Weaves false (remove sizeCommand?) := by
  have led : LedBy (sizes.map ('\\' :: ·)) fun s =>
      (sizeCommand? s).map fun rest => (([] : Text), rest) :=
    ledBy_sizeCommand.map _
  have quiet : ∀ {c}, isText c = true → ∀ t,
      (sizeCommand? (c :: t)).map (fun rest => (([] : Text), rest)) = none :=
    Strand.quiet_of_ledBy led (by decide)
  refine .of_weaving ⟨.nil, .char, quiet, fun {depth w effect s} member strand => ?_⟩
    fun part member => ?_
  · have each :
        ∀ entry ∈ words, (∀ literal ∈ sizes.map ('\\' :: ·), avoids literal entry.1 = true) ∨
          ∃ tail ∈ ["\\textbf\x7b".toList, openTag "strong".toList],
            entry.1 = "\\large".toList ++ tail ∧ (tail, entry.2) ∈ words := by decide
    rcases each (w, effect) member with apart | ⟨tail, known, same, isWord⟩
    · exact .silent member strand (led.silent apart) fun x rest => .word member rest
    · -- What the size stands in front of is a word, too.
      obtain rfl : w = "\\large".toList ++ tail := same
      have begins : ∃ c rest, tail = c :: rest ∧ isWordCharacter c = false := by
        simp only [List.mem_cons, List.not_mem_nil, or_false] at known
        rcases known with rfl | rfl
        · exact ⟨'\\', "textbf\x7b".toList, rfl, by decide +kernel⟩
        · exact ⟨'<', "strong>".toList, rfl, by decide +kernel⟩
      obtain ⟨c, rest, rfl, word⟩ := begins
      refine ⟨[], depth, c :: rest ++ s, .word isWord strand, ?_, fun x made => made, fun t => ?_⟩
      · have nonempty : 0 < "\\large".toList.length := by decide
        simp only [List.length_append]
        omega
      · have found := sizeCommand?_large word (rest ++ (s ++ t))
        rw [List.append_assoc, List.append_assoc]
        refine substitute_append_of_some ?_ (by decide)
        rw [List.cons_append, found]
        rfl
  · have each : ∀ part ∈ fixedTexts false, ∀ literal ∈ sizes.map ('\\' :: ·),
        avoids literal part = true := by decide
    exact led.silent (each part member)

theorem weaves_pictures : Weaves false (substitute picture?) := by
  have led : LedBy [beginEnvironment "tikzpicture".toList] picture? := (LedBy.skip _).bind _
  have apart : ∀ entry ∈ words, avoids (beginEnvironment "tikzpicture".toList) entry.1 = true := by
    decide
  have each :
      ∀ part ∈ fixedTexts false, avoids (beginEnvironment "tikzpicture".toList) part = true := by
    decide
  refine .of_weaving (weaving_of_words led (by decide) fun entry member => .inl ?_)
    fun part member => ?_
  · exact List.forall_mem_singleton.mpr (apart entry member)
  · exact led.silent (List.forall_mem_singleton.mpr (each part member))

/-! ## Commands with arguments -/

/-- Whether no backslash stands in front of a letter, or at the end. -/
def commandless : Text → Bool
  | [] => true
  | c :: s => (c != '\\' || s.head?.any fun d => !d.isAlpha) && commandless s

theorem silent_commandName {s : Text} (noCommand : commandless s = true) :
    Silent commandName? s := by
  induction s with
  | nil => trivial
  | cons c s ih =>
      rw [commandless, Bool.and_eq_true, Bool.or_eq_true] at noCommand
      refine ⟨fun t => ?_, ih noCommand.2⟩
      unfold commandName?
      split
      · next d rest same =>
          obtain ⟨rfl, behind⟩ := List.cons.inj same
          rcases noCommand.1 with other | first
          · simp at other
          · cases s with
            | nil => simp at first
            | cons e s =>
                obtain rfl := (List.cons.inj behind).1
                simp only [List.head?_cons, Option.any_some, Bool.not_eq_true'] at first
                rw [first]
                rfl
      · rfl

/-- What a word brings into a page are characters and tags inside of lines. -/
theorem marked_word {w : Text} {effect : Effect} (member : (w, effect) ∈ words) : Marked w := by
  have each : ∀ entry ∈ words, ('<' ∉ entry.1 ∧ '>' ∉ entry.1) ∨
      ∃ front ∈ [[], "\\".toList, "\\large".toList],
        entry.1 = front ++ openTag "br".toList ∨ ∃ name ∈ inlineNames ++ blockNames,
          entry.1 = front ++ openTag name ∨ entry.1 = front ++ closeTag name := by decide
  have plain : ∀ front ∈ [[], "\\".toList, "\\large".toList], Marked front := by
    intro front known
    simp only [List.mem_cons, List.not_mem_nil, or_false] at known
    rcases known with rfl | rfl | rfl <;> exact .of_plain (by decide) (by decide)
  have elements : ∀ name ∈ inlineNames ++ blockNames, name ∈ elementNames := by decide
  rcases each (w, effect) member with
    ⟨noLess, noGreater⟩ | ⟨front, known, lineBreak | ⟨name, isName, tag⟩⟩
  · exact .of_plain noLess noGreater
  · obtain rfl : w = _ := lineBreak
    exact (plain front known).append (.of_tag .lineBreak)
  · rcases tag with same | same
    · obtain rfl : w = _ := same
      exact (plain front known).append (.of_tag (.opening (elements name isName)))
    · obtain rfl : w = _ := same
      exact (plain front known).append (.of_tag (.closing (elements name isName)))

/-- Marked text without tags of lists. -/
def Unlisted (_ : Nat) (s : Text) : Prop := Marked s ∧ listTags s = []

theorem Unlisted.word {depth : Nat} {w s : Text} {effect : Effect} (member : (w, effect) ∈ words)
    (rest : Unlisted (effect.after depth) s) : Unlisted depth (w ++ s) := by
  have marked := marked_word member
  have each : ∀ entry ∈ words, listTags entry.1 = [] := by decide
  refine ⟨marked.append rest.1, ?_⟩
  rw [marked.listTags_append, each (w, effect) member, rest.2]
  rfl

/-- The words that are a command with an argument. -/
def wholeCommands : List Text :=
  Inline.symbolNames.map Latex.symbol ++
    plainEnvironments.flatMap fun name => [beginEnvironment name, endEnvironment name]

/-- How the words of the vocabulary treat commands. -/
theorem word_commands {w : Text} {effect : Effect} (member : (w, effect) ∈ words) :
    commandless w = true ∨ (effect = .none ∧ w ∈ wholeCommands) ∨
      (effect = .none ∧ w = "\\large".toList ++ openTag "strong".toList) ∨
      effect = .opens ∧ ∃ lead name, (lead = [] ∨ lead = "\\large".toList) ∧
        name ∈ Inline.styleNames ∧
        w = lead ++ '\\' :: (name ++ ['\x7b']) := by
  have each : ∀ entry ∈ words, commandless entry.1 = true ∨
      (entry.2 = .none ∧ entry.1 ∈ wholeCommands) ∨
      (entry.2 = .none ∧ entry.1 = "\\large".toList ++ openTag "strong".toList) ∨
      entry.2 = .opens ∧ ∃ lead ∈ [[], "\\large".toList], ∃ name ∈ Inline.styleNames,
        entry.1 = lead ++ '\\' :: (name ++ ['\x7b']) := by decide
  refine (each (w, effect) member).imp_right (Or.imp_right (Or.imp_right ?_))
  intro ⟨opens, lead, isLead, name, isName, same⟩
  exact ⟨opens, lead, name, by simpa using isLead, isName, same⟩

/-- Matches a command with an argument, and puts nothing in its place. -/
def dropsArgument : Matcher Text := fun s => (commandWithArgument? s).map fun rest => ([], rest)

theorem silent_dropsArgument {s : Text} (noCommand : commandless s = true) :
    Silent dropsArgument s :=
  ((silent_commandName noCommand).bind _).map _

/-- The command of a size has no argument in front of another command or a tag. -/
theorem dropsArgument_large {c : Char} (first : c = '\\' ∨ c = '<') (t : Text) :
    substitute dropsArgument ("\\large".toList ++ c :: t) =
      "\\large".toList ++ substitute dropsArgument (c :: t) := by
  have quiet : dropsArgument ('\\' :: ("large".toList ++ c :: t)) = none := by
    rcases first with rfl | rfl <;> rfl
  have behind : Silent dropsArgument "large".toList := silent_dropsArgument (by decide)
  exact (substitute_cons_of_none quiet).trans (congrArg _ (behind.substitute_append _))

theorem dropsArgument_style {name : Text} (member : name ∈ Inline.styleNames) (t : Text) :
    dropsArgument ('\\' :: (name ++ ['\x7b']) ++ t) =
      (innermost? ('\x7b' :: t)).map fun (_, behind) => ([], behind) := by
  have found : commandWithArgument? ('\\' :: (name ++ ['\x7b']) ++ t) =
      (innermost? ('\x7b' :: t)).map Prod.snd := by
    simp only [Inline.styleNames, List.mem_cons, List.not_mem_nil, or_false] at member
    rcases member with rfl | rfl | rfl <;> rfl
  rw [dropsArgument, found, Option.map_map]
  rfl

theorem dropsArgument_whole {w : Text} (member : w ∈ wholeCommands) (t : Text) :
    dropsArgument (w ++ t) = some ([], t) := by
  have found : commandWithArgument? (w ++ t) = some t := by
    simp only [wholeCommands, Inline.symbolNames, plainEnvironments, List.map_cons, List.map_nil,
      List.flatMap_cons, List.flatMap_nil, List.append_nil, List.cons_append, List.nil_append,
      List.mem_cons, List.not_mem_nil, or_false] at member
    rcases member with rfl | rfl | rfl | rfl | rfl | rfl | rfl <;> rfl
  rw [dropsArgument, found]
  rfl

theorem weaving_dropsArgument : Weaving Unlisted dropsArgument where
  nil := ⟨.nil, rfl⟩
  char {depth c x} text rest := by
    have notLess : c ≠ '<' := by
      rintro rfl
      exact absurd text (by decide)
    have notGreater : c ≠ '>' := by
      rintro rfl
      exact absurd text (by decide)
    exact ⟨.char notLess notGreater rest.1, (listTags_cons notLess x).trans rest.2⟩
  quiet {c} text t := by
    have noCommand : commandless [c] = true := by
      have notSlash : c ≠ '\\' := by
        rintro rfl
        exact absurd text (by decide)
      simp [commandless, notSlash]
    exact (silent_dropsArgument noCommand).1 t
  word {depth w effect s} member strand := by
    have stays : ∀ x, Unlisted (effect.after depth) x → Unlisted depth (w ++ x) :=
      fun x rest => .word member rest
    rcases word_commands member with noCommand | ⟨rfl, whole⟩ | ⟨rfl, rfl⟩ | ⟨rfl, lead, name,
      isLead, isName, rfl⟩
    · exact .silent member strand (silent_dropsArgument noCommand) stays
    · exact .replaced member strand (dropsArgument_whole whole) fun x rest => rest
    · have tag : Silent dropsArgument (openTag "strong".toList) := silent_dropsArgument (by decide)
      refine ⟨_, depth, s, strand, ?_, stays, fun t => ?_⟩
      · have nonempty : 0 < "\\large".toList.length := by decide
        simp only [List.length_append]
        omega
      · have large := dropsArgument_large (.inr rfl) ("strong>".toList ++ (s ++ t))
        rw [List.append_assoc, List.append_assoc, ← tag.substitute_append]
        exact large
    · have inner : ∀ name ∈ Inline.styleNames, commandless (name ++ ['\x7b']) = true := by decide
      refine Carries.argument lead (fun _ => []) strand rfl (fun t => ?_)
        (dropsArgument_style isName)
        (silent_dropsArgument (inner name isName)) (fun body _ x rest => ?_) stays
      · rcases isLead with rfl | rfl
        · rfl
        · rw [List.append_assoc]
          exact dropsArgument_large (.inl rfl) _
      · have noAngle : '<' ∉ lead ∧ '>' ∉ lead := by
          rcases isLead with rfl | rfl <;> decide
        refine ⟨?_, ?_⟩
        · exact ((Marked.of_plain noAngle.1 noAngle.2).append .nil).append rest.1
        · rw [List.append_nil, listTags_append_of_not_mem noAngle.1]
          exact rest.2

theorem Woven.dropArguments {s : Text} {tags : List ListTag} (woven : Woven false s tags) :
    Marked (remove commandWithArgument? s) ∧ listTags (remove commandWithArgument? s) = tags := by
  change Marked (substitute dropsArgument s) ∧ listTags (substitute dropsArgument s) = tags
  induction woven with
  | nil => exact ⟨.nil, rfl⟩
  | strand strand _ ih =>
      obtain ⟨⟨marked, empty⟩, append⟩ := weaving_dropsArgument.substitute strand
      rw [append, marked.listTags_append, empty, ih.2]
      exact ⟨marked.append ih.1, rfl⟩
  | tag tag _ ih =>
      have each : ∀ tag ∈ ListTag.all, commandless tag.written = true := by decide
      rw [(silent_dropsArgument (each tag tag.mem_all)).substitute_append, listTags_written, ih.2]
      exact ⟨.tag tag.isTag_written ih.1, rfl⟩
  | table allowed => cases allowed

/-! ## The whole sequence -/

/-- **The list tags of a fragment** are those between the strands of the text in which the items
have been closed. -/
theorem listTags_fragment {body s : Text} {tags : List ListTag}
    (closed : closeItems (convertItems (convertEnvironments
      (replace "[fragile]".toList [] (escapeAngles body)))) = s)
    (woven : Woven true s tags) : listTags (fragment body) = tags := by
  have emphasized := weaves_convertEmphasis.woven (weaves_convertSymbols.woven woven)
  have taken : takeListings (convertMarkup body) =
      (convertEmphasis (convertSymbols s), []) := by
    rw [convertMarkup, closed]
    exact emphasized.takeListings_eq
  have tabled := (weaves_dropComments.woven emphasized).convertTables
  have broken := weaves_rowEnd.woven tabled
  have sized := weaves_sizes.woven (weaves_centering.woven broken)
  obtain ⟨marked, tags⟩ := (weaves_pictures.woven sized).dropArguments
  have finished := (listTags_finished marked).trans tags
  have put : ∀ t, putListings t [] = t := fun t => rfl
  rw [fragment_eq, taken, put]
  dsimp only
  rw [convertRest, dropCommands]
  exact finished

end SlideDeck.Html
