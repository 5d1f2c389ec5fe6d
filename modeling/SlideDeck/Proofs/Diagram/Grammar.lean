import Mathlib.Data.List.Forall2
import SlideDeck.Proofs.Text.Search
import SlideDeck.Proofs.Text.Trim
import SlideDeck.Slide.Diagram

/-!
# The language of diagrams

A line of a diagram is a row of nodes with arrows between them, or a node that is declared with its
label; every other line states nothing (`States`). A node is a name, with a label in brackets behind
it if it has one (`WritesNode`), and behind an arrow there may be a note between pipes
(`WritesEnd`).

The reader takes each line for what it states (`states_iff`), so it reads exactly this language.
-/

set_option autoImplicit false

namespace SlideDeck.Diagram

open SlideDeck.Text

/-! ## Nodes -/

/-- Text of the characters of node names. -/
def IsId (id : Text) : Prop := ∀ c ∈ id, isNameChar c = true

instance (id : Text) : Decidable (IsId id) :=
  inferInstanceAs (Decidable (∀ c ∈ id, isNameChar c = true))

theorem isBlank_of_isNameChar {c : Char} (named : isNameChar c = true) : isBlank c = false := by
  rcases Bool.or_eq_true_iff.mp named with alphanumeric | score
  · exact isBlank_of_isAlphanum alphanumeric
  · rw [beq_iff_eq.mp score]
    rfl

/-- The text is a node: a name, and behind it a label in brackets if it has one. -/
inductive WritesNode : Text → Endpoint → Prop
  | bare {id blanks : Text} (visible : id ≠ []) (isId : IsId id)
    (blank : isBlankText blanks = true) :
      WritesNode (id ++ blanks) ⟨id, none⟩
  | labelled {id blanks label : Text} (visible : id ≠ []) (isId : IsId id)
      (blank : isBlankText blanks = true) (shut : ']' ∉ label) :
      WritesNode (id ++ (blanks ++ '[' :: (label ++ [']']))) ⟨id, some (cleanLabel label)⟩

/-- A name ends where another character stands. -/
theorem takeWhile_id {id rest : Text} (isId : IsId id)
    (ended : ∀ c ∈ rest.head?, isNameChar c = false) :
    (id ++ rest).takeWhile isNameChar = id ∧ (id ++ rest).dropWhile isNameChar = rest := by
  rw [List.takeWhile_append_of_pos isId, List.dropWhile_append_of_pos isId]
  cases rest with
  | nil => exact ⟨List.append_nil id, rfl⟩
  | cons c rest =>
      have stops := ended c rfl
      simp [stops]

theorem head_blanks {blanks rest : Text} (blank : isBlankText blanks = true)
    (ended : ∀ c ∈ rest.head?, isNameChar c = false) :
    ∀ c ∈ (blanks ++ rest).head?, isNameChar c = false := by
  cases blanks with
  | nil => exact ended
  | cons b blanks =>
      rintro _ ⟨⟩
      cases named : isNameChar b with
      | false => rfl
      | true =>
          have here := List.all_eq_true.mp blank b List.mem_cons_self
          rw [isBlank_of_isNameChar named] at here
          cases here

theorem trimStart_blanks {blanks : Text} (blank : isBlankText blanks = true) (rest : Text) :
    trimStart (blanks ++ rest) = trimStart rest :=
  List.dropWhile_append_of_pos (List.all_eq_true.mp blank)

/-- The reader finds a node just where one is written. -/
theorem endpoint?_eq_some_iff {s : Text} {endpoint : Endpoint} :
    endpoint? s = some endpoint ↔ WritesNode s endpoint := by
  constructor
  · intro found
    have named : IsId (s.takeWhile isNameChar) := fun c member => List.mem_takeWhile_imp member
    have whole : s.takeWhile isNameChar ++ s.dropWhile isNameChar = s :=
      List.takeWhile_append_dropWhile
    have behind : (s.dropWhile isNameChar).takeWhile isBlank ++ trimStart (s.dropWhile isNameChar) =
        s.dropWhile isNameChar := List.takeWhile_append_dropWhile
    have blank : isBlankText ((s.dropWhile isNameChar).takeWhile isBlank) = true :=
      List.all_eq_true.mpr fun c member => List.mem_takeWhile_imp member
    rw [endpoint?] at found
    split at found
    · cases found
    · next notEmpty =>
        have nonempty : s.takeWhile isNameChar ≠ [] := fun empty => notEmpty (empty ▸ rfl)
        split at found
        · next bare =>
            cases found
            rw [bare, List.append_nil] at behind
            have node := WritesNode.bare nonempty named blank
            rwa [behind, whole] at node
        · next rest opens =>
            split at found
            · next label cut =>
                cases found
                obtain ⟨same, shut⟩ := splitOnce_eq_some cut
                have node := WritesNode.labelled nonempty named blank shut
                rwa [← same, ← opens, behind, whole] at node
            · cases found
        · cases found
  · rintro (⟨nonempty, isId, blank⟩ | ⟨nonempty, isId, blank, shut⟩)
    · next id blanks =>
        have ended : ∀ c ∈ blanks.head?, isNameChar c = false := by
          rw [← List.append_nil blanks]
          exact head_blanks blank nofun
        obtain ⟨name, rest⟩ := takeWhile_id isId ended
        have gone : trimStart blanks = [] := by
          rw [← List.append_nil blanks, trimStart_blanks blank]
          rfl
        simp only [endpoint?, name, rest, gone, List.isEmpty_eq_false_iff.mpr nonempty,
          Bool.false_eq_true, if_false]
    · next id blanks label =>
        have ended : ∀ c ∈ (blanks ++ '[' :: (label ++ [']'])).head?, isNameChar c = false := by
          refine head_blanks blank ?_
          rintro _ ⟨⟩
          rfl
        obtain ⟨name, rest⟩ := takeWhile_id isId ended
        have opens : trimStart (blanks ++ '[' :: (label ++ [']'])) = '[' :: (label ++ [']']) := by
          rw [trimStart_blanks blank]
          rfl
        simp only [endpoint?, name, rest, opens, List.isEmpty_eq_false_iff.mpr nonempty,
          Bool.false_eq_true, if_false, splitOnce_append shut]

/-! ## Arrows -/

/-- The text is an end of an arrow: a node, and in front of it a note between pipes if there is
one. -/
def WritesEnd (segment : Text) (endpoint : Endpoint) : Prop :=
  WritesNode (trim segment) endpoint ∨
    ∃ note rest, trim segment = '|' :: (note ++ '|' :: rest) ∧ '|' ∉ note ∧
      WritesNode (trim rest) endpoint

theorem WritesNode.head {s : Text} {endpoint : Endpoint} (writes : WritesNode s endpoint) :
    ∃ c rest, s = c :: rest ∧ isNameChar c = true := by
  have named : ∀ {id rest : Text}, id ≠ [] → IsId id →
      ∃ c t, id ++ rest = c :: t ∧ isNameChar c = true := by
    intro id rest nonempty isId
    obtain ⟨c, name, rfl⟩ := List.exists_cons_of_ne_nil nonempty
    exact ⟨c, name ++ rest, rfl, isId c List.mem_cons_self⟩
  cases writes with
  | bare nonempty isId _ => exact named nonempty isId
  | labelled nonempty isId _ _ => exact named nonempty isId

/-- The reader finds an end of an arrow just where one is written. -/
theorem writesEnd_iff {segment : Text} {endpoint : Endpoint} :
    WritesNode (trim (dropEdgeLabel (trim segment))) endpoint ↔ WritesEnd segment endpoint := by
  -- No node begins with a pipe.
  have noPipe : ∀ rest, ¬ WritesNode ('|' :: rest) endpoint := by
    intro rest writes
    obtain ⟨c, t, same, named⟩ := writes.head
    cases same
    exact absurd named (by decide)
  rw [WritesEnd, dropEdgeLabel.eq_def]
  split
  · next s rest same =>
      rw [same]
      split
      · next note behind cut =>
          obtain ⟨rfl, shut⟩ := splitOnce_eq_some cut
          rw [trim_trimStart]
          constructor
          · exact fun writes => .inr ⟨note, behind, rfl, shut, writes⟩
          · rintro (writes | ⟨other, rest, whole, noEnd, writes⟩)
            · exact absurd writes (noPipe _)
            · have again := splitOnce_append noEnd rest
              rw [← (List.cons.inj whole).2, cut] at again
              cases again
              exact writes
      · next uncut =>
          have kept : trim ('|' :: rest) = '|' :: rest := by rw [← same, trim_trim]
          rw [kept]
          constructor
          · exact fun writes => absurd writes (noPipe _)
          · rintro (writes | ⟨note, behind, whole, shut, -⟩)
            · exact absurd writes (noPipe _)
            · have cut := splitOnce_append shut behind
              rw [← (List.cons.inj whole).2] at cut
              rw [uncut] at cut
              cases cut
  · next noNote =>
      rw [trim_trim]
      refine ⟨.inl, ?_⟩
      rintro (writes | ⟨note, rest, whole, -⟩)
      · exact writes
      · exact absurd whole (noNote _)

/-- The line is a row of nodes with arrows between them. -/
def WritesChain (line : Text) (endpoints : List Endpoint) : Prop :=
  2 ≤ endpoints.length ∧ List.Forall₂ WritesEnd (splitOnText "-->".toList line) endpoints

theorem mapM_eq_some_iff {α β : Type} {f : α → Option β} {items : List α} {results : List β} :
    items.mapM f = some results ↔ List.Forall₂ (fun item result => f item = some result)
      items results := by
  induction items generalizing results with
  | nil => simp [eq_comm]
  | cons item items ih =>
      simp only [List.mapM_cons, Option.bind_eq_bind, Option.bind_eq_some_iff, ih,
        List.forall₂_cons_left_iff, Option.pure_def, Option.some.injEq]
      constructor
      · rintro ⟨result, answered, others, later, rfl⟩
        exact ⟨result, others, answered, later, rfl⟩
      · rintro ⟨result, others, answered, later, rfl⟩
        exact ⟨result, answered, others, later, rfl⟩

/-- The reader finds a row of nodes just where one is written. -/
theorem chain?_eq_some_iff {line : Text} {endpoints : List Endpoint} :
    chain? line = some endpoints ↔ WritesChain line endpoints := by
  have each :
      (fun segment endpoint => endpoint? (trim (dropEdgeLabel (trim segment))) = some endpoint) =
      WritesEnd := by
    funext segment endpoint
    rw [endpoint?_eq_some_iff, writesEnd_iff]
  rw [chain?, WritesChain]
  split
  · next first second rest cut =>
      rw [mapM_eq_some_iff, each, cut]
      refine ⟨fun writes => ⟨?_, writes⟩, And.right⟩
      rw [← writes.length_eq]
      exact Nat.le_add_left 2 rest.length
  · next short =>
      refine iff_of_false nofun ?_
      rintro ⟨two, writes⟩
      rw [← writes.length_eq] at two
      match pieces : splitOnText "-->".toList line, two with
      | first :: second :: rest, _ => exact short first second rest pieces

/-! ## Lines -/

/-- The line is neither empty nor a comment nor a header. -/
def IsContent (line : Text) : Prop := isIdle line = false ∧ isHeader line = false

/-- What a trimmed line states: a row of nodes that is right at each of them, or else a node with
its label; and otherwise nothing. -/
inductive States (line : Text) : Statement → Prop
  | chain {endpoints : List Endpoint} (content : IsContent line)
      (writes : WritesChain line endpoints) : States line (.chain endpoints)
  | declaration {id label : Text} (content : IsContent line)
      (noChain : ∀ endpoints, ¬ WritesChain line endpoints)
        (writes : WritesNode line ⟨id, some label⟩) :
      States line (.declaration id label)
  | nothing (neither : IsContent line → (∀ endpoints, ¬ WritesChain line endpoints) ∧
      ∀ id label, ¬ WritesNode line ⟨id, some label⟩) : States line .nothing

/-- A line states what the reader takes it for. -/
theorem states_read (line : Text) : States line (Statement.read line) := by
  have noChain : chain? line = none → ∀ endpoints, ¬ WritesChain line endpoints := by
    intro quiet endpoints writes
    rw [← chain?_eq_some_iff, quiet] at writes
    cases writes
  rw [Statement.read]
  split
  · next idle =>
      refine .nothing fun content => ?_
      rw [content.1, content.2] at idle
      cases idle
  · next content =>
      rw [Bool.or_eq_true, not_or, Bool.not_eq_true, Bool.not_eq_true] at content
      split
      · next endpoints found => exact .chain content (chain?_eq_some_iff.mp found)
      · next quiet =>
          split
          · next id label found =>
              exact .declaration content (noChain quiet) (endpoint?_eq_some_iff.mp found)
          · next other =>
              refine .nothing fun _ => ⟨noChain quiet, fun id label writes => ?_⟩
              exact other id label (endpoint?_eq_some_iff.mpr writes)

/-- A line states one thing only. -/
theorem States.unique {line : Text} {first second : Statement} (one : States line first)
    (other : States line second) : first = second := by
  have same : ∀ {e f : List Endpoint}, WritesChain line e → WritesChain line f → e = f := by
    intro e f here there
    rw [← chain?_eq_some_iff] at here there
    exact Option.some.inj (here.symm.trans there)
  cases one with
  | chain content writes =>
      cases other with
      | chain _ others => rw [same writes others]
      | declaration _ noChain _ => exact absurd writes (noChain _)
      | nothing neither => exact absurd writes ((neither content).1 _)
  | declaration content noChain writes =>
      cases other with
      | chain _ others => exact absurd others (noChain _)
      | declaration _ _ others =>
          rw [← endpoint?_eq_some_iff] at writes others
          cases Option.some.inj (writes.symm.trans others)
          rfl
      | nothing neither => exact absurd writes ((neither content).2 _ _)
  | nothing neither =>
      cases other with
      | chain content others => exact absurd others ((neither content).1 _)
      | declaration content _ others => exact absurd others ((neither content).2 _ _)
      | nothing _ => rfl

/-- **The reader takes a line for what it says.** -/
theorem states_iff {line : Text} {statement : Statement} :
    States line statement ↔ Statement.read line = statement := by
  constructor
  · exact (states_read line).unique
  · rintro rfl
    exact states_read line

end SlideDeck.Diagram
