import SlideDeck.Proofs.Diagram.Grammar
import SlideDeck.Proofs.Inline.Formatted
import SlideDeck.Proofs.Keyed
import SlideDeck.Proofs.Markdown.Fences

/-!
# What a diagram holds and writes

The nodes of a diagram have names of letters, digits and underscores, and labels of one
line; its edges join such names (`Sound`). Every statement keeps this (`Sound.apply`), so it
holds of every diagram that is read (`sound_read`), and the lines of its nodes and edges are
neat (`Sound.neat_lines`). They are put together from few fixed texts, from names and from labels;
what holds of these and of texts put together holds of the lines (`Composes.forall_mem_lines`).
-/

set_option autoImplicit false

namespace SlideDeck.Diagram

open SlideDeck SlideDeck.Text SlideDeck.Latex SlideDeck.Markdown

/-! ## Reading -/

/-- The nodes and edges of the diagram have proper names, and the labels are of one line. -/
structure Sound (diagram : Diagram) : Prop where
  nodes : ∀ node ∈ diagram.nodes, IsId node.1 ∧ '\n' ∉ node.2
  edges : ∀ edge ∈ diagram.edges, IsId edge.1 ∧ IsId edge.2

theorem IsId.oneLine {id : Text} (isId : IsId id) : '\n' ∉ id := fun member =>
  absurd (isId _ member) (by decide)

theorem unquoteLabel_subset (s : Text) : unquoteLabel s ⊆ s := by
  intro c member
  rw [unquoteLabel, List.mem_reverse] at member
  have back := (List.dropWhile_suffix _).subset member
  exact (List.dropWhile_suffix _).subset (List.mem_reverse.mp back)

theorem cleanLabel_subset (label : Text) : cleanLabel label ⊆ label :=
  trim_subset (List.Subset.trans (unquoteLabel_subset _) (trim_subset (List.Subset.refl label)))

/-- A node that is read has a name, and its label is a part of the text. -/
theorem endpoint?_eq_some {s : Text} {endpoint : Endpoint} (found : endpoint? s = some endpoint) :
    IsId endpoint.id ∧ ∀ label, endpoint.label = some label → label ⊆ s := by
  cases endpoint?_eq_some_iff.mp found with
  | bare _ isId _ => exact ⟨isId, nofun⟩
  | labelled _ isId _ _ =>
      refine ⟨isId, ?_⟩
      rintro _ ⟨⟩ c member
      have inner := cleanLabel_subset _ member
      simp [inner]

theorem dropEdgeLabel_subset (s : Text) : dropEdgeLabel s ⊆ s := by
  rw [dropEdgeLabel.eq_def]
  split
  · split
    · next cut =>
        refine List.Subset.trans (trimStart_isSuffix _).subset ?_
        rw [(splitOnce_eq_some cut).1]
        intro c member
        simp [member]
    · exact List.Subset.refl _
  · exact List.Subset.refl _

theorem exists_of_mem_mapM {α β : Type} {f : α → Option β} {items : List α} {results : List β}
    (found : items.mapM f = some results) {result : β} (member : result ∈ results) :
    ∃ item ∈ items, f item = some result := by
  have each := mapM_eq_some_iff.mp found
  clear found
  induction each with
  | nil => cases member
  | @cons item _ _ _ answered _ ih =>
      rcases List.mem_cons.mp member with rfl | member
      · exact ⟨item, List.mem_cons_self, answered⟩
      · obtain ⟨source, inside, reached⟩ := ih member
        exact ⟨source, List.mem_cons_of_mem _ inside, reached⟩

/-- So has each node of a chain. -/
theorem chain?_eq_some {line : Text} {endpoints : List Endpoint}
    (found : chain? line = some endpoints) {endpoint : Endpoint} (member : endpoint ∈ endpoints) :
    IsId endpoint.id ∧ ∀ label, endpoint.label = some label → label ⊆ line := by
  rw [chain?] at found
  split at found
  · next first second rest cut =>
      obtain ⟨segment, inside, answered⟩ := exists_of_mem_mapM found member
      obtain ⟨isId, label⟩ := endpoint?_eq_some answered
      rw [← cut] at inside
      have part : trim (dropEdgeLabel (trim segment)) ⊆ line :=
        trim_subset (List.Subset.trans (dropEdgeLabel_subset _)
          (trim_subset (subset_of_mem_splitFrom inside)))
      exact ⟨isId, fun text same => List.Subset.trans (label text same) part⟩
  · cases found

/-! ## Statements -/

/-- A statement with proper names and labels of one line. -/
def Statement.Sound : Statement → Prop
  | .nothing => True
  | .chain endpoints => ∀ endpoint ∈ endpoints,
      IsId endpoint.id ∧ ∀ label, endpoint.label = some label → '\n' ∉ label
  | .declaration id label => IsId id ∧ '\n' ∉ label

theorem Statement.sound_read {line : Text} (oneLine : '\n' ∉ line) :
    (Statement.read line).Sound := by
  rw [Statement.read]
  split
  · trivial
  · split
    · next endpoints found =>
        intro endpoint member
        obtain ⟨isId, label⟩ := chain?_eq_some found member
        exact ⟨isId, fun text same inside => oneLine (label text same inside)⟩
    · split
      · next id label found =>
          obtain ⟨isId, part⟩ := endpoint?_eq_some found
          exact ⟨isId, fun inside => oneLine (part label rfl inside)⟩
      · trivial

theorem mem_neighbours {α : Type} {items : List α} {pair : α × α}
    (member : pair ∈ neighbours items) :
    pair.1 ∈ items ∧ pair.2 ∈ items := by
  induction items with
  | nil => cases member
  | cons first items ih =>
      cases items with
      | nil => cases member
      | cons second rest =>
          rw [neighbours] at member
          rcases List.mem_cons.mp member with rfl | member
          · simp
          · exact ⟨List.mem_cons_of_mem _ (ih member).1, List.mem_cons_of_mem _ (ih member).2⟩

namespace Sound

variable {diagram : Diagram}

/-- A new node is labelled with its name if it has no label. -/
theorem register (sound : diagram.Sound) {endpoint : Endpoint} (isId : IsId endpoint.id)
    (oneLine : ∀ label, endpoint.label = some label → '\n' ∉ label) :
    (diagram.register endpoint).Sound := by
  rw [Diagram.register]
  split
  · exact sound
  · refine ⟨fun node member => ?_, sound.edges⟩
    rcases List.mem_append.mp member with member | member
    · exact sound.nodes node member
    · rw [List.mem_singleton.mp member]
      refine ⟨isId, ?_⟩
      cases label : endpoint.label with
      | none => exact isId.oneLine
      | some text => exact oneLine text label

/-- **Every statement keeps names and labels proper.** -/
theorem apply (sound : diagram.Sound) {statement : Statement} (isSound : statement.Sound) :
    (diagram.apply statement).Sound := by
  cases statement with
  | nothing => exact sound
  | declaration id label =>
      refine ⟨fun node member => ?_, sound.edges⟩
      rcases Keyed.mem_put member with rfl | member
      · exact isSound
      · exact sound.nodes node member
  | chain endpoints =>
      have registered : (endpoints.foldl Diagram.register diagram).Sound := by
        have each := isSound
        clear isSound
        induction endpoints generalizing diagram with
        | nil => exact sound
        | cons endpoint endpoints ih =>
            rw [Statement.Sound, List.forall_mem_cons] at each
            exact ih (sound.register each.1.1 each.1.2) each.2
      refine ⟨registered.nodes, fun edge member => ?_⟩
      rcases List.mem_append.mp member with member | member
      · exact registered.edges edge member
      · obtain ⟨first, second⟩ := mem_neighbours member
        obtain ⟨source, inside, same⟩ := List.mem_map.mp first
        obtain ⟨target, found, reached⟩ := List.mem_map.mp second
        exact ⟨same ▸ (isSound source inside).1, reached ▸ (isSound target found).1⟩

theorem addLine (sound : diagram.Sound) {line : Text} (oneLine : '\n' ∉ line) :
    (diagram.addLine line).Sound := by
  have statement : (Statement.read (trim line)).Sound :=
    Statement.sound_read fun inside => oneLine (mem_of_mem_trim inside)
  rw [Diagram.addLine]
  split
  · have turned : ({ diagram with direction := .right } : Diagram).Sound :=
      ⟨sound.nodes, sound.edges⟩
    exact turned.apply statement
  · exact sound.apply statement

end Sound

/-- Every diagram that is read has proper names, and labels of one line. -/
theorem sound_read (source : Text) : (read source).Sound := by
  have each : ∀ line ∈ lines source, '\n' ∉ line := fun line member => not_mem_of_mem_lines member
  rw [read]
  suffices run : ∀ diagram : Diagram, diagram.Sound →
      ((lines source).foldl Diagram.addLine diagram).Sound from
    run {} ⟨by simp, by simp⟩
  generalize lines source = ls at each
  induction ls with
  | nil => exact fun diagram sound => sound
  | cons line ls ih =>
      rw [List.forall_mem_cons] at each
      exact fun diagram sound => ih each.2 _ (sound.addLine each.1)

/-! ## Writing -/

/-- On the page a name has hyphens besides its own characters. -/
theorem IsId.not_mem_pageName {id : Text} (isId : IsId id) {c : Char} (other : isNameChar c = false)
    (noHyphen : c ≠ '-') : c ∉ pageName id := by
  intro member
  obtain ⟨d, inside, same⟩ := List.mem_map.mp member
  split at same
  · exact noHyphen same.symm
  · rw [← same, isId d inside] at other
    cases other

/-- On the page a name has no underscore. -/
theorem IsId.neat {id : Text} (isId : IsId id) : Neat (pageName id) := by
  have written : ∀ c ∈ pageName id, isLoose c = true ∧ c ≠ '\x7b' ∧ c ≠ '\x7d' ∧ c ≠ '\n' := by
    intro c member
    obtain ⟨d, inside, rfl⟩ := List.mem_map.mp member
    have known := isId d inside
    split
    · decide
    · next differ =>
        refine ⟨isLoose_iff.mpr ⟨?_, ?_, differ⟩, ?_, ?_, ?_⟩ <;> rintro rfl <;>
          exact absurd known (by decide)
  exact ⟨.of_loose (fun c member => (written c member).1) (fun member => (written _ member).2.1 rfl)
    (fun member => (written _ member).2.2.1 rfl) 0, fun member => (written _ member).2.2.2 rfl⟩

/-- The fixed texts of which the lines of nodes and edges are made. -/
def lineTexts : List Text := [
  "\\node ".toList, "\\draw[->, thick] ".toList, " -- ".toList, " [".toList, "right".toList,
  "below".toList, " of=".toList, ['('], [')'], [']'], [' '], [';']]

/-- What holds of these texts, of names and of labels, and of what is put together from them. -/
structure Composes (P : Text → Prop) (nodes : Entries) : Prop where
  append : ∀ {s t}, P s → P t → P (s ++ t)
  fixed : ∀ text ∈ lineTexts, P text
  name : ∀ {id}, IsId id → P (pageName id)
  label : ∀ node ∈ nodes, P (group (escape node.2))

namespace Composes

variable {P : Text → Prop} {nodes : Entries}

theorem parenthesized (composes : Composes P nodes) {s : Text} (inner : P s) :
    P (parenthesized s) :=
  composes.append (composes.append (composes.fixed ['('] (by decide)) inner)
    (composes.fixed [')'] (by decide))

theorem nodeLine (composes : Composes P nodes) (direction : Direction) {previous : Option Text}
    (before : ∀ id, previous = some id → IsId id) {node : Text × Text} (member : node ∈ nodes)
    (isId : IsId node.1) : P (nodeLine direction previous node) := by
  have append : ∀ {s t}, P s → P t → P (s ++ t) := composes.append
  have fixed := composes.fixed
  have named := append (fixed "\\node ".toList (by decide))
    (composes.parenthesized (composes.name isId))
  have ended : ∀ {s}, P s → P (s ++ [' '] ++ group (escape node.2) ++ [';']) := fun front =>
    append (append (append front (fixed [' '] (by decide))) (composes.label node member))
      (fixed [';'] (by decide))
  cases previous with
  | none =>
      have noPlace := ended named
      rwa [← List.append_nil ("\\node ".toList ++ _)] at noPlace
  | some id =>
      have word : P (Direction.word direction) := by
        cases direction <;> exact fixed _ (by decide)
      have relation := append (append (fixed " [".toList (by decide)) word)
        (fixed " of=".toList (by decide))
      have place := append (append relation (composes.name (before id rfl)))
        (fixed [']'] (by decide))
      exact ended (append named place)

theorem edgeLine (composes : Composes P nodes) {edge : Text × Text} (source : IsId edge.1)
    (target : IsId edge.2) : P (edgeLine edge) := by
  have first := composes.append (composes.fixed "\\draw[->, thick] ".toList (by decide))
    (composes.parenthesized (composes.name source))
  have second := composes.append (composes.append first (composes.fixed " -- ".toList (by decide)))
    (composes.parenthesized (composes.name target))
  exact composes.append second (composes.fixed [';'] (by decide))

theorem nodeLines (composes : Composes P nodes) (direction : Direction) {previous : Option Text}
    (before : ∀ id, previous = some id → IsId id) (isId : ∀ node ∈ nodes, IsId node.1) :
    ∀ line ∈ nodeLines direction previous nodes, P line := by
  induction nodes generalizing previous with
  | nil => simp [Diagram.nodeLines]
  | cons node nodes ih =>
      rw [List.forall_mem_cons] at isId
      have later : Composes P nodes := ⟨composes.append, composes.fixed, composes.name,
        fun node member => composes.label node (List.mem_cons_of_mem _ member)⟩
      rw [Diagram.nodeLines, List.forall_mem_cons]
      refine ⟨composes.nodeLine direction before List.mem_cons_self isId.1, ih later ?_ isId.2⟩
      intro id same
      cases same
      exact isId.1

/-- What composes holds of the lines of all nodes and edges. -/
theorem forall_mem_lines {diagram : Diagram} (composes : Composes P diagram.nodes)
    (sound : diagram.Sound) :
    ∀ line ∈ Diagram.nodeLines diagram.direction none diagram.nodes ++
      diagram.edges.map Diagram.edgeLine, P line := by
  rw [List.forall_mem_append, List.forall_mem_map]
  constructor
  · exact composes.nodeLines _ (by simp) fun node member => (sound.nodes node member).1
  · exact fun edge member =>
      composes.edgeLine (sound.edges edge member).1 (sound.edges edge member).2

end Composes

theorem Sound.composes_neat {diagram : Diagram} (sound : diagram.Sound) :
    Composes Neat diagram.nodes where
  append first second := first.append second
  fixed := by decide
  name isId := isId.neat
  label node member := (Inline.neat_escape (sound.nodes node member).2).group

/-- The lines of the nodes and edges of a sound diagram are neat. -/
theorem Sound.neat_lines {diagram : Diagram} (sound : diagram.Sound) :
    ∀ line ∈ nodeLines diagram.direction none diagram.nodes ++ diagram.edges.map edgeLine,
      Neat line :=
  sound.composes_neat.forall_mem_lines sound

end SlideDeck.Diagram
