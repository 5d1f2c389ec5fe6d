import SlideDeck.Proofs.Diagram.Nodes
import SlideDeck.Proofs.Slide.Diagram

/-!
# References in the picture of a diagram

The picture of a diagram has a line for each node and one for each edge. A line of a node declares
its name (`declared?`) and is placed by the name of another one (`reference?`); a line of an edge
joins two names (`arrow?`). No other line has one of these commands, and no label can spell one.

Each name that is used is declared (`Referenced`): a node is placed by the one on the line before,
and the ends of an edge are nodes of the diagram, because the line that holds the edge names them
(`Follows.mem_keys_of_mem_edges`). Underscores become hyphens on the page, but names have no hyphen
of their own, so different nodes keep different names (`IsId.eq_of_pageName_eq`).
-/

set_option autoImplicit false

namespace SlideDeck.Diagram

open SlideDeck SlideDeck.Text SlideDeck.Latex

/-! ## Reading a picture -/

/-- The command of a node. -/
def nodeCommand : Text := "\\node".toList

/-- The command of an edge. -/
def drawCommand : Text := "\\draw".toList

/-- The lines of the picture that have the command. -/
def linesWith (literal picture : Text) : List Text :=
  (splitAt '\n' picture).filter (includes literal)

/-- The name that the line declares. -/
def declared? (line : Text) : Option Text := do
  let rest ← skip? "\\node (".toList line
  let (name, _) ← splitOnce ')' rest
  return name

/-- The name of the node by which the node of the line is placed, from the option behind its
name. -/
def reference? (line : Text) : Option Text := do
  let rest ← skip? "\\node (".toList line
  let (_, behind) ← splitOnce ')' rest
  let inner ← skip? " [".toList behind
  let (option, _) ← splitOnce ']' inner
  let (_, name) ← splitOnText? " of=".toList option
  return name

/-- The names of the two nodes that the line joins. -/
def arrow? (line : Text) : Option (Text × Text) := do
  let rest ← skip? "\\draw[->, thick] (".toList line
  let (source, behind) ← splitOnce ')' rest
  let other ← skip? " -- (".toList behind
  let (target, _) ← splitOnce ')' other
  return (source, target)

/-- Every reference in the picture is defined. Its lines of nodes declare the nodes of the diagram
in their order, under distinct names, and each places its node by the one on the line before; its
lines of edges stand behind them and join the ends of the edges in their order, which are names that
are declared. -/
structure Referenced (diagram : Diagram) (picture : Text) : Prop where
  declared : (linesWith nodeCommand picture).map declared? =
    diagram.nodes.keys.map fun id => some (pageName id)
  distinct : (diagram.nodes.keys.map pageName).Nodup
  placed : (linesWith nodeCommand picture).map reference? =
    (none :: (linesWith nodeCommand picture).map declared?).dropLast
  drawn : (linesWith drawCommand picture).map arrow? =
    diagram.edges.map fun edge => some (pageName edge.1, pageName edge.2)
  behind : ∃ front back, splitAt '\n' picture = front ++ back ∧
    (∀ line ∈ front, includes drawCommand line = false) ∧
    ∀ line ∈ back, includes nodeCommand line = false
  joined : ∀ line ∈ linesWith drawCommand picture, ∃ source target,
    arrow? line = some (source, target) ∧
      some source ∈ (linesWith nodeCommand picture).map declared? ∧
      some target ∈ (linesWith nodeCommand picture).map declared?

/-! ## Names -/

/-- A line names the ends of its edges. -/
theorem Statement.mem_mentions_of_mem_edges {statement : Statement} {edge : Text × Text}
    (member : edge ∈ statement.edges) :
    edge.1 ∈ statement.mentions.map Mention.id ∧ edge.2 ∈ statement.mentions.map Mention.id := by
  cases statement with
  | nothing => cases member
  | declaration id label => cases member
  | chain endpoints =>
      rw [Statement.mentions, List.map_map]
      exact mem_neighbours member

theorem Follows.mem_keys_of_mem_edges {ls : List Text} {diagram : Diagram}
    (follows : Follows ls diagram) {edge : Text × Text} (member : edge ∈ diagram.edges) :
    edge.1 ∈ diagram.nodes.keys ∧ edge.2 ∈ diagram.nodes.keys := by
  rw [follows.edges, List.mem_flatMap] at member
  obtain ⟨statement, stated, inside⟩ := member
  have named : ∀ id ∈ statement.mentions.map Mention.id, id ∈ diagram.nodes.keys := by
    intro id here
    rw [follows.nodes.keys, List.mem_eraseDups, mentions, List.map_flatMap]
    exact List.mem_flatMap.mpr ⟨statement, stated, here⟩
  obtain ⟨source, target⟩ := statement.mem_mentions_of_mem_edges inside
  exact ⟨named _ source, named _ target⟩

/-- A name can be read back from the page. -/
theorem IsId.map_pageName {id : Text} (isId : IsId id) :
    ((pageName id).map fun c => if c = '-' then '_' else c) = id := by
  have each : ∀ c ∈ id, (if (if c = '_' then '-' else c) = '-' then '_'
      else (if c = '_' then '-' else c)) = c := by
    intro c member
    have noHyphen : c ≠ '-' := by
      rintro rfl
      exact absurd (isId _ member) (by decide)
    split_ifs <;> simp_all
  rw [pageName, List.map_map]
  exact (List.map_congr_left each).trans (List.map_id id)

theorem IsId.eq_of_pageName_eq {first second : Text} (one : IsId first) (other : IsId second)
    (same : pageName first = pageName second) : first = second := by
  rw [← one.map_pageName, same, other.map_pageName]

/-- On the page a name has none of the marks that end names and options or begin commands. -/
theorem IsId.noMarks {id : Text} (isId : IsId id) :
    ')' ∉ pageName id ∧ ']' ∉ pageName id ∧ '\\' ∉ pageName id := by
  refine ⟨?_, ?_, ?_⟩ <;> exact isId.not_mem_pageName rfl (by decide)

/-! ## Lines of a picture -/

/-- The commands of a picture. -/
def pictureCommands : List Text := [nodeCommand, drawCommand]

theorem foreign_pictureCommands : ∀ literal ∈ pictureCommands, Inline.isForeign literal = true := by
  decide

/-- Text without backslashes has none of these commands. -/
theorem silent_of_not_mem {literal s : Text} (member : literal ∈ pictureCommands)
    (absent : '\\' ∉ s) :
    Silent (skip? literal) s := by
  have begun : ∀ literal ∈ pictureCommands, literal.head? = some '\\' := by decide
  obtain ⟨rest, rfl⟩ := List.head?_eq_some_iff.mp (begun literal member)
  exact silent_skip (avoids_of_not_mem absent)

theorem includes_eq_false {literal s : Text} (nonempty : literal ≠ [])
    (silent : Silent (skip? literal) s) : includes literal s = false := by
  rw [Bool.eq_false_iff, Ne, includes_iff]
  exact silent.not_isInfix nonempty

theorem silent_label {literal : Text} (member : literal ∈ pictureCommands) (label : Text) :
    Silent (skip? literal) (group (escape label) ++ [';']) := by
  have absent : ∀ t : Text, '\\' ∉ t → Silent (skip? literal) t := fun _ => silent_of_not_mem member
  have formatted := Inline.formatted_escape label 0
  have inner := Inline.silent_of_formatted (foreign_pictureCommands literal member) formatted
  exact (((absent ['\x7b'] (by decide)).append inner).append (absent ['\x7d'] (by decide))).append
    (absent [';'] (by decide))

theorem skip?_append (literal rest : Text) : skip? literal (literal ++ rest) = some rest :=
  skip?_eq_some_iff.mpr rfl

section NodeLines

variable {direction : Direction} {previous : Option Text} {node : Text × Text}

/-- The option by which a node is placed. -/
def placement (direction : Direction) : Option Text → Text
  | none => []
  | some id =>
    " [".toList ++ ((Direction.word direction ++ (" of=".toList ++ pageName id)) ++ [']'])

theorem nodeLine_eq : nodeLine direction previous node =
    "\\node (".toList ++ (pageName node.1 ++ ')' ::
      (placement direction previous ++ ' ' :: (group (escape node.2) ++ [';']))) := by
  have opens : "\\node (".toList = "\\node ".toList ++ ['('] := rfl
  unfold nodeLine parenthesized
  rw [opens]
  generalize "\\node ".toList = front
  cases previous with
  | none =>
      dsimp only [placement]
      simp only [List.append_assoc, List.cons_append, List.nil_append]
  | some id =>
      dsimp only [placement]
      generalize " of=".toList = relation
      generalize " [".toList = opening
      simp only [List.append_assoc, List.cons_append, List.nil_append]

theorem declared?_nodeLine (isId : IsId node.1) :
    declared? (nodeLine direction previous node) = some (pageName node.1) := by
  obtain ⟨shut, -, -⟩ := isId.noMarks
  rw [declared?, nodeLine_eq, skip?_append, Option.bind_eq_bind, Option.bind_some,
    splitOnce_append shut]
  rfl

theorem reference?_nodeLine (before : ∀ id, previous = some id → IsId id) (isId : IsId node.1) :
    reference? (nodeLine direction previous node) = previous.map pageName := by
  obtain ⟨shut, -, -⟩ := isId.noMarks
  simp only [reference?, nodeLine_eq, skip?_append, Option.bind_eq_bind, Option.bind_some,
    splitOnce_append shut]
  cases previous with
  | none => rfl
  | some id =>
      have ended : ']' ∉ Direction.word direction ++ (" of=".toList ++ pageName id) := by
        obtain ⟨-, name, -⟩ := (before id rfl).noMarks
        have word : ']' ∉ Direction.word direction ∧ ']' ∉ " of=".toList := by
          cases direction <;> decide
        simp only [List.mem_append, name, word, or_self, not_false_eq_true]
      have quiet : Silent (skip? " of=".toList) (Direction.word direction) := by
        cases direction <;> exact silent_skip (by decide)
      rw [placement, List.append_assoc, skip?_append, Option.bind_some, List.append_assoc,
        List.singleton_append, splitOnce_append ended, Option.bind_some]
      have cut : splitOnText? " of=".toList
          (Direction.word direction ++ (" of=".toList ++ pageName id)) =
            some (Direction.word direction, pageName id) := by
        have cons : " of=".toList = ' ' :: "of=".toList := rfl
        rw [cons] at quiet ⊢
        exact quiet.splitOnText?_append (pageName id)
      rw [cut]
      rfl

theorem includes_nodeLine (before : ∀ id, previous = some id → IsId id) (isId : IsId node.1) :
    includes nodeCommand (nodeLine direction previous node) = true ∧
      includes drawCommand (nodeLine direction previous node) = false := by
  have absent : ∀ s : Text, '\\' ∉ s → Silent (skip? drawCommand) s := fun _ =>
    silent_of_not_mem (by decide)
  have place : '\\' ∉ placement direction previous := by
    cases previous with
    | none => exact List.not_mem_nil
    | some id =>
        obtain ⟨-, -, name⟩ := (before id rfl).noMarks
        have fixed : '\\' ∉ " [".toList ∧ '\\' ∉ Direction.word direction ∧ '\\' ∉ " of=".toList ∧
            '\\' ∉ [']'] := by cases direction <;> decide
        simp only [placement, List.mem_append, name, fixed, or_self, not_false_eq_true]
  have behind : '\\' ∉ pageName node.1 ++ ')' :: (placement direction previous ++ [' ']) := by
    obtain ⟨-, -, name⟩ := isId.noMarks
    have fixed : '\\' ≠ ')' ∧ '\\' ∉ [' '] := by decide
    simp only [List.mem_append, List.mem_cons, name, place, fixed, or_self, not_false_eq_true]
  have whole : nodeLine direction previous node = "\\node (".toList ++
      ((pageName node.1 ++ ')' :: (placement direction previous ++ [' '])) ++
        (group (escape node.2) ++ [';'])) := by
    simp only [nodeLine_eq, List.append_assoc, List.cons_append, List.nil_append]
  constructor
  · have begins : nodeCommand <+: "\\node (".toList := ⟨" (".toList, rfl⟩
    rw [includes_iff, whole]
    exact (begins.trans (List.prefix_append _ _)).isInfix
  · have opens : Silent (skip? drawCommand) "\\node (".toList := silent_skip (by decide)
    rw [whole]
    exact includes_eq_false (by decide)
      (opens.append ((absent _ behind).append (silent_label (by decide) node.2)))

end NodeLines

section EdgeLine

variable {edge : Text × Text}

theorem edgeLine_eq : edgeLine edge = "\\draw[->, thick] (".toList ++ (pageName edge.1 ++ ')' ::
    (" -- (".toList ++ (pageName edge.2 ++ ')' :: [';']))) := by
  have opens : "\\draw[->, thick] (".toList = "\\draw[->, thick] ".toList ++ ['('] := rfl
  have between : " -- (".toList = " -- ".toList ++ ['('] := rfl
  unfold edgeLine parenthesized
  rw [opens, between]
  generalize "\\draw[->, thick] ".toList = front
  generalize " -- ".toList = middle
  simp only [List.append_assoc, List.cons_append, List.nil_append]

theorem arrow?_edgeLine (source : IsId edge.1) (target : IsId edge.2) :
    arrow? (edgeLine edge) = some (pageName edge.1, pageName edge.2) := by
  simp only [arrow?, edgeLine_eq, skip?_append, Option.bind_eq_bind, Option.bind_some,
    splitOnce_append source.noMarks.1, splitOnce_append target.noMarks.1]
  rfl

theorem includes_edgeLine (source : IsId edge.1) (target : IsId edge.2) :
    includes drawCommand (edgeLine edge) = true ∧ includes nodeCommand (edgeLine edge) = false := by
  rw [edgeLine_eq]
  constructor
  · have begins : drawCommand <+: "\\draw[->, thick] (".toList := ⟨"[->, thick] (".toList, rfl⟩
    rw [includes_iff]
    exact (begins.trans (List.prefix_append _ _)).isInfix
  · have absent :
        '\\' ∉ pageName edge.1 ++ ')' :: (" -- (".toList ++ (pageName edge.2 ++ ')' :: [';'])) := by
      obtain ⟨-, -, name⟩ := source.noMarks
      obtain ⟨-, -, nameTarget⟩ := target.noMarks
      have fixed : '\\' ≠ ')' ∧ '\\' ∉ " -- (".toList ∧ '\\' ∉ [';'] := by decide
      simp only [List.mem_append, List.mem_cons, name, nameTarget, fixed, or_self,
        not_false_eq_true]
    have opens : Silent (skip? nodeCommand) "\\draw[->, thick] (".toList := silent_skip (by decide)
    exact includes_eq_false (by decide) (opens.append (silent_of_not_mem (by decide) absent))

end EdgeLine

/-! ## Lines of all nodes -/

section Nodes

variable {direction : Direction} {previous : Option Text} {nodes : Entries}

theorem map_declared?_nodeLines (isId : ∀ node ∈ nodes, IsId node.1) :
    (nodeLines direction previous nodes).map declared? =
      nodes.keys.map fun id => some (pageName id) := by
  induction nodes generalizing previous with
  | nil => rfl
  | cons node nodes ih =>
      rw [List.forall_mem_cons] at isId
      rw [nodeLines, List.map_cons, declared?_nodeLine isId.1, ih isId.2]
      rfl

/-- Each node is placed by the one before it. -/
theorem map_reference?_nodeLines (before : ∀ id, previous = some id → IsId id)
    (isId : ∀ node ∈ nodes, IsId node.1) :
    (nodeLines direction previous nodes).map reference? =
      (previous.map pageName :: nodes.keys.map fun id => some (pageName id)).dropLast := by
  induction nodes generalizing previous with
  | nil => rfl
  | cons node nodes ih =>
      rw [List.forall_mem_cons] at isId
      have next : ∀ id, some node.1 = some id → IsId id := by
        rintro _ ⟨⟩
        exact isId.1
      rw [nodeLines, List.map_cons, reference?_nodeLine before isId.1, ih next isId.2]
      rfl

theorem includes_nodeLines (before : ∀ id, previous = some id → IsId id)
    (isId : ∀ node ∈ nodes, IsId node.1) :
    ∀ line ∈ nodeLines direction previous nodes,
      includes nodeCommand line = true ∧ includes drawCommand line = false := by
  induction nodes generalizing previous with
  | nil => exact List.forall_mem_nil _
  | cons node nodes ih =>
      rw [List.forall_mem_cons] at isId
      have next : ∀ id, some node.1 = some id → IsId id := by
        rintro _ ⟨⟩
        exact isId.1
      rw [nodeLines, List.forall_mem_cons]
      exact ⟨includes_nodeLine before isId.1, ih next isId.2⟩

end Nodes

/-! ## Whole pictures -/

/-- The lines in front of those of the nodes. -/
def firstLines : List Text := [
  beginEnvironment "center".toList, beginEnvironment "tikzpicture".toList ++ pictureOptions]

/-- The lines behind those of the edges. -/
def lastLines : List Text := [
  endEnvironment "tikzpicture".toList, endEnvironment "center".toList]

theorem includes_frame : ∀ line ∈ firstLines ++ lastLines,
    includes nodeCommand line = false ∧ includes drawCommand line = false := by
  decide +kernel

section Render

variable {diagram : Diagram}

theorem splitAt_render (sound : diagram.Sound) : splitAt '\n' diagram.render =
    firstLines ++ nodeLines diagram.direction none diagram.nodes ++
      diagram.edges.map edgeLine ++ lastLines := by
  have frame : ∀ line ∈ firstLines ++ lastLines, '\n' ∉ line := by decide +kernel
  have inner : ∀ line ∈ nodeLines diagram.direction none diagram.nodes ++
      diagram.edges.map edgeLine, '\n' ∉ line := fun line member =>
    (sound.neat_lines line member).oneLine
  rw [render]
  refine splitAt_unlines (List.append_ne_nil_of_right_ne_nil _ (List.cons_ne_nil _ _)) ?_
  simp only [List.forall_mem_append] at frame inner ⊢
  exact ⟨⟨⟨frame.1, inner.1⟩, inner.2⟩, frame.2⟩

theorem includes_edges (sound : diagram.Sound) : ∀ line ∈ diagram.edges.map edgeLine,
    includes drawCommand line = true ∧ includes nodeCommand line = false :=
  List.forall_mem_map.mpr fun edge member =>
    includes_edgeLine (sound.edges edge member).1 (sound.edges edge member).2

/-- The lines with the command of a node are those of the nodes, and likewise for edges. -/
theorem linesWith_render (sound : diagram.Sound) :
    linesWith nodeCommand diagram.render = nodeLines diagram.direction none diagram.nodes ∧
      linesWith drawCommand diagram.render = diagram.edges.map edgeLine := by
  have all : ∀ {p : Text → Bool} {ls : List Text}, (∀ line ∈ ls, p line = true) →
      ls.filter p = ls :=
    List.filter_eq_self.mpr
  have noLine : ∀ {p : Text → Bool} {ls : List Text}, (∀ line ∈ ls, p line = false) →
      ls.filter p = [] := fun each =>
    List.filter_eq_nil_iff.mpr fun line member => by simp [each line member]
  have nodes : ∀ line ∈ nodeLines diagram.direction none diagram.nodes,
      includes nodeCommand line = true ∧ includes drawCommand line = false :=
    includes_nodeLines nofun fun node member => (sound.nodes node member).1
  have edges := includes_edges sound
  obtain ⟨first, last⟩ := List.forall_mem_append.mp includes_frame
  simp only [linesWith, splitAt_render sound, List.filter_append]
  constructor
  · rw [noLine fun line member => (first line member).1,
      all fun line member => (nodes line member).1, noLine fun line member => (edges line member).2,
      noLine fun line member => (last line member).1, List.nil_append, List.append_nil,
      List.append_nil]
  · rw [noLine fun line member => (first line member).2,
      noLine fun line member => (nodes line member).2, all fun line member => (edges line member).1,
      noLine fun line member => (last line member).2, List.nil_append, List.nil_append,
      List.append_nil]

theorem referenced_render {ls : List Text} (sound : diagram.Sound) (follows : Follows ls diagram) :
    Referenced diagram diagram.render := by
  obtain ⟨nodes, edges⟩ := linesWith_render sound
  have isId : ∀ node ∈ diagram.nodes, IsId node.1 := fun node member => (sound.nodes node member).1
  have first : ∀ id, (none : Option Text) = some id → IsId id := nofun
  have declared : (nodeLines diagram.direction none diagram.nodes).map declared? =
      diagram.nodes.keys.map fun id => some (pageName id) := map_declared?_nodeLines isId
  refine ⟨by rw [nodes, declared], ?_, ?_, ?_, ?_, ?_⟩
  · have named : ∀ id ∈ diagram.nodes.keys, IsId id := List.forall_mem_map.mpr isId
    exact follows.nodup_keys.map_on fun id member other inside same =>
      (named id member).eq_of_pageName_eq (named other inside) same
  · rw [nodes, map_reference?_nodeLines first isId, declared]
    rfl
  · rw [edges, List.map_map]
    exact List.map_congr_left fun edge member =>
      arrow?_edgeLine (sound.edges edge member).1 (sound.edges edge member).2
  · obtain ⟨begins, ends⟩ := List.forall_mem_append.mp includes_frame
    refine ⟨firstLines ++ nodeLines diagram.direction none diagram.nodes,
      diagram.edges.map edgeLine ++ lastLines, ?_, List.forall_mem_append.mpr ⟨?_, ?_⟩,
      List.forall_mem_append.mpr ⟨?_, ?_⟩⟩
    · rw [splitAt_render sound, List.append_assoc _ (diagram.edges.map edgeLine)]
    · exact fun line member => (begins line member).2
    · exact fun line member => (includes_nodeLines first isId line member).2
    · exact fun line member => (includes_edges sound line member).2
    · exact fun line member => (ends line member).1
  · rw [edges, nodes, declared, List.forall_mem_map]
    intro edge member
    obtain ⟨source, target⟩ := follows.mem_keys_of_mem_edges member
    exact ⟨_, _, arrow?_edgeLine (sound.edges edge member).1 (sound.edges edge member).2,
      List.mem_map_of_mem source, List.mem_map_of_mem target⟩

end Render

/-- The placeholder has no references, and a diagram without nodes none that could be written. -/
theorem referenced_placeholder {ls : List Text} {diagram : Diagram} (follows : Follows ls diagram)
    (empty : diagram.nodes = []) : Referenced diagram placeholder := by
  have noEdges : diagram.edges = [] := List.eq_nil_iff_forall_not_mem.mpr fun edge member => by
    have known := (follows.mem_keys_of_mem_edges member).1
    rw [empty] at known
    cases known
  have blank : splitAt '\n' placeholder = [placeholder] ∧ linesWith nodeCommand placeholder = [] ∧
      linesWith drawCommand placeholder = [] ∧ includes drawCommand placeholder = false := by
    decide +kernel
  obtain ⟨whole, noNode, noDraw, quiet⟩ := blank
  refine ⟨?_, ?_, ?_, ?_, ⟨[placeholder], [], whole, ?_, nofun⟩, ?_⟩
  · rw [noNode, empty]
    rfl
  · rw [empty]
    exact List.nodup_nil
  · rw [noNode]
    rfl
  · rw [noDraw, noEdges]
    rfl
  · exact List.forall_mem_singleton.mpr quiet
  · rw [noDraw]
    exact List.forall_mem_nil _

/-- **Every reference in a picture is defined.** -/
theorem referenced_pictureOf (source : Text) : Referenced (read source) (pictureOf source) := by
  rw [pictureOf]
  split
  · next empty => exact referenced_placeholder (follows_read source) (List.isEmpty_iff.mp empty)
  · exact referenced_render (sound_read source) (follows_read source)

end SlideDeck.Diagram
