import SlideDeck.Proofs.Diagram.Nodes
import SlideDeck.Proofs.Text.Lines
import SlideDeck.Proofs.Text.Silent

/-!
# Diagrams of bare edges

A diagram can be written as a header and one line for each edge, with the names of its two nodes and
no labels. Such a source is read as these edges, between nodes that are labelled with their names
(`read_edges`).

The names are not free: a line that begins with a word of a header is taken for one, so that its
edge is lost, and a node with the name `LR` turns the diagram to the right, because the word can
stand on any line (`not_forall_read_edges`).
-/

set_option autoImplicit false

namespace SlideDeck

open SlideDeck.Text

namespace Text

/-! ## Words -/

theorem words_cons_of_blank {b : Char} (blank : isBlank b = true) (s : Text) :
    words (b :: s) = words s := by
  rw [words.eq_def]
  simp only [blank, if_true]

/-- A character in front of another one of a word belongs to the word. -/
theorem words_cons {c d : Char} (visible : isBlank c = false) (next : isBlank d = false)
    {s word : Text}
    {rest : List Text} (behind : words (d :: s) = word :: rest) :
    words (c :: d :: s) = (c :: word) :: rest := by
  rw [words.eq_def]
  simp only [visible, next, Bool.false_eq_true, if_false, behind]

/-- A word ends where no visible character goes on. -/
theorem words_append {word : Text} (nonempty : word ≠ []) (visible : ∀ c ∈ word, isBlank c = false)
    {t : Text} (apart : ∀ b ∈ t.head?, isBlank b = true) :
    words (word ++ t) = word :: words t := by
  induction word with
  | nil => exact absurd rfl nonempty
  | cons c word ih =>
      rw [List.forall_mem_cons] at visible
      cases word with
      | nil =>
          rw [List.singleton_append, words.eq_def]
          cases t with
          | nil => simp only [visible.1, Bool.false_eq_true, if_false, words]
          | cons b t =>
              simp only [visible.1, apart b rfl, Bool.false_eq_true, if_false, if_true,
                words_cons_of_blank]
      | cons d word =>
          exact words_cons visible.1 (visible.2 d List.mem_cons_self)
            (ih (List.cons_ne_nil d word) visible.2)

/-- A word ends at the first blank behind it. -/
theorem words_append_cons {word : Text} (nonempty : word ≠ [])
    (visible : ∀ c ∈ word, isBlank c = false)
    {b : Char} (blank : isBlank b = true) (rest : Text) :
    words (word ++ b :: rest) = word :: words rest := by
  have apart : ∀ c ∈ (b :: rest).head?, isBlank c = true := by simp [blank]
  rw [words_append nonempty visible apart, words_cons_of_blank blank]

theorem words_of_visible {word : Text} (nonempty : word ≠ [])
    (visible : ∀ c ∈ word, isBlank c = false) :
    words word = [word] := by
  have alone := words_append nonempty visible (t := []) (by simp)
  rwa [List.append_nil] at alone

end Text

namespace Diagram

/-! ## Lines of edges -/

/-- The line of an edge between nodes without labels. -/
def arrowLine (edge : Text × Text) : Text := edge.1 ++ " --> ".toList ++ edge.2

/-- A header, and a line for each edge. -/
def arrowLines (edges : List (Text × Text)) : List Text := "graph TD".toList :: edges.map arrowLine

/-- The ends of the edges, from left to right and from line to line. -/
def endsOf (edges : List (Text × Text)) : List Text := edges.flatMap fun edge => [edge.1, edge.2]

/-- The diagram of the edges, where each node is labelled with its name. -/
def ofEdges (direction : Direction) (edges : List (Text × Text)) : Diagram where
  direction := direction
  nodes := (endsOf edges).eraseDups.map fun id => (id, id)
  edges := edges

/-- The name of a node: a text of its characters that is not empty. -/
def IsName (id : Text) : Prop := id ≠ [] ∧ IsId id

instance (id : Text) : Decidable (IsName id) := inferInstanceAs (Decidable (id ≠ [] ∧ IsId id))

namespace IsName

variable {id : Text}

theorem visible (isName : IsName id) : ∀ c ∈ id, isBlank c = false := fun c member =>
  isBlank_of_isNameChar (isName.2 c member)

theorem not_mem (isName : IsName id) {c : Char} (other : isNameChar c = false) : c ∉ id := by
  intro member
  rw [isName.2 c member] at other
  cases other

theorem writesNode (isName : IsName id) : WritesNode id ⟨id, none⟩ := by
  have node := WritesNode.bare isName.1 isName.2 (rfl : isBlankText [] = true)
  rwa [List.append_nil] at node

end IsName

section Line

variable {edge : Text × Text}

theorem arrowLine_eq (edge : Text × Text) :
    arrowLine edge = edge.1 ++ [' '] ++ ("-->".toList ++ ' ' :: edge.2) := by
  have spaced : " --> ".toList = [' '] ++ ("-->".toList ++ [' ']) := rfl
  unfold arrowLine
  generalize " --> ".toList = spacedArrow at spaced ⊢
  generalize "-->".toList = arrow at spaced ⊢
  subst spaced
  simp only [List.append_assoc, List.cons_append, List.nil_append]

/-- Nothing is trimmed of the line. -/
theorem trim_arrowLine (source : IsName edge.1) (target : IsName edge.2) :
    trim (arrowLine edge) = arrowLine edge := by
  obtain ⟨first, before, front⟩ := List.exists_cons_of_ne_nil source.1
  obtain ⟨behind, last, back⟩ := (List.eq_nil_or_concat edge.2).resolve_left target.1
  have whole : arrowLine edge = first :: ((before ++ " --> ".toList ++ behind) ++ [last]) := by
    unfold arrowLine
    generalize " --> ".toList = arrow
    rw [front, back]
    simp only [List.append_assoc, List.cons_append, List.concat_eq_append]
  rw [whole]
  refine trim_between (source.visible first ?_) (target.visible last ?_) _
  · rw [front]
    exact List.mem_cons_self
  · rw [back]
    simp

/-- The two pieces around the arrow are the nodes. -/
theorem writesChain_arrowLine (source : IsName edge.1) (target : IsName edge.2) :
    WritesChain (arrowLine edge) [⟨edge.1, none⟩, ⟨edge.2, none⟩] := by
  have noArrow : ∀ s : Text, '-' ∉ s → Silent (skip? "-->".toList) s := fun s absent =>
    silent_skip (avoids_of_not_mem absent)
  have front : '-' ∉ edge.1 ++ [' '] := by
    simp [source.not_mem (rfl : isNameChar '-' = false)]
  have back : '-' ∉ ' ' :: edge.2 := by
    simp [target.not_mem (rfl : isNameChar '-' = false)]
  have cut : splitOnText "-->".toList (arrowLine edge) = [edge.1 ++ [' '], ' ' :: edge.2] := by
    rw [arrowLine_eq]
    refine ((noArrow _ front).splitOnText_append _).trans ?_
    exact congrArg _ (noArrow _ back).splitOnText_eq_self
  refine ⟨Nat.le_refl 2, ?_⟩
  rw [cut]
  refine .cons (.inl ?_) (.cons (.inl ?_) .nil)
  · rw [trim_append_of_blank _ (rfl : isBlank ' ' = true), trim_of_visible source.visible]
    exact source.writesNode
  · rw [trim_cons_of_blank (rfl : isBlank ' ' = true), trim_of_visible target.visible]
    exact target.writesNode

theorem isContent_arrowLine (source : IsName edge.1) (ordinary : isHeader edge.1 = false) :
    IsContent (arrowLine edge) := by
  have begins : ∀ literal : Text, ' ' ∉ literal → literal <+: arrowLine edge →
      literal <+: edge.1 := by
    intro literal oneWord here
    rw [arrowLine_eq, List.append_assoc, List.singleton_append] at here
    exact isPrefix_of_isPrefix_append_cons oneWord here
  obtain ⟨first, before, front⟩ := List.exists_cons_of_ne_nil source.1
  constructor
  · have noPercent : ¬ "%%".toList <+: arrowLine edge := by
      intro here
      have percent := (begins _ (by decide) here).subset List.mem_cons_self
      exact source.not_mem (rfl : isNameChar '%' = false) percent
    have nonempty : (arrowLine edge).isEmpty = false := by
      rw [arrowLine_eq, front]
      rfl
    rw [isIdle, nonempty, Bool.false_or, Bool.eq_false_iff, Ne, startsWith_iff]
    exact noPercent
  · rw [isHeader, Bool.or_eq_false_iff, Bool.eq_false_iff, Bool.eq_false_iff, Ne, Ne,
      startsWith_iff, startsWith_iff] at ordinary ⊢
    exact ⟨fun here => ordinary.1 (begins _ (by decide) here),
      fun here => ordinary.2 (begins _ (by decide) here)⟩

/-- The words of the line are the two names and the arrow. -/
theorem words_arrowLine (source : IsName edge.1) (target : IsName edge.2) :
    words (arrowLine edge) = [edge.1, "-->".toList, edge.2] := by
  have arrow : "-->".toList ≠ [] ∧ ∀ c ∈ "-->".toList, isBlank c = false := by decide
  have blank : isBlank ' ' = true := rfl
  rw [arrowLine_eq, List.append_assoc, List.singleton_append,
    words_append_cons source.1 source.visible blank, words_append_cons arrow.1 arrow.2 blank,
    words_of_visible target.1 target.visible]

/-- The line says that there is the edge. -/
theorem states_arrowLine (source : IsName edge.1) (target : IsName edge.2)
    (ordinary : isHeader edge.1 = false) :
    States (trim (arrowLine edge)) (.chain [⟨edge.1, none⟩, ⟨edge.2, none⟩]) := by
  rw [trim_arrowLine source target]
  exact .chain (isContent_arrowLine source ordinary) (writesChain_arrowLine source target)

theorem turnsRight_arrowLine (source : IsName edge.1) (target : IsName edge.2)
    (ordinary : isHeader edge.1 = false) :
    turnsRight (trim (arrowLine edge)) = true ↔ "LR".toList = edge.1 ∨ "LR".toList = edge.2 := by
  have arrow : "LR".toList ≠ "-->".toList := by decide
  rw [trim_arrowLine source target, turnsRight, (isContent_arrowLine source ordinary).1,
    Bool.not_false, Bool.true_and, words_arrowLine source target, List.contains_iff_mem]
  simp only [List.mem_cons, arrow, List.not_mem_nil, false_or, or_false]

end Line

/-! ## Whole sources -/

/-- A node that is named without a label. -/
def bare (id : Text) : Mention := .arrow ⟨id, none⟩

/-- Without labels, a node is labelled with its name. -/
theorem labelFor_map_bare {id : Text} {ids : List Text} (member : id ∈ ids) :
    labelFor id (ids.map bare) = some id := by
  have undeclared : (ids.map bare).filterMap (Mention.declared? id) = [] := by
    rw [List.filterMap_map]
    exact List.filterMap_eq_nil_iff.mpr fun _ _ => rfl
  rw [labelFor, undeclared, List.getLast?_nil, Option.none_or]
  clear undeclared
  induction ids with
  | nil => cases member
  | cons first ids ih =>
      rw [List.map_cons, List.findSome?_cons]
      by_cases same : first = id
      · simp [bare, Mention.written?, same]
      · have later : id ∈ ids := (List.mem_cons.mp member).resolve_left (Ne.symm same)
        have skipped : (bare first).written? id = none := if_neg same
        rw [skipped]
        exact ih later

section Source

variable {edges : List (Text × Text)}

theorem statements_arrowLines (named : ∀ edge ∈ edges, IsName edge.1 ∧ IsName edge.2)
    (ordinary : ∀ edge ∈ edges, isHeader edge.1 = false) :
    statements (arrowLines edges) =
      .nothing :: edges.map fun edge => .chain [⟨edge.1, none⟩, ⟨edge.2, none⟩] := by
  have header : Statement.read (trim "graph TD".toList) = .nothing := by decide +kernel
  rw [statements, arrowLines, List.map_cons, header, List.map_map]
  refine congrArg _ (List.map_congr_left fun edge member => ?_)
  obtain ⟨source, target⟩ := named edge member
  exact states_iff.mp (states_arrowLine source target (ordinary edge member))

theorem mentions_arrowLines (named : ∀ edge ∈ edges, IsName edge.1 ∧ IsName edge.2)
    (ordinary : ∀ edge ∈ edges, isHeader edge.1 = false) :
    mentions (arrowLines edges) = (endsOf edges).map bare := by
  rw [mentions, statements_arrowLines named ordinary, List.flatMap_cons, List.flatMap_map, endsOf,
    List.map_flatMap]
  rfl

theorem any_turnsRight (named : ∀ edge ∈ edges, IsName edge.1 ∧ IsName edge.2)
    (ordinary : ∀ edge ∈ edges, isHeader edge.1 = false) :
    ((arrowLines edges).any fun line => turnsRight (trim line)) = true ↔
    "LR".toList ∈ endsOf edges := by
  have header : turnsRight (trim "graph TD".toList) = false := by decide +kernel
  rw [arrowLines, List.any_cons, header, Bool.false_or, List.any_map, List.any_eq_true, endsOf,
    List.mem_flatMap]
  refine exists_congr fun edge => and_congr_right fun member => ?_
  obtain ⟨source, target⟩ := named edge member
  rw [Function.comp_apply, turnsRight_arrowLine source target (ordinary edge member)]
  simp only [List.mem_cons, List.not_mem_nil, or_false]

/-- **No edge is lost.** The lines of edges are read as these edges, between nodes that stand in the
order in which they come and are labelled with their names, if no line begins with a word of a
header. The diagram goes to the right if one of its nodes is called `LR`, and below otherwise. -/
theorem read_edges {source : Text} (written : lines source = arrowLines edges)
    (named : ∀ edge ∈ edges, IsName edge.1 ∧ IsName edge.2)
    (ordinary : ∀ edge ∈ edges, isHeader edge.1 = false) :
    read source = ofEdges (if "LR".toList ∈ endsOf edges then .right else .below) edges := by
  have follows := follows_read source
  rw [written] at follows
  have keys : (read source).nodes.keys = (endsOf edges).eraseDups := by
    rw [follows.nodes.keys, mentions_arrowLines named ordinary, List.map_map]
    exact congrArg _ (List.map_id _)
  have nodes : (read source).nodes = (endsOf edges).eraseDups.map fun id => (id, id) := by
    rw [← keys]
    refine Keyed.eq_map_keys follows.nodup_keys fun id member => ?_
    rw [keys, List.mem_eraseDups] at member
    rw [follows.nodes.label, mentions_arrowLines named ordinary, labelFor_map_bare member]
  have arrows : (read source).edges = edges := by
    rw [follows.edges, statements_arrowLines named ordinary, List.flatMap_cons, List.flatMap_map]
    exact List.flatMap_singleton' edges
  have direction :
      (read source).direction = if "LR".toList ∈ endsOf edges then .right else .below := by
    rw [follows.direction]
    exact if_congr (any_turnsRight named ordinary) rfl rfl
  calc read source
      = ⟨(read source).direction, (read source).nodes, (read source).edges⟩ := rfl
    _ = ofEdges (if "LR".toList ∈ endsOf edges then .right else .below) edges := by
        rw [direction, nodes, arrows, ofEdges]

end Source

/-- Two edges from one node. -/
def forked : List (Text × Text) := [("A".toList, "LR".toList), ("A".toList, "B".toList)]

/-- The fork goes to the right, because of the name of a node. -/
theorem read_edges_forked :
    lines (unlines (arrowLines forked)) = arrowLines forked ∧
      (∀ edge ∈ forked, IsName edge.1 ∧ IsName edge.2) ∧
      (∀ edge ∈ forked, isHeader edge.1 = false) ∧
      read (unlines (arrowLines forked)) = ofEdges .right forked := by
  have written : lines (unlines (arrowLines forked)) = arrowLines forked := by decide +kernel
  have named : ∀ edge ∈ forked, IsName edge.1 ∧ IsName edge.2 := by decide +kernel
  have ordinary : ∀ edge ∈ forked, isHeader edge.1 = false := by decide +kernel
  have right : "LR".toList ∈ endsOf forked := by decide +kernel
  refine ⟨written, named, ordinary, ?_⟩
  rw [read_edges written named ordinary, if_pos right]

/-- Not all names keep their edges or the direction: a node with the name `LR` turns the diagram,
and also without one, an edge from a node whose name begins with a word of a header is lost. -/
theorem not_forall_read_edges :
    (¬ ∀ (source : Text) (edges : List (Text × Text)), edges ≠ [] →
        lines source = arrowLines edges →
        (∀ edge ∈ edges, IsName edge.1 ∧ IsName edge.2) → read source = ofEdges .below edges) ∧
      ¬ ∀ (source : Text) (edges : List (Text × Text)), edges ≠ [] →
        lines source = arrowLines edges →
        (∀ edge ∈ edges, IsName edge.1 ∧ IsName edge.2) → "LR".toList ∉ endsOf edges →
          read source = ofEdges .below edges := by
  constructor
  · intro all
    have kept := all "graph TD\nLR --> B".toList [("LR".toList, "B".toList)] (List.cons_ne_nil _ _)
      (by decide +kernel) (by decide +kernel)
    have turned : (read "graph TD\nLR --> B".toList).direction = .right := by decide +kernel
    rw [kept] at turned
    cases turned
  · intro all
    have kept := all "graph TD\ngraph1 --> b".toList [("graph1".toList, "b".toList)]
      (List.cons_ne_nil _ _) (by decide +kernel) (by decide +kernel) (by decide +kernel)
    have lost : (read "graph TD\ngraph1 --> b".toList).edges = [] := by decide +kernel
    rw [kept] at lost
    cases lost

end Diagram

end SlideDeck
