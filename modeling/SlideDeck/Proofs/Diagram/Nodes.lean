import SlideDeck.Proofs.Diagram.Grammar
import SlideDeck.Proofs.Keyed

/-!
# What the lines of a diagram make of it

A line mentions a node as an end of an arrow or declares it (`Mention`). The two do different things
to a node that is there: an end of an arrow leaves it as it is, and a declaration gives it a new
label in its place. So the label of a node is that of its last declaration, whatever stands around
that, and without one it is the label that was written where the node first came (`labelFor`); and
the nodes stand in the order in which they came.

Each mention keeps this (`Labelled.register`, `Labelled.declare`), and so does each line
(`Follows.addLine`). Hence it holds of the diagram of every source (`follows_read`).
-/

set_option autoImplicit false

namespace SlideDeck.Diagram

open SlideDeck.Text

/-! ## Mentions -/

/-- A node where it is named: as an end of an arrow, or declared with its label. -/
inductive Mention where
  | arrow (endpoint : Endpoint)
  | declaration (id label : Text)
  deriving DecidableEq, Repr

/-- The node that is named. -/
def Mention.id : Mention → Text
  | .arrow endpoint => endpoint.id
  | .declaration id _ => id

/-- The label with which the node is declared there. -/
def Mention.declared? (id : Text) : Mention → Option Text
  | .arrow _ => none
  | .declaration other label => if other = id then some label else none

/-- The label that the node gets there as an end of an arrow: its name if none is written. -/
def Mention.written? (id : Text) : Mention → Option Text
  | .arrow endpoint => if endpoint.id = id then some (endpoint.label.getD endpoint.id) else none
  | .declaration _ _ => none

/-- The label of a node: that of its last declaration, or else the one written where it first
came. -/
def labelFor (id : Text) (mentions : List Mention) : Option Text :=
  (mentions.filterMap (Mention.declared? id)).getLast?.or
    (mentions.findSome? (Mention.written? id))

/-- The nodes that a line names, from left to right. -/
def Statement.mentions : Statement → List Mention
  | .nothing => []
  | .chain endpoints => endpoints.map .arrow
  | .declaration id label => [.declaration id label]

/-- The arrows of a line. -/
def Statement.edges : Statement → List (Text × Text)
  | .chain endpoints => neighbours (endpoints.map Endpoint.id)
  | _ => []

/-- What the lines state. -/
def statements (ls : List Text) : List Statement := ls.map fun line => Statement.read (trim line)

/-- The nodes that the lines name. -/
def mentions (ls : List Text) : List Mention := (statements ls).flatMap Statement.mentions

section Concat

variable {id : Text} {ms : List Mention}

theorem labelFor_endpoint (endpoint : Endpoint) :
    labelFor id (ms ++ [.arrow endpoint]) =
      (labelFor id ms).or
        (if endpoint.id = id then some (endpoint.label.getD endpoint.id) else none) := by
  simp [labelFor, Mention.declared?, Mention.written?, List.findSome?_append, Option.or_assoc]

theorem labelFor_declaration (other label : Text) :
    labelFor id (ms ++ [.declaration other label]) =
      if other = id then some label else labelFor id ms := by
  split
  · next same => simp [labelFor, Mention.declared?, same]
  · next differ =>
      simp [labelFor, Mention.declared?, Mention.written?, differ, List.findSome?_append]

end Concat

/-! ## Nodes -/

/-- The nodes are those of the mentions, in the order of the first ones and with their labels. -/
structure Labelled (ms : List Mention) (nodes : Entries) : Prop where
  keys : nodes.keys = (ms.map Mention.id).eraseDups
  label : ∀ id, nodes.get? id = labelFor id ms

namespace Labelled

variable {ms : List Mention} {diagram : Diagram}

theorem keys_concat {nodes : Entries} (labelled : Labelled ms nodes) (mention : Mention) :
    ((ms ++ [mention]).map Mention.id).eraseDups =
      if mention.id ∈ nodes.keys then nodes.keys else nodes.keys ++ [mention.id] := by
  rw [List.map_append, List.map_cons, List.map_nil, Keyed.eraseDups_concat, ← labelled.keys]
  simp only [labelled.keys, List.mem_eraseDups]

/-- An end of an arrow adds its node if it is new, and changes none. -/
theorem register (labelled : Labelled ms diagram.nodes) (endpoint : Endpoint) :
    Labelled (ms ++ [.arrow endpoint]) (diagram.register endpoint).nodes := by
  have keys := labelled.keys_concat (.arrow endpoint)
  rw [Mention.id] at keys
  rw [Diagram.register]
  split
  · next known =>
      rw [Keyed.hasKey_iff] at known
      refine ⟨by rw [keys, if_pos known], fun id => ?_⟩
      rw [labelled.label, labelFor_endpoint]
      split
      · next same =>
          rw [Keyed.mem_keys_iff, labelled.label, same] at known
          rw [Option.or_of_isSome (Option.isSome_iff_ne_none.mpr known)]
      · rw [Option.or_none]
  · next new =>
      rw [Keyed.hasKey_iff] at new
      refine ⟨?_, fun id => ?_⟩
      · rw [keys, if_neg new, Keyed.keys, Keyed.keys, List.map_append, List.map_singleton]
      · rw [Keyed.get?_append, labelled.label, labelFor_endpoint]
        rfl

/-- A declaration gives its node the label, and adds it if it is new. -/
theorem declare (labelled : Labelled ms diagram.nodes) (id label : Text) :
    Labelled (ms ++ [.declaration id label]) (diagram.declare id label).nodes := by
  refine ⟨?_, fun other => ?_⟩
  · rw [labelled.keys_concat, Diagram.declare, Keyed.keys_put]
    by_cases known : id ∈ diagram.nodes.keys <;> simp [Mention.id, known]
  · rw [Diagram.declare, Keyed.get?_put, labelFor_declaration, labelled.label]
    simp only [eq_comm]

theorem registerAll (labelled : Labelled ms diagram.nodes) (endpoints : List Endpoint) :
    Labelled (ms ++ endpoints.map .arrow) (endpoints.foldl Diagram.register diagram).nodes := by
  induction endpoints generalizing ms diagram with
  | nil => rwa [List.map_nil, List.append_nil]
  | cons endpoint endpoints ih =>
      have behind := ih (labelled.register endpoint)
      rwa [List.append_assoc] at behind

end Labelled

/-! ## Lines -/

/-- The diagram is what the lines make of it: its nodes are those they name, its edges are their
arrows, and it goes to the right if one of them says so. -/
structure Follows (ls : List Text) (diagram : Diagram) : Prop where
  nodes : Labelled (mentions ls) diagram.nodes
  edges : diagram.edges = (statements ls).flatMap Statement.edges
  direction : diagram.direction =
    if ls.any (fun line => turnsRight (trim line)) then .right else .below

theorem Follows.nodup_keys {ls : List Text} {diagram : Diagram} (follows : Follows ls diagram) :
    diagram.nodes.keys.Nodup := by
  rw [follows.nodes.keys]
  exact Keyed.nodup_eraseDups _

theorem foldl_register_frame (endpoints : List Endpoint) (diagram : Diagram) :
    (endpoints.foldl register diagram).edges = diagram.edges ∧
      (endpoints.foldl register diagram).direction = diagram.direction := by
  induction endpoints generalizing diagram with
  | nil => exact ⟨rfl, rfl⟩
  | cons endpoint endpoints ih =>
      have one : (diagram.register endpoint).edges = diagram.edges ∧
          (diagram.register endpoint).direction = diagram.direction := by
        rw [register]
        split <;> exact ⟨rfl, rfl⟩
      rw [List.foldl_cons, (ih _).1, (ih _).2]
      exact one

/-- What a statement adds to a diagram. -/
theorem apply_spec {diagram : Diagram} {ms : List Mention} (labelled : Labelled ms diagram.nodes)
    (statement : Statement) :
    Labelled (ms ++ statement.mentions) (diagram.apply statement).nodes ∧
      (diagram.apply statement).edges = diagram.edges ++ statement.edges ∧
      (diagram.apply statement).direction = diagram.direction := by
  cases statement with
  | nothing =>
      refine ⟨?_, (List.append_nil _).symm, rfl⟩
      rw [Statement.mentions, List.append_nil]
      exact labelled
  | chain endpoints =>
      obtain ⟨edges, direction⟩ := foldl_register_frame endpoints diagram
      refine ⟨labelled.registerAll endpoints, ?_, direction⟩
      rw [apply, edges, Statement.edges]
  | declaration id label =>
      exact ⟨labelled.declare id label, (List.append_nil _).symm, rfl⟩

/-- **A line adds what it says.** -/
theorem Follows.addLine {ls : List Text} {diagram : Diagram} (follows : Follows ls diagram)
    (line : Text) : Follows (ls ++ [line]) (diagram.addLine line) := by
  have stated : statements (ls ++ [line]) = statements ls ++ [Statement.read (trim line)] :=
    List.map_append
  have named : mentions (ls ++ [line]) = mentions ls ++ (Statement.read (trim line)).mentions := by
    rw [mentions, stated, List.flatMap_append, List.flatMap_singleton, mentions]
  have step : ∀ turned : Diagram, turned.nodes = diagram.nodes → turned.edges = diagram.edges →
      (turned.direction =
        if (ls ++ [line]).any (fun line => turnsRight (trim line)) then .right else .below) →
      Follows (ls ++ [line]) (turned.apply (Statement.read (trim line))) := by
    intro turned nodes edges direction
    have labelled : Labelled (mentions ls) turned.nodes := nodes ▸ follows.nodes
    obtain ⟨behind, arrows, kept⟩ := apply_spec labelled (Statement.read (trim line))
    refine ⟨named ▸ behind, ?_, kept.trans direction⟩
    rw [arrows, edges, follows.edges, stated, List.flatMap_append, List.flatMap_singleton]
  rw [Diagram.addLine]
  split
  · next right => exact step _ rfl rfl (by simp [right])
  · next straight => exact step _ rfl rfl (by simp [straight, follows.direction])

/-- So do all lines, one after the other. -/
theorem Follows.run {front : List Text} {diagram : Diagram} (follows : Follows front diagram)
    (ls : List Text) : Follows (front ++ ls) (ls.foldl Diagram.addLine diagram) := by
  induction ls generalizing front diagram with
  | nil => rwa [List.append_nil]
  | cons line ls ih =>
      rw [List.append_cons]
      exact ih (follows.addLine line)

/-- The diagram that is read is what the lines of the source make of it. -/
theorem follows_read (source : Text) : Follows (lines source) (read source) := by
  have empty : Follows [] {} := ⟨⟨rfl, fun _ => rfl⟩, rfl, rfl⟩
  exact empty.run (lines source)

/-- **Labels follow one rule.** The lines state what is written on them; the nodes stand in the
order in which the lines first name them; and each has the label of its last declaration, or else
the label at its first place as an end of an arrow, which is its name if there is none. -/
theorem nodes_read (source : Text) :
    List.Forall₂ (fun line statement => States (trim line) statement)
        (lines source) (statements (lines source)) ∧
      (read source).nodes.keys = ((mentions (lines source)).map Mention.id).eraseDups ∧
      ∀ id, (read source).nodes.get? id = labelFor id (mentions (lines source)) := by
  have follows := follows_read source
  refine ⟨?_, follows.nodes.keys, follows.nodes.label⟩
  rw [statements, List.forall₂_map_right_iff, List.forall₂_same]
  exact fun line _ => states_read (trim line)

end SlideDeck.Diagram
