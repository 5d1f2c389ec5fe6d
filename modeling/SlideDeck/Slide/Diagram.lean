import SlideDeck.Keyed
import SlideDeck.Text.Search
import SlideDeck.Latex.Basic
import SlideDeck.Notice

/-!
# Diagrams

A diagram is a small flowchart language: a header line, lines of arrows between
nodes, and lines that declare a node with its label. Every other line is passed
over. On the page its nodes stand in one chain, in the order in which they first
appear, and its edges are arrows between them.
-/

set_option autoImplicit false

namespace SlideDeck

open SlideDeck.Text

/-- Where a node is placed, seen from the node before it. -/
inductive Direction where
  | right
  | below
  deriving DecidableEq, Repr

/-- A flowchart: labelled nodes in the order of their first appearance, and edges
in the order of the lines. -/
structure Diagram where
  direction : Direction := .below
  nodes : Entries := []
  edges : List (Text × Text) := []
  deriving DecidableEq, Repr

namespace Diagram

/-! ## Nodes -/

/-- Gives a node its label, whether it has one or not. -/
def declare (diagram : Diagram) (id label : Text) : Diagram :=
  { diagram with nodes := diagram.nodes.put id label }

/-- An end of an edge: a node, and the label written there if there is one. -/
structure Endpoint where
  id : Text
  label : Option Text
  deriving DecidableEq, Repr

/-- Makes sure that the node of an endpoint exists. A node that exists keeps its
label; a new one without label is labelled with its name. -/
def register (diagram : Diagram) (endpoint : Endpoint) : Diagram :=
  if diagram.nodes.hasKey endpoint.id then diagram
  else { diagram with nodes := diagram.nodes ++ [(endpoint.id, endpoint.label.getD endpoint.id)] }

/-! ## Lines -/

/-- The characters of a node name. -/
def isNameChar (c : Char) : Bool := c.isAlphanum || c == '_'

/-- The text without the double quotes at both ends. -/
def unquoteLabel (s : Text) : Text :=
  let quote : Char → Bool := (· == '\x22')
  ((s.dropWhile quote).reverse.dropWhile quote).reverse

/-- The label as it is meant: without blanks and quotes around it. -/
def cleanLabel (label : Text) : Text := trim (unquoteLabel (trim label))

/-- Reads a node: a name, and a label between square brackets if there is one. -/
def endpoint? (s : Text) : Option Endpoint :=
  let name := s.takeWhile isNameChar
  if name.isEmpty then none
  else
    match trimStart (s.dropWhile isNameChar) with
    | [] => some ⟨name, none⟩
    | '[' :: rest =>
      match splitOnce ']' rest with
      | some (label, []) => some ⟨name, some (cleanLabel label)⟩
      | _ => none
    | _ => none

/-- The text behind an edge label between pipes, if it begins with one. -/
def dropEdgeLabel (s : Text) : Text :=
  match s with
  | '|' :: rest =>
    match splitOnce '|' rest with
    | some (_, behind) => trimStart behind
    | none => s
  | _ => s

/-- Reads the nodes of a line of arrows: at least two, and each of them right. -/
def chain? (line : Text) : Option (List Endpoint) :=
  match splitOnText "-->".toList line with
  | first :: second :: rest =>
    (first :: second :: rest).mapM fun segment => endpoint? (trim (dropEdgeLabel (trim segment)))
  | _ => none

/-- What a line of a diagram says. -/
inductive Statement where
  | nothing
  | chain (endpoints : List Endpoint)
  | declaration (id label : Text)
  deriving DecidableEq, Repr

/-- Whether the line is empty or a comment. -/
def isIdle (line : Text) : Bool := line.isEmpty || startsWith "%%".toList line

/-- Whether the line is a header. -/
def isHeader (line : Text) : Bool :=
  startsWith "graph".toList line || startsWith "flowchart".toList line

/-- Reads a trimmed line. -/
def Statement.read (line : Text) : Statement :=
  if isIdle line || isHeader line then .nothing
  else
    match chain? line with
    | some endpoints => .chain endpoints
    | none =>
      match endpoint? line with
      | some ⟨id, some label⟩ => .declaration id label
      | _ => .nothing

/-- Whether the trimmed line turns the diagram to the right. -/
def turnsRight (line : Text) : Bool := !isIdle line && (words line).contains "LR".toList

/-- The pairs of neighbours. -/
def neighbours {α : Type} : List α → List (α × α)
  | first :: second :: rest => (first, second) :: neighbours (second :: rest)
  | _ => []

/-- Adds what a line says. -/
def apply (diagram : Diagram) : Statement → Diagram
  | .nothing => diagram
  | .chain endpoints =>
    let registered := endpoints.foldl register diagram
    { registered with
      edges := registered.edges ++ neighbours (endpoints.map Endpoint.id) }
  | .declaration id label => diagram.declare id label

/-- Adds one line of the source. -/
def addLine (diagram : Diagram) (line : Text) : Diagram :=
  let line := trim line
  let turned := if turnsRight line then { diagram with direction := .right } else diagram
  turned.apply (Statement.read line)

/-- The diagram of a source text. -/
def read (source : Text) : Diagram := (lines source).foldl addLine {}

/-! ## Writing -/

/-- The word for the direction. -/
def Direction.word : Direction → Text
  | .right => "right".toList
  | .below => "below".toList

/-- The name of a node on the page, where underscores are hyphens. -/
def pageName (id : Text) : Text := id.map fun c => if c = '_' then '-' else c

/-- The text between parentheses. -/
def parenthesized (s : Text) : Text := '(' :: s ++ [')']

/-- The line of a node; `previous` is the name of the node before it. -/
def nodeLine (direction : Direction) (previous : Option Text) (node : Text × Text) : Text :=
  let place := match previous with
    | none => []
    | some id => " [".toList ++ Direction.word direction ++ " of=".toList ++ pageName id ++ [']']
  "\\node ".toList ++ parenthesized (pageName node.1) ++ place ++ [' '] ++
    Latex.group (Latex.escape node.2) ++ [';']

/-- The lines of the nodes behind `previous`. -/
def nodeLines (direction : Direction) : Option Text → Entries → List Text
  | _, [] => []
  | previous, node :: nodes =>
    nodeLine direction previous node :: nodeLines direction (some node.1) nodes

/-- The line of an edge. -/
def edgeLine (edge : Text × Text) : Text :=
  "\\draw[->, thick] ".toList ++ parenthesized (pageName edge.1) ++ " -- ".toList ++
    parenthesized (pageName edge.2) ++ [';']

/-- The style of all nodes. -/
def pictureOptions : Text :=
  "[node distance=3cm, every node/.style=".toList ++
    Latex.group "draw, rounded corners, align=center, minimum height=1cm".toList ++ [']']

/-- The picture of a diagram. -/
def render (diagram : Diagram) : Text :=
  unlines <|
    [Latex.beginEnvironment "center".toList,
      Latex.beginEnvironment "tikzpicture".toList ++ pictureOptions] ++
    nodeLines diagram.direction none diagram.nodes ++ diagram.edges.map edgeLine ++
    [Latex.endEnvironment "tikzpicture".toList, Latex.endEnvironment "center".toList]

/-- Stands where a diagram without nodes would. -/
def placeholder : Text := "% diagram: no nodes could be parsed".toList

/-- The picture of a source text, or the placeholder. -/
def pictureOf (source : Text) : Text :=
  let diagram := read source
  if diagram.nodes.isEmpty then placeholder else diagram.render

/-- The notices about a source text. -/
def notices (source : Text) : List Notice :=
  if (read source).nodes.isEmpty then [.emptyDiagram] else []

end Diagram

end SlideDeck
