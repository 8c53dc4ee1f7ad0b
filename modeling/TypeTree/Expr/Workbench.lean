/-
  A workbench: the nodes built so far, each with a number by which later nodes can refer to it.

  Numbers that do not exist are refused, and a step that is refused leaves the workbench as it was.
-/
import TypeTree.Expr

namespace TypeTree

/-- Nodes under construction. -/
structure Workbench where
  nodes : Array Expr := #[]
  /-- the stamp of the next node -/
  nextStamp : Nat := 0
  /-- memory has been set aside -/
  used : Bool := false

/-- How a field of a new node is to be filled. -/
inductive Filling where
  | nothing
  /-- with the node of this number itself -/
  | shared (id : Nat)
  /-- with copies of the nodes of these numbers -/
  | copies (ids : List Nat)

namespace Workbench

/-- An empty workbench with room for `capacity` bytes. -/
def ofCapacity (capacity : Nat) : Workbench :=
  { used := capacity != 0 }

/-- Notes that something of this size was stored. -/
def store (w : Workbench) (size : Nat) : Workbench :=
  { w with used := w.used || size != 0 }

/-- Adds a node and gives its number. -/
def add (w : Workbench) (kind : Kind) (span : Span) (value? : Option String)
    (fields : List (String × Holding Expr)) : Workbench × Nat :=
  ({ nodes := w.nodes.push ⟨w.nextStamp, kind, span, value?, fields⟩
     nextStamp := w.nextStamp + 1
     used := true }, w.nodes.size)

/-- A NAME node. -/
def addName (w : Workbench) (span : Span) (name : String) : Workbench × Nat :=
  w.add .name span (some name) []

/-- A node without fields. -/
def addLeaf (w : Workbench) (kind : Kind) (span : Span) : Workbench × Nat :=
  w.add kind span none []

/-- A copy of a node, with another value. -/
def addWithValue? (w : Workbench) (id : Nat) (value : String) : Option (Workbench × Nat) :=
  w.nodes[id]?.map fun e => w.add e.kind e.span (some value) e.fields

/-- Copies of nodes, each with a stamp of its own. -/
def copies? (w : Workbench) : List Nat → Option (Workbench × List Expr)
  | [] => some (w, [])
  | id :: ids =>
    w.nodes[id]?.bind fun e =>
      (copies? { w with nextStamp := w.nextStamp + 1 } ids).map fun (w', es) =>
        (w', { e with stamp := w.nextStamp } :: es)

/-- What a filling puts into a field. -/
def fill? (w : Workbench) : Filling → Option (Workbench × Holding Expr)
  | .nothing => some (w, .nothing)
  | .shared id => w.nodes[id]?.map fun e => (w, .one e)
  | .copies ids => (w.copies? ids).map fun (w, es) => (w, .many es)

/-- What fillings put into fields, in their order. -/
def fillAll? (w : Workbench) :
    List (String × Filling) → Option (Workbench × List (String × Holding Expr))
  | [] => some (w, [])
  | (name, f) :: fs =>
    (w.fill? f).bind fun (w, h) => (fillAll? w fs).map fun (w, hs) => (w, (name, h) :: hs)

/-- A node with fields. -/
def addNode? (w : Workbench) (kind : Kind) (span : Span) (fields : List (String × Filling)) :
    Option (Workbench × Nat) :=
  (w.fillAll? fields).map fun (w, hs) => w.add kind span none hs

end Workbench

end TypeTree
