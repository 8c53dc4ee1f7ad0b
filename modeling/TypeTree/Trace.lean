/-
  Traces: the events of a walk, each with the depth of its node.  The root has depth 0, and a node
  has the same depth when it is left as when it was entered.
-/
import TypeTree.Walk.Event

namespace TypeTree

universe u

/-- Entering or leaving. -/
inductive Phase where
  | enter
  | leave
  deriving DecidableEq, Repr

/-- The word for a phase. -/
def Phase.word : Phase → String
  | enter => "enter"
  | leave => "leave"

/-- One line of a trace. -/
structure Line where
  phase : Phase
  tag : String
  depth : Nat
  value? : Option String
  deriving DecidableEq, Repr

variable {α : Type u} [Node α]

/-- The lines of a list of events that starts with `opened` nodes open.  A leave closes the node
    that was opened last. -/
def Line.ofEvents (opened : Nat) : List (Event α) → List Line
  | [] => []
  | .enter n :: es => ⟨.enter, Node.tag n, opened, Node.label? n⟩ :: ofEvents (opened + 1) es
  | .leave n :: es => ⟨.leave, Node.tag n, opened - 1, Node.label? n⟩ :: ofEvents (opened - 1) es

/-- The trace of a tree. -/
def trace (n : α) : Except Fault (List Line) :=
  (events n).map (Line.ofEvents 0)

end TypeTree
