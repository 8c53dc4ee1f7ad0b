/-
  The events of a walk, as a list.

  `record` lists what a walk shows its visitor, up to the fault that ends it, if one does;
  `events` gives the list of a walk that ends well.
-/
import TypeTree.Walk

namespace TypeTree

universe u

/-- A walk enters a node or leaves it. -/
inductive Event (α : Type u) where
  | enter (n : α)
  | leave (n : α)
  deriving DecidableEq, Repr

namespace Event

variable {α : Type u}

/-- The node that is entered or left. -/
def node : Event α → α
  | enter n | leave n => n

/-- The event is an entry. -/
def isEnter : Event α → Bool
  | enter _ => true
  | leave _ => false

end Event

variable {α : Type u} [Node α]

/-- What a walk showed its visitor, and how it ended. -/
structure Recording (α : Type u) where
  events : List (Event α)
  fault : Option Fault

/-- The visitor that notes every event. -/
def recorder : Visitor α (Array (Event α)) where
  enter n es := es.push (.enter n)
  leave n es := es.push (.leave n)

/-- Walks a tree and notes every event. -/
def record (n : α) : Recording α :=
  let w := walk recorder n #[]
  ⟨w.state.toList, w.fault⟩

/-- The events of a walk, if it ends well. -/
def events (n : α) : Except Fault (List (Event α)) :=
  match (record n).fault with
  | none => .ok (record n).events
  | some f => .error f

end TypeTree
