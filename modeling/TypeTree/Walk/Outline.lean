/-
  The outline of a walk: what lies below what, as far as the walk came.

  The outline is kept by an ordinary visitor, so it is there also for a walk that a fault ends.
-/
import TypeTree.Walk

namespace TypeTree

universe u

variable {α : Type u} [Node α]

/-- A tag and a label. -/
structure Description where
  tag : String
  label? : Option String
  deriving DecidableEq, Repr

/-- The tag and the label of a node. -/
def describe (n : α) : Description :=
  ⟨Node.tag n, Node.label? n⟩

/-- What a walk has come across. -/
structure Outline where
  /-- the nodes that have been entered and not left -/
  opened : Nat := 0
  /-- the most nodes that were ever open -/
  depth : Nat := 0
  /-- the first node at that depth -/
  deepest : Option Description := none
  /-- the labels of the NAME nodes, last first -/
  names : List String := []
  /-- the tags of all entered nodes, last first, each behind two spaces for every open ancestor -/
  lines : List String := []

/-- Adds an entered node. -/
def Outline.enter (n : α) (o : Outline) : Outline :=
  { opened := o.opened + 1
    depth := max o.depth (o.opened + 1)
    deepest := if o.depth < o.opened + 1 then some (describe n) else o.deepest
    names := match Node.kind? n, Node.label? n with
      | some .name, some label => label :: o.names
      | _, _ => o.names
    lines := ("".pushn ' ' (2 * o.opened) ++ Node.tag n) :: o.lines }

/-- Closes a node. -/
def Outline.leave (o : Outline) : Outline :=
  { o with opened := o.opened - 1 }

/-- The visitor that keeps an outline. -/
def outliner : Visitor α Outline where
  enter := Outline.enter
  leave _ := Outline.leave

/-- Walks a tree and keeps its outline. -/
def outline (n : α) : Walked Outline :=
  walk outliner n {}

/-- Walks a tree for its fault alone. -/
def check (n : α) : Option Fault :=
  (walk ({} : Visitor α Unit) n ()).fault

end TypeTree
