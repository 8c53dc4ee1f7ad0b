/-
  Statistics of a tree: how many nodes it has, how deep it is, and how many nodes there are of each
  tag.  A tree of one node has depth 1.
-/
import TypeTree.Dict
import TypeTree.Walk

namespace TypeTree

universe u

/-- Counts over a tree. -/
structure Stats where
  nodes : Nat := 0
  depth : Nat := 0
  types : Dict Nat := []
  deriving DecidableEq, Repr

/-- Counts over the part of a tree that has been walked. -/
structure Census where
  /-- the nodes that have been entered and not left -/
  opened : Nat := 0
  stats : Stats := {}

variable {α : Type u} [Node α]

/-- The visitor that counts. -/
def counter : Visitor α Census where
  enter n c :=
    { opened := c.opened + 1
      stats :=
        { nodes := c.stats.nodes + 1
          depth := max c.stats.depth (c.opened + 1)
          types := c.stats.types.update (Node.tag n) 0 (· + 1) } }
  leave _ c := { c with opened := c.opened - 1 }

/-- The statistics of a tree. -/
def stats (n : α) : Except Fault Stats :=
  let w := walk counter n {}
  match w.fault with
  | none => .ok w.state.stats
  | some f => .error f

end TypeTree
