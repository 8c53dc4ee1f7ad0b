/-
  Numbers for the nodes of a walk, in the order in which they are first entered.

  Where nodes carry a mark of their own, two events with one mark get one number (`numberByMark`).
  Where they do not, each entry is a node of its own, and a leave belongs to the last entry that is
  still open (`numberByNesting`).
-/
import TypeTree.Walk.Event

namespace TypeTree

universe u

variable {α : Type u}

/-- Numbers the events from `next` on; `opened` holds the numbers of the entries that are still
    open, the last one first. -/
def numberByNesting (next : Nat) (opened : List Nat) : List (Event α) → List (Event α × Nat)
  | [] => []
  | .enter n :: es => (.enter n, next) :: numberByNesting (next + 1) (next :: opened) es
  | .leave n :: es => (.leave n, opened.headD 0) :: numberByNesting next opened.tail es

/-- Numbers the events by the mark of their node; `seen` holds the marks in the order of their
    first entry. -/
def numberByMark (mark : α → Nat) (seen : List Nat) : List (Event α) → List (Event α × Nat)
  | [] => []
  | e :: es =>
    let seen := if seen.contains (mark e.node) then seen else seen ++ [mark e.node]
    (e, seen.idxOf (mark e.node)) :: numberByMark mark seen es

end TypeTree
