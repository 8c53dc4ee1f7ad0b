/-
  Which lines of a trace are shown, and how much of them.
-/
import TypeTree.Config
import TypeTree.Trace

namespace TypeTree

namespace Config

/-- Entries are always shown, leaves only if the configuration says so. -/
def shows (c : Config) (l : Line) : Bool :=
  c.leaveEvents || l.phase == .enter

/-- The line without its value, unless values are shown. -/
def mask (c : Config) (l : Line) : Line :=
  if c.showValues then l else { l with value? := none }

/-- The lines of a trace as they are shown. -/
def shown (c : Config) (ls : List Line) : List Line :=
  (ls.filter c.shows).map c.mask

end Config

end TypeTree
