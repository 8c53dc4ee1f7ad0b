/-
  Reports as JSON documents.
-/
import TypeTree.Json.Writer
import TypeTree.Report.Shown
import TypeTree.Schema
import TypeTree.Stats

namespace TypeTree.Report.Json

open TypeTree (Json)

/-- A line of a trace; a line without a value has no member for it. -/
def line (l : Line) : Json :=
  .obj <|
    [("event", .str l.phase.word), ("type", .str l.tag), ("depth", Json.int l.depth)] ++
      match l.value? with
      | some value => [("value", .str value)]
      | none => []

/-- A trace. -/
def trace (c : Config) (ls : List Line) : Json :=
  .arr ((c.shown ls).map line)

/-- Statistics. -/
def stats (s : Stats) : Json :=
  .obj
    [("nodes", Json.int s.nodes), ("depth", Json.int s.depth),
     ("types", .obj (s.types.map fun (tag, count) => (tag, Json.int count)))]

/-- A slot. -/
def slot (s : Slot) : Json :=
  .obj [("kind", .str s.shape.identifier), ("name", .str s.property)]

/-- The schema of some kinds. -/
def schema (ks : List Kind) : Json :=
  .arr (ks.map fun k => .obj [("properties", .arr (k.slots.map slot)), ("type", .str k.tag)])

end TypeTree.Report.Json
