/-
  Reports in the format that a configuration chooses.
-/
import TypeTree.Report.Json
import TypeTree.Report.Text

namespace TypeTree.Report

/-- A trace.  Only text is indented by the configuration, so only text can overflow. -/
def trace (c : Config) (ls : List Line) : Except Overflow String :=
  match c.format with
  | .text => Text.trace c ls
  | .json => .ok (Json.trace c ls).pretty

/-- Statistics. -/
def stats (f : Format) (s : Stats) : String :=
  match f with
  | .text => Text.stats s
  | .json => (Json.stats s).pretty

/-- The schema of some kinds. -/
def schema (f : Format) (ks : List Kind) : String :=
  match f with
  | .text => Text.schema ks
  | .json => (Json.schema ks).pretty

end TypeTree.Report
