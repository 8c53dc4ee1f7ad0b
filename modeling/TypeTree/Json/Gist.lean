/-
  A document in a few words, for messages that say what was found.
-/
import TypeTree.Json.Writer
import TypeTree.Text.Quoted

namespace TypeTree.Json

/-- A document in a few words: a scalar with its value, anything else by its sort. -/
def gist : Json → String
  | null => "null"
  | bool b => "boolean `" ++ String.ofList (boolText b) ++ "`"
  | num (.int n) => "integer `" ++ String.ofList (numberText (.int n)) ++ "`"
  | num (.float x) => "floating point `" ++ String.ofList (numberText (.float x)) ++ "`"
  | str s => "string " ++ Text.quote s
  | arr _ => "sequence"
  | obj _ => "map"

end TypeTree.Json
