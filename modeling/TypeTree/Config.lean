/-
  The configuration of reports.

  A configuration is written in lenient JSON, as an object with some of the four fields, or as an
  array of their values from the first on.  What is left out has its default.
-/
import TypeTree.Decode
import TypeTree.Jsonc.Reader

namespace TypeTree

/-- How a report is written. -/
inductive Format where
  | text
  | json
  deriving DecidableEq, Repr

namespace Format

/-- Both formats, by their names. -/
def named : List (String × Format) :=
  [("text", text), ("json", json)]

/-- The name of a format. -/
def name : Format → String
  | text => "text"
  | json => "json"

/-- The format of a name. -/
def ofName? (s : String) : Option Format :=
  named.lookup s

end Format

/-- What a report looks like. -/
structure Config where
  format : Format := .text
  /-- the number of spaces for each level of a text trace -/
  indent : UInt64 := 2
  /-- labels are shown -/
  showValues : Bool := true
  /-- the leaving of nodes is shown -/
  leaveEvents : Bool := true
  deriving DecidableEq, Repr

/-- Why there is no configuration. -/
inductive ConfigError where
  | unreadable (e : Jsonc.ReadError)
  | undecodable (e : DecodeError)

/-- The wording of an error. -/
def ConfigError.message : ConfigError → String
  | unreadable e => "Invalid JSONC: " ++ e.message
  | undecodable e => "Invalid config: " ++ e.message

namespace Config

/-- The fields, in their order. -/
def fields : List String :=
  ["format", "indent", "showValues", "leaveEvents"]

/-- Sets a field. -/
def set (c : Config) (field : String) (j : Json) : Decoded Config :=
  match field with
  | "format" => (j.toVariant Format.named).map fun v => { c with format := v }
  | "indent" => j.toWord64.map fun v => { c with indent := v }
  | "showValues" => j.toBool.map fun v => { c with showValues := v }
  | "leaveEvents" => j.toBool.map fun v => { c with leaveEvents := v }
  | other => .error (.unknownField other fields)

/-- Sets several fields, one after another. -/
def setAll (c : Config) : List (String × Json) → Decoded Config
  | [] => .ok c
  | (field, j) :: more =>
    match c.set field j with
    | .error e => .error e
    | .ok c => setAll c more

/-- The configuration that a document describes. -/
def ofJson : Json → Decoded Config
  | .obj members => setAll {} members
  | .arr items =>
    match setAll {} (fields.zip items) with
    | .error e => .error e
    | .ok c =>
      if items.length ≤ fields.length then .ok c
      else .error (.wrongLength items.length .fewerItems)
  | j => .error (.wrongType j .config)

/-- The configuration that a text describes; a text without a value leaves all defaults. -/
def ofText (text : String) : Except ConfigError Config :=
  match Jsonc.read text with
  | .error e => .error (.unreadable e)
  | .ok j => (ofJson (j.getD (.obj []))).mapError .undecodable

end Config

end TypeTree
