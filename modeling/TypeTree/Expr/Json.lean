/-
  Type expressions as JSON documents.

  The members are the tag, the span, the value under the label key of the kind, and the fields in
  their order.  A value is left out where the kind has no label key.
-/
import TypeTree.Expr
import TypeTree.Json.Value

namespace TypeTree

/-- A span, as an array of its two ends. -/
def Span.toJson (s : Span) : Json :=
  .arr [Json.int s.start.toNat, Json.int s.stop.toNat]

namespace Expr

/-- The member that keeps the value of a node. -/
def labelMember (k : Kind) (value? : Option String) : List (String × Json) :=
  match k.labelKey?, value? with
  | some key, some value => [(key, .str value)]
  | _, _ => []

mutual

/-- A type expression as a document, its members in written order. -/
def toJson : Expr → Json
  | ⟨_, kind, span, value?, fields⟩ =>
    .obj (("type", .str kind.tag) :: ("range", span.toJson) ::
      (labelMember kind value? ++ fieldsToJson fields))

/-- The fields as members. -/
def fieldsToJson : List (String × Holding Expr) → List (String × Json)
  | [] => []
  | (name, h) :: fields => (name, holdingToJson h) :: fieldsToJson fields

/-- What a field holds, as a document. -/
def holdingToJson : Holding Expr → Json
  | .nothing => .null
  | .one n => toJson n
  | .many ns => .arr (listToJson ns)

/-- Several type expressions as documents. -/
def listToJson : List Expr → List Json
  | [] => []
  | n :: ns => toJson n :: listToJson ns

end

end Expr

end TypeTree
