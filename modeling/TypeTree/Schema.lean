/-
  The schema: which properties of a node hold its children, and in which order.

  A SLOT is a property together with the SHAPE of what it must hold.  `Kind.slots` lists the
  slots of a kind in the order in which a walk goes through them.
-/
import TypeTree.Kind

namespace TypeTree

/-- What a slot holds. -/
inductive Shape where
  /-- exactly one node -/
  | one
  /-- a node, or nothing -/
  | optional
  /-- any number of nodes, in order -/
  | many
  deriving DecidableEq, Repr

namespace Shape

/-- The shape as an identifier. -/
def identifier : Shape → String
  | one => "node"
  | optional => "nullable_node"
  | many => "node_list"

/-- The shape as a phrase, to follow "must hold". -/
def phrase : Shape → String
  | one => "a node"
  | optional => "a node or null"
  | many => "a list of nodes"

/-- The shape as it stands in a schema listing. -/
def mark : Shape → String
  | one => "node"
  | optional => "node?"
  | many => "node[]"

end Shape

/-- A property that holds children, and the shape of what it holds. -/
structure Slot where
  property : String
  shape : Shape
  deriving DecidableEq, Repr

namespace Kind

/-- The slots of a kind, in walking order. -/
def slots : Kind → List Slot
  | namedParameter => [⟨"typeName", .optional⟩]
  | member | innerMember | instanceMember => [⟨"owner", .one⟩]
  | union => [⟨"left", .one⟩, ⟨"right", .one⟩]
  | record | tuple => [⟨"entries", .many⟩]
  | recordEntry => [⟨"value", .optional⟩]
  | generic => [⟨"subject", .one⟩, ⟨"objects", .many⟩]
  | function =>
    [⟨"params", .many⟩, ⟨"returns", .optional⟩, ⟨"this", .optional⟩, ⟨"new", .optional⟩]
  | arrow => [⟨"params", .many⟩, ⟨"returns", .optional⟩, ⟨"new", .optional⟩]
  | optional | nullable | notNullable | variadic | moduleName | external | parenthesis =>
    [⟨"value", .one⟩]
  | typeQuery => [⟨"name", .one⟩]
  | importPath => [⟨"path", .one⟩]
  | name | any | unknown | stringValue | numberValue | filePath => []

/-- A leaf kind has no slots, so its nodes have no children. -/
def isLeaf (k : Kind) : Bool :=
  k.slots.isEmpty

/-- Properties are single words, made of letters. -/
theorem isAlpha_of_mem_property (k : Kind) :
    ∀ s ∈ k.slots, ∀ c ∈ s.property.toList, c.isAlpha = true := by
  have hall : k.slots.all (fun s => s.property.toList.all Char.isAlpha) = true := by
    cases k <;> decide
  simpa only [List.all_eq_true] using hall

end Kind

end TypeTree
