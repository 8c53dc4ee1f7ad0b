/-
  What can be wrong with a tree: a tag that names no kind, or a property that does not hold what
  its slot asks for.
-/
import TypeTree.Schema
import TypeTree.Text.Quoted

namespace TypeTree

/-- What is wrong with a node. -/
inductive Fault where
  /-- no kind has this tag -/
  | unknownTag (tag : String)
  /-- a node of this kind does not fill this slot as it must -/
  | malformed (kind : Kind) (slot : Slot)
  deriving DecidableEq, Repr

/-- The wording of a fault. -/
def Fault.message : Fault → String
  | unknownTag tag => "No schema for node type " ++ Text.quote tag
  | malformed kind slot =>
    "Malformed " ++ kind.tag ++ " node: property `" ++ slot.property ++ "` must hold " ++
      slot.shape.phrase

/-- The kind that a tag names. -/
def Kind.ofTag (tag : String) : Except Fault Kind :=
  match ofTag? tag with
  | some k => .ok k
  | none => .error (.unknownTag tag)

end TypeTree
