/-
  JSON documents as nodes.

  An object is a node; its tag is the text under `type`.  Any other document has an empty tag and
  no properties.
-/
import TypeTree.Json.Value
import TypeTree.Node

namespace TypeTree.Json

/-- The text under `type`, or the empty text. -/
def tag (j : Json) : String :=
  ((j.get? "type").bind str?).getD ""

/-- What a property holds: a missing property and `null` are nothing, an object is a node, and an
    array of objects alone is a list of nodes. -/
def property (j : Json) (name : String) : Property Json :=
  match j.get? name with
  | none | some null => .absent
  | some (obj members) => .node (obj members)
  | some (arr items) => if items.all isObj then .list items else .invalid
  | some _ => .invalid

/-- The text under the label key of the node's kind. -/
def label? (j : Json) : Option String :=
  (Kind.ofTag? j.tag).bind fun k => k.labelKey?.bind fun key => (j.get? key).bind str?

theorem depth_lt_of_mem_property {j c : Json} (name : String)
    (h : c ∈ (j.property name).nodes) : c.depth < j.depth := by
  unfold property at h
  split at h
  · simp [Property.nodes] at h
  · simp [Property.nodes] at h
  · rename_i members hget
    -- one node: the value of the property itself
    have : c = obj members := by simpa [Property.nodes] using h
    rw [this]
    exact depth_lt_of_get? hget
  · rename_i items hget
    -- a list of nodes: each is an item of the property's value
    have hc : c ∈ items := by
      split at h
      · exact h
      · simp [Property.nodes] at h
    have h₁ := depth_le_depthItems hc
    have h₂ := depth_lt_of_get? hget
    rw [depth] at h₂
    omega
  · simp [Property.nodes] at h

instance : Node Json where
  tag := tag
  kind? j := Kind.ofTag? j.tag
  property := property
  label? := label?
  height := depth
  kind?_eq _ := rfl
  height_lt := depth_lt_of_mem_property

end TypeTree.Json
