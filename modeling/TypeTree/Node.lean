/-
  Nodes: what a walk needs to know of a tree, whatever the tree is made of.

  A node has a tag, perhaps a kind, perhaps a label, and properties.  Nodes found in a property are
  lower than the node that has it (`Node.height_lt`), which is why every walk comes to an end.
  The children of a node are what the slots of its kind take from its properties, in the order of
  the slots.
-/
import TypeTree.Fault

namespace TypeTree

universe u

/-- What a property of a node holds. -/
inductive Property (α : Type u) where
  /-- nothing -/
  | absent
  /-- one node -/
  | node (n : α)
  /-- a list of nodes, which may be empty -/
  | list (ns : List α)
  /-- something that is neither -/
  | invalid
  deriving Repr

/-- The nodes in a property. -/
def Property.nodes {α : Type u} : Property α → List α
  | absent | invalid => []
  | node n => [n]
  | list ns => ns

/-- The nodes that a slot of this shape takes from a property; none if the property does not have
    the shape. -/
def Shape.select? {α : Type u} : Shape → Property α → Option (List α)
  | one, .node n => some [n]
  | optional, .node n => some [n]
  | optional, .absent => some []
  | many, .list ns => some ns
  | _, _ => none

theorem Shape.select?_eq_nodes {α : Type u} {s : Shape} {p : Property α} {ns : List α}
    (h : s.select? p = some ns) : ns = p.nodes := by
  cases s <;> cases p <;> simp_all [select?, Property.nodes]

/-- Types whose values are nodes. -/
class Node (α : Type u) where
  /-- the text that names the kind -/
  tag : α → String
  /-- the kind, if the tag names one -/
  kind? : α → Option Kind
  /-- what the property of this name holds -/
  property : α → String → Property α
  /-- the name, key or literal that the node stands for -/
  label? : α → Option String
  /-- a bound on how many nodes lie below one another from here on -/
  height : α → Nat
  /-- the kind is the one that the tag names -/
  kind?_eq : ∀ n : α, kind? n = Kind.ofTag? (tag n)
  /-- nodes in a property are lower than the node -/
  height_lt : ∀ {n c : α} (name : String), c ∈ (property n name).nodes → height c < height n

namespace Node

variable {α : Type u} [Node α]

/-- What the slots take from the properties of `n`, one slot after another.  The first slot whose
    property does not have its shape is a fault of `n` as a node of kind `k`. -/
def fill (k : Kind) (n : α) : List Slot → Except Fault (List α)
  | [] => .ok []
  | slot :: slots =>
    match slot.shape.select? (property n slot.property) with
    | none => .error (.malformed k slot)
    | some ns =>
      match fill k n slots with
      | .error f => .error f
      | .ok more => .ok (ns ++ more)

/-- The children of `n` as a node of kind `k`. -/
def childrenAs (k : Kind) (n : α) : Except Fault (List α) :=
  fill k n k.slots

/-- The children of a node. -/
def children (n : α) : Except Fault (List α) :=
  match kind? n with
  | none => .error (.unknownTag (tag n))
  | some k => childrenAs k n

theorem height_lt_of_fill {k : Kind} {n c : α} : ∀ {slots : List Slot} {cs : List α},
    fill k n slots = .ok cs → c ∈ cs → height c < height n
  | [], cs, h, hc => by
    cases h
    exact absurd hc List.not_mem_nil
  | slot :: slots, cs, h, hc => by
    rw [fill] at h
    split at h
    · exact absurd h (by simp)
    · rename_i ns hns
      split at h
      · exact absurd h (by simp)
      · rename_i more hmore
        cases h
        rcases List.mem_append.mp hc with hc | hc
        · rw [Shape.select?_eq_nodes hns] at hc
          exact height_lt slot.property hc
        · exact height_lt_of_fill hmore hc

/-- Children are lower than their parent. -/
theorem height_lt_of_childrenAs {k : Kind} {n c : α} {cs : List α}
    (h : childrenAs k n = .ok cs) (hc : c ∈ cs) : height c < height n :=
  height_lt_of_fill h hc

end Node

end TypeTree
