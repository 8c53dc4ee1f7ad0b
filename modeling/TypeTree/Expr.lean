/-
  Type expressions built node by node.

  Every node has a STAMP that tells it from all other nodes, also from nodes that look the same.  A
  node that was put into two places has one stamp in both; a copy has a stamp of its own.
-/
import TypeTree.Node
import TypeTree.Span

namespace TypeTree

/-- What a field holds. -/
inductive Holding (α : Type) where
  | nothing
  | one (n : α)
  | many (ns : List α)

/-- A type expression. -/
structure Expr where
  stamp : Nat
  kind : Kind
  span : Span
  value? : Option String
  fields : List (String × Holding Expr)

namespace Expr

instance : Inhabited Expr := ⟨⟨0, .any, default, none, []⟩⟩

/-- What the first field of this name holds. -/
def field? (e : Expr) (name : String) : Option (Holding Expr) :=
  e.fields.lookup name

/-- What a property holds.  A field that holds nothing is as good as none. -/
def property (e : Expr) (name : String) : Property Expr :=
  match e.field? name with
  | none | some .nothing => .absent
  | some (.one n) => .node n
  | some (.many ns) => .list ns

/-! ## Height -/

mutual

/-- How many nodes lie below one another, at most, from here on. -/
def height : Expr → Nat
  | ⟨_, _, _, _, fields⟩ => heightFields fields + 1

/-- The greatest height in any field. -/
def heightFields : List (String × Holding Expr) → Nat
  | [] => 0
  | (_, h) :: fields => max (heightHolding h) (heightFields fields)

/-- The greatest height in a field. -/
def heightHolding : Holding Expr → Nat
  | .nothing => 0
  | .one n => height n
  | .many ns => heightList ns

/-- The greatest height of any node. -/
def heightList : List Expr → Nat
  | [] => 0
  | n :: ns => max (height n) (heightList ns)

end

theorem height_le_heightList {n : Expr} : ∀ {ns : List Expr}, n ∈ ns → n.height ≤ heightList ns
  | m :: ns, h => by
    rw [heightList]
    rcases List.mem_cons.mp h with rfl | h
    · omega
    · have := height_le_heightList h
      omega

theorem heightHolding_le_heightFields {name : String} {h : Holding Expr} :
    ∀ {fields : List (String × Holding Expr)}, (name, h) ∈ fields →
      heightHolding h ≤ heightFields fields
  | (name', h') :: fields, hmem => by
    rw [heightFields]
    rcases List.mem_cons.mp hmem with heq | hmem
    · have : h = h' := (Prod.mk.inj heq).2
      subst this
      omega
    · have := heightHolding_le_heightFields hmem
      omega

theorem heightHolding_lt_of_field? {e : Expr} {name : String} {h : Holding Expr}
    (hf : e.field? name = some h) : heightHolding h < e.height := by
  obtain ⟨l₁, l₂, hl, _⟩ := List.lookup_eq_some_iff.mp hf
  have hmem : (name, h) ∈ e.fields := by rw [hl]; simp
  have := heightHolding_le_heightFields hmem
  obtain ⟨stamp, kind, span, value, fields⟩ := e
  rw [height]
  exact Nat.lt_succ_of_le this

/-- What stands in a property is lower than the node, so a walk ends. -/
theorem height_lt_of_mem_property {e c : Expr} (name : String)
    (h : c ∈ (e.property name).nodes) : c.height < e.height := by
  unfold property at h
  split at h
  · simp [Property.nodes] at h
  · simp [Property.nodes] at h
  · rename_i n hf
    -- one node
    have : c = n := by simpa [Property.nodes] using h
    subst this
    have := heightHolding_lt_of_field? hf
    rwa [heightHolding] at this
  · rename_i ns hf
    -- a list of nodes
    have h₁ := height_le_heightList (by simpa [Property.nodes] using h)
    have h₂ := heightHolding_lt_of_field? hf
    rw [heightHolding] at h₂
    omega

instance : Node Expr where
  tag e := e.kind.tag
  kind? e := some e.kind
  property := property
  label? e := e.value?
  height := height
  kind?_eq e := (Kind.ofTag?_tag e.kind).symm
  height_lt := height_lt_of_mem_property

end Expr

end TypeTree
