/-
  JSON documents.

  The members of an object stand in the order in which they were written, repeated keys included.
  What such a document MEANS is its normal form (`Json.normal`): members sorted by key, the last of
  a repeated key alone.  Reading a text gives normal documents; writing keeps any document's order.
-/
import TypeTree.Dict

namespace TypeTree

/-- A JSON number: an exact integer, or a double. -/
inductive Number where
  | int (n : Int)
  | float (x : Float)

/-- A JSON document. -/
inductive Json where
  | null
  | bool (b : Bool)
  | num (n : Number)
  | str (s : String)
  | arr (items : List Json)
  | obj (members : List (String × Json))

namespace Json

instance : Inhabited Json := ⟨null⟩

/-- An integer as a document. -/
def int (n : Int) : Json :=
  num (.int n)

/-- The value under a key; nothing but an object has one. -/
def get? : Json → String → Option Json
  | obj members, key => Dict.get? members key
  | _, _ => none

/-- An object is the only document that can stand for a node. -/
def isObj : Json → Bool
  | obj _ => true
  | _ => false

/-- The text of a string document. -/
def str? : Json → Option String
  | str s => some s
  | _ => none

/-! ## Nesting

A scalar has depth 0, and an array or object is one deeper than its deepest part. -/

mutual

/-- How many arrays and objects are open at the deepest place of the document. -/
def depth : Json → Nat
  | arr items => depthItems items + 1
  | obj members => depthMembers members + 1
  | null | bool _ | num _ | str _ => 0

/-- The greatest depth of any item. -/
def depthItems : List Json → Nat
  | [] => 0
  | item :: items => max (depth item) (depthItems items)

/-- The greatest depth of any member's value. -/
def depthMembers : List (String × Json) → Nat
  | [] => 0
  | (_, value) :: members => max (depth value) (depthMembers members)

end

/-- An item is no deeper than all of them. -/
theorem depth_le_depthItems {j : Json} : ∀ {items : List Json}, j ∈ items →
    j.depth ≤ depthItems items
  | item :: items, h => by
    rw [depthItems]
    rcases List.mem_cons.mp h with rfl | h
    · omega
    · have := depth_le_depthItems h
      omega

theorem depth_le_depthMembers {k : String} {j : Json} : ∀ {members : List (String × Json)},
    (k, j) ∈ members → j.depth ≤ depthMembers members
  | (k', value) :: members, h => by
    rw [depthMembers]
    rcases List.mem_cons.mp h with h | h
    · have : j = value := (Prod.mk.inj h).2
      subst this
      omega
    · have := depth_le_depthMembers h
      omega

/-- Items are no deeper than each of them may be. -/
theorem depthItems_le {d : Nat} {items : List Json} (h : ∀ j ∈ items, j.depth ≤ d) :
    depthItems items ≤ d := by
  induction items with
  | nil => exact Nat.zero_le d
  | cons item items ih =>
    obtain ⟨hitem, hitems⟩ := List.forall_mem_cons.mp h
    rw [depthItems]
    exact Nat.max_le.mpr ⟨hitem, ih hitems⟩

theorem depthMembers_le {d : Nat} {members : List (String × Json)}
    (h : ∀ m ∈ members, m.2.depth ≤ d) : depthMembers members ≤ d := by
  induction members with
  | nil => exact Nat.zero_le d
  | cons m members ih =>
    obtain ⟨hm, hmembers⟩ := List.forall_mem_cons.mp h
    rw [depthMembers]
    exact Nat.max_le.mpr ⟨hm, ih hmembers⟩

/-- A value under a key lies deeper than the object it belongs to. -/
theorem depth_lt_of_get? {j v : Json} {key : String} (h : j.get? key = some v) :
    v.depth < j.depth := by
  cases j with
  | obj members =>
    rw [get?, Dict.get?] at h
    obtain ⟨l₁, l₂, rfl, _⟩ := List.lookup_eq_some_iff.mp h
    have hmem : (key, v) ∈ l₁ ++ (key, v) :: l₂ := by simp
    have := depth_le_depthMembers hmem
    rw [depth]
    omega
  | _ => simp [get?] at h

/-! ## Normal form -/

mutual

/-- The document with every object's members sorted by key and only the last of a repeated key
    kept. -/
def normal : Json → Json
  | arr items => arr (normalItems items)
  | obj members => obj (Dict.ofPairs (normalMembers members))
  | null => null
  | bool b => bool b
  | num n => num n
  | str s => str s

/-- The items, each in normal form. -/
def normalItems : List Json → List Json
  | [] => []
  | item :: items => normal item :: normalItems items

/-- The members, in their order, each value in normal form. -/
def normalMembers : List (String × Json) → List (String × Json)
  | [] => []
  | (key, value) :: members => (key, normal value) :: normalMembers members

end

end Json

end TypeTree
