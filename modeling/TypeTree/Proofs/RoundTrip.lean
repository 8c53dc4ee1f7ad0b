/-
  Writing a type expression and reading it back.

  Every tree is written as a readable document, whatever its values and field names are: spans are
  numbers of one word, and a node writes its tag first, so that no object begins with the key of an
  embedded text.  What is read back is the document in normal form, where the LAST of two members
  with one key counts.

  The only limit is nesting.  `Expr.nesting` counts it on the tree: a node is an object with the
  array of its span in it, and a list of nodes is an array around them.  With more than 127 levels
  the reader refuses what the writer wrote.
-/
import TypeTree.Proofs.Document
import TypeTree.Proofs.ReadBack

namespace TypeTree

namespace Span

/-- A position of 32 bits is far from where numbers stop being integers. -/
theorem toNat_le_wordMax (n : UInt32) : n.toNat ≤ Numeral.wordMax := by
  have := n.toNat_lt
  show n.toNat ≤ 0xFFFFFFFFFFFFFFFF
  omega

/-- A span is written as two integers that are read back as such. -/
theorem readable_toJson (s : Span) : s.toJson.Readable := by
  refine .arr fun j hj => ?_
  simp only [List.mem_cons, List.not_mem_nil, or_false] at hj
  rcases hj with rfl | rfl
  · exact .nat (toNat_le_wordMax s.start)
  · exact .nat (toNat_le_wordMax s.stop)

end Span

namespace Expr

/-! ## Written trees are readable -/

/-- A value is written as a text, or not at all. -/
theorem readable_labelMember (k : Kind) (value? : Option String) :
    ∀ m ∈ labelMember k value?, m.2.Readable := by
  intro m hm
  unfold labelMember at hm
  split at hm
  · obtain rfl := List.mem_singleton.mp hm
    exact .str _
  · exact absurd hm List.not_mem_nil

mutual

/-- Every tree is written as a readable document: the induction is on the tree, and the one thing to
    see is that the first key of an object is that of the tag. -/
theorem readable_toJson : ∀ e : Expr, e.toJson.Readable
  | ⟨_, kind, span, value?, fields⟩ => by
    rw [toJson]
    refine .obj (fun m hm => ?_) (fun m hm => ?_)
    · simp only [List.mem_cons, List.mem_append] at hm
      rcases hm with rfl | rfl | hm | hm
      · exact .str _
      · exact span.readable_toJson
      · exact readable_labelMember kind value? m hm
      · exact readable_fieldsToJson fields m hm
    · -- the first key is that of the tag
      obtain rfl := Option.some.inj hm
      show "type" ≠ Json.embedKey
      decide

theorem readable_fieldsToJson : ∀ fields, ∀ m ∈ fieldsToJson fields, m.2.Readable
  | [], m, hm => by
    rw [fieldsToJson] at hm
    exact absurd hm List.not_mem_nil
  | (name, h) :: fields, m, hm => by
    rw [fieldsToJson] at hm
    rcases List.mem_cons.mp hm with rfl | hm
    · exact readable_holdingToJson h
    · exact readable_fieldsToJson fields m hm

theorem readable_holdingToJson : ∀ h, (holdingToJson h).Readable
  | .nothing => by
    rw [holdingToJson]
    exact .null
  | .one n => by
    rw [holdingToJson]
    exact readable_toJson n
  | .many ns => by
    rw [holdingToJson]
    exact .arr (readable_listToJson ns)

theorem readable_listToJson : ∀ ns, ∀ j ∈ listToJson ns, j.Readable
  | [], j, hj => by
    rw [listToJson] at hj
    exact absurd hj List.not_mem_nil
  | n :: ns, j, hj => by
    rw [listToJson] at hj
    rcases List.mem_cons.mp hj with rfl | hj
    · exact readable_toJson n
    · exact readable_listToJson ns j hj

end

/-! ## Nesting -/

mutual

/-- How many arrays and objects are open at the deepest place of a written tree.  A node is an
    object that holds at least the array of its span. -/
def nesting : Expr → Nat
  | ⟨_, _, _, _, fields⟩ => max 1 (nestingFields fields) + 1

/-- The greatest nesting in any field. -/
def nestingFields : List (String × Holding Expr) → Nat
  | [] => 0
  | (_, h) :: fields => max (nestingHolding h) (nestingFields fields)

/-- The nesting of a field.  A list of nodes is an array around them. -/
def nestingHolding : Holding Expr → Nat
  | .nothing => 0
  | .one n => nesting n
  | .many ns => nestingList ns + 1

/-- The greatest nesting of any node. -/
def nestingList : List Expr → Nat
  | [] => 0
  | n :: ns => max (nesting n) (nestingList ns)

end

/-- A value is written as a text, which opens nothing. -/
theorem depthMembers_labelMember_append (k : Kind) (value? : Option String)
    (members : List (String × Json)) :
    Json.depthMembers (labelMember k value? ++ members) = Json.depthMembers members := by
  unfold labelMember
  split
  · rw [List.singleton_append, Json.depthMembers, Json.depth, Nat.zero_max]
  · rfl

mutual

/-- What is written for a tree is nested as `nesting` counts it.  A node without fields still holds
    its span, hence the 1 in `nesting`. -/
theorem depth_toJson : ∀ e : Expr, e.toJson.depth = e.nesting
  | ⟨_, kind, span, value?, fields⟩ => by
    have hspan : span.toJson.depth = 1 := by
      simp [Span.toJson, Json.int, Json.depth, Json.depthItems]
    rw [toJson, Json.depth, Json.depthMembers, Json.depthMembers, Json.depth, hspan,
      depthMembers_labelMember_append, depthMembers_fieldsToJson fields, nesting, Nat.zero_max]

theorem depthMembers_fieldsToJson : ∀ fields,
    Json.depthMembers (fieldsToJson fields) = nestingFields fields
  | [] => by rw [fieldsToJson, Json.depthMembers, nestingFields]
  | (_, h) :: fields => by
    rw [fieldsToJson, Json.depthMembers, nestingFields, depth_holdingToJson h,
      depthMembers_fieldsToJson fields]

theorem depth_holdingToJson : ∀ h, (holdingToJson h).depth = nestingHolding h
  | .nothing => by rw [holdingToJson, Json.depth, nestingHolding]
  | .one n => by rw [holdingToJson, nestingHolding, depth_toJson n]
  | .many ns => by rw [holdingToJson, Json.depth, nestingHolding, depthItems_listToJson ns]

theorem depthItems_listToJson : ∀ ns, Json.depthItems (listToJson ns) = nestingList ns
  | [] => by rw [listToJson, Json.depthItems, nestingList]
  | n :: ns => by
    rw [listToJson, Json.depthItems, nestingList, depth_toJson n, depthItems_listToJson ns]

end

/-! ## The round trip -/

/-- A written tree is read back as its document, or refused as nested too deep.  These are the only
    two outcomes, since it is readable. -/
theorem read_compact_toJson (e : Expr) :
    (e.nesting ≤ 127 ∧ Json.read e.toJson.compact = .ok e.document) ∨
      (127 < e.nesting ∧
        ∃ place, Json.read e.toJson.compact = .error ⟨.nestedTooDeep, place⟩) := by
  have h := Json.read_spelled (Json.spells_compactText e.readable_toJson) Json.blank_nil
    Json.blank_nil
  rwa [List.nil_append, List.append_nil, depth_toJson] at h

/-- The nesting of a tree is the depth of what is written for it.  A written tree is read back as
    its document exactly where it has at most 127 levels of nesting, and with more levels it is
    refused as nested too deep. -/
theorem read_compact_iff (e : Expr) :
    e.nesting = e.toJson.depth ∧
      (Json.read e.toJson.compact = .ok e.document ↔ e.nesting ≤ 127) ∧
      ((∃ place, Json.read e.toJson.compact = .error ⟨.nestedTooDeep, place⟩) ↔
        127 < e.nesting) := by
  refine ⟨e.depth_toJson.symm, ?_⟩
  rcases e.read_compact_toJson with ⟨fits, hread⟩ | ⟨deep, place, hread⟩
  · have hnot : ¬ 127 < e.nesting := by omega
    simp [hread, fits, hnot]
  · have hnot : ¬ e.nesting ≤ 127 := by omega
    simp [hread, deep, hnot]

end Expr

end TypeTree
