/-
  A built tree and its document are walked alike.

  `Expr.document` is the document that a built tree is written as, in normal form: under each key
  the LAST member counts, while a node itself goes by its FIRST field of a name.  The fields are
  written after the members that every node writes of its own (its tag, its span and its value), so
  a field can take the place of any of these.  `get?_document` says what is found under a key, and
  the rest of the file follows from it.

  Where no field takes the place of the tag and no slot has two fields, the tree and its document
  are related by a bisimulation (`document_bisimulation`), so their walks cannot be told apart by
  tags; and where no field takes the place of a value, and only kinds with a label key have values,
  not by labels either (`document_walks_alike`).
-/
import TypeTree.Expr.Json
import TypeTree.Json.Node
import TypeTree.Proofs.Conformance
import TypeTree.Proofs.Simulation
import TypeTree.Walk.Outline

namespace TypeTree

universe u v

/-! ## Pairs with keys -/

section Pairs

variable {β : Type u} {γ : Type v}

/-- Values are changed where they stand, so a key finds the changed value. -/
theorem lookup_map_snd (f : β → γ) (ps : List (String × β)) (key : String) :
    (ps.map fun p => (p.1, f p.2)).lookup key = (ps.lookup key).map f := by
  induction ps with
  | nil => rfl
  | cons p ps ih =>
    rw [List.map_cons, Dict.lookup_cons, Dict.lookup_cons, ih]
    split <;> rfl

theorem lookup_eq_none_of_forall_ne {ps : List (String × β)} {key : String}
    (h : ∀ p ∈ ps, p.1 ≠ key) : ps.lookup key = none := by
  rw [List.lookup_eq_none_iff]
  intro p hp
  exact bne_iff_ne.mpr (h p hp).symm

/-- Where a key occurs once, its first value is its last. -/
theorem lookup_reverse_of_count_le_one {ps : List (String × β)} {key : String}
    (h : (ps.map Prod.fst).count key ≤ 1) : ps.reverse.lookup key = ps.lookup key := by
  induction ps with
  | nil => rfl
  | cons p ps ih =>
    obtain ⟨k, v⟩ := p
    rw [List.map_cons] at h
    rw [List.reverse_cons, List.lookup_append, Dict.lookup_cons, Dict.lookup_cons]
    by_cases hk : key = k
    · -- the first pair is the only one of its key
      subst hk
      rw [List.count_cons_self] at h
      have hnot : key ∉ ps.map Prod.fst := List.count_eq_zero.mp (by omega)
      have hnone : ps.reverse.lookup key = none := by
        refine lookup_eq_none_of_forall_ne fun p hp hpk => hnot ?_
        exact List.mem_map.mpr ⟨p, List.mem_reverse.mp hp, hpk⟩
      rw [hnone, if_pos rfl, if_pos rfl]
      rfl
    · rw [List.count_cons_of_ne (Ne.symm hk)] at h
      rw [ih h, if_neg hk, if_neg hk]
      exact Option.or_none

end Pairs

namespace Json

theorem normalItems_eq_map (items : List Json) : normalItems items = items.map normal := by
  induction items with
  | nil => rfl
  | cons item items ih => rw [normalItems, ih, List.map_cons]

theorem normalMembers_eq_map (members : List (String × Json)) :
    normalMembers members = members.map fun m => (m.1, m.2.normal) := by
  induction members with
  | nil => rfl
  | cons m members ih => rw [normalMembers, ih, List.map_cons]

/-- In a normal form the last member of a key counts. -/
theorem get?_normal_obj (members : List (String × Json)) (key : String) :
    (obj members).normal.get? key = (members.reverse.lookup key).map normal := by
  rw [normal, get?, Dict.get?_ofPairs, normalMembers_eq_map, ← List.map_reverse, lookup_map_snd]

end Json

/-! ## Keys that a kind writes of its own -/

namespace Kind

/-- No kind writes its value under a key that every node has. -/
theorem labelKey?_ne {k : Kind} {key : String} (h : k.labelKey? = some key) :
    key ≠ "type" ∧ key ≠ "range" := by
  cases k <;> simp [labelKey?] at h <;> subst h <;> decide

/-- No slot of a kind has the key of the tag, of the span or of the value. -/
theorem slot_ne (k : Kind) : ∀ slot ∈ k.slots,
    slot.property ≠ "type" ∧ slot.property ≠ "range" ∧ k.labelKey? ≠ some slot.property := by
  cases k <;> simp [slots, labelKey?]

end Kind

namespace Expr

/-! ## What is found in a document -/

/-- The document that a tree is written as, in normal form. -/
def document (e : Expr) : Json :=
  e.toJson.normal

/-- What a node writes of its own under a key, whatever its fields are. -/
def own? (e : Expr) (key : String) : Option Json :=
  ((labelMember e.kind e.value?).lookup key).or
    (if key = "range" then some e.span.toJson else
      if key = "type" then some (.str e.kind.tag) else none)

theorem fieldsToJson_eq_map (fields : List (String × Holding Expr)) :
    fieldsToJson fields = fields.map fun fd => (fd.1, holdingToJson fd.2) := by
  induction fields with
  | nil => rfl
  | cons fd fields ih => rw [fieldsToJson, ih, List.map_cons]

theorem listToJson_eq_map (es : List Expr) : listToJson es = es.map toJson := by
  induction es with
  | nil => rfl
  | cons e es ih => rw [listToJson, ih, List.map_cons]

theorem lookup_labelMember (k : Kind) (value? : Option String) (key : String) :
    ((labelMember k value?).reverse.lookup key).map Json.normal =
      (labelMember k value?).lookup key := by
  rcases hk : k.labelKey? with _ | label
  · simp [labelMember, hk]
  · rcases value? with _ | value
    · simp [labelMember, hk]
    · simp only [labelMember, hk, List.reverse_singleton, Dict.lookup_cons]
      split <;> rfl

/-- Of the members that a node writes of its own the last one with a key counts, as `own?` has it.
    -/
theorem lookup_own (e : Expr) (key : String) :
    ((("type", Json.str e.kind.tag) :: ("range", e.span.toJson) ::
      labelMember e.kind e.value?).reverse.lookup key).map Json.normal = e.own? key := by
  have hspan : e.span.toJson.normal = e.span.toJson := by
    simp [Span.toJson, Json.normal, Json.normalItems, Json.int]
  rw [List.reverse_cons, List.reverse_cons, List.append_assoc, List.lookup_append, Option.map_or,
    lookup_labelMember, own?]
  congr 1
  by_cases hrange : key = "range"
  · simp [hrange, hspan]
  · by_cases htype : key = "type"
    · simp [htype, Dict.lookup_cons, Json.normal]
    · simp [hrange, htype, Dict.lookup_cons]

/-- Under a key a document has what the last field of that name holds, and where there is no such
    field what the node writes of its own. -/
theorem get?_document (e : Expr) (key : String) :
    e.document.get? key =
      ((e.fields.reverse.lookup key).map fun h => (holdingToJson h).normal).or (e.own? key) := by
  rw [← lookup_own]
  obtain ⟨stamp, kind, span, value?, fields⟩ := e
  rw [document, toJson, Json.get?_normal_obj, ← List.cons_append, ← List.cons_append,
    List.reverse_append, List.lookup_append, Option.map_or, fieldsToJson_eq_map, ← List.map_reverse,
    lookup_map_snd, Option.map_map]
  rfl

theorem lookup_labelMember_of_ne {k : Kind} {key : String} (value? : Option String)
    (h : k.labelKey? ≠ some key) : (labelMember k value?).lookup key = none := by
  refine lookup_eq_none_of_forall_ne fun p hp heq => ?_
  unfold labelMember at hp
  split at hp
  · rename_i label value hlabel
    obtain rfl := List.mem_singleton.mp hp
    exact h (heq ▸ hlabel)
  · exact absurd hp List.not_mem_nil

theorem own?_type (e : Expr) : e.own? "type" = some (.str e.kind.tag) := by
  have hkey : e.kind.labelKey? ≠ some "type" := fun h => (Kind.labelKey?_ne h).1 rfl
  rw [own?, lookup_labelMember_of_ne _ hkey]
  rfl

theorem own?_label {e : Expr} {key : String} (h : e.kind.labelKey? = some key) :
    e.own? key = e.value?.map .str := by
  obtain ⟨htype, hrange⟩ := Kind.labelKey?_ne h
  cases hvalue : e.value? with
  | none => simp [own?, labelMember, h, hvalue, htype, hrange]
  | some value => simp [own?, labelMember, h, hvalue]

/-- A node writes nothing of its own under the name of a slot of its kind. -/
theorem own?_slot {e : Expr} {slot : Slot} (h : slot ∈ e.kind.slots) :
    e.own? slot.property = none := by
  obtain ⟨htype, hrange, hkey⟩ := e.kind.slot_ne slot h
  rw [own?, lookup_labelMember_of_ne _ hkey, if_neg hrange, if_neg htype]
  rfl

/-! ## Tag, properties and label of a document -/

/-- A tree is written as an object. -/
theorem document_eq_obj (e : Expr) : ∃ members, e.document = .obj members := by
  obtain ⟨stamp, kind, span, value?, fields⟩ := e
  exact ⟨_, by rw [document, toJson, Json.normal]⟩

/-- A node in a field is written as its document. -/
theorem holdingToJson_one (e : Expr) : (holdingToJson (.one e)).normal = e.document := by
  rw [holdingToJson, document]

theorem holdingToJson_many (es : List Expr) :
    (holdingToJson (.many es)).normal = .arr (es.map document) := by
  rw [holdingToJson, Json.normal, Json.normalItems_eq_map, listToJson_eq_map, List.map_map]
  rfl

/-- What a field holds is never written as a text. -/
theorem str?_holdingToJson (h : Holding Expr) : (holdingToJson h).normal.str? = none := by
  cases h with
  | nothing =>
    rw [holdingToJson, Json.normal]
    rfl
  | one e =>
    obtain ⟨members, hobj⟩ := e.document_eq_obj
    rw [holdingToJson_one, hobj]
    rfl
  | many es =>
    rw [holdingToJson_many]
    rfl

/-- The text under a key of a document: what the node writes of its own, unless a field of that name
    has taken its place, since no field holds a text. -/
theorem text_document (e : Expr) (key : String) :
    (e.document.get? key).bind Json.str? =
      if ∃ fd ∈ e.fields, fd.1 = key then none else (e.own? key).bind Json.str? := by
  rw [get?_document]
  cases hfield : e.fields.reverse.lookup key with
  | none =>
    have hno : ¬ ∃ fd ∈ e.fields, fd.1 = key := by
      rintro ⟨fd, hfd, rfl⟩
      have := List.lookup_eq_none_iff.mp hfield fd (List.mem_reverse.mpr hfd)
      exact absurd rfl (bne_iff_ne.mp this)
    rw [if_neg hno]
    rfl
  | some holding =>
    obtain ⟨before, after, horder, _⟩ := List.lookup_eq_some_iff.mp hfield
    have hmem : (key, holding) ∈ e.fields := List.mem_reverse.mp (by rw [horder]; simp)
    rw [if_pos ⟨_, hmem, rfl⟩]
    exact str?_holdingToJson holding

/-- Without a field of that name, the tag is found under `type`. -/
theorem tag_document {e : Expr} (h : ∀ fd ∈ e.fields, fd.1 ≠ "type") :
    Node.tag e.document = e.kind.tag := by
  have hno : ¬ ∃ fd ∈ e.fields, fd.1 = "type" := by
    rintro ⟨fd, hfd, hname⟩
    exact h fd hfd hname
  show ((e.document.get? "type").bind Json.str?).getD "" = e.kind.tag
  rw [text_document, if_neg hno, own?_type]
  rfl

/-- Where a slot has one field at most, the document has in that property what the node has. -/
theorem property_document {e : Expr} {slot : Slot} (hslot : slot ∈ e.kind.slots)
    (hcount : (e.fields.map Prod.fst).count slot.property ≤ 1) :
    Property.Related (fun c j => j = c.document) (Node.property e slot.property)
      (Node.property e.document slot.property) := by
  show Property.Related _ (e.property slot.property) (e.document.property slot.property)
  rw [property, Json.property, get?_document, lookup_reverse_of_count_le_one hcount,
    own?_slot hslot, Option.or_none, field?]
  cases e.fields.lookup slot.property with
  | none => exact .absent
  | some holding =>
    rw [Option.map_some]
    cases holding with
    | nothing =>
      rw [holdingToJson, Json.normal]
      exact .absent
    | one c =>
      obtain ⟨members, hobj⟩ := c.document_eq_obj
      rw [holdingToJson_one, hobj]
      exact .node hobj.symm
    | many cs =>
      have hall : (cs.map document).all Json.isObj = true := by
        rw [List.all_map, List.all_eq_true]
        intro c _
        obtain ⟨members, hobj⟩ := c.document_eq_obj
        show c.document.isObj = true
        rw [hobj]
        rfl
      rw [holdingToJson_many]
      simp only [hall, if_true]
      refine .list ?_
      exact List.forall₂_map_right_iff.mpr (List.forall₂_same.mpr fun c _ => rfl)

/-- The label of a document, where the tag is found: the text under the label key, which the last
    field of that name may have taken the place of. -/
theorem label?_document {e : Expr} (htag : Node.tag e.document = e.kind.tag) :
    Node.label? e.document = e.kind.labelKey?.bind fun key =>
      if ∃ fd ∈ e.fields, fd.1 = key then none else e.value? := by
  show (Kind.ofTag? (Node.tag e.document)).bind _ = _
  rw [htag, Kind.ofTag?_tag]
  show (e.kind.labelKey?.bind fun key => (e.document.get? key).bind Json.str?) = _
  cases hkey : e.kind.labelKey? with
  | none => rfl
  | some key =>
    show (e.document.get? key).bind Json.str? =
      if ∃ fd ∈ e.fields, fd.1 = key then none else e.value?
    rw [text_document, own?_label hkey]
    cases e.value? <;> rfl

/-! ## Walks -/

/-- No field has the key of the tag, and no slot has two fields. -/
structure Plain (e : Expr) : Prop where
  tagKept : ∀ fd ∈ e.fields, fd.1 ≠ "type"
  slotsSingle : ∀ slot ∈ e.kind.slots, (e.fields.map Prod.fst).count slot.property ≤ 1

/-- If the node has a value, its kind has a key for it, and no field has that key. -/
def KeepsValue (e : Expr) : Prop :=
  e.value? ≠ none → ∃ key, e.kind.labelKey? = some key ∧ ∀ fd ∈ e.fields, fd.1 ≠ key

/-- The value of a node is found in its document where the node has it. -/
theorem label?_document_eq {e : Expr} (hplain : e.Plain) (hvalue : e.KeepsValue) :
    Node.label? e.document = Node.label? e := by
  rw [label?_document (tag_document hplain.tagKept)]
  show _ = e.value?
  by_cases hnone : e.value? = none
  · -- no value, and none is found
    rw [hnone]
    cases e.kind.labelKey? with
    | none => rfl
    | some key => exact ite_self none
  · obtain ⟨key, hkey, hno⟩ := hvalue hnone
    rw [hkey]
    refine if_neg ?_
    rintro ⟨fd, hfd, hname⟩
    exact hno fd hfd hname

/-- A tree of plain nodes is related to its document.  `P` is whatever else is known of all nodes of
    the tree; the relation passes it on to the nodes below. -/
theorem document_bisimulation {P : Expr → Prop} (hP : ∀ m, P m → m.Plain) :
    Bisimulation fun (e : Expr) j => (∀ p m, Node.at? e p = some m → P m) ∧ j = e.document where
  tag := by
    rintro e _ ⟨h, rfl⟩
    exact (tag_document (hP e (h [] e rfl)).tagKept).symm
  property := by
    rintro e _ ⟨h, rfl⟩ k hk slot hslot
    obtain rfl : k = e.kind := Kind.tag_injective hk
    obtain ⟨he, hheld⟩ := Node.forall_at_iff.mp h
    have hbelow : ∀ c ∈ (Node.property e slot.property).nodes,
        ∀ p m, Node.at? c p = some m → P m := fun c hc =>
      hheld c (Node.mem_held_iff.mpr ⟨e.kind, rfl, slot, hslot, hc⟩)
    exact (property_document hslot ((hP e he).slotsSingle slot hslot)).and_left hbelow

/-- A tree of plain nodes and its document give the same events with the same tags, up to the same
    fault or to the end, and the fault is never an unknown tag.  If all nodes keep their values, the
    events have the same labels as well. -/
theorem document_walks_alike (e : Expr) (hplain : ∀ p m, Node.at? e p = some m → m.Plain) :
    (record e).events.map (fun ev => (ev.isEnter, Node.tag ev.node)) =
      (record e.document).events.map (fun ev => (ev.isEnter, Node.tag ev.node)) ∧
    (record e).fault = (record e.document).fault ∧
    (∀ t, (record e).fault ≠ some (.unknownTag t)) ∧
    ((∀ p m, Node.at? e p = some m → m.KeepsValue) →
      (record e).events.map (fun ev => (ev.isEnter, describe ev.node)) =
        (record e.document).events.map (fun ev => (ev.isEnter, describe ev.node))) := by
  have htags := document_bisimulation fun m (h : m.Plain) => h
  have hwalk := htags.record ⟨hplain, rfl⟩
  refine ⟨?_, hwalk.fault, e.fault_ne_unknownTag, ?_⟩
  · exact Event.map_eq_of_related hwalk.events htags.tag
  · intro hvalue
    have hlabels := document_bisimulation fun m (h : m.Plain ∧ m.KeepsValue) => h.1
    have hboth : ∀ p m, Node.at? e p = some m → m.Plain ∧ m.KeepsValue :=
      fun p m hm => ⟨hplain p m hm, hvalue p m hm⟩
    -- of related nodes the one is plain and keeps its value, so the other has its label
    have hdescribe : ∀ {c : Expr} {j : Json},
        (∀ p m, Node.at? c p = some m → m.Plain ∧ m.KeepsValue) ∧ j = c.document →
          describe c = describe j := by
      rintro c _ ⟨h, rfl⟩
      obtain ⟨hc, hkeeps⟩ := h [] c rfl
      rw [describe, describe, label?_document_eq hc hkeeps, tag_document hc.tagKept]
      rfl
    exact Event.map_eq_of_related (hlabels.record ⟨hboth, rfl⟩).events hdescribe

/-- A function of a name and of a union that lacks its right side, with two fields that the schema
    does not know and one in the place of its span. -/
def brokenFunction : Expr :=
  ⟨0, .function, ⟨0, 12⟩, none,
    [("range", .nothing),
     ("params", .many
       [⟨1, .name, ⟨9, 10⟩, some "a", []⟩,
        ⟨2, .union, ⟨11, 12⟩, none, [("left", .one ⟨3, .any, ⟨11, 12⟩, none, []⟩)]⟩]),
     ("meta", .nothing),
     ("meta", .many [])]⟩

/-- The tree and its document end with the same fault, after the same events. -/
theorem brokenFunction_walks_alike :
    (∀ p m, Node.at? brokenFunction p = some m → m.Plain) ∧
    (∀ p m, Node.at? brokenFunction p = some m → m.KeepsValue) ∧
    (record brokenFunction).events.map (fun ev => (ev.isEnter, describe ev.node)) =
      (record brokenFunction.document).events.map (fun ev => (ev.isEnter, describe ev.node)) ∧
    (record brokenFunction).fault = (record brokenFunction.document).fault := by
  have h : ∀ p m, Node.at? brokenFunction p = some m → m.Plain ∧ m.KeepsValue := by
    refine Node.forall_at_iff.mpr ⟨⟨⟨by decide, by decide⟩, fun h => absurd rfl h⟩, ?_⟩
    intro c hc
    rcases List.mem_cons.mp hc with rfl | hc
    · -- the name
      refine Node.forall_at_iff.mpr
        ⟨⟨⟨by decide, by decide⟩, fun _ => ⟨"name", rfl, by decide⟩⟩, ?_⟩
      exact fun c hc => absurd hc List.not_mem_nil
    · -- the union, and what it has on the left
      obtain rfl := List.mem_singleton.mp hc
      refine Node.forall_at_iff.mpr ⟨⟨⟨by decide, by decide⟩, fun h => absurd rfl h⟩, ?_⟩
      intro c hc
      obtain rfl := List.mem_singleton.mp hc
      refine Node.forall_at_iff.mpr ⟨⟨⟨by decide, by decide⟩, fun h => absurd rfl h⟩, ?_⟩
      exact fun c hc => absurd hc List.not_mem_nil
  have hplain := fun p m hm => (h p m hm).1
  have hvalue := fun p m hm => (h p m hm).2
  obtain ⟨_, hfault, _, hlabels⟩ := document_walks_alike brokenFunction hplain
  exact ⟨hplain, hvalue, hlabels hvalue, hfault⟩

end Expr

end TypeTree
