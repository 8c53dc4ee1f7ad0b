/-
  Similarity: of a document, a walk sees what the schema shows of it and nothing else.

  Two documents are SIMILAR if their tags are equal and, where the tag names a kind, so are their
  labels, and each slot of the kind holds the same sort of thing in both, with similar nodes in it.
  What stands under other keys is not mentioned, nor is what makes a slot invalid.  Similarity is a
  bisimulation, so similar documents have related recordings, and whatever is made of a recording by
  looking at tags and labels alone is the same for both: the calls of a traversal, the trace and the
  statistics.

  `Immaterial` lists changes to a document that leave it similar to what it was: its members in
  another order, a member that the schema does not know, `null` where there was nothing, other
  contents where no node can stand; and any of these somewhere inside.
-/
import Mathlib
import TypeTree.Json.Node
import TypeTree.Proofs.Document
import TypeTree.Proofs.Simulation
import TypeTree.Stats
import TypeTree.Trace
import TypeTree.Walk.Outline

namespace TypeTree

universe u v w

/-! ## What is made of related recordings -/

section Observers

variable {α : Type u} {β : Type v} {σ : Type w} {R : α → β → Prop}

/-- Two visitors do the same with related nodes. -/
structure Visitor.Agree (R : α → β → Prop) (x : Visitor α σ) (y : Visitor β σ) : Prop where
  enter : ∀ {a b}, R a b → ∀ s, x.enter a s = y.enter b s
  leave : ∀ {a b}, R a b → ∀ s, x.leave a s = y.leave b s

namespace Visitor.Agree

variable {x : Visitor α σ} {y : Visitor β σ}

theorem see (h : x.Agree R y) {e : Event α} {e' : Event β} (he : Event.Related R e e') (s : σ) :
    x.see s e = y.see s e' := by
  cases he with
  | enter hab => exact h.enter hab s
  | leave hab => exact h.leave hab s

/-- Visitors that agree on related nodes come to the same on related events. -/
theorem foldl_see (h : x.Agree R y) {es : List (Event α)} {es' : List (Event β)}
    (hall : List.Forall₂ (Event.Related R) es es') (s : σ) :
    es.foldl x.see s = es'.foldl y.see s := by
  induction hall generalizing s with
  | nil => rfl
  | cons he _ ih => rw [List.foldl_cons, List.foldl_cons, h.see he, ih]

end Visitor.Agree

variable [Node α] [Node β]

/-- Visitors that do the same with related nodes are left in the same state, at the same end. -/
theorem Bisimulation.walk (hR : Bisimulation R) {x : Visitor α σ} {y : Visitor β σ}
    (hxy : x.Agree R y) {a : α} {b : β} (hab : R a b) (s : σ) :
    TypeTree.walk x a s = TypeTree.walk y b s := by
  have hrecord := hR.record hab
  rw [walk_eq_play, walk_eq_play, Recording.play, Recording.play, hxy.foldl_see hrecord.events,
    hrecord.fault]

/-- Related events have the same lines, if related nodes look alike. -/
theorem Line.ofEvents_related (hdescribe : ∀ {a b}, R a b → describe a = describe b)
    {es : List (Event α)} {es' : List (Event β)} (h : List.Forall₂ (Event.Related R) es es')
    (opened : Nat) : Line.ofEvents opened es = Line.ofEvents opened es' := by
  induction h generalizing opened with
  | nil => rfl
  | cons he _ ih =>
    cases he with
    | enter hab =>
      obtain ⟨htag, hlabel⟩ := Description.mk.inj (hdescribe hab)
      rw [Line.ofEvents, Line.ofEvents, htag, hlabel, ih]
    | leave hab =>
      obtain ⟨htag, hlabel⟩ := Description.mk.inj (hdescribe hab)
      rw [Line.ofEvents, Line.ofEvents, htag, hlabel, ih]

/-- Related trees have the same trace, if related nodes look alike. -/
theorem Bisimulation.trace (hR : Bisimulation R)
    (hdescribe : ∀ {a b}, R a b → describe a = describe b) {a : α} {b : β} (hab : R a b) :
    TypeTree.trace a = TypeTree.trace b := by
  have hrecord := hR.record hab
  have hlines := Line.ofEvents_related hdescribe hrecord.events 0
  rw [TypeTree.trace, TypeTree.trace, events, events, hrecord.fault]
  cases (TypeTree.record b).fault with
  | none => exact congrArg Except.ok hlines
  | some f => rfl

/-- Related trees have the same statistics, as these depend on tags only. -/
theorem Bisimulation.stats (hR : Bisimulation R) {a : α} {b : β} (hab : R a b) :
    TypeTree.stats a = TypeTree.stats b := by
  have hcount : Visitor.Agree R counter counter :=
    ⟨fun h s => by simp only [counter, hR.tag h], fun _ _ => rfl⟩
  have hwalk := hR.walk hcount hab {}
  rw [TypeTree.stats, TypeTree.stats, hwalk]

end Observers

namespace Json

/-! ## Similar documents -/

/-- The documents have one tag and, if it names a kind, one label, and the slots of that kind hold
    the same of both: nothing, a node, as many nodes in a list, or something invalid; the nodes are
    similar again. -/
inductive Similar : Json → Json → Prop where
  | unknown {a b : Json} (same : a.tag = b.tag) (unknown : ∀ k : Kind, k.tag ≠ a.tag) : Similar a b
  | known {a b : Json} (k : Kind) (first : k.tag = a.tag) (second : k.tag = b.tag)
      (label : a.label? = b.label?)
      (slots : ∀ slot ∈ k.slots,
        Property.Related Similar (a.property slot.property) (b.property slot.property)) :
      Similar a b

/-- Similar documents have the same tag. -/
theorem Similar.tag_eq {a b : Json} (h : Similar a b) : a.tag = b.tag := by
  cases h with
  | unknown same _ => exact same
  | known k first second _ _ => exact first.symm.trans second

/-- A node of no kind has no value to show. -/
theorem label?_of_unknown {j : Json} (h : ∀ k : Kind, k.tag ≠ j.tag) : j.label? = none := by
  have hkind : Kind.ofTag? j.tag = none := Node.kind?_eq_none_iff (n := j).mpr h
  rw [label?, hkind]
  rfl

/-- Similar documents look alike in a trace. -/
theorem Similar.describe_eq {a b : Json} (h : Similar a b) : describe a = describe b := by
  have hlabel : a.label? = b.label? := by
    cases h with
    | unknown same unknown =>
      rw [label?_of_unknown unknown, label?_of_unknown (same ▸ unknown)]
    | known _ _ _ label _ => exact label
  show (⟨a.tag, a.label?⟩ : Description) = ⟨b.tag, b.label?⟩
  rw [h.tag_eq, hlabel]

/-- A walk cannot tell similar documents apart. -/
theorem similar_bisimulation : Bisimulation Similar where
  tag := Similar.tag_eq
  property := by
    intro a b h k hk slot hslot
    cases h with
    | unknown _ unknown => exact absurd hk (unknown k)
    | known k' first _ _ slots =>
      obtain rfl : k = k' := Kind.tag_injective (hk.trans first.symm)
      exact slots slot hslot

/-! ## What is found under a key -/

/-- What a value, or none, holds as a property. -/
def content : Option Json → Property Json
  | none | some null => .absent
  | some (obj members) => .node (obj members)
  | some (arr items) => if items.all isObj then .list items else .invalid
  | some _ => .invalid

theorem property_eq_content (j : Json) (name : String) : j.property name = content (j.get? name) :=
  rfl

/-- Documents are similar if the same text is found under the keys of tag and label, and similar
    contents under the keys of the slots. -/
theorem similar_of_found {a b : Json}
    (htag : (a.get? "type").bind str? = (b.get? "type").bind str?)
    (hlabel : ∀ k : Kind, k.tag = a.tag → ∀ key, k.labelKey? = some key →
      (a.get? key).bind str? = (b.get? key).bind str?)
    (hslots : ∀ k : Kind, k.tag = a.tag → ∀ slot ∈ k.slots,
      Property.Related Similar (content (a.get? slot.property)) (content (b.get? slot.property))) :
    Similar a b := by
  have hsame : a.tag = b.tag := by rw [tag, tag, htag]
  by_cases hknown : ∃ k : Kind, k.tag = a.tag
  · obtain ⟨k, hk⟩ := hknown
    refine .known k hk (hk.trans hsame) ?_ fun slot hslot => ?_
    · rw [label?, label?, ← hsame, ← hk, Kind.ofTag?_tag]
      cases hkey : k.labelKey? with
      | none => simp [hkey]
      | some key => simpa [hkey] using hlabel k hk key hkey
    · rw [property_eq_content, property_eq_content]
      exact hslots k hk slot hslot
  · exact .unknown hsame fun k hk => hknown ⟨k, hk⟩

/-- A property is related to itself if its nodes are. -/
theorem related_self {α : Type u} {R : α → α → Prop} {p : Property α}
    (h : ∀ c ∈ p.nodes, R c c) : Property.Related R p p := by
  cases p with
  | absent => exact .absent
  | node n => exact .node (h n List.mem_cons_self)
  | list ns => exact .list (List.forall₂_same.mpr h)
  | invalid => exact .invalid

/-- Every document is similar to itself. -/
theorem Similar.refl (j : Json) : Similar j j := by
  induction j using Node.held_induction with
  | step j ih =>
    refine similar_of_found rfl (fun _ _ _ _ => rfl) fun k hk slot hslot => ?_
    refine related_self fun c hc => ih c ?_
    exact Node.mem_held_iff.mpr ⟨k, hk, slot, hslot, hc⟩

theorem content_related_self (o : Option Json) : Property.Related Similar (content o) (content o) :=
  related_self fun c _ => .refl c

/-! ## Changes that do not matter -/

/-- The schema has a use for this key in a document with this tag. -/
def Visible (j : Json) (key : String) : Prop :=
  key = "type" ∨ ∃ k : Kind, k.tag = j.tag ∧
    (k.labelKey? = some key ∨ ∃ slot ∈ k.slots, slot.property = key)

/-- A value in which no slot finds what it asks for: a scalar other than `null`, or an array with
    something in it that is not an object. -/
def Misshapen (v : Json) : Prop :=
  content (some v) = .invalid

/-- A change that does not matter, in a document or somewhere inside. -/
inductive Immaterial : Json → Json → Prop where
  /-- the members in another order -/
  | reorder {ms ms' : List (String × Json)} (perm : ms.Perm ms')
      (distinct : (ms.map Prod.fst).Nodup) : Immaterial (obj ms) (obj ms')
  /-- a member that the schema does not know -/
  | extra {ms : List (String × Json)} {key : String} (v : Json) (hidden : ¬ Visible (obj ms) key) :
      Immaterial (obj ms) (obj ((key, v) :: ms))
  /-- `null` where there was nothing -/
  | null {ms : List (String × Json)} {key : String} (missing : (obj ms).get? key = none) :
      Immaterial (obj ms) (obj ((key, .null) :: ms))
  /-- one thing in a slot that cannot stand there, for another -/
  | misshapen {ms : List (String × Json)} {k : Kind} {slot : Slot} {v v' : Json}
      (kind : k.tag = (obj ms).tag) (mem : slot ∈ k.slots) (old : Misshapen v)
      (new : Misshapen v') :
      Immaterial (obj ((slot.property, v) :: ms)) (obj ((slot.property, v') :: ms))
  /-- a change in the value of a member -/
  | member (before after : List (String × Json)) (key : String) {v v' : Json}
      (inner : Immaterial v v') :
      Immaterial (obj (before ++ (key, v) :: after)) (obj (before ++ (key, v') :: after))
  /-- a change in an item -/
  | item (before after : List Json) {v v' : Json} (inner : Immaterial v v') :
      Immaterial (arr (before ++ v :: after)) (arr (before ++ v' :: after))

/-- What a change that does not matter leaves as it was, wherever the value stands. -/
structure Alike (v v' : Json) : Prop where
  similar : Similar v v'
  isObj : v.isObj = v'.isObj
  str? : v.str? = v'.str?
  content : Property.Related Similar (content (some v)) (content (some v'))

theorem Similar.alike_obj {ms ms' : List (String × Json)} (h : Similar (obj ms) (obj ms')) :
    Alike (obj ms) (obj ms') :=
  ⟨h, rfl, rfl, .node h⟩

/-- Objects in which the same is found under every key are similar. -/
theorem similar_of_get?_eq {a b : Json} (h : ∀ key, Visible a key → a.get? key = b.get? key) :
    Similar a b := by
  refine similar_of_found ?_ (fun k hk key hkey => ?_) fun k hk slot hslot => ?_
  · rw [h "type" (.inl rfl)]
  · rw [h key (.inr ⟨k, hk, .inl hkey⟩)]
  · rw [h slot.property (.inr ⟨k, hk, .inr ⟨slot, hslot, rfl⟩⟩)]
    exact content_related_self _

/-- If every key stands once, the order of the members does not matter. -/
theorem lookup_eq_of_perm {ms ms' : List (String × Json)} (perm : ms.Perm ms')
    (distinct : (ms.map Prod.fst).Nodup) (key : String) : ms.lookup key = ms'.lookup key := by
  have distinct' : (ms'.map Prod.fst).Nodup := (perm.map Prod.fst).nodup_iff.mp distinct
  refine Option.ext fun v => ?_
  rw [Dict.lookup_eq_some_iff_mem distinct, Dict.lookup_eq_some_iff_mem distinct']
  exact perm.mem_iff

/-- A value in one place is found under its key, or is not found at all. -/
theorem lookup_member (before after : List (String × Json)) (key : String) :
    (∃ o : Option Json, ∀ v : Json, (before ++ (key, v) :: after).lookup key = o) ∨
      ∀ v : Json, (before ++ (key, v) :: after).lookup key = some v := by
  cases hbefore : before.lookup key with
  | some w => exact .inl ⟨some w, fun v => by rw [List.lookup_append, hbefore, Option.some_or]⟩
  | none =>
    refine .inr fun v => ?_
    rw [List.lookup_append, hbefore, Option.none_or, Dict.lookup_cons, if_pos rfl]

theorem lookup_member_of_ne (before after : List (String × Json)) {key other : String}
    (h : other ≠ key) (v v' : Json) :
    (before ++ (key, v) :: after).lookup other = (before ++ (key, v') :: after).lookup other := by
  rw [List.lookup_append, List.lookup_append, Dict.lookup_cons, Dict.lookup_cons, if_neg h,
    if_neg h]

/-- Under every key, the same text and similar contents are found after a change in a member. -/
theorem found_member (before after : List (String × Json)) (key other : String) {v v' : Json}
    (h : Alike v v') :
    ((obj (before ++ (key, v) :: after)).get? other).bind Json.str? =
      ((obj (before ++ (key, v') :: after)).get? other).bind Json.str? ∧
    Property.Related Similar (Json.content ((obj (before ++ (key, v) :: after)).get? other))
      (Json.content ((obj (before ++ (key, v') :: after)).get? other)) := by
  simp only [get?, Dict.get?]
  by_cases hother : other = key
  · subst hother
    rcases lookup_member before after other with ⟨o, ho⟩ | hv
    · rw [ho v, ho v']
      exact ⟨rfl, content_related_self o⟩
    · rw [hv v, hv v']
      exact ⟨h.str?, h.content⟩
  · rw [lookup_member_of_ne before after hother v v']
    exact ⟨rfl, content_related_self _⟩

/-- Putting a document for one like it in a member makes no difference that is seen. -/
theorem similar_member (before after : List (String × Json)) (key : String) {v v' : Json}
    (h : Alike v v') :
    Similar (obj (before ++ (key, v) :: after)) (obj (before ++ (key, v') :: after)) :=
  similar_of_found (found_member before after key "type" h).1
    (fun _ _ other _ => (found_member before after key other h).1)
    (fun _ _ slot _ => (found_member before after key slot.property h).2)

/-- Nor does it in an item of an array. -/
theorem alike_item (before after : List Json) {v v' : Json} (h : Alike v v') :
    Alike (arr (before ++ v :: after)) (arr (before ++ v' :: after)) := by
  have hobj : (before ++ v :: after).all Json.isObj = (before ++ v' :: after).all Json.isObj := by
    rw [List.all_append, List.all_append, List.all_cons, List.all_cons, h.isObj]
  have hitems : List.Forall₂ Similar (before ++ v :: after) (before ++ v' :: after) :=
    List.rel_append (List.forall₂_same.mpr fun c _ => .refl c)
      (.cons h.similar (List.forall₂_same.mpr fun c _ => .refl c))
  refine ⟨similar_of_get?_eq fun _ _ => rfl, rfl, rfl, ?_⟩
  rw [Json.content, Json.content, hobj]
  split
  · exact .list hitems
  · exact .invalid

theorem get?_cons_of_ne (ms : List (String × Json)) {key other : String} (h : other ≠ key)
    (v : Json) : (obj ((key, v) :: ms)).get? other = (obj ms).get? other := by
  simp only [get?, Dict.get?, Dict.lookup_cons, if_neg h]

theorem get?_cons_self (ms : List (String × Json)) (key : String) (v : Json) :
    (obj ((key, v) :: ms)).get? key = some v := by
  simp only [get?, Dict.get?, Dict.lookup_cons, if_pos]

/-- A member that is null is as good as none. -/
theorem similar_null {ms : List (String × Json)} {key : String}
    (missing : (obj ms).get? key = none) : Similar (obj ms) (obj ((key, .null) :: ms)) := by
  -- nothing and `null` are neither a text nor a node
  have hfound : ∀ other, ((obj ms).get? other).bind Json.str? =
        ((obj ((key, .null) :: ms)).get? other).bind Json.str? ∧
      Property.Related Similar (Json.content ((obj ms).get? other))
        (Json.content ((obj ((key, .null) :: ms)).get? other)) := by
    intro other
    by_cases hother : other = key
    · subst hother
      rw [missing, get?_cons_self]
      exact ⟨rfl, .absent⟩
    · rw [get?_cons_of_ne ms hother]
      exact ⟨rfl, content_related_self _⟩
  exact similar_of_found (hfound "type").1 (fun _ _ other _ => (hfound other).1)
    (fun _ _ slot _ => (hfound slot.property).2)

/-- What fits no slot can be put for anything else that fits none. -/
theorem similar_misshapen {ms : List (String × Json)} {k : Kind} {slot : Slot} {v v' : Json}
    (kind : k.tag = (obj ms).tag) (mem : slot ∈ k.slots) (old : Misshapen v)
    (new : Misshapen v') :
    Similar (obj ((slot.property, v) :: ms)) (obj ((slot.property, v') :: ms)) := by
  obtain ⟨htype, _, hlabel⟩ := k.slot_ne slot mem
  have htag : (obj ((slot.property, v) :: ms)).tag = (obj ms).tag := by
    rw [tag, tag, get?_cons_of_ne ms htype.symm]
  refine similar_of_found ?_ (fun k' hk' key hkey => ?_) fun k' hk' slot' hslot' => ?_
  · rw [get?_cons_of_ne ms htype.symm, get?_cons_of_ne ms htype.symm]
  · obtain rfl : k' = k := Kind.tag_injective ((hk'.trans htag).trans kind.symm)
    have hne : key ≠ slot.property := fun h => hlabel (h ▸ hkey)
    rw [get?_cons_of_ne ms hne, get?_cons_of_ne ms hne]
  · by_cases hsame : slot'.property = slot.property
    · rw [hsame, get?_cons_self, get?_cons_self, old, new]
      exact .invalid
    · rw [get?_cons_of_ne ms hsame, get?_cons_of_ne ms hsame]
      exact content_related_self _

/-- A change that does not matter leaves the value alike, wherever it stands.  The induction goes
    from the place of the change up to the whole document. -/
theorem Immaterial.alike {a b : Json} (h : Immaterial a b) : Alike a b := by
  induction h with
  | reorder perm distinct =>
    refine Similar.alike_obj (similar_of_get?_eq fun key _ => ?_)
    exact lookup_eq_of_perm perm distinct key
  | extra v hidden =>
    refine Similar.alike_obj (similar_of_get?_eq fun other hother => ?_)
    refine (get?_cons_of_ne _ ?_ v).symm
    rintro rfl
    exact hidden hother
  | null missing => exact (similar_null missing).alike_obj
  | misshapen kind mem old new => exact (similar_misshapen kind mem old new).alike_obj
  | member before after key _ ih => exact (similar_member before after key ih).alike_obj
  | item before after _ ih => exact alike_item before after ih

/-! ## Reports -/

/-- Nothing that is reported of the one document tells it from the other: the events with their tags
    and labels, up to the same end; what a traversal makes of them, whichever functions it calls;
    the trace; and the statistics. -/
structure ReportedAlike (a b : Json) : Prop where
  events : (record a).events.map (fun e => (e.isEnter, describe e.node)) =
    (record b).events.map (fun e => (e.isEnter, describe e.node))
  fault : (record a).fault = (record b).fault
  traverse : ∀ {σ : Type u} (onEnter onLeave : Option (Description → σ → σ)) (s : σ),
    TypeTree.traverse (onEnter.map fun f n => f (describe n))
        (onLeave.map fun f n => f (describe n)) a s =
      TypeTree.traverse (onEnter.map fun f n => f (describe n))
        (onLeave.map fun f n => f (describe n)) b s
  trace : TypeTree.trace a = TypeTree.trace b
  stats : TypeTree.stats a = TypeTree.stats b

namespace ReportedAlike

theorem refl (a : Json) : ReportedAlike.{u} a a :=
  ⟨rfl, rfl, fun _ _ _ => rfl, rfl, rfl⟩

theorem symm {a b : Json} (h : ReportedAlike.{u} a b) : ReportedAlike.{u} b a :=
  ⟨h.events.symm, h.fault.symm, fun f g s => (h.traverse f g s).symm, h.trace.symm, h.stats.symm⟩

theorem trans {a b c : Json} (h : ReportedAlike.{u} a b) (h' : ReportedAlike.{u} b c) :
    ReportedAlike.{u} a c :=
  ⟨h.events.trans h'.events, h.fault.trans h'.fault,
    fun f g s => (h.traverse f g s).trans (h'.traverse f g s), h.trace.trans h'.trace,
    h.stats.trans h'.stats⟩

end ReportedAlike

/-- Similar documents are reported alike, in each of the reports. -/
theorem Similar.reportedAlike {a b : Json} (h : Similar a b) : ReportedAlike.{u} a b := by
  have hrecord := similar_bisimulation.record h
  refine ⟨?_, hrecord.fault, ?_, ?_, ?_⟩
  · exact Event.map_eq_of_related hrecord.events Similar.describe_eq
  · intro σ onEnter onLeave s
    refine similar_bisimulation.walk ⟨fun hab s => ?_, fun hab s => ?_⟩ h s
    · cases onEnter with
      | none => rfl
      | some f => exact congrArg (fun d => f d s) hab.describe_eq
    · cases onLeave with
      | none => rfl
      | some f => exact congrArg (fun d => f d s) hab.describe_eq
  · exact similar_bisimulation.trace Similar.describe_eq h
  · exact similar_bisimulation.stats h

/-- Similar documents are reported alike.  In particular no row of changes that do not matter, made
    or undone, makes a difference to any report. -/
theorem similar_reported_alike :
    (∀ a b : Json, Similar a b → ReportedAlike.{u} a b) ∧
    ∀ a b : Json, Relation.EqvGen Immaterial a b → ReportedAlike.{u} a b := by
  refine ⟨fun a b h => h.reportedAlike, ?_⟩
  intro a b h
  induction h with
  | rel a b h => exact h.alike.similar.reportedAlike
  | refl a => exact .refl a
  | symm a b _ ih => exact ih.symm
  | trans a b c _ _ ih₁ ih₂ => exact ih₁.trans ih₂

/-- A function of a name and of a union with a number on its right side, where none can stand. -/
def plainFunction : Json :=
  obj [("type", str "FUNCTION"),
    ("params", arr
      [obj [("type", str "NAME"), ("name", str "a")],
       obj [("type", str "UNION"), ("left", obj [("type", str "ANY")]), ("right", int 3)]]),
    ("returns", null)]

/-- The same function with its members in other orders, one more member, nothing in place of `null`
    and something else in place of the number. -/
def shuffledFunction : Json :=
  obj [("params", arr
      [obj [("name", str "a"), ("type", str "NAME")],
       obj [("right", arr [null]), ("type", str "UNION"), ("left", obj [("type", str "ANY")])]]),
    ("meta", arr [obj [("type", int 1)], null]),
    ("type", str "FUNCTION")]

/-- The order of members, members that no kind asks for and a value of the wrong type under a slot
    make no difference to the fault. -/
theorem shuffledFunction_reported_alike :
    Similar plainFunction shuffledFunction ∧
    ReportedAlike.{u} plainFunction shuffledFunction ∧
    (record plainFunction).fault = some (.malformed .union ⟨"right", .one⟩) := by
  have hname : Similar (obj [("type", str "NAME"), ("name", str "a")])
      (obj [("name", str "a"), ("type", str "NAME")]) :=
    .known .name rfl rfl rfl (by simp [Kind.slots])
  have hunion : Similar
      (obj [("type", str "UNION"), ("left", obj [("type", str "ANY")]), ("right", int 3)])
      (obj [("right", arr [null]), ("type", str "UNION"),
        ("left", obj [("type", str "ANY")])]) := by
    refine .known .union rfl rfl rfl ?_
    intro slot hslot
    rcases List.mem_cons.mp hslot with rfl | hslot
    · exact .node (.refl (obj [("type", str "ANY")]))
    · obtain rfl := List.mem_singleton.mp hslot
      exact .invalid
  have hfunction : Similar plainFunction shuffledFunction := by
    refine .known .function rfl rfl rfl ?_
    intro slot hslot
    rcases List.mem_cons.mp hslot with rfl | hslot
    · exact .list (.cons hname (.cons hunion .nil))
    · -- the other three slots hold nothing
      simp only [List.mem_cons, List.not_mem_nil, or_false] at hslot
      rcases hslot with rfl | rfl | rfl <;> exact .absent
  exact ⟨hfunction, similar_reported_alike.1 _ _ hfunction, by cbv⟩

end Json

end TypeTree
