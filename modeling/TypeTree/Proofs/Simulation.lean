/-
  Simulation: trees that look alike are walked alike.

  A walk sees of a node only its tag and what the slots of its kind hold.  A BISIMULATION is a
  relation between nodes, perhaps of two different types, whose related nodes agree in just that:
  their tags are equal, and each slot holds nothing, one node, a list or something invalid in both,
  with related nodes in it.  Related nodes then have related recordings: the same events, one by one
  of related nodes, and the same fault or none (`Bisimulation.record`).
-/
import Mathlib.Data.List.Forall2
import TypeTree.Proofs.Recording

namespace TypeTree

universe u v w

variable {α : Type u} {β : Type v}

/-! ## Related properties, events and recordings -/

/-- Two properties hold the same sort of thing, with related nodes in it. -/
inductive Property.Related (R : α → β → Prop) : Property α → Property β → Prop where
  | absent : Related R .absent .absent
  | node {a : α} {b : β} (h : R a b) : Related R (.node a) (.node b)
  | list {as : List α} {bs : List β} (h : List.Forall₂ R as bs) : Related R (.list as) (.list bs)
  | invalid : Related R .invalid .invalid

/-- Two entries, or two leaves, of related nodes. -/
inductive Event.Related (R : α → β → Prop) : Event α → Event β → Prop where
  | enter {a : α} {b : β} (h : R a b) : Related R (.enter a) (.enter b)
  | leave {a : α} {b : β} (h : R a b) : Related R (.leave a) (.leave b)

/-- Related events throughout, and the same end. -/
structure Recording.Related (R : α → β → Prop) (r : Recording α) (r' : Recording β) : Prop where
  events : List.Forall₂ (Event.Related R) r.events r'.events
  fault : r.fault = r'.fault

variable {R : α → β → Prop}

/-- A shape selects related nodes from related properties, or refuses both. -/
theorem Shape.select?_related (s : Shape) {p : Property α} {q : Property β}
    (h : Property.Related R p q) :
    (s.select? p = none ∧ s.select? q = none) ∨
      ∃ as bs, s.select? p = some as ∧ s.select? q = some bs ∧ List.Forall₂ R as bs := by
  cases h with
  | absent =>
    cases s with
    | one => exact .inl ⟨rfl, rfl⟩
    | optional => exact .inr ⟨[], [], rfl, rfl, .nil⟩
    | many => exact .inl ⟨rfl, rfl⟩
  | @node a b hab =>
    cases s with
    | one => exact .inr ⟨[a], [b], rfl, rfl, .cons hab .nil⟩
    | optional => exact .inr ⟨[a], [b], rfl, rfl, .cons hab .nil⟩
    | many => exact .inl ⟨rfl, rfl⟩
  | @list as bs hall =>
    cases s with
    | one => exact .inl ⟨rfl, rfl⟩
    | optional => exact .inl ⟨rfl, rfl⟩
    | many => exact .inr ⟨as, bs, rfl, rfl, hall⟩
  | invalid => cases s <;> exact .inl ⟨rfl, rfl⟩

/-- What is known of all nodes on the one side can be made part of the relation. -/
theorem Property.Related.and_left {P : α → Prop} {p : Property α} {q : Property β}
    (h : Related R p q) (hP : ∀ a ∈ p.nodes, P a) : Related (fun a b => P a ∧ R a b) p q := by
  cases h with
  | absent => exact .absent
  | node hab => exact .node ⟨hP _ List.mem_cons_self, hab⟩
  | list hall => exact .list ((List.forall₂_and_left _ _).mpr ⟨hP, hall⟩)
  | invalid => exact .invalid

theorem Recording.Related.andThen {r next : Recording α} {r' next' : Recording β}
    (h : Related R r r') (hnext : Related R next next') :
    Related R (r.andThen next) (r'.andThen next') := by
  cases hfault : r.fault with
  | none =>
    have hfault' : r'.fault = none := by rw [← h.fault, hfault]
    rw [andThen_of_none hfault, andThen_of_none hfault']
    exact ⟨List.rel_append h.events hnext.events, hnext.fault⟩
  | some f =>
    have hfault' : r'.fault = some f := by rw [← h.fault, hfault]
    rw [andThen_of_some hfault, andThen_of_some hfault']
    exact h

/-- What cannot tell related nodes apart cannot tell related events apart. -/
theorem Event.map_eq_of_related {γ : Type w} {f : α → γ} {g : β → γ}
    {es : List (Event α)} {es' : List (Event β)} (h : List.Forall₂ (Event.Related R) es es')
    (hfg : ∀ {a b}, R a b → f a = g b) :
    es.map (fun e => (e.isEnter, f e.node)) = es'.map (fun e => (e.isEnter, g e.node)) := by
  induction h with
  | nil => rfl
  | cons he _ ih =>
    rw [List.map_cons, List.map_cons, ih]
    cases he with
    | enter hab => rw [node, node, hfg hab]; rfl
    | leave hab => rw [node, node, hfg hab]; rfl

variable [Node α] [Node β]

/-! ## Bisimulations -/

/-- Related nodes have one tag, and the slots of its kind hold the same of both. -/
structure Bisimulation (R : α → β → Prop) : Prop where
  tag : ∀ {a b}, R a b → Node.tag a = Node.tag b
  property : ∀ {a b}, R a b → ∀ k : Kind, k.tag = Node.tag a → ∀ slot ∈ k.slots,
    Property.Related R (Node.property a slot.property) (Node.property b slot.property)

/-- Slots are filled alike from related properties, and fail at the same slot. -/
theorem fill_related {k : Kind} {a : α} {b : β} {slots : List Slot}
    (h : ∀ slot ∈ slots,
      Property.Related R (Node.property a slot.property) (Node.property b slot.property)) :
    (∃ f, Node.fill k a slots = .error f ∧ Node.fill k b slots = .error f) ∨
      ∃ as bs, Node.fill k a slots = .ok as ∧ Node.fill k b slots = .ok bs ∧
        List.Forall₂ R as bs := by
  induction slots with
  | nil => exact .inr ⟨[], [], rfl, rfl, .nil⟩
  | cons slot slots ih =>
    obtain ⟨hslot, hslots⟩ := List.forall_mem_cons.mp h
    simp only [Node.fill]
    rcases slot.shape.select?_related hslot with ⟨ha, hb⟩ | ⟨as, bs, ha, hb, hall⟩
    · rw [ha, hb]
      exact .inl ⟨.malformed k slot, rfl, rfl⟩
    · rw [ha, hb]
      rcases ih hslots with ⟨f, hfa, hfb⟩ | ⟨as', bs', hfa, hfb, hall'⟩
      · rw [hfa, hfb]
        exact .inl ⟨f, rfl, rfl⟩
      · rw [hfa, hfb]
        exact .inr ⟨as ++ as', bs ++ bs', rfl, rfl, List.rel_append hall hall'⟩

/-- Siblings: rows of related trees have related recordings if the trees have. -/
theorem recordAll_related {as : List α} {bs : List β} (h : List.Forall₂ R as bs)
    (hrec : ∀ a ∈ as, ∀ {b : β}, R a b → Recording.Related R (record a) (record b)) :
    Recording.Related R (recordAll as) (recordAll bs) := by
  induction h with
  | nil => exact ⟨.nil, rfl⟩
  | cons hab _ ih =>
    obtain ⟨hfirst, hrest⟩ := List.forall_mem_cons.mp hrec
    exact (hfirst hab).andThen (ih hrest)

namespace Bisimulation

theorem kind? (hR : Bisimulation R) {a : α} {b : β} (hab : R a b) :
    Node.kind? a = Node.kind? b := by
  rw [Node.kind?_eq, Node.kind?_eq, hR.tag hab]

/-- Related nodes have related children, or the same fault. -/
theorem childrenAs (hR : Bisimulation R) {a : α} {b : β} (hab : R a b) {k : Kind}
    (hk : Node.kind? a = some k) :
    (∃ f, Node.childrenAs k a = .error f ∧ Node.childrenAs k b = .error f) ∨
      ∃ as bs, Node.childrenAs k a = .ok as ∧ Node.childrenAs k b = .ok bs ∧
        List.Forall₂ R as bs :=
  fill_related (hR.property hab k (Node.kind?_eq_some_iff.mp hk))

/-- Related nodes have related recordings.  The induction is on the one tree; the other follows it
    step by step. -/
theorem record (hR : Bisimulation R) {a : α} :
    ∀ {b : β}, R a b → Recording.Related R (record a) (record b) := by
  induction a using Node.children_induction with
  | unknown a hk =>
    intro b hab
    have hkb : Node.kind? b = none := by rw [← hR.kind? hab, hk]
    rw [record_of_unknown hk, record_of_unknown hkb, hR.tag hab]
    exact ⟨.nil, rfl⟩
  | malformed a k f hk hc =>
    intro b hab
    have hkb : Node.kind? b = some k := by rw [← hR.kind? hab, hk]
    rcases hR.childrenAs hab hk with ⟨g, ha, hb⟩ | ⟨as, bs, ha, -, -⟩
    · obtain rfl : f = g := Except.error.inj (hc.symm.trans ha)
      rw [record_of_malformed hk hc, record_of_malformed hkb hb]
      exact ⟨.cons (.enter hab) .nil, rfl⟩
    · rw [hc] at ha
      exact absurd ha (by simp)
  | filled a k cs hk hc ih =>
    intro b hab
    have hkb : Node.kind? b = some k := by rw [← hR.kind? hab, hk]
    rcases hR.childrenAs hab hk with ⟨g, ha, -⟩ | ⟨as, bs, ha, hb, hall⟩
    · rw [hc] at ha
      exact absurd ha (by simp)
    · obtain rfl : cs = as := Except.ok.inj (hc.symm.trans ha)
      rw [record_of_filled hk hc, record_of_filled hkb hb]
      have hrow := recordAll_related hall ih
      have henter : Recording.Related R ⟨[.enter a], none⟩ ⟨[.enter b], none⟩ :=
        ⟨.cons (.enter hab) .nil, rfl⟩
      have hleave : Recording.Related R ⟨[.leave a], none⟩ ⟨[.leave b], none⟩ :=
        ⟨.cons (.leave hab) .nil, rfl⟩
      exact henter.andThen (hrow.andThen hleave)

end Bisimulation

end TypeTree
