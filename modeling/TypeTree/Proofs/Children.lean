/-
  Children, as the schema has them.

  `Node.children` looks at one slot after another and stops at the first that is not filled as it
  must be.  This file says what that comes to, without going through the slots one by one: a
  property FITS a shape or it does not (`Shape.Fits`); a node is SOUND if its tag names a kind and
  its properties fit all slots of that kind; any other node OFFENDS, by its tag or by the first slot
  that does not fit.

    * `children_eq_ok_iff`     a sound node has children, and they are the nodes its slots hold;
    * `children_eq_error_iff`  an offending node has none, and the fault is the one it offends by;
    * `children_induction`     what passes from the children to their parent holds of every node.
-/
import TypeTree.Node

namespace TypeTree

universe u

variable {α : Type u}

/-! ## Shapes and properties -/

/-- The property holds what a slot of this shape asks for. -/
inductive Shape.Fits : Shape → Property α → Prop where
  | one (n : α) : Fits .one (.node n)
  | present (n : α) : Fits .optional (.node n)
  | missing : Fits .optional .absent
  | many (ns : List α) : Fits .many (.list ns)

/-- A shape selects the nodes of a property exactly if the property fits it. -/
theorem Shape.select?_eq_some_iff {s : Shape} {p : Property α} {ns : List α} :
    s.select? p = some ns ↔ s.Fits p ∧ ns = p.nodes := by
  constructor
  · intro h
    refine ⟨?_, select?_eq_nodes h⟩
    cases s <;> cases p <;> simp [select?] at h <;> constructor
  · rintro ⟨hfits, rfl⟩
    cases hfits <;> rfl

theorem Shape.select?_eq_none_iff {s : Shape} {p : Property α} :
    s.select? p = none ↔ ¬ s.Fits p := by
  constructor
  · intro h hfits
    have := select?_eq_some_iff.mpr ⟨hfits, rfl⟩
    rw [h] at this
    exact absurd this (by simp)
  · intro h
    cases hs : s.select? p with
    | none => rfl
    | some ns => exact absurd (select?_eq_some_iff.mp hs).1 h

namespace Node

variable [Node α]

/-! ## Tags and kinds -/

/-- A node is of the kind that has its tag. -/
theorem kind?_eq_some_iff {n : α} {k : Kind} : kind? n = some k ↔ k.tag = tag n := by
  rw [kind?_eq]
  constructor
  · exact Kind.tag_of_ofTag?
  · intro h
    rw [← h]
    exact Kind.ofTag?_tag k

/-- A node is of no kind if no kind has its tag. -/
theorem kind?_eq_none_iff {n : α} : kind? n = none ↔ ∀ k : Kind, k.tag ≠ tag n := by
  constructor
  · intro h k hk
    rw [kind?_eq_some_iff.mpr hk] at h
    exact absurd h (by simp)
  · intro h
    cases hk : kind? n with
    | none => rfl
    | some k => exact absurd (kind?_eq_some_iff.mp hk) (h k)

/-! ## Sound and offending nodes -/

/-- The properties of `n` fit these slots. -/
def FitsAll (n : α) (slots : List Slot) : Prop :=
  ∀ slot ∈ slots, slot.shape.Fits (property n slot.property)

/-- The tag names a kind, and the properties fit its slots.  Nothing is said of the nodes below. -/
def Sound (n : α) : Prop :=
  ∃ k : Kind, k.tag = tag n ∧ FitsAll n k.slots

/-- What is wrong with a node itself, whatever is wrong with the nodes below.  A tag that names no
    kind comes before everything else, and of the slots that do not fit the first one counts. -/
inductive Offends (n : α) : Fault → Prop where
  | unknownTag (unknown : ∀ k : Kind, k.tag ≠ tag n) : Offends n (.unknownTag (tag n))
  | malformed {k : Kind} {before after : List Slot} {slot : Slot} (known : k.tag = tag n)
      (order : k.slots = before ++ slot :: after) (fit : FitsAll n before)
      (misfit : ¬ slot.shape.Fits (property n slot.property)) : Offends n (.malformed k slot)

/-- The nodes that these slots hold, in the order of the slots. -/
def heldIn (n : α) (slots : List Slot) : List α :=
  slots.flatMap fun slot => (property n slot.property).nodes

/-- The nodes that the slots of `n` hold: slot after slot and, within a list, in the order of the
    list.  A node with an unknown tag has no slots. -/
def held (n : α) : List α :=
  match kind? n with
  | none => []
  | some k => heldIn n k.slots

theorem held_eq {n : α} {k : Kind} (h : k.tag = tag n) : held n = heldIn n k.slots := by
  rw [held, kind?_eq_some_iff.mpr h]

/-- A node holds what stands in a property that is a slot of its kind, and nothing else. -/
theorem mem_held_iff {n c : α} :
    c ∈ held n ↔ ∃ k : Kind, k.tag = tag n ∧
      ∃ slot ∈ k.slots, c ∈ (property n slot.property).nodes := by
  constructor
  · intro h
    cases hk : kind? n with
    | none =>
      rw [held, hk] at h
      exact absurd h List.not_mem_nil
    | some k =>
      have htag := kind?_eq_some_iff.mp hk
      rw [held_eq htag] at h
      exact ⟨k, htag, List.mem_flatMap.mp h⟩
  · rintro ⟨k, htag, hslot⟩
    rw [held_eq htag]
    exact List.mem_flatMap.mpr hslot

/-! ## The slots, one after another -/

/-- Slots are filled exactly if every property fits its slot, and the children come slot by slot. -/
theorem fill_eq_ok_iff {k : Kind} {n : α} {slots : List Slot} {cs : List α} :
    fill k n slots = .ok cs ↔ FitsAll n slots ∧ cs = heldIn n slots := by
  induction slots generalizing cs with
  | nil => simp [fill, FitsAll, heldIn, eq_comm]
  | cons slot slots ih =>
    rw [fill, FitsAll, List.forall_mem_cons, heldIn, List.flatMap_cons]
    cases hs : slot.shape.select? (property n slot.property) with
    | none =>
      have hmisfit := Shape.select?_eq_none_iff.mp hs
      simp [hmisfit]
    | some ns =>
      obtain ⟨hfits, rfl⟩ := Shape.select?_eq_some_iff.mp hs
      cases hmore : fill k n slots with
      | error f =>
        -- the rest does not fit: by induction it would have been filled otherwise
        have hrest : ¬ FitsAll n slots := by
          intro h
          rw [ih.mpr ⟨h, rfl⟩] at hmore
          exact absurd hmore (by simp)
        constructor
        · intro h
          exact absurd h (by simp)
        · rintro ⟨⟨_, h⟩, _⟩
          exact absurd h hrest
      | ok more =>
        obtain ⟨hrest, rfl⟩ := ih.mp hmore
        constructor
        · intro h
          cases h
          exact ⟨⟨hfits, hrest⟩, rfl⟩
        · rintro ⟨_, rfl⟩
          rfl

/-- Slots fail at the first one that its property does not fit. -/
theorem fill_eq_error_iff {k : Kind} {n : α} {slots : List Slot} {f : Fault} :
    fill k n slots = .error f ↔
      ∃ before slot after, slots = before ++ slot :: after ∧ FitsAll n before ∧
        ¬ slot.shape.Fits (property n slot.property) ∧ f = .malformed k slot := by
  induction slots with
  | nil => simp [fill]
  | cons slot slots ih =>
    rw [fill]
    cases hs : slot.shape.select? (property n slot.property) with
    | none =>
      have hmisfit := Shape.select?_eq_none_iff.mp hs
      constructor
      · intro h
        cases h
        exact ⟨[], slot, slots, rfl, by simp [FitsAll], hmisfit, rfl⟩
      · rintro ⟨before, slot', after, horder, hfit, _, rfl⟩
        cases before with
        | nil =>
          cases horder
          rfl
        | cons first before =>
          cases horder
          exact absurd (hfit slot List.mem_cons_self) hmisfit
    | some ns =>
      have hfits := (Shape.select?_eq_some_iff.mp hs).1
      -- the first misfit is no longer looked for here but among the slots that follow
      have hlater : (∃ before slot' after, slots = before ++ slot' :: after ∧ FitsAll n before ∧
            ¬ slot'.shape.Fits (property n slot'.property) ∧ f = .malformed k slot') ↔
          ∃ before slot' after, slot :: slots = before ++ slot' :: after ∧ FitsAll n before ∧
            ¬ slot'.shape.Fits (property n slot'.property) ∧ f = .malformed k slot' := by
        constructor
        · rintro ⟨before, slot', after, rfl, hfit, hrest⟩
          exact ⟨slot :: before, slot', after, rfl, List.forall_mem_cons.mpr ⟨hfits, hfit⟩, hrest⟩
        · rintro ⟨before, slot', after, horder, hfit, hmisfit, rfl⟩
          cases before with
          | nil =>
            cases horder
            exact absurd hfits hmisfit
          | cons first before =>
            cases horder
            exact ⟨before, slot', after, rfl, (List.forall_mem_cons.mp hfit).2, hmisfit, rfl⟩
      rw [← hlater, ← ih]
      cases fill k n slots <;> simp

/-! ## Children -/

theorem children_of_kind {n : α} {k : Kind} (h : k.tag = tag n) : children n = childrenAs k n := by
  rw [children, kind?_eq_some_iff.mpr h]

/-- A sound node has children, and they are the nodes that its slots hold. -/
theorem children_eq_ok_iff {n : α} {cs : List α} :
    children n = .ok cs ↔ Sound n ∧ cs = held n := by
  constructor
  · intro h
    cases hk : kind? n with
    | none => simp [children, hk] at h
    | some k =>
      have htag := kind?_eq_some_iff.mp hk
      rw [children_of_kind htag, childrenAs, fill_eq_ok_iff] at h
      exact ⟨⟨k, htag, h.1⟩, by rw [h.2, held_eq htag]⟩
  · rintro ⟨⟨k, htag, hfits⟩, rfl⟩
    rw [children_of_kind htag, childrenAs, fill_eq_ok_iff]
    exact ⟨hfits, held_eq htag⟩

/-- A node without children to go on with is one that offends. -/
theorem children_eq_error_iff {n : α} {f : Fault} : children n = .error f ↔ Offends n f := by
  constructor
  · intro h
    cases hk : kind? n with
    | none =>
      have : f = .unknownTag (tag n) := by simpa [children, hk, eq_comm] using h
      rw [this]
      exact .unknownTag (kind?_eq_none_iff.mp hk)
    | some k =>
      have htag := kind?_eq_some_iff.mp hk
      rw [children_of_kind htag, childrenAs, fill_eq_error_iff] at h
      obtain ⟨before, slot, after, horder, hfit, hmisfit, rfl⟩ := h
      exact .malformed htag horder hfit hmisfit
  · intro h
    cases h with
    | unknownTag unknown => rw [children, kind?_eq_none_iff.mpr unknown]
    | malformed known order fit misfit =>
      rw [children_of_kind known, childrenAs, fill_eq_error_iff]
      exact ⟨_, _, _, order, fit, misfit, rfl⟩

/-- A node has its children exactly if it gives no offence. -/
theorem sound_iff_not_offends {n : α} : Sound n ↔ ∀ f, ¬ Offends n f := by
  constructor
  · intro h f hf
    have hok := children_eq_ok_iff.mpr ⟨h, rfl⟩
    rw [children_eq_error_iff.mpr hf] at hok
    exact absurd hok (by simp)
  · intro h
    cases hc : children n with
    | error f => exact absurd (children_eq_error_iff.mp hc) (h f)
    | ok cs => exact (children_eq_ok_iff.mp hc).1

/-! ## Induction from the children -/

/-- Children are lower than their parent, so a walk ends. -/
theorem height_lt_of_mem_held {n c : α} (h : c ∈ held n) : height c < height n := by
  obtain ⟨_, _, slot, _, hc⟩ := mem_held_iff.mp h
  exact height_lt slot.property hc

/-- To prove something of every node, prove it of a node of whose held nodes it is known. -/
theorem held_induction {motive : α → Prop}
    (step : ∀ n, (∀ c ∈ held n, motive c) → motive n) (n : α) : motive n :=
  step n fun c _ => held_induction step c
termination_by height n
decreasing_by exact height_lt_of_mem_held ‹_›

/-- The three ways in which a walk can go on from a node, with the children of a sound node taken
    care of. -/
theorem children_induction {motive : α → Prop}
    (unknown : ∀ n, kind? n = none → motive n)
    (malformed : ∀ n k f, kind? n = some k → childrenAs k n = .error f → motive n)
    (filled : ∀ n k cs, kind? n = some k → childrenAs k n = .ok cs →
      (∀ c ∈ cs, motive c) → motive n) (n : α) : motive n := by
  refine held_induction ?_ n
  intro n ih
  cases hk : kind? n with
  | none => exact unknown n hk
  | some k =>
    cases hc : childrenAs k n with
    | error f => exact malformed n k f hk hc
    | ok cs =>
      have hheld : cs = held n := by
        rw [held_eq (kind?_eq_some_iff.mp hk)]
        exact (fill_eq_ok_iff.mp hc).2
      subst hheld
      exact filled n k (held n) hk hc ih

end Node

end TypeTree
