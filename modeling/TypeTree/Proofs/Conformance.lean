/-
  Conformance: which trees a walk gets through, and what stops it on the others.

  A tree is CONFORMANT if every node in it is sound.  A walk ends well on the conformant trees and
  on no others.  On any other tree it ends with the fault of the FIRST node that offends, in the
  order in which a reader meets the nodes: a node before what lies below it, and below a node slot
  after slot and, in a list, item after item.

  That order is an order of places.  A PATH is a list of numbers, each of which picks one of the
  nodes held by the node reached so far (`Node.at?`).  Paths are compared as words in a dictionary,
  so that a path comes before its extensions: `q < p` says that the node at `q` is met before the
  node at `p`.

    * `fault_eq_none_iff`     no fault exactly on conformant trees;
    * `fault_eq_some_iff`     a fault exactly where it is the fault of a first offence;
    * `walk_fault_correct`    both, for every walk.
-/
import TypeTree.Expr
import TypeTree.Json.Node
import TypeTree.Proofs.Recording

namespace TypeTree

universe u v

variable {α : Type u} [Node α]

namespace Node

/-! ## Paths -/

/-- The node that a path leads to, if it leads to one. -/
def at? : α → List Nat → Option α
  | n, [] => some n
  | n, i :: p => (held n)[i]?.bind fun c => at? c p

theorem at?_cons_iff {n m : α} {i : Nat} {p : List Nat} :
    at? n (i :: p) = some m ↔ ∃ c, (held n)[i]? = some c ∧ at? c p = some m :=
  Option.bind_eq_some_iff

/-- What holds at every path holds of the node itself and at every path from each node it holds. -/
theorem forall_at_iff {P : α → Prop} {n : α} :
    (∀ p m, at? n p = some m → P m) ↔
      P n ∧ ∀ c ∈ held n, ∀ p m, at? c p = some m → P m := by
  constructor
  · intro h
    refine ⟨h [] n rfl, ?_⟩
    intro c hc p m hm
    obtain ⟨i, hi⟩ := List.getElem?_of_mem hc
    exact h (i :: p) m (at?_cons_iff.mpr ⟨c, hi, hm⟩)
  · rintro ⟨hn, hheld⟩ p m hm
    cases p with
    | nil =>
      cases hm
      exact hn
    | cons i p =>
      obtain ⟨c, hi, hm⟩ := at?_cons_iff.mp hm
      exact hheld c (List.mem_of_getElem? hi) p m hm

/-! ## Conformant trees -/

/-- The tag names a kind, the properties fit the slots of that kind, and what the slots hold is
    conformant again. -/
inductive Conformant : α → Prop where
  | intro {n : α} (k : Kind) (known : k.tag = tag n) (fit : FitsAll n k.slots)
      (below : ∀ slot ∈ k.slots, ∀ c ∈ (property n slot.property).nodes, Conformant c) :
      Conformant n

/-- A tree conforms if its root has its children and each of them conforms. -/
theorem conformant_iff {n : α} : Conformant n ↔ Sound n ∧ ∀ c ∈ held n, Conformant c := by
  constructor
  · rintro ⟨k, known, fit, below⟩
    refine ⟨⟨k, known, fit⟩, ?_⟩
    intro c hc
    rw [held_eq known] at hc
    obtain ⟨slot, hslot, hc⟩ := List.mem_flatMap.mp hc
    exact below slot hslot c hc
  · rintro ⟨⟨k, known, fit⟩, hheld⟩
    refine .intro k known fit ?_
    intro slot hslot c hc
    exact hheld c (mem_held_iff.mpr ⟨k, known, slot, hslot, hc⟩)

/-- Conformance is the only thing that a node has exactly if it is sound and all it holds have it
    too. -/
theorem iff_conformant {P : α → Prop} (h : ∀ n, P n ↔ Sound n ∧ ∀ c ∈ held n, P c) (n : α) :
    P n ↔ Conformant n := by
  induction n using held_induction with
  | step n ih =>
    rw [h, conformant_iff]
    constructor
    · rintro ⟨hn, hheld⟩
      exact ⟨hn, fun c hc => (ih c hc).mp (hheld c hc)⟩
    · rintro ⟨hn, hheld⟩
      exact ⟨hn, fun c hc => (ih c hc).mpr (hheld c hc)⟩

/-- A tree is conformant exactly if no path leads to a node that offends. -/
theorem conformant_iff_forall_at {n : α} : Conformant n ↔ ∀ p m, at? n p = some m → Sound m :=
  (iff_conformant (fun _ => forall_at_iff) n).symm

/-! ## The first offence -/

/-- Below `n`, the path `p` leads to the node `m`, which offends by the fault `f`, and no node that
    is met before it offends. -/
structure FirstOffence (n : α) (p : List Nat) (m : α) (f : Fault) : Prop where
  stands : at? n p = some m
  offends : Offends m f
  first : ∀ q < p, ∀ x, at? n q = some x → Sound x

theorem firstOffence_nil_iff {n m : α} {f : Fault} :
    FirstOffence n [] m f ↔ m = n ∧ Offends n f := by
  constructor
  · intro h
    obtain rfl : n = m := Option.some.inj h.stands
    exact ⟨rfl, h.offends⟩
  · rintro ⟨rfl, hf⟩
    exact ⟨rfl, hf, fun q hq => absurd hq (List.not_lt_nil q)⟩

/-- An offence below `n` is the first one if `n` is sound, all held nodes before the one it lies in
    are conformant, and it is the first one in there. -/
theorem firstOffence_cons_iff {n m : α} {i : Nat} {p : List Nat} {f : Fault} :
    FirstOffence n (i :: p) m f ↔
      Sound n ∧ ∃ before c after, held n = before ++ c :: after ∧ before.length = i ∧
        (∀ b ∈ before, Conformant b) ∧ FirstOffence c p m f := by
  constructor
  · intro h
    refine ⟨h.first [] (List.nil_lt_cons i p) n rfl, ?_⟩
    obtain ⟨c, hi, hm⟩ := at?_cons_iff.mp h.stands
    obtain ⟨hlt, hget⟩ := List.getElem?_eq_some_iff.mp hi
    refine ⟨(held n).take i, c, (held n).drop (i + 1), ?_, ?_, ?_, ?_⟩
    · rw [← hget, List.getElem_cons_drop, List.take_append_drop]
    · exact List.length_take_of_le (Nat.le_of_lt hlt)
    · -- a path into an earlier held node comes before the offence
      intro b hb
      obtain ⟨j, hj⟩ := List.getElem?_of_mem hb
      have hji : j < i := by
        have := (List.getElem?_eq_some_iff.mp hj).1
        rw [List.length_take] at this
        omega
      rw [List.getElem?_take_of_lt hji] at hj
      refine conformant_iff_forall_at.mpr fun q x hx => ?_
      exact h.first (j :: q) (List.cons_lt_cons_iff.mpr (.inl hji)) x
        (at?_cons_iff.mpr ⟨b, hj, hx⟩)
    · refine ⟨hm, h.offends, fun q hq x hx => ?_⟩
      exact h.first (i :: q) (List.cons_lt_cons_iff.mpr (.inr ⟨rfl, hq⟩)) x
        (at?_cons_iff.mpr ⟨c, hi, hx⟩)
  · rintro ⟨hn, before, c, after, hheld, rfl, hbefore, h⟩
    have hc : (held n)[before.length]? = some c := by rw [hheld]; simp
    refine ⟨at?_cons_iff.mpr ⟨c, hc, h.stands⟩, h.offends, fun q hq x hx => ?_⟩
    cases q with
    | nil =>
      obtain rfl : n = x := Option.some.inj hx
      exact hn
    | cons j q =>
      obtain ⟨b, hj, hx⟩ := at?_cons_iff.mp hx
      rcases List.cons_lt_cons_iff.mp hq with hlt | ⟨rfl, hqp⟩
      · -- in an earlier held node
        rw [hheld, List.getElem?_append_left hlt] at hj
        exact conformant_iff_forall_at.mp (hbefore b (List.mem_of_getElem? hj)) q x hx
      · -- in the same held node, by a path that comes before
        obtain rfl : c = b := Option.some.inj (hc.symm.trans hj)
        exact h.first q hqp x hx

end Node

/-! ## Faults of walks -/

open Node

/-- A node without fault is entered, then its children are walked, then it is left. -/
theorem record_of_sound {n : α} (h : Sound n) : record n = recordFilled n (held n) := by
  obtain ⟨k, known, fit⟩ := h
  refine record_of_filled (kind?_eq_some_iff.mpr known) ?_
  rw [childrenAs, fill_eq_ok_iff]
  exact ⟨fit, held_eq known⟩

/-- A node with an unknown tag is not entered. -/
theorem record_of_unknownTag {n : α} {t : String} (h : Offends n (.unknownTag t)) :
    record n = ⟨[], some (.unknownTag t)⟩ := by
  cases h with
  | unknownTag unknown => exact record_of_unknown (kind?_eq_none_iff.mpr unknown)

/-- A node of a known kind that does not fit its slots is entered and nothing more. -/
theorem record_of_misfit {n : α} {k : Kind} {slot : Slot} (h : Offends n (.malformed k slot)) :
    record n = ⟨[.enter n], some (.malformed k slot)⟩ := by
  have hc := children_eq_error_iff.mpr h
  cases h with
  | malformed known order fit misfit =>
    rw [children_of_kind known] at hc
    exact record_of_malformed (kind?_eq_some_iff.mpr known) hc

/-- A node that gives offence ends the walk with that offence. -/
theorem fault_of_offends {n : α} {f : Fault} (h : Offends n f) : (record n).fault = some f := by
  cases f with
  | unknownTag t => rw [record_of_unknownTag h]
  | malformed k slot => rw [record_of_misfit h]

/-- A tree has no fault exactly if its root is sound and no tree it holds has one. -/
theorem fault_eq_none_iff_held {n : α} :
    (record n).fault = none ↔ Sound n ∧ ∀ c ∈ held n, (record c).fault = none := by
  constructor
  · intro h
    have hn : Sound n := sound_iff_not_offends.mpr fun f hf => by
      rw [fault_of_offends hf] at h
      exact absurd h (by simp)
    refine ⟨hn, ?_⟩
    rcases fault_cases (held n) with hall | ⟨before, c, after, f, hheld, hbefore, hc⟩
    · exact hall
    · rw [record_of_sound hn, hheld, recordFilled_of_some n hbefore hc] at h
      exact absurd h (by simp)
  · rintro ⟨hn, hall⟩
    rw [record_of_sound hn, recordFilled_of_none n hall]

/-- A walk ends well exactly on conformant trees. -/
theorem fault_eq_none_iff {n : α} : (record n).fault = none ↔ Conformant n :=
  iff_conformant (fun _ => fault_eq_none_iff_held) n

/-- The recording of a tree whose first fault lies in the held node `c`: everything before `c` is
    walked to its end, and `c` is walked as far as the fault. -/
theorem record_of_held_fault {n c : α} {before after : List α} {f : Fault} (hn : Sound n)
    (hheld : held n = before ++ c :: after) (hbefore : ∀ b ∈ before, Conformant b)
    (hc : (record c).fault = some f) :
    record n =
      ⟨.enter n :: ((before.flatMap fun b => (record b).events) ++ (record c).events),
        some f⟩ := by
  rw [record_of_sound hn, hheld]
  exact recordFilled_of_some n (fun b hb => fault_eq_none_iff.mpr (hbefore b hb)) hc

/-- A first offence ends the walk.  The induction is on the path that leads to it. -/
theorem fault_of_firstOffence {p : List Nat} : ∀ {n m : α} {f : Fault},
    FirstOffence n p m f → (record n).fault = some f := by
  induction p with
  | nil =>
    intro n m f h
    exact fault_of_offends (firstOffence_nil_iff.mp h).2
  | cons i p ih =>
    intro n m f h
    obtain ⟨hn, before, c, after, hheld, -, hbefore, hc⟩ := firstOffence_cons_iff.mp h
    rw [record_of_held_fault hn hheld hbefore (ih hc)]

/-- A walk that does not end well has come to a first offence. -/
theorem exists_firstOffence {n : α} : ∀ {f : Fault}, (record n).fault = some f →
    ∃ p m, FirstOffence n p m f := by
  induction n using held_induction with
  | step n ih =>
    intro f h
    cases hchildren : children n with
    | error g =>
      -- the node itself offends, and nothing is met before it
      have hg := children_eq_error_iff.mp hchildren
      rw [fault_of_offends hg] at h
      obtain rfl : g = f := Option.some.inj h
      exact ⟨[], n, firstOffence_nil_iff.mpr ⟨rfl, hg⟩⟩
    | ok cs =>
      have hn := (children_eq_ok_iff.mp hchildren).1
      rcases fault_cases (held n) with hall | ⟨before, c, after, g, hheld, hbefore, hc⟩
      · rw [fault_eq_none_iff_held.mpr ⟨hn, hall⟩] at h
        exact absurd h (by simp)
      · have hconf : ∀ b ∈ before, Conformant b := fun b hb => fault_eq_none_iff.mp (hbefore b hb)
        rw [record_of_held_fault hn hheld hconf hc] at h
        obtain rfl : g = f := Option.some.inj h
        obtain ⟨p, m, hm⟩ := ih c (by rw [hheld]; simp) hc
        exact ⟨before.length :: p, m, firstOffence_cons_iff.mpr
          ⟨hn, before, c, after, hheld, rfl, hconf, hm⟩⟩

/-- The walk has the fault of the first offence on its way, and of no later one. -/
theorem fault_eq_some_iff {n : α} {f : Fault} :
    (record n).fault = some f ↔ ∃ p m, FirstOffence n p m f := by
  constructor
  · exact exists_firstOffence
  · rintro ⟨p, m, h⟩
    exact fault_of_firstOffence h

/-- A built node has a kind, so no walk of built nodes comes to an unknown tag. -/
theorem Expr.fault_ne_unknownTag (e : Expr) (t : String) :
    (record e).fault ≠ some (.unknownTag t) := by
  intro h
  obtain ⟨p, m, hm⟩ := fault_eq_some_iff.mp h
  cases hm.offends with
  | unknownTag unknown => exact unknown m.kind rfl

/-- Every walk, whatever its visitor does, ends well exactly on the conformant trees, and on all
    others it ends with the fault of the first node that offends.  Of built nodes none offends by
    its tag. -/
theorem walk_fault_correct :
    (∀ {α : Type u} [Node α] {σ : Type v} (v : Visitor α σ) (n : α) (s : σ),
      ((walk v n s).fault = none ↔ Conformant n) ∧
      ∀ f, (walk v n s).fault = some f ↔ ∃ p m, FirstOffence n p m f) ∧
    ∀ {σ : Type v} (v : Visitor Expr σ) (e : Expr) (s : σ) (t : String),
      (walk v e s).fault ≠ some (.unknownTag t) := by
  constructor
  · intro α _ σ v n s
    rw [walk_eq_play]
    exact ⟨fault_eq_none_iff, fun f => fault_eq_some_iff⟩
  · intro σ v e s t
    rw [walk_eq_play]
    exact e.fault_ne_unknownTag t

end TypeTree
