/-
  Nesting: a walk leaves nodes in the reverse of the order in which it entered them.

  The events of a walk are replayed on a stack: an entry pushes its node, a leave pops it.  A leave
  that finds another node on top, or no node at all, has no replay (`Replays`).  Every recording has
  one, also a recording that a fault cut short, and the stack it ends with shows how far the walk
  had come: nothing is left open by a walk that ends well, and on any other tree what is left open
  is the way down to the first offence.

  Completed trees leave the stack as they found it (`replays_of_conformant`), so all that was walked
  before the offence cancels out, and what remains is one entry for each step of the path that leads
  to it (`replays_of_firstOffence`).
-/
import TypeTree.Proofs.Conformance

namespace TypeTree

universe u

variable {α : Type u}

/-! ## Replaying events on a stack -/

/-- `Replays st es st'`: the events `es` lead from the stack `st` to the stack `st'`.  The top of a
    stack is its first node. -/
inductive Replays : List α → List (Event α) → List α → Prop where
  | nil (st : List α) : Replays st [] st
  | enter {n : α} {st st' : List α} {es : List (Event α)} (rest : Replays (n :: st) es st') :
      Replays st (.enter n :: es) st'
  | leave {n : α} {st st' : List α} {es : List (Event α)} (rest : Replays st es st') :
      Replays (n :: st) (.leave n :: es) st'

namespace Replays

/-- Replays follow one another if the second starts where the first one ends. -/
theorem append {st mid st' : List α} {es fs : List (Event α)} (h : Replays st es mid)
    (h' : Replays mid fs st') : Replays st (es ++ fs) st' := by
  induction h with
  | nil => exact h'
  | enter _ ih => exact .enter (ih h')
  | leave _ ih => exact .leave (ih h')

/-- Part of the way leads to some stack. -/
theorem exists_mid {es fs : List (Event α)} : ∀ {st st' : List α},
    Replays st (es ++ fs) st' → ∃ mid, Replays st es mid ∧ Replays mid fs st' := by
  induction es with
  | nil => exact fun {st st'} h => ⟨st, .nil st, h⟩
  | cons e es ih =>
    intro st st' h
    cases h with
    | enter rest =>
      obtain ⟨mid, hes, hfs⟩ := ih rest
      exact ⟨mid, .enter hes, hfs⟩
    | leave rest =>
      obtain ⟨mid, hes, hfs⟩ := ih rest
      exact ⟨mid, .leave hes, hfs⟩

/-- Events lead to one stack only. -/
theorem unique {st a b : List α} {es : List (Event α)} (ha : Replays st es a)
    (hb : Replays st es b) : a = b := by
  induction ha with
  | nil =>
    cases hb
    rfl
  | enter _ ih =>
    cases hb with
    | enter rest => exact ih rest
  | leave _ ih =>
    cases hb with
    | leave rest => exact ih rest

/-- A row of trees cancels out if each of them does. -/
theorem flatMap {ns : List α} {es : α → List (Event α)}
    (h : ∀ n ∈ ns, ∀ st, Replays st (es n) st) (st : List α) : Replays st (ns.flatMap es) st := by
  induction ns with
  | nil => exact .nil st
  | cons n ns ih =>
    obtain ⟨hn, hns⟩ := List.forall_mem_cons.mp h
    rw [List.flatMap_cons]
    exact (hn st).append (ih hns)

end Replays

variable [Node α]

open Node

/-! ## Walks that end well -/

/-- A tree that conforms is entered and left around all of its children. -/
theorem record_of_conformant {n : α} (h : Conformant n) :
    record n = ⟨.enter n :: (((held n).flatMap fun c => (record c).events) ++ [.leave n]),
      none⟩ := by
  obtain ⟨hn, hheld⟩ := conformant_iff.mp h
  rw [record_of_sound hn]
  exact recordFilled_of_none n fun c hc => fault_eq_none_iff.mpr (hheld c hc)

/-- A completed tree leaves the stack as it found it. -/
theorem replays_of_conformant {n : α} : Conformant n → ∀ st, Replays st (record n).events st := by
  induction n using held_induction with
  | step n ih =>
    intro h st
    have hheld := (conformant_iff.mp h).2
    rw [record_of_conformant h]
    refine .enter ((Replays.flatMap ?_ (n :: st)).append (.leave (.nil st)))
    exact fun c hc => ih c hc (hheld c hc)

/-! ## Walks that end early -/

namespace Node

/-- The nodes passed on the way to the end of a path, from the root down; the node at its end is not
    among them. -/
def ancestors : α → List Nat → List α
  | _, [] => []
  | n, i :: p => n :: (held n)[i]?.elim [] fun c => ancestors c p

theorem ancestors_cons {n c : α} {i : Nat} {p : List Nat} (h : (held n)[i]? = some c) :
    ancestors n (i :: p) = n :: ancestors c p := by
  rw [ancestors, h]
  rfl

/-- What a walk leaves open when it ends with a fault of the node `m` at the end of `p`: the
    ancestors of `m` and, unless its tag is unknown, `m` itself. -/
def opened (n : α) (p : List Nat) (m : α) : Fault → List α
  | .unknownTag _ => (ancestors n p).reverse
  | .malformed _ _ => m :: (ancestors n p).reverse

/-- Below a child, the parent is open in addition. -/
theorem opened_cons {n c m : α} {i : Nat} {p : List Nat} (h : (held n)[i]? = some c) (f : Fault) :
    opened n (i :: p) m f = opened c p m f ++ [n] := by
  cases f <;> simp [opened, ancestors_cons h]

end Node

/-- A walk that a first offence ends leaves open the way to it.  The induction is on that way: one
    step of the path is one entry that stays on the stack. -/
theorem replays_of_firstOffence {p : List Nat} : ∀ {n m : α} {f : Fault},
    FirstOffence n p m f → ∀ st, Replays st (record n).events (opened n p m f ++ st) := by
  induction p with
  | nil =>
    intro n m f h st
    obtain ⟨rfl, hf⟩ := firstOffence_nil_iff.mp h
    cases f with
    | unknownTag t =>
      rw [record_of_unknownTag hf]
      exact .nil st
    | malformed k slot =>
      rw [record_of_misfit hf]
      exact .enter (.nil (m :: st))
  | cons i p ih =>
    intro n m f h st
    obtain ⟨hn, before, c, after, hheld, rfl, hbefore, hc⟩ := firstOffence_cons_iff.mp h
    have hget : (held n)[before.length]? = some c := by rw [hheld]; simp
    rw [record_of_held_fault hn hheld hbefore (fault_of_firstOffence hc), opened_cons hget,
      List.append_assoc]
    refine .enter (Replays.append ?_ (ih hc (n :: st)))
    exact Replays.flatMap (fun b hb => replays_of_conformant (hbefore b hb)) (n :: st)

/-- Every recording has a replay. -/
theorem exists_replays (n : α) : ∃ st, Replays [] (record n).events st := by
  cases h : (record n).fault with
  | none => exact ⟨[], replays_of_conformant (fault_eq_none_iff.mp h) []⟩
  | some f =>
    obtain ⟨p, m, hm⟩ := fault_eq_some_iff.mp h
    exact ⟨_, replays_of_firstOffence hm []⟩

/-- Only nodes of a known kind are entered and left. -/
theorem known_of_mem_record {n : α} :
    ∀ {e : Event α}, e ∈ (record n).events → ∃ k : Kind, k.tag = tag e.node := by
  induction n using children_induction with
  | unknown n hk =>
    intro e he
    rw [record_of_unknown hk] at he
    exact absurd he List.not_mem_nil
  | malformed n k f hk hc =>
    intro e he
    rw [record_of_malformed hk hc] at he
    obtain rfl := List.mem_singleton.mp he
    exact ⟨k, kind?_eq_some_iff.mp hk⟩
  | filled n k cs hk hc ih =>
    have htag := kind?_eq_some_iff.mp hk
    intro e he
    rw [record_of_filled hk hc] at he
    rcases fault_cases cs with hall | ⟨before, c, after, f, rfl, hbefore, hf⟩
    · rw [recordFilled_of_none n hall] at he
      simp only [List.mem_cons, List.mem_append, List.mem_flatMap, List.not_mem_nil,
        or_false] at he
      rcases he with rfl | ⟨c, hc, he⟩ | rfl
      · exact ⟨k, htag⟩
      · exact ih c hc he
      · exact ⟨k, htag⟩
    · rw [recordFilled_of_some n hbefore hf] at he
      simp only [List.mem_cons, List.mem_append, List.mem_flatMap] at he
      rcases he with rfl | ⟨b, hb, he⟩ | he
      · exact ⟨k, htag⟩
      · exact ih b (by simp [hb]) he
      · exact ih c (by simp) he

/-- The events of every walk can be replayed, and the stack they lead to is determined by how the
    walk ended.  A walk that ends well begins by entering the root, ends by leaving it and leaves
    nothing open.  A walk that ends with a malformed node leaves open the nodes from the root down
    to that node; one that ends with an unknown tag leaves open the nodes above that node, which is
    in none of the events. -/
theorem walk_nests (n : α) :
    ∃ stack : List α, (∀ st, Replays [] (record n).events st ↔ st = stack) ∧
      ((record n).fault = none → stack = [] ∧
        (record n).events.head? = some (.enter n) ∧
        (record n).events.getLast? = some (.leave n)) ∧
      (∀ k slot, (record n).fault = some (.malformed k slot) →
        ∃ p m, FirstOffence n p m (.malformed k slot) ∧ stack = m :: (ancestors n p).reverse) ∧
      (∀ t, (record n).fault = some (.unknownTag t) →
        ∃ p m, FirstOffence n p m (.unknownTag t) ∧ stack = (ancestors n p).reverse ∧
          ∀ e ∈ (record n).events, e.node ≠ m) := by
  -- a replay is the only one
  have honly : ∀ {stack : List α}, Replays [] (record n).events stack →
      ∀ st, Replays [] (record n).events st ↔ st = stack := by
    intro stack h st
    constructor
    · intro hst
      exact hst.unique h
    · rintro rfl
      exact h
  cases hfault : (record n).fault with
  | none =>
    have hn := fault_eq_none_iff.mp hfault
    refine ⟨[], honly (replays_of_conformant hn []), fun _ => ⟨rfl, ?_, ?_⟩, by simp, by simp⟩
    · rw [record_of_conformant hn]
      rfl
    · rw [record_of_conformant hn, ← List.cons_append]
      exact List.getLast?_concat
  | some f =>
    obtain ⟨p, m, hm⟩ := fault_eq_some_iff.mp hfault
    have hreplay := replays_of_firstOffence hm []
    rw [List.append_nil] at hreplay
    refine ⟨opened n p m f, honly hreplay, by simp, ?_, ?_⟩
    · intro k slot hf
      obtain rfl : f = .malformed k slot := Option.some.inj hf
      exact ⟨p, m, hm, rfl⟩
    · intro t hf
      obtain rfl : f = .unknownTag t := Option.some.inj hf
      refine ⟨p, m, hm, rfl, ?_⟩
      intro e he heq
      obtain ⟨k, hk⟩ := known_of_mem_record he
      cases hm.offends with
      | unknownTag unknown => exact unknown k (by rw [hk, heq])

end TypeTree
