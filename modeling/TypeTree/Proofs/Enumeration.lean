/-
  Enumeration: a walk meets every node that can be reached through `children`, and meets it once.

  From a node one can go down by asking for its children and taking one of them by its number.  A
  PATH lists the numbers taken, and `Node.descend?` follows it.  Nothing is said there of walks, so
  the paths that lead somewhere (`Node.paths`) are a measure of what a walk should meet.

  On a tree that is walked to its end, the nodes are entered in the order of the paths as words in a
  dictionary, a path before its extensions, and left in the order `LeftBefore`, which differs from
  the other in one point: a path comes after its extensions.  Both orders agree on siblings and on
  what lies below them, so rows of siblings are dealt with once, for any order that does
  (`exists_listsRow`).
-/
import Mathlib
import TypeTree.Proofs.Nesting

namespace TypeTree

universe u

/-! ## Orders of paths -/

/-- The end of the first path is left before the end of the second: it lies below it, or the two
    paths part and the first goes on to an earlier sibling. -/
inductive LeftBefore : List Nat → List Nat → Prop where
  | descendant (i : Nat) (p : List Nat) : LeftBefore (i :: p) []
  | sibling {i j : Nat} (h : i < j) (p q : List Nat) : LeftBefore (i :: p) (j :: q)
  | deeper (i : Nat) {p q : List Nat} (h : LeftBefore p q) : LeftBefore (i :: p) (i :: q)

theorem LeftBefore.irrefl (p : List Nat) : ¬ LeftBefore p p := by
  induction p with
  | nil => exact fun h => nomatch h
  | cons i p ih =>
    intro h
    cases h with
    | sibling hlt => exact Nat.lt_irrefl i hlt
    | deeper _ hp => exact ih hp

/-- Siblings come in their order, each with everything below it. -/
structure Branching (R : List Nat → List Nat → Prop) : Prop where
  sibling : ∀ {i j : Nat}, i < j → ∀ p q, R (i :: p) (j :: q)
  deeper : ∀ (i : Nat) {p q : List Nat}, R p q → R (i :: p) (i :: q)

/-- Paths in their own order are compared at the first step where they differ. -/
theorem branching_lt : Branching (· < ·) where
  sibling h _ _ := List.cons_lt_cons_iff.mpr (.inl h)
  deeper _ _ _ h := List.cons_lt_cons_iff.mpr (.inr ⟨rfl, h⟩)

/-- So are paths in the order of leaving. -/
theorem branching_leftBefore : Branching LeftBefore where
  sibling h p q := .sibling h p q
  deeper i _ _ h := .deeper i h

variable {α : Type u}

/-! ## Nodes that are entered and nodes that are left -/

/-- The nodes that are entered, or else the nodes that are left, in this order. -/
def nodesOf (entered : Bool) (es : List (Event α)) : List α :=
  (es.filter (·.isEnter == entered)).map (·.node)

/-- The nodes that are entered, in this order. -/
def enteredNodes (es : List (Event α)) : List α :=
  nodesOf true es

/-- The nodes that are left, in this order. -/
def leftNodes (es : List (Event α)) : List α :=
  nodesOf false es

theorem nodesOf_append (entered : Bool) (es fs : List (Event α)) :
    nodesOf entered (es ++ fs) = nodesOf entered es ++ nodesOf entered fs := by
  rw [nodesOf, List.filter_append, List.map_append]
  rfl

theorem nodesOf_flatMap (entered : Bool) (f : α → List (Event α)) (ns : List α) :
    nodesOf entered (ns.flatMap f) = ns.flatMap fun n => nodesOf entered (f n) := by
  rw [nodesOf, List.filter_flatMap, List.map_flatMap]
  rfl

/-- Every event is an entry or a leave. -/
theorem length_enteredNodes_add_length_leftNodes (es : List (Event α)) :
    (enteredNodes es).length + (leftNodes es).length = es.length := by
  induction es with
  | nil => rfl
  | cons e es ih =>
    cases e with
    | enter n =>
      show (enteredNodes es).length + 1 + (leftNodes es).length = es.length + 1
      omega
    | leave n =>
      show (enteredNodes es).length + ((leftNodes es).length + 1) = es.length + 1
      omega

variable [Node α]

namespace Node

/-! ## Paths through children -/

/-- The node at the end of a path of child numbers.  There is none if on the way a node does not
    have children to choose from, or not so many. -/
def descend? : α → List Nat → Option α
  | n, [] => some n
  | n, i :: p => (children n).toOption.bind fun cs => cs[i]?.bind fun c => descend? c p

/-- The paths that lead to a node. -/
def paths (n : α) : Set (List Nat) :=
  {p | ∃ m, descend? n p = some m}

/-- A path goes on below the child that its first step names. -/
theorem descend?_cons_of_ok {n : α} {cs : List α} (h : children n = .ok cs) (i : Nat)
    (p : List Nat) : descend? n (i :: p) = cs[i]?.bind fun c => descend? c p := by
  rw [descend?, h]
  rfl

theorem descend?_cons_iff {n m : α} {i : Nat} {p : List Nat} :
    descend? n (i :: p) = some m ↔
      ∃ cs c, children n = .ok cs ∧ cs[i]? = some c ∧ descend? c p = some m := by
  cases h : children n with
  | error f => simp [descend?, h, Except.toOption]
  | ok cs =>
    rw [descend?_cons_of_ok h]
    constructor
    · intro hm
      obtain ⟨c, hc, hm⟩ := Option.bind_eq_some_iff.mp hm
      exact ⟨cs, c, rfl, hc, hm⟩
    · rintro ⟨ds, c, hds, hc, hm⟩
      obtain rfl : cs = ds := Except.ok.inj hds
      exact Option.bind_eq_some_iff.mpr ⟨c, hc, hm⟩

/-- Whoever comes to the end of a path has passed the end of each part of it. -/
theorem mem_paths_of_isPrefix {p : List Nat} : ∀ {n : α} {q : List Nat}, q ∈ paths n →
    p <+: q → p ∈ paths n := by
  induction p with
  | nil => exact fun {n} _ _ _ => ⟨n, rfl⟩
  | cons i p ih =>
    rintro n q ⟨m, hm⟩ ⟨rest, rfl⟩
    obtain ⟨cs, c, hcs, hc, hm⟩ := descend?_cons_iff.mp hm
    obtain ⟨m', hm'⟩ := ih ⟨m, hm⟩ ⟨rest, rfl⟩
    exact ⟨m', descend?_cons_iff.mpr ⟨cs, c, hcs, hc, hm'⟩⟩

/-- The children of a node that conforms are what it holds. -/
theorem children_of_conformant {n : α} (h : Conformant n) : children n = .ok (held n) :=
  children_eq_ok_iff.mpr ⟨(conformant_iff.mp h).1, rfl⟩

/-- All that is reached from a conformant node is conformant. -/
theorem conformant_of_descend {p : List Nat} : ∀ {n m : α}, Conformant n →
    descend? n p = some m → Conformant m := by
  induction p with
  | nil =>
    intro n m h hm
    cases hm
    exact h
  | cons i p ih =>
    intro n m h hm
    rw [descend?_cons_of_ok (children_of_conformant h)] at hm
    obtain ⟨c, hc, hm⟩ := Option.bind_eq_some_iff.mp hm
    exact ih ((conformant_iff.mp h).2 c (List.mem_of_getElem? hc)) hm

/-! ## Listings -/

/-- A list of all paths that lead to a node, each with that node, in the order `R`. -/
structure Lists (R : List Nat → List Nat → Prop) (n : α) (l : List (List Nat × α)) : Prop where
  mem_iff : ∀ p m, (p, m) ∈ l ↔ descend? n p = some m
  sorted : (l.map Prod.fst).Pairwise R

/-- The same for a row of siblings, whose numbers start with `i`. -/
structure ListsRow (R : List Nat → List Nat → Prop) (i : Nat) (cs : List α)
    (l : List (List Nat × α)) : Prop where
  mem_iff : ∀ p m, (p, m) ∈ l ↔ ∃ j c q, cs[j]? = some c ∧ p = (i + j) :: q ∧ descend? c q = some m
  sorted : (l.map Prod.fst).Pairwise R

variable {R : List Nat → List Nat → Prop}

/-- A listing has exactly the paths of the tree. -/
theorem Lists.mem_map_fst_iff {n : α} {l : List (List Nat × α)} (h : Lists R n l) (p : List Nat) :
    p ∈ l.map Prod.fst ↔ p ∈ paths n := by
  constructor
  · intro hp
    obtain ⟨⟨q, m⟩, hm, rfl⟩ := List.mem_map.mp hp
    exact ⟨m, (h.mem_iff q m).mp hm⟩
  · rintro ⟨m, hm⟩
    exact List.mem_map.mpr ⟨(p, m), (h.mem_iff p m).mpr hm, rfl⟩

theorem Lists.finite {n : α} {l : List (List Nat × α)} (h : Lists R n l) : (paths n).Finite := by
  refine (l.map Prod.fst).finite_toSet.subset ?_
  intro p hp
  exact (h.mem_map_fst_iff p).mpr hp

/-- A listing in a strict order has every path once. -/
theorem Lists.length_eq {n : α} {l : List (List Nat × α)} (h : Lists R n l)
    (irrefl : ∀ p, ¬ R p p) : l.length = (paths n).ncard := by
  have hnodup : (l.map Prod.fst).Nodup := by
    refine h.sorted.imp ?_
    rintro p _ hpq rfl
    exact irrefl p hpq
  have hset : paths n = ((l.map Prod.fst).toFinset : Set (List Nat)) := by
    ext p
    rw [Finset.mem_coe, List.mem_toFinset]
    exact (h.mem_map_fst_iff p).symm
  rw [hset, Set.ncard_coe_finset, List.toFinset_card_of_nodup hnodup, List.length_map]

/-- One sibling more: what lies below it is listed, then the rest of the row. -/
theorem ListsRow.cons (hR : Branching R) {i : Nat} {c : α} {cs : List α}
    {l row : List (List Nat × α)} (h : Lists R c l) (hrow : ListsRow R (i + 1) cs row) :
    ListsRow R i (c :: cs) (l.map (fun pm => (i :: pm.1, pm.2)) ++ row) where
  mem_iff p m := by
    rw [List.mem_append, List.mem_map, hrow.mem_iff]
    constructor
    · rintro (⟨⟨q, m'⟩, hm, heq⟩ | ⟨j, d, q, hd, rfl, hm⟩)
      · obtain ⟨rfl, rfl⟩ : i :: q = p ∧ m' = m := Prod.mk.inj heq
        exact ⟨0, c, q, rfl, rfl, (h.mem_iff q m').mp hm⟩
      · exact ⟨j + 1, d, q, hd, by rw [show i + 1 + j = i + (j + 1) by omega], hm⟩
    · rintro ⟨j, d, q, hd, rfl, hm⟩
      cases j with
      | zero =>
        obtain rfl : c = d := Option.some.inj hd
        exact .inl ⟨(q, m), (h.mem_iff q m).mpr hm, rfl⟩
      | succ j => exact .inr ⟨j, d, q, hd, by rw [show i + (j + 1) = i + 1 + j by omega], hm⟩
  sorted := by
    rw [List.map_append, List.map_map, List.pairwise_append]
    refine ⟨?_, hrow.sorted, ?_⟩
    · have hbelow := List.pairwise_map.mp h.sorted
      exact List.pairwise_map.mpr (hbelow.imp fun hpq => hR.deeper i hpq)
    · -- whatever is in the rest of the row starts with a greater number
      intro p hp q hq
      obtain ⟨⟨p', m⟩, _, rfl⟩ := List.mem_map.mp hp
      obtain ⟨⟨q', m'⟩, hm', rfl⟩ := List.mem_map.mp hq
      obtain ⟨j, d, r, _, rfl, _⟩ := (hrow.mem_iff q' m').mp hm'
      exact hR.sibling (by omega) p' r

/-- If each sibling has a listing with the nodes that `f` gives, so has the row. -/
theorem exists_listsRow (hR : Branching R) {f : α → List α} {cs : List α}
    (h : ∀ c ∈ cs, ∃ l, Lists R c l ∧ l.map Prod.snd = f c) :
    ∀ i, ∃ l, ListsRow R i cs l ∧ l.map Prod.snd = cs.flatMap f := by
  induction cs with
  | nil => exact fun i => ⟨[], ⟨by simp, .nil⟩, rfl⟩
  | cons c cs ih =>
    intro i
    obtain ⟨hc, hcs⟩ := List.forall_mem_cons.mp h
    obtain ⟨l, hl, hnodes⟩ := hc
    obtain ⟨row, hrow, hrest⟩ := ih hcs (i + 1)
    refine ⟨_, ListsRow.cons hR hl hrow, ?_⟩
    have hkeep : (l.map fun pm => (i :: pm.1, pm.2)).map Prod.snd = l.map Prod.snd := by
      rw [List.map_map]
      rfl
    rw [List.map_append, hkeep, hnodes, hrest, List.flatMap_cons]

/-- The row of all children, and the node itself, are all there is below a node. -/
theorem mem_iff_of_row {n : α} {cs : List α} {row : List (List Nat × α)}
    (hcs : children n = .ok cs) (hrow : ListsRow R 0 cs row) (p : List Nat) (m : α) :
    (p, m) = ([], n) ∨ (p, m) ∈ row ↔ descend? n p = some m := by
  rw [hrow.mem_iff]
  cases p with
  | nil =>
    constructor
    · rintro (heq | ⟨j, c, q, _, hp, _⟩)
      · exact congrArg some (Prod.mk.inj heq).2.symm
      · exact absurd hp (by simp)
    · intro hm
      obtain rfl : n = m := Option.some.inj hm
      exact .inl rfl
  | cons i p =>
    rw [descend?_cons_of_ok hcs]
    constructor
    · rintro (heq | ⟨j, c, q, hc, hp, hm⟩)
      · exact absurd (Prod.mk.inj heq).1 (by simp)
      · obtain ⟨rfl, rfl⟩ : i = 0 + j ∧ p = q := List.cons.inj hp
        rw [Nat.zero_add]
        exact Option.bind_eq_some_iff.mpr ⟨c, hc, hm⟩
    · intro hm
      obtain ⟨c, hc, hm⟩ := Option.bind_eq_some_iff.mp hm
      exact .inr ⟨i, c, p, hc, by rw [Nat.zero_add], hm⟩

theorem ne_nil_of_mem_row {i : Nat} {cs : List α} {row : List (List Nat × α)}
    (hrow : ListsRow R i cs row) {p : List Nat} (hp : p ∈ row.map Prod.fst) :
    ∃ j q, p = j :: q := by
  obtain ⟨⟨q, m⟩, hm, rfl⟩ := List.mem_map.mp hp
  obtain ⟨j, c, r, _, rfl, _⟩ := (hrow.mem_iff q m).mp hm
  exact ⟨i + j, r, rfl⟩

/-- A node before everything below it. -/
theorem Lists.parent_first {n : α} {cs : List α} {row : List (List Nat × α)}
    (hcs : children n = .ok cs) (hrow : ListsRow (· < ·) 0 cs row) :
    Lists (· < ·) n (([], n) :: row) where
  mem_iff p m := by
    rw [List.mem_cons]
    exact mem_iff_of_row hcs hrow p m
  sorted := by
    refine List.pairwise_cons.mpr ⟨?_, hrow.sorted⟩
    intro p hp
    obtain ⟨j, q, rfl⟩ := ne_nil_of_mem_row hrow hp
    exact List.nil_lt_cons j q

/-- A node after everything below it. -/
theorem Lists.parent_last {n : α} {cs : List α} {row : List (List Nat × α)}
    (hcs : children n = .ok cs) (hrow : ListsRow LeftBefore 0 cs row) :
    Lists LeftBefore n (row ++ [([], n)]) where
  mem_iff p m := by
    rw [List.mem_append, List.mem_singleton, or_comm]
    exact mem_iff_of_row hcs hrow p m
  sorted := by
    rw [List.map_append, List.pairwise_append]
    refine ⟨hrow.sorted, List.pairwise_singleton _ _, ?_⟩
    intro p hp q hq
    obtain ⟨j, r, rfl⟩ := ne_nil_of_mem_row hrow hp
    obtain rfl : q = [] := List.mem_singleton.mp hq
    exact .descendant j r

end Node

/-! ## What a walk enters and leaves -/

open Node

/-- The nodes of a tree are its root, as it is entered or left, and the nodes of its children. -/
theorem nodesOf_of_conformant (entered : Bool) {n : α} (h : Conformant n) :
    nodesOf entered (record n).events =
      nodesOf entered [.enter n] ++
        (((held n).flatMap fun c => nodesOf entered (record c).events) ++
          nodesOf entered [.leave n]) := by
  rw [record_of_conformant h, ← List.singleton_append, nodesOf_append, nodesOf_append,
    nodesOf_flatMap]

/-- A walk meets the nodes of a tree in an order of their paths, on entering or on leaving them, if the
    order agrees on siblings and puts the parent where the walk meets it.  The induction is on the
    tree. -/
theorem exists_lists {R : List Nat → List Nat → Prop} (hR : Branching R) {entered : Bool}
    (hparent : ∀ {n : α} {cs : List α} {row : List (List Nat × α)}, children n = .ok cs →
      ListsRow R 0 cs row → ∃ l, Lists R n l ∧ l.map Prod.snd =
        nodesOf entered [.enter n] ++ (row.map Prod.snd ++ nodesOf entered [.leave n])) {n : α} :
    Conformant n → ∃ l, Lists R n l ∧ l.map Prod.snd = nodesOf entered (record n).events := by
  induction n using held_induction with
  | step n ih =>
    intro h
    have hheld := (conformant_iff.mp h).2
    obtain ⟨row, hrow, hnodes⟩ := exists_listsRow hR (fun c hc => ih c hc (hheld c hc)) 0
    obtain ⟨l, hl, hsnd⟩ := hparent (children_of_conformant h) hrow
    refine ⟨l, hl, ?_⟩
    rw [hsnd, hnodes, nodesOf_of_conformant entered h]

/-- Nodes are entered in the order of their paths: a row of siblings comes behind their parent. -/
theorem exists_lists_entered {n : α} (h : Conformant n) :
    ∃ l, Lists (· < ·) n l ∧ l.map Prod.snd = enteredNodes (record n).events := by
  refine exists_lists branching_lt (fun {n cs row} hcs hrow => ?_) h
  refine ⟨_, .parent_first hcs hrow, ?_⟩
  show n :: row.map Prod.snd = n :: (row.map Prod.snd ++ [])
  rw [List.append_nil]

/-- Nodes are left in the order of their paths in which a path comes after its extensions. -/
theorem exists_lists_left {n : α} (h : Conformant n) :
    ∃ l, Lists LeftBefore n l ∧ l.map Prod.snd = leftNodes (record n).events := by
  refine exists_lists branching_leftBefore (fun {n cs row} hcs hrow => ?_) h
  refine ⟨_, .parent_last hcs hrow, ?_⟩
  rw [List.map_append]
  rfl

/-- A tree has events to list exactly if it conforms. -/
theorem events_eq_ok_iff {n : α} {es : List (Event α)} :
    events n = .ok es ↔ Conformant n ∧ es = (record n).events := by
  rw [← fault_eq_none_iff, events]
  cases (record n).fault with
  | none => simp [eq_comm]
  | some f => simp

/-- A walk that ends well enumerates the paths of its tree.  There are finitely many of them, each
    part of one is another, and at the end of each there is a node with children, perhaps none.  The
    nodes are entered in the order of their paths, a path before its extensions, and left in the
    order in which a path comes after its extensions; each path is met once in either order, so
    there are two events for every path. -/
theorem walk_enumerates_paths (n : α) (es : List (Event α)) (h : events n = .ok es) :
    (paths n).Finite ∧
    (∀ q ∈ paths n, ∀ p, p <+: q → p ∈ paths n) ∧
    (∀ p m, descend? n p = some m → ∃ cs, children m = .ok cs) ∧
    (∃ l, Lists (· < ·) n l ∧ l.map Prod.snd = enteredNodes es) ∧
    (∃ l, Lists LeftBefore n l ∧ l.map Prod.snd = leftNodes es) ∧
    es.length = 2 * (paths n).ncard := by
  obtain ⟨hn, rfl⟩ := events_eq_ok_iff.mp h
  obtain ⟨first, hfirst, hentered⟩ := exists_lists_entered hn
  obtain ⟨last, hlast, hleft⟩ := exists_lists_left hn
  refine ⟨hfirst.finite, fun q hq p => mem_paths_of_isPrefix hq, ?_, ⟨first, hfirst, hentered⟩,
    ⟨last, hlast, hleft⟩, ?_⟩
  · intro p m hm
    exact ⟨held m, children_of_conformant (conformant_of_descend hn hm)⟩
  · have hcount₁ : (enteredNodes (record n).events).length = (paths n).ncard := by
      rw [← hentered, List.length_map]
      exact hfirst.length_eq fun p => List.lt_irrefl p
    have hcount₂ : (leftNodes (record n).events).length = (paths n).ncard := by
      rw [← hleft, List.length_map]
      exact hlast.length_eq LeftBefore.irrefl
    have := length_enteredNodes_add_length_leftNodes (record n).events
    omega

/-- A function of two parameters, the second of them a union, with nothing in two of its slots. -/
def callbackType : Json :=
  .obj [("type", .str "FUNCTION"),
    ("new", .obj [("type", .str "ANY")]),
    ("returns", .null),
    ("params", .arr
      [.obj [("type", .str "NAME"), ("name", .str "a")],
       .obj [("type", .str "UNION"),
         ("right", .obj [("type", .str "ANY")]),
         ("left", .obj [("type", .str "UNKNOWN")])]])]

theorem callbackType_enumerates_paths :
    ∃ es, events callbackType = .ok es ∧ (paths callbackType).ncard = 6 ∧
      (∃ l, Lists (· < ·) callbackType l ∧ l.map Prod.snd = enteredNodes es) ∧
      ∃ l, Lists LeftBefore callbackType l ∧ l.map Prod.snd = leftNodes es := by
  have hfault : (record callbackType).fault = none := by cbv
  have hlength : (record callbackType).events.length = 12 := by cbv
  have hok := events_eq_ok_iff.mpr ⟨fault_eq_none_iff.mp hfault, rfl⟩
  obtain ⟨_, _, _, hentered, hleft, hcount⟩ := walk_enumerates_paths callbackType _ hok
  exact ⟨_, hok, by omega, hentered, hleft⟩

end TypeTree
