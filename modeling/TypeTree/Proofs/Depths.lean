/-
  Depths: what the depth of a line says of its node.

  A trace is made from a list of events by a counter that goes up on an entry and down on a leave.
  This file says what the counter comes to.  A PLACE is a path together with the node at its end.  On
  a tree that is walked to its end every event is at a place, and these are the places of the tree in
  the order of the walk (`Itinerary`).  The depth of a line is the length of the path to its place, so
  it is the number of nodes above the node.

    * `countAll_of_replays`  the counter never goes below zero, and ends where it began;
    * `exists_itinerary`     the places of the events;
    * `Itinerary.closes`     entries and leaves that match as brackets are at the same place.
-/
import Mathlib
import TypeTree.Overflow
import TypeTree.Proofs.Enumeration
import TypeTree.Proofs.Lines

namespace TypeTree

universe u v

/-! ## Counting in words -/

/-- A difference that is not below zero. -/
def difference (a b : Nat) : Except Overflow Nat :=
  if b ≤ a then .ok (a - b) else .error .difference

section Counting

variable {α : Type u} [Node α]

namespace Line

/-- The line of an event, and the number of nodes that are open after it.  An entry is counted first,
    so its depth is one less than the new number; a leave has the new number itself. -/
def count (opened : Nat) : Event α → Except Overflow (Line × Nat)
  | .enter n =>
    match difference (opened + 1) 1 with
    | .error o => .error o
    | .ok depth => .ok (⟨.enter, Node.tag n, depth, Node.label? n⟩, opened + 1)
  | .leave n =>
    match difference opened 1 with
    | .error o => .error o
    | .ok depth => .ok (⟨.leave, Node.tag n, depth, Node.label? n⟩, depth)

/-- The lines of events, one after another, and the number of nodes that are open in the end. -/
def countAll (opened : Nat) : List (Event α) → Except Overflow (List Line × Nat)
  | [] => .ok ([], opened)
  | e :: es =>
    match count opened e with
    | .error o => .error o
    | .ok (l, opened) =>
      match countAll opened es with
      | .error o => .error o
      | .ok (ls, last) => .ok (l :: ls, last)

/-- Where events can be replayed, every difference is there: the counter is the height of the stack,
    and a leave finds a node on it. -/
theorem countAll_of_replays {st st' : List α} {es : List (Event α)} (h : Replays st es st') :
    countAll st.length es = .ok (ofEvents st.length es, st'.length) := by
  induction h with
  | nil st => rfl
  | @enter n st st' es _ ih =>
    have hcount : count st.length (.enter n) =
        .ok (⟨.enter, Node.tag n, st.length, Node.label? n⟩, st.length + 1) := by
      simp [count, difference]
    rw [List.length_cons] at ih
    simp only [countAll, hcount, ih, ofEvents]
  | @leave n st st' es _ ih =>
    have hcount : count (st.length + 1) (.leave n) =
        .ok (⟨.leave, Node.tag n, st.length, Node.label? n⟩, st.length) := by
      simp [count, difference]
    simp only [List.length_cons, countAll, hcount, ih, ofEvents, Nat.add_sub_cancel]

end Line

end Counting

/-! ## Brackets -/

/-- Entries and leaves nest as brackets do: each entry has a leave of its own, and what lies between
    the two nests in itself. -/
inductive Balanced : List Phase → Prop where
  | nil : Balanced []
  | wrap {inside after : List Phase} (within : Balanced inside) (rest : Balanced after) :
      Balanced (.enter :: (inside ++ .leave :: after))

theorem Balanced.append {a b : List Phase} (ha : Balanced a) (hb : Balanced b) :
    Balanced (a ++ b) := by
  induction ha with
  | nil => exact hb
  | @wrap inside after within _ _ ih =>
    rw [List.cons_append, List.append_assoc, List.cons_append]
    exact .wrap within ih

namespace Event

variable {α : Type u} {β : Type v}

/-- The same event of another node. -/
def map (f : α → β) : Event α → Event β
  | enter n => enter (f n)
  | leave n => leave (f n)

/-- Whether the event is an entry or a leave, as a phase. -/
def phase : Event α → Phase
  | enter _ => .enter
  | leave _ => .leave

end Event

namespace Replays

variable {α : Type u} {β : Type v}

/-- What is done to all nodes of a replay is done to the nodes on its stack. -/
theorem map (f : α → β) {st st' : List α} {es : List (Event α)} (h : Replays st es st') :
    Replays (st.map f) (es.map (Event.map f)) (st'.map f) := by
  induction h with
  | nil st => exact .nil _
  | enter _ ih => exact .enter ih
  | leave _ ih => exact .leave ih

/-- What lies below on the stack stays there. -/
theorem onTop {st st' : List α} {es : List (Event α)} (h : Replays st es st') (rest : List α) :
    Replays (st ++ rest) es (st' ++ rest) := by
  induction h with
  | nil st => exact .nil _
  | enter _ ih => exact .enter ih
  | leave _ ih => exact .leave ih

/-- Events that nest as brackets do leave the stack as they found it. -/
theorem eq_of_balanced {ps : List Phase} (hps : Balanced ps) : ∀ {es : List (Event α)}
    {st st' : List α}, es.map Event.phase = ps → Replays st es st' → st' = st := by
  induction hps with
  | nil =>
    intro es st st' hes h
    obtain rfl := List.map_eq_nil_iff.mp hes
    cases h
    rfl
  | @wrap inside after _ _ ihwithin ihrest =>
    intro es st st' hes h
    obtain ⟨e, es, rfl, he, hes⟩ := List.map_eq_cons_iff.mp hes
    obtain ⟨es₁, es₂, rfl, hinside, hes⟩ := List.map_eq_append_iff.mp hes
    obtain ⟨f, es₃, rfl, hf, hafter⟩ := List.map_eq_cons_iff.mp hes
    cases h with
    | leave _ => exact absurd he (by simp [Event.phase])
    | @enter n _ _ _ rest =>
      obtain ⟨mid, hwithin, hleave⟩ := rest.exists_mid
      obtain rfl : mid = n :: st := ihwithin hinside hwithin
      cases hleave with
      | enter _ => exact absurd hf (by simp [Event.phase])
      | leave rest => exact ihrest hafter rest

/-- A leave that matches an entry as brackets do is the leave of the same node. -/
theorem node_eq_of_balanced {st st' : List α} {before inside after : List (Event α)} {m n : α}
    (h : Replays st (before ++ .enter m :: (inside ++ .leave n :: after)) st')
    (hinside : Balanced (inside.map Event.phase)) : n = m := by
  obtain ⟨mid, -, hmid⟩ := h.exists_mid
  cases hmid with
  | enter rest =>
    obtain ⟨top, hwithin, hleave⟩ := rest.exists_mid
    obtain rfl : top = m :: mid := eq_of_balanced hinside rfl hwithin
    cases hleave with
    | leave _ => rfl

end Replays

variable {α : Type u} [Node α]

open Node

/-! ## Places -/

/-- What is done to the nodes of events does not change which of them are entered or left. -/
theorem nodesOf_map (entered : Bool) {β : Type u} {γ : Type v} (f : β → γ) (es : List (Event β)) :
    nodesOf entered (es.map (Event.map f)) = (nodesOf entered es).map f := by
  have hisEnter : ∀ e : Event β, (e.map f).isEnter = e.isEnter := by
    intro e
    cases e <;> rfl
  have hnode : ∀ e : Event β, (e.map f).node = f e.node := by
    intro e
    cases e <;> rfl
  simp only [nodesOf, List.filter_map, List.map_map, Function.comp_def, hisEnter, hnode]

/-- The line of an event at a place: it is as deep as the path is long. -/
def Line.placed (v : Event (List Nat × α)) : Line :=
  ⟨v.phase, Node.tag v.node.2, v.node.1.length, Node.label? v.node.2⟩

/-- The place in the tree of the parent of a place in the tree of its child number `i`. -/
def inChild (i : Nat) (place : List Nat × α) : List Nat × α :=
  (i :: place.1, place.2)

/-- The line is one level further down when it is seen from the parent. -/
theorem placed_inChild (i : Nat) (v : Event (List Nat × α)) :
    Line.placed (v.map (inChild i)) = (Line.placed v).raise 1 := by
  cases v <;> rfl

/-- The events `vs` at places are a walk of the tree below `n`: every place is entered once, in the order
    of the paths, and left once, in the order in which a path comes after its extensions, and a place
    is left before any that was entered earlier.  The events `es` and the lines `ls` are those of
    `vs`, one by one. -/
structure Itinerary (n : α) (vs : List (Event (List Nat × α))) (es : List (Event α))
    (ls : List Line) : Prop where
  entered : Lists (· < ·) n (enteredNodes vs)
  left : Lists LeftBefore n (leftNodes vs)
  nested : Replays [] vs []
  events : vs.map (Event.map Prod.snd) = es
  lines : vs.map Line.placed = ls

/-- The same for a row of siblings, whose numbers start with `i`. -/
structure ItineraryRow (i : Nat) (cs : List α) (vs : List (Event (List Nat × α)))
    (es : List (Event α)) (ls : List Line) : Prop where
  entered : ListsRow (· < ·) i cs (enteredNodes vs)
  left : ListsRow LeftBefore i cs (leftNodes vs)
  nested : Replays [] vs []
  events : vs.map (Event.map Prod.snd) = es
  lines : vs.map Line.placed = ls

/-- One sibling more. -/
theorem ItineraryRow.cons {i : Nat} {c : α} {cs : List α} {vs ws : List (Event (List Nat × α))}
    {es fs : List (Event α)} {ls ms : List Line} (h : Itinerary c vs es ls)
    (hrow : ItineraryRow (i + 1) cs ws fs ms) :
    ItineraryRow i (c :: cs) (vs.map (Event.map (inChild i)) ++ ws) (es ++ fs)
      (ls.map (Line.raise 1) ++ ms) where
  entered := by
    rw [enteredNodes, nodesOf_append, nodesOf_map]
    exact ListsRow.cons branching_lt h.entered hrow.entered
  left := by
    rw [leftNodes, nodesOf_append, nodesOf_map]
    exact ListsRow.cons branching_leftBefore h.left hrow.left
  nested := (h.nested.map (inChild i)).append hrow.nested
  events := by
    have hsame : ∀ v : Event (List Nat × α),
        (v.map (inChild i)).map Prod.snd = v.map Prod.snd := by
      intro v
      cases v <;> rfl
    rw [List.map_append, hrow.events, List.map_map, ← h.events]
    exact congrArg (· ++ fs) (List.map_congr_left fun v _ => hsame v)
  lines := by
    rw [List.map_append, hrow.lines, List.map_map, ← h.lines, List.map_map]
    exact congrArg (· ++ ms) (List.map_congr_left fun v _ => placed_inChild i v)

/-- A node is entered before everything below it and left after that. -/
theorem ItineraryRow.parent {n : α} {vs : List (Event (List Nat × α))} {es : List (Event α)}
    {ls : List Line} (hcs : children n = .ok (held n)) (h : ItineraryRow 0 (held n) vs es ls) :
    Itinerary n (.enter ([], n) :: (vs ++ [.leave ([], n)])) (.enter n :: (es ++ [.leave n]))
      (.entering n :: (ls ++ [.leaving n])) where
  entered := by
    have hentered : enteredNodes (.enter ([], n) :: (vs ++ [.leave ([], n)])) =
        ([], n) :: enteredNodes vs := by
      show ([], n) :: nodesOf true (vs ++ [.leave ([], n)]) = _
      rw [nodesOf_append]
      exact congrArg (_ :: ·) (List.append_nil _)
    rw [hentered]
    exact .parent_first hcs h.entered
  left := by
    have hleft : leftNodes (.enter ([], n) :: (vs ++ [.leave ([], n)])) =
        leftNodes vs ++ [([], n)] := by
      show nodesOf false (vs ++ [.leave ([], n)]) = _
      rw [nodesOf_append]
      rfl
    rw [hleft]
    exact .parent_last hcs h.left
  nested := .enter ((h.nested.onTop [([], n)]).append (.leave (.nil [])))
  events := by
    rw [List.map_cons, List.map_append, h.events]
    rfl
  lines := by
    rw [List.map_cons, List.map_append, h.lines]
    rfl

/-- If each sibling has an itinerary, so has the row. -/
theorem exists_itineraryRow {cs : List α}
    (h : ∀ c ∈ cs, ∃ vs, Itinerary c vs (record c).events (lines c)) :
    ∀ i, ∃ vs, ItineraryRow i cs vs (cs.flatMap fun c => (record c).events)
      ((cs.flatMap lines).map (Line.raise 1)) := by
  induction cs with
  | nil =>
    intro i
    exact ⟨[], ⟨by simp [enteredNodes, nodesOf], .nil⟩,
      ⟨by simp [leftNodes, nodesOf], .nil⟩, .nil [], rfl, rfl⟩
  | cons c cs ih =>
    intro i
    obtain ⟨⟨vs, hvs⟩, hcs⟩ := List.forall_mem_cons.mp h
    obtain ⟨ws, hws⟩ := ih hcs (i + 1)
    rw [List.flatMap_cons, List.flatMap_cons, List.map_append]
    exact ⟨_, .cons hvs hws⟩

/-- The events of a tree that is walked to its end, and its lines, are those of its places. -/
theorem exists_itinerary {n : α} : Conformant n →
    ∃ vs, Itinerary n vs (record n).events (lines n) := by
  induction n using held_induction with
  | step n ih =>
    intro h
    have hheld := (conformant_iff.mp h).2
    obtain ⟨row, hrow⟩ := exists_itineraryRow (fun c hc => ih c hc (hheld c hc)) 0
    rw [record_of_conformant h, lines_of_conformant h]
    exact ⟨_, hrow.parent (children_of_conformant h)⟩

/-! ## Matching lines -/

theorem balanced_row {cs : List α} (h : ∀ c ∈ cs, Balanced ((lines c).map Line.phase)) :
    Balanced (((cs.flatMap lines).map (Line.raise 1)).map Line.phase) := by
  induction cs with
  | nil => exact .nil
  | cons c cs ih =>
    obtain ⟨hc, hcs⟩ := List.forall_mem_cons.mp h
    rw [List.flatMap_cons, List.map_append, List.map_append, List.map_map]
    exact hc.append (ih hcs)

/-- The phases of a tree are brackets that match. -/
theorem balanced_lines {n : α} : Conformant n → Balanced ((lines n).map Line.phase) := by
  induction n using held_induction with
  | step n ih =>
    intro h
    have hheld := (conformant_iff.mp h).2
    rw [lines_of_conformant h, List.map_cons, List.map_append]
    exact .wrap (balanced_row fun c hc => ih c hc (hheld c hc)) .nil

/-- An entry and the leave that matches it are at one place, so their lines differ in the phase
    alone. -/
theorem Itinerary.closes {n : α} {vs : List (Event (List Nat × α))} {es : List (Event α)}
    {before inside after : List Line} {l m : Line}
    (h : Itinerary n vs es (before ++ l :: (inside ++ m :: after))) (hl : l.phase = .enter)
    (hm : m.phase = .leave) (hinside : Balanced (inside.map Line.phase)) :
    m = { l with phase := .leave } := by
  obtain ⟨vbefore, vs, rfl, -, hfrom⟩ := List.map_eq_append_iff.mp h.lines
  obtain ⟨v, vs, rfl, rfl, hbelow⟩ := List.map_eq_cons_iff.mp hfrom
  obtain ⟨vinside, vs, rfl, rfl, hend⟩ := List.map_eq_append_iff.mp hbelow
  obtain ⟨w, vafter, rfl, rfl, -⟩ := List.map_eq_cons_iff.mp hend
  rw [List.map_map] at hinside
  cases v with
  | leave place => exact absurd hl (by simp [Line.placed, Event.phase])
  | enter place =>
    cases w with
    | enter place' => exact absurd hm (by simp [Line.placed, Event.phase])
    | leave place' =>
      obtain rfl : place' = place := h.nested.node_eq_of_balanced hinside
      rfl

/-! ## Traces -/

/-- A tree whose walk ends well has a trace with a line for every event, and the depths are true.
    Counting with differences that must not be below zero gives the same lines and ends at zero.  The
    k-th event and the k-th line are at the k-th place of the tree in the order of the walk, and the
    depth is the length of the path to it.  Entries and leaves nest, and a leave line is the line of
    the entry that it matches but for the phase. -/
theorem trace_tracks_depth (n : α) {es : List (Event α)} (h : events n = .ok es) :
    ∃ ls, trace n = .ok ls ∧ Line.countAll 0 es = .ok (ls, 0) ∧
      (∃ vs, Itinerary n vs es ls) ∧
      Balanced (ls.map Line.phase) ∧
      ∀ before l inside m after, ls = before ++ l :: (inside ++ m :: after) →
        l.phase = .enter → m.phase = .leave → Balanced (inside.map Line.phase) →
          m = { l with phase := .leave } := by
  obtain ⟨hn, rfl⟩ := events_eq_ok_iff.mp h
  obtain ⟨vs, hvs⟩ := exists_itinerary hn
  refine ⟨lines n, trace_eq_ok_iff.mpr ⟨hn, rfl⟩, ?_, ⟨vs, hvs⟩, balanced_lines hn, ?_⟩
  · exact Line.countAll_of_replays (replays_of_conformant hn [])
  · intro before l inside m after hls hl hm hinside
    rw [hls] at hvs
    exact hvs.closes hl hm hinside

/-- The counter and the places of a tree in which one leaf stands twice. -/
theorem callbackType_tracks_depth :
    ∃ es ls, events callbackType = .ok es ∧ trace callbackType = .ok ls ∧
      Line.countAll 0 es = .ok (ls, 0) ∧ (∃ vs, Itinerary callbackType vs es ls) ∧
      ls.map Line.depth = [0, 1, 1, 1, 2, 2, 2, 2, 1, 1, 1, 0] := by
  have hfault : (record callbackType).fault = none := by cbv
  have hok := events_eq_ok_iff.mpr ⟨fault_eq_none_iff.mp hfault, rfl⟩
  obtain ⟨ls, htrace, hcount, hplaces, -⟩ := trace_tracks_depth callbackType hok
  refine ⟨_, ls, hok, htrace, hcount, hplaces, ?_⟩
  obtain ⟨-, rfl⟩ := trace_eq_ok_iff.mp htrace
  cbv

end TypeTree
