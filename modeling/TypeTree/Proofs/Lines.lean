/-
  Lines: the trace of a tree, put together from the traces of its children.

  A trace is made from the events alone, by counting how many nodes are open.  Where the events can
  be replayed on a stack, that count is the height of the stack; so a completed tree gives it back
  as it was, and below an open node all lines are one deeper than they would be on their own.

    * `ofEvents_append`      lines of events that follow a replay start from the stack it leads to;
    * `lines_of_conformant`  the lines of a tree: its root is entered, then come the lines of its
                             children, each raised by one, and the root is left.
-/
import TypeTree.Proofs.Nesting
import TypeTree.Trace

namespace TypeTree

universe u

variable {α : Type u} [Node α]

open Node

namespace Line

/-- The line `d` levels further down. -/
def raise (d : Nat) (l : Line) : Line :=
  { l with depth := l.depth + d }

@[simp] theorem raise_phase (d : Nat) (l : Line) : (l.raise d).phase = l.phase := rfl

@[simp] theorem raise_depth (d : Nat) (l : Line) : (l.raise d).depth = l.depth + d := rfl

/-- Lines are moved down by as much as both moves together. -/
theorem raise_raise (d d' : Nat) (l : Line) : (l.raise d).raise d' = l.raise (d + d') := by
  simp [raise, Nat.add_assoc]

/-- The line for entering a node at the top. -/
def entering (n : α) : Line :=
  ⟨.enter, Node.tag n, 0, Node.label? n⟩

/-- The line for leaving a node at the top. -/
def leaving (n : α) : Line :=
  ⟨.leave, Node.tag n, 0, Node.label? n⟩

/-! ## Lines and the stack -/

/-- Lines go on at the depth that the stack has reached. -/
theorem ofEvents_append {st st' : List α} {es : List (Event α)} (h : Replays st es st')
    (fs : List (Event α)) :
    ofEvents st.length (es ++ fs) = ofEvents st.length es ++ ofEvents st'.length fs := by
  induction h with
  | nil st => rfl
  | @enter n st st' es _ ih =>
    show _ :: ofEvents (st.length + 1) (es ++ fs) = _ :: (ofEvents (st.length + 1) es ++ _)
    exact congrArg (_ :: ·) ih
  | @leave n st st' es _ ih =>
    show _ :: ofEvents st.length (es ++ fs) = _ :: (ofEvents st.length es ++ _)
    exact congrArg (_ :: ·) ih

/-- More nodes below the stack make every line deeper by as many. -/
theorem ofEvents_add {st st' : List α} {es : List (Event α)} (h : Replays st es st') (d : Nat) :
    ofEvents (st.length + d) es = (ofEvents st.length es).map (raise d) := by
  induction h with
  | nil st => rfl
  | @enter n st st' es _ ih =>
    have hdepth : st.length + d + 1 = (n :: st).length + d := by rw [List.length_cons]; omega
    rw [ofEvents, ofEvents, List.map_cons, hdepth, ih]
    rfl
  | @leave n st st' es _ ih =>
    have hdepth : (n :: st).length + d - 1 = st.length + d := by rw [List.length_cons]; omega
    rw [ofEvents, ofEvents, List.map_cons, hdepth, ih]
    rfl

end Line

/-! ## Lines of trees -/

/-- The lines of a tree, as far as a walk gets. -/
def lines (n : α) : List Line :=
  Line.ofEvents 0 (record n).events

/-- The lines of a subtree are those of its own trace, moved down to where it begins. -/
theorem ofEvents_record_append {n : α} (h : Conformant n) (d : Nat) (fs : List (Event α)) :
    Line.ofEvents d ((record n).events ++ fs) =
      (lines n).map (Line.raise d) ++ Line.ofEvents d fs := by
  -- any stack of height `d` will do
  have hreplay := replays_of_conformant h (List.replicate d n)
  have happend := Line.ofEvents_append hreplay fs
  have hraise := Line.ofEvents_add (replays_of_conformant h []) d
  rw [List.length_replicate] at happend
  rw [List.length_nil, Nat.zero_add] at hraise
  rw [happend, hraise]
  rfl

/-- So are the lines of a row of siblings: each of them ends where it began. -/
theorem ofEvents_row_append {cs : List α} (h : ∀ c ∈ cs, Conformant c) (d : Nat)
    (fs : List (Event α)) :
    Line.ofEvents d ((cs.flatMap fun c => (record c).events) ++ fs) =
      (cs.flatMap lines).map (Line.raise d) ++ Line.ofEvents d fs := by
  induction cs with
  | nil => rfl
  | cons c cs ih =>
    obtain ⟨hc, hcs⟩ := List.forall_mem_cons.mp h
    rw [List.flatMap_cons, List.append_assoc, ofEvents_record_append hc, ih hcs, List.flatMap_cons,
      List.map_append, List.append_assoc]

/-- The lines of a tree that is walked to its end. -/
theorem lines_of_conformant {n : α} (h : Conformant n) :
    lines n = .entering n :: (((held n).flatMap lines).map (Line.raise 1) ++ [.leaving n]) := by
  have hheld := (conformant_iff.mp h).2
  rw [lines, record_of_conformant h, Line.ofEvents, ofEvents_row_append hheld]
  rfl

/-- A line of a tree is about its root, or it stands one level further up in a tree below. -/
theorem mem_lines {n : α} (h : Conformant n) {l : Line} (hl : l ∈ lines n) :
    l = .entering n ∨ l = .leaving n ∨ ∃ c ∈ held n, ∃ m ∈ lines c, l = m.raise 1 := by
  rw [lines_of_conformant h] at hl
  simp only [List.mem_cons, List.mem_append, List.not_mem_nil, or_false] at hl
  rcases hl with hroot | hbelow | hroot
  · exact .inl hroot
  · obtain ⟨m, hm, rfl⟩ := List.mem_map.mp hbelow
    obtain ⟨c, hc, hm⟩ := List.mem_flatMap.mp hm
    exact .inr (.inr ⟨c, hc, m, hm, rfl⟩)
  · exact .inr (.inl hroot)

/-! ## Traces -/

/-- A tree has a trace exactly if it conforms. -/
theorem trace_eq_ok_iff {n : α} {ls : List Line} :
    trace n = .ok ls ↔ Conformant n ∧ ls = lines n := by
  rw [← fault_eq_none_iff, trace, events]
  cases (record n).fault with
  | none => simp [Except.map, lines, eq_comm]
  | some f => simp [Except.map]

/-- Without a trace there is the fault of the walk. -/
theorem trace_eq_error_iff {n : α} {f : Fault} :
    trace n = .error f ↔ (record n).fault = some f := by
  rw [trace, events]
  cases (record n).fault with
  | none => simp [Except.map]
  | some g => simp [Except.map]

end TypeTree
