/-
  Restoring: a trace is known from its entries.

  A trace without its leaves has lost nothing.  The depths of the entries tell how they nest: an entry
  that is not deeper than an open node can only come after that node was left, and at the end of the
  trace all open nodes are left.  So the leaves can be put back where they were (`Line.restore`).

  On a tree that is walked to its end this gives back the whole trace (`restore_entries`).  The crux is
  that a subtree can be restored wherever it stands (`Restorable`): below any nodes that are still
  open, and before any entry that is not inside it.  Siblings and parents keep that.
-/
import TypeTree.Proofs.TraceReports
import TypeTree.Proofs.UniqueLayout

namespace TypeTree

universe u

/-! ## Putting leaves back -/

/-- The entries among the lines. -/
def entries (ls : List Line) : List Line :=
  ls.filter fun l => l.phase == .enter

theorem entries_append (ls ms : List Line) : entries (ls ++ ms) = entries ls ++ entries ms :=
  List.filter_append ..

/-- How deep lines lie does not change which of them are entries. -/
theorem entries_raise (d : Nat) (ls : List Line) :
    entries (ls.map (Line.raise d)) = (entries ls).map (Line.raise d) :=
  List.filter_map

namespace Line

/-- The line for leaving the node that this line enters. -/
def closing (l : Line) : Line :=
  { l with phase := .leave }

/-- Puts the leaves back between entries.  The nodes that `opened` enters, the innermost first, are
    open: an entry closes those that it cannot be inside of, and in the end all are closed. -/
def restore (opened : List Line) : List Line → List Line
  | [] => opened.map closing
  | e :: es =>
    (opened.takeWhile fun l => e.depth ≤ l.depth).map closing ++
      e :: restore (e :: opened.dropWhile fun l => e.depth ≤ l.depth) es

/-- An entry below all open nodes closes none of them. -/
theorem restore_enter {opened : List Line} {e : Line} (h : ∀ l ∈ opened, l.depth < e.depth)
    (es : List Line) : restore opened (e :: es) = e :: restore (e :: opened) es := by
  cases opened with
  | nil => rfl
  | cons l opened =>
    have hdeeper : ¬ e.depth ≤ l.depth := Nat.not_le.mpr (h l List.mem_cons_self)
    rw [restore, List.takeWhile_cons_of_neg (by simpa using hdeeper),
      List.dropWhile_cons_of_neg (by simpa using hdeeper)]
    rfl

/-- The innermost node is closed before an entry that is not below it, and at the end. -/
theorem restore_close {l : Line} {es : List Line} (h : ∀ e ∈ es.head?, e.depth ≤ l.depth)
    (opened : List Line) : restore (l :: opened) es = l.closing :: restore opened es := by
  cases es with
  | nil => rfl
  | cons e es =>
    have hle : e.depth ≤ l.depth := h e rfl
    rw [restore, restore, List.takeWhile_cons_of_pos (by simpa using hle),
      List.dropWhile_cons_of_pos (by simpa using hle)]
    rfl

end Line

/-! ## Lines that can be restored -/

/-- Lines whose leaves can be put back wherever the lines stand: `d` levels down, where the open nodes
    are above level `d` and what follows is not below it. -/
structure Restorable (ls : List Line) : Prop where
  top : ∀ e ∈ (entries ls).head?, e.depth = 0
  restores : ∀ {d : Nat} {opened rest : List Line}, (∀ l ∈ opened, l.depth < d) →
    (∀ e ∈ rest.head?, e.depth ≤ d) →
      Line.restore opened (entries (ls.map (Line.raise d)) ++ rest) =
        ls.map (Line.raise d) ++ Line.restore opened rest

namespace Restorable

theorem nil : Restorable [] :=
  ⟨fun _ he => absurd he (by simp [entries]), fun _ _ => rfl⟩

/-- The first entry among lines `d` levels down, or else what follows, is not below level `d`. -/
theorem head_le {ls : List Line} (h : Restorable ls) {d : Nat} {rest : List Line}
    (hrest : ∀ e ∈ rest.head?, e.depth ≤ d) :
    ∀ e ∈ (entries (ls.map (Line.raise d)) ++ rest).head?, e.depth ≤ d := by
  intro e he
  rw [entries_raise] at he
  cases hentries : entries ls with
  | nil =>
    rw [hentries] at he
    exact hrest e he
  | cons f fs =>
    have htop : f.depth = 0 := h.top f (by rw [hentries]; rfl)
    rw [hentries] at he
    obtain rfl := Option.some.inj he
    rw [Line.raise_depth]
    omega

/-- A subtree closes itself before the next one begins. -/
theorem append {ls ms : List Line} (hls : Restorable ls) (hms : Restorable ms) :
    Restorable (ls ++ ms) where
  top := by
    intro e he
    rw [entries_append] at he
    cases hentries : entries ls with
    | nil =>
      rw [hentries] at he
      exact hms.top e he
    | cons f fs =>
      rw [hentries] at he
      exact hls.top e (by rw [hentries]; exact he)
  restores := by
    intro d opened rest hopened hrest
    rw [List.map_append, entries_append, List.append_assoc, hls.restores hopened (hms.head_le hrest),
      hms.restores hopened hrest, List.append_assoc]

/-- A node is entered above its children, and closed by whatever is not below it. -/
theorem wrap {α : Type u} [Node α] {ls : List Line} (h : Restorable ls) (n : α) :
    Restorable (.entering n :: (ls.map (Line.raise 1) ++ [.leaving n])) where
  top := by
    intro e he
    obtain rfl := Option.some.inj he
    rfl
  restores := by
    intro d opened rest hopened hrest
    have hdepth : ((Line.entering n).raise d).depth = d := Nat.zero_add d
    have hinside : (ls.map (Line.raise 1)).map (Line.raise d) = ls.map (Line.raise (d + 1)) := by
      rw [List.map_map]
      exact List.map_congr_left fun l _ => by
        rw [Function.comp_apply, Line.raise_raise, Nat.add_comm]
    have hlines : (Line.entering n :: (ls.map (Line.raise 1) ++ [.leaving n])).map (Line.raise d) =
        (Line.entering n).raise d ::
          (ls.map (Line.raise (d + 1)) ++ [((Line.entering n).raise d).closing]) := by
      rw [List.map_cons, List.map_append, hinside]
      rfl
    have hentries : entries ((Line.entering n).raise d ::
        (ls.map (Line.raise (d + 1)) ++ [((Line.entering n).raise d).closing])) =
          (Line.entering n).raise d :: entries (ls.map (Line.raise (d + 1))) := by
      show _ :: entries (ls.map (Line.raise (d + 1)) ++ [_]) = _
      rw [entries_append]
      exact congrArg (_ :: ·) (List.append_nil _)
    rw [hlines, hentries, List.cons_append, Line.restore_enter (by rw [hdepth]; exact hopened),
      h.restores, Line.restore_close (by rw [hdepth]; exact hrest)]
    · simp
    · -- the node itself is open now, one level above its children
      rw [List.forall_mem_cons, hdepth]
      exact ⟨Nat.lt_succ_self d, fun l hl => Nat.lt_succ_of_lt (hopened l hl)⟩
    · exact fun e he => Nat.le_succ_of_le (hrest e he)

end Restorable

section Traces

variable {α : Type u} [Node α]

open Node

/-- Siblings follow one another, so their lines can be restored if those of each can. -/
theorem restorable_row {cs : List α} (h : ∀ c ∈ cs, Restorable (lines c)) :
    Restorable (cs.flatMap lines) := by
  induction cs with
  | nil => exact .nil
  | cons c cs ih =>
    obtain ⟨hc, hcs⟩ := List.forall_mem_cons.mp h
    rw [List.flatMap_cons]
    exact hc.append (ih hcs)

/-- The lines of a tree can be restored from its entries.  The induction is on the tree. -/
theorem restorable_lines {n : α} : Conformant n → Restorable (lines n) := by
  induction n using held_induction with
  | step n ih =>
    intro h
    have hheld := (conformant_iff.mp h).2
    rw [lines_of_conformant h]
    exact (restorable_row fun c hc => ih c hc (hheld c hc)).wrap n

/-- The trace of a tree is what its entries are restored to. -/
theorem restore_entries {n : α} (h : Conformant n) :
    Line.restore [] (entries (lines n)) = lines n := by
  have hsame : (lines n).map (Line.raise 0) = lines n := List.map_id _
  have hrestore : Line.restore [] (entries ((lines n).map (Line.raise 0)) ++ []) =
      (lines n).map (Line.raise 0) ++ Line.restore [] [] :=
    (restorable_lines h).restores (fun l hl => absurd hl List.not_mem_nil)
      (fun e he => absurd he (by simp))
  rw [hsame, List.append_nil] at hrestore
  exact hrestore.trans (List.append_nil _)

example : Line.restore [] [⟨.enter, "TUPLE", 0, none⟩, ⟨.enter, "OPTIONAL", 1, none⟩,
      ⟨.enter, "NULL", 2, none⟩, ⟨.enter, "ANY", 1, none⟩] =
    [⟨.enter, "TUPLE", 0, none⟩, ⟨.enter, "OPTIONAL", 1, none⟩, ⟨.enter, "NULL", 2, none⟩,
     ⟨.leave, "NULL", 2, none⟩, ⟨.leave, "OPTIONAL", 1, none⟩, ⟨.enter, "ANY", 1, none⟩,
     ⟨.leave, "ANY", 1, none⟩, ⟨.leave, "TUPLE", 0, none⟩] := rfl

/-- Two trees with the same entries have the same lines. -/
theorem lines_eq_of_entries_eq {β : Type u} [Node β] {m : α} {n : β} (hm : Conformant m)
    (hn : Conformant n) (h : entries (lines m) = entries (lines n)) : lines m = lines n := by
  rw [← restore_entries hm, h, restore_entries hn]

end Traces

/-! ## Reports in JSON -/

namespace Report.Json

open TypeTree (Json)

/-- A line in JSON has integers only, so that it is written in one way. -/
theorem whole_line (l : Line) : (line l).Whole := by
  obtain ⟨members, hline, hparts, -⟩ := exists_members_line Json.Whole.str (Json.Whole.int l.depth)
  rw [hline]
  exact .obj hparts

/-- A document of a line has all that the line has. -/
theorem line_injective {l m : Line} (h : line l = line m) : l = m := by
  obtain ⟨phase, tag, depth, value?⟩ := l
  obtain ⟨phase', tag', depth', value?'⟩ := m
  have hword : phase.word = phase'.word → phase = phase' := by
    cases phase <;> cases phase' <;> simp [Phase.word]
  have hmembers := Json.obj.inj h
  cases value? <;> cases value?' <;> simp_all [Json.int]

/-- The text of a report determines the lines that it shows, under any settings. -/
theorem shown_eq_of_pretty_eq {c d : Config} {ls ms : List Line}
    (h : (trace c ls).pretty = (trace d ms).pretty) : c.shown ls = d.shown ms := by
  have hwhole : ∀ (c : Config) (ls : List Line), (trace c ls).Whole := by
    intro c ls
    refine .arr fun j hj => ?_
    obtain ⟨l, -, rfl⟩ := List.mem_map.mp hj
    exact whole_line l
  have hdocuments := Json.arr.inj (Json.pretty_injective (hwhole c ls) (hwhole d ms) h)
  exact List.map_injective_iff.mpr (fun _ _ => line_injective) hdocuments

end Report.Json

/-- Where values are shown but no leaves, the entries are shown as they are. -/
theorem Config.shown_eq_entries (i : UInt64) (ls : List Line) :
    Config.shown { format := .json, indent := i, showValues := true, leaveEvents := false } ls =
      entries ls :=
  List.map_id _

/-! ## Traces without leaves -/

/-- Nothing is lost if leaves are not shown.  Two trees with the same entries, in the same order and
    with the same tags, depths and values, have the same trace.  So if reports in JSON show values
    but no leaves, and are equal, the whole traces are equal. -/
theorem entries_determine_trace {m n : Json} {ls ms : List Line} (hls : trace m = .ok ls)
    (hms : trace n = .ok ms) :
    (ls.filter (·.phase == .enter) = ms.filter (·.phase == .enter) → ls = ms) ∧
    ∀ i j : UInt64,
      Report.trace { format := .json, indent := i, showValues := true, leaveEvents := false } ls =
        Report.trace { format := .json, indent := j, showValues := true, leaveEvents := false } ms →
      ls = ms := by
  obtain ⟨hm, rfl⟩ := trace_eq_ok_iff.mp hls
  obtain ⟨hn, rfl⟩ := trace_eq_ok_iff.mp hms
  refine ⟨lines_eq_of_entries_eq hm hn, ?_⟩
  intro i j h
  have hshown := Report.Json.shown_eq_of_pretty_eq (Except.ok.inj h)
  rw [Config.shown_eq_entries, Config.shown_eq_entries] at hshown
  exact lines_eq_of_entries_eq hm hn hshown

/-- A tuple whose first part lies deep, so that three nodes are left before the second. -/
def steepTuple : Json :=
  .obj [("type", .str "TUPLE"),
    ("entries", .arr
      [.obj [("type", .str "OPTIONAL"),
         ("value", .obj [("type", .str "VARIADIC"),
           ("value", .obj [("type", .str "NAME"), ("name", .str "a")])])],
       .obj [("type", .str "ANY")]])]

/-- The same tuple, written in another order and with a remark. -/
def steepTupleRemarked : Json :=
  .obj [("remark", .arr []),
    ("entries", .arr
      [.obj [("value", .obj [("value", .obj [("name", .str "a"), ("type", .str "NAME")]),
           ("type", .str "VARIADIC")]),
         ("type", .str "OPTIONAL")],
       .obj [("type", .str "ANY")]]),
    ("type", .str "TUPLE")]

/-- Three leaves follow one another, and all of them are restored from the depth of the next entry.
    -/
theorem steepTuple_determined :
    ∃ ls ms, trace steepTuple = .ok ls ∧ trace steepTupleRemarked = .ok ms ∧
      ls.filter (·.phase == .enter) =
        [⟨.enter, "TUPLE", 0, none⟩, ⟨.enter, "OPTIONAL", 1, none⟩, ⟨.enter, "VARIADIC", 2, none⟩,
         ⟨.enter, "NAME", 3, some "a"⟩, ⟨.enter, "ANY", 1, none⟩] ∧
      ls.filter (·.phase == .enter) = ms.filter (·.phase == .enter) ∧ ls = ms := by
  have htrace : trace steepTuple = .ok
      [⟨.enter, "TUPLE", 0, none⟩, ⟨.enter, "OPTIONAL", 1, none⟩, ⟨.enter, "VARIADIC", 2, none⟩,
       ⟨.enter, "NAME", 3, some "a"⟩, ⟨.leave, "NAME", 3, some "a"⟩, ⟨.leave, "VARIADIC", 2, none⟩,
       ⟨.leave, "OPTIONAL", 1, none⟩, ⟨.enter, "ANY", 1, none⟩, ⟨.leave, "ANY", 1, none⟩,
       ⟨.leave, "TUPLE", 0, none⟩] := by cbv
  have htrace' : trace steepTupleRemarked = trace steepTuple := by
    rw [htrace]
    cbv
  have hsame := entries_determine_trace htrace (htrace'.trans htrace)
  exact ⟨_, _, htrace, htrace'.trans htrace, rfl, rfl, hsame.1 rfl⟩

end TypeTree
