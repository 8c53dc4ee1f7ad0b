/-
  Counting: the statistics of a tree, from its children and from its trace.

  The counter that goes along on a walk keeps a running number of open nodes, a running maximum and
  a dictionary that it updates.  The lines of a trace keep the same number of open nodes, so after
  any events at all the counter holds what can be counted in their lines.  Since the lines of a tree
  are put together from those of its children, so are its statistics.

    * `Stats.Gathers`  statistics as a sum over children;
    * `Stats.Tallies`  statistics as a count of lines;
    * `opened_pos_of_leave`  no node is left unless one is open, in every walk.
-/
import Mathlib.Algebra.GroupWithZero.Nat
import Mathlib.Data.List.Forall2
import TypeTree.Proofs.Lines
import TypeTree.Stats

namespace TypeTree

universe u

variable {α : Type u} [Node α]

open Node

/-! ## Counting lines -/

/-- The number of entries among the lines. -/
def entryCount (ls : List Line) : Nat :=
  ls.countP fun l => l.phase == .enter

/-- The number of entries with this tag among the lines. -/
def tagCount (t : String) (ls : List Line) : Nat :=
  ls.countP fun l => l.phase == .enter && l.tag == t

/-- One more than the greatest depth of an entry; 0 if there is none. -/
def peak : List Line → Nat
  | [] => 0
  | l :: ls => if l.phase = .enter then max (l.depth + 1) (peak ls) else peak ls

/-- Only an entry counts. -/
theorem entryCount_cons (l : Line) (ls : List Line) :
    entryCount (l :: ls) = (if l.phase = .enter then 1 else 0) + entryCount ls := by
  rw [entryCount, List.countP_cons, Nat.add_comm]
  simp only [beq_iff_eq]
  rfl

/-- Only an entry with this very tag counts. -/
theorem tagCount_cons (t : String) (l : Line) (ls : List Line) :
    tagCount t (l :: ls) =
      (if l.phase = .enter ∧ l.tag = t then 1 else 0) + tagCount t ls := by
  rw [tagCount, List.countP_cons, Nat.add_comm]
  simp only [Bool.and_eq_true, beq_iff_eq]
  rfl

theorem entryCount_append (ls ms : List Line) :
    entryCount (ls ++ ms) = entryCount ls + entryCount ms :=
  List.countP_append

theorem tagCount_append (t : String) (ls ms : List Line) :
    tagCount t (ls ++ ms) = tagCount t ls + tagCount t ms :=
  List.countP_append

/-- The deepest entry of two rows of lines is the deeper one of theirs. -/
theorem peak_append (ls ms : List Line) : peak (ls ++ ms) = max (peak ls) (peak ms) := by
  induction ls with
  | nil => exact (Nat.zero_max _).symm
  | cons l ls ih =>
    rw [List.cons_append, peak, peak, ih]
    split
    · exact (Nat.max_assoc _ _ _).symm
    · rfl

/-- How deep the lines lie does not matter to their number. -/
theorem entryCount_raise (d : Nat) (ls : List Line) :
    entryCount (ls.map (Line.raise d)) = entryCount ls := by
  rw [entryCount, List.countP_map]
  rfl

theorem tagCount_raise (t : String) (d : Nat) (ls : List Line) :
    tagCount t (ls.map (Line.raise d)) = tagCount t ls := by
  rw [tagCount, List.countP_map]
  rfl

/-- Lines below an entry at the top. -/
theorem max_peak_raise (ls : List Line) : max 1 (peak (ls.map (Line.raise 1))) = 1 + peak ls := by
  induction ls with
  | nil => rfl
  | cons l ls ih =>
    rw [List.map_cons, peak, peak, Line.raise_phase, Line.raise_depth]
    split
    · omega
    · exact ih

/-! ## Statistics and lines of a walk in progress -/

/-- How often a tag was counted. -/
def Stats.count (s : Stats) (t : String) : Nat :=
  (s.types.get? t).getD 0

/-- Every key stands once, in order, and was counted. -/
structure Stats.WellKept (s : Stats) : Prop where
  sorted : s.types.Sorted
  positive : ∀ p ∈ s.types, 1 ≤ p.2

/-- A well kept dictionary lists a tag with a count exactly if the tag was counted so often, which
    is at least once. -/
theorem Stats.WellKept.mem_iff {s : Stats} (h : s.WellKept) (t : String) (c : Nat) :
    (t, c) ∈ s.types ↔ 1 ≤ c ∧ s.count t = c := by
  rw [← Dict.lookup_eq_some_iff_mem h.sorted.nodup]
  constructor
  · intro hc
    refine ⟨h.positive (t, c) ((Dict.lookup_eq_some_iff_mem h.sorted.nodup).mp hc), ?_⟩
    rw [Stats.count, Dict.get?, hc]
    rfl
  · rintro ⟨hpos, hcount⟩
    rw [Stats.count, Dict.get?] at hcount
    cases hget : s.types.lookup t with
    | none =>
      rw [hget] at hcount
      exact absurd hcount (by simp; omega)
    | some c' =>
      rw [hget] at hcount
      exact congrArg some hcount

/-- One more is counted under one key, and nothing else changes; a key that is not there counts as
    0. -/
theorem getD_get?_update (d : Dict Nat) (k t : String) :
    ((d.update k 0 (· + 1)).get? t).getD 0 =
      (if t = k then 1 else 0) + (d.get? t).getD 0 := by
  rw [Dict.update, Dict.get?_insert]
  by_cases h : t = k
  · rw [if_pos h, if_pos h, h, Nat.add_comm]
    rfl
  · rw [if_neg h, if_neg h, Nat.zero_add]

/-- Counting one more tag keeps the order of the dictionary and its counts positive. -/
theorem Stats.WellKept.update {s : Stats} (h : s.WellKept) (k : String) (nodes depth : Nat) :
    Stats.WellKept ⟨nodes, depth, s.types.update k 0 (· + 1)⟩ where
  sorted := h.sorted.insert k _
  positive p hp := by
    rcases Dict.mem_insert hp with rfl | hp
    · exact Nat.le_add_left 1 _
    · exact h.positive p hp

/-! After any events the counter holds what it held before and what there is to count in their
lines.  These start at the depth that the counter has reached. -/

/-- The counter has one node more for each entry. -/
theorem nodes_foldl_counter (es : List (Event α)) (c : Census) :
    (es.foldl counter.see c).stats.nodes =
      c.stats.nodes + entryCount (Line.ofEvents c.opened es) := by
  induction es generalizing c with
  | nil => rfl
  | cons e es ih =>
    rw [List.foldl_cons, ih]
    cases e with
    | enter n =>
      rw [Line.ofEvents, entryCount_cons, if_pos rfl]
      exact Nat.add_assoc _ _ _
    | leave n =>
      rw [Line.ofEvents, entryCount_cons, if_neg (by simp), Nat.zero_add]
      rfl

/-- The greatest number of open nodes so far is one more than the depth of the deepest line, as a
    line is as deep as there are nodes open before it. -/
theorem depth_foldl_counter (es : List (Event α)) (c : Census) :
    (es.foldl counter.see c).stats.depth =
      max c.stats.depth (peak (Line.ofEvents c.opened es)) := by
  induction es generalizing c with
  | nil => exact (Nat.max_zero _).symm
  | cons e es ih =>
    rw [List.foldl_cons, ih]
    cases e with
    | enter n =>
      rw [Line.ofEvents, peak, if_pos rfl]
      exact Nat.max_assoc _ _ _
    | leave n =>
      rw [Line.ofEvents, peak, if_neg (by simp)]
      rfl

/-- The counter has one more under a tag for each entry with this tag. -/
theorem count_foldl_counter (es : List (Event α)) (c : Census) (t : String) :
    (es.foldl counter.see c).stats.count t =
      c.stats.count t + tagCount t (Line.ofEvents c.opened es) := by
  induction es generalizing c with
  | nil => rfl
  | cons e es ih =>
    rw [List.foldl_cons, ih]
    cases e with
    | enter n =>
      have hcount := getD_get?_update c.stats.types (tag n) t
      have hiff : (if tag n = t then 1 else 0) = if t = tag n then 1 else 0 := by
        simp only [eq_comm]
      rw [Line.ofEvents, tagCount_cons]
      simp only [true_and]
      show ((c.stats.types.update (tag n) 0 (· + 1)).get? t).getD 0 + _ =
        (c.stats.types.get? t).getD 0 + ((if tag n = t then 1 else 0) + _)
      rw [hcount, hiff]
      exact (Nat.add_assoc _ _ _).trans (Nat.add_left_comm _ _ _)
    | leave n =>
      rw [Line.ofEvents, tagCount_cons, if_neg (by simp), Nat.zero_add]
      rfl

/-- Whatever the events are, the dictionary stays well kept. -/
theorem wellKept_foldl_counter (es : List (Event α)) {c : Census} (h : c.stats.WellKept) :
    (es.foldl counter.see c).stats.WellKept := by
  induction es generalizing c with
  | nil => exact h
  | cons e es ih =>
    rw [List.foldl_cons]
    cases e with
    | enter n => exact ih (h.update (tag n) _ _)
    | leave n => exact ih h

/-! ## Statistics of trees -/

/-- What a counter holds after the walk of a tree, as far as it gets. -/
def treeStats (n : α) : Stats :=
  ((record n).events.foldl counter.see {}).stats

/-- A tree has statistics exactly if it conforms, and they are what the counter holds in the end. -/
theorem stats_eq_ok_iff {n : α} {s : Stats} :
    stats n = .ok s ↔ Conformant n ∧ s = treeStats n := by
  rw [← fault_eq_none_iff, stats, walk_eq_play]
  simp only [Recording.play]
  cases (record n).fault with
  | none => simp [treeStats, eq_comm]
  | some f => simp

/-- Without statistics there is the fault of the walk. -/
theorem stats_eq_error_iff {n : α} {f : Fault} :
    stats n = .error f ↔ (record n).fault = some f := by
  rw [stats, walk_eq_play]
  simp only [Recording.play]
  cases (record n).fault with
  | none => simp
  | some g => simp

/-- A tree has as many nodes as its lines have entries. -/
theorem treeStats_nodes (n : α) : (treeStats n).nodes = entryCount (lines n) :=
  (nodes_foldl_counter (record n).events {}).trans (Nat.zero_add _)

/-- A tree has as many levels as its lines reach. -/
theorem treeStats_depth (n : α) : (treeStats n).depth = peak (lines n) :=
  (depth_foldl_counter (record n).events {}).trans (Nat.zero_max _)

/-- A tag is counted as often as it stands in an entry. -/
theorem treeStats_count (n : α) (t : String) : (treeStats n).count t = tagCount t (lines n) :=
  (count_foldl_counter (record n).events {} t).trans (Nat.zero_add _)

theorem treeStats_wellKept (n : α) : (treeStats n).WellKept :=
  wellKept_foldl_counter (record n).events ⟨.nil, fun _ hp => absurd hp List.not_mem_nil⟩

/-! ## From the children -/

/-- The entries of a row of siblings are those of each of them. -/
theorem entryCount_row (cs : List α) :
    entryCount (cs.flatMap lines) = (cs.map fun c => entryCount (lines c)).sum :=
  List.countP_flatMap

theorem tagCount_row (t : String) (cs : List α) :
    tagCount t (cs.flatMap lines) = (cs.map fun c => tagCount t (lines c)).sum :=
  List.countP_flatMap

/-- A row of siblings reaches as deep as the deepest of them. -/
theorem peak_row (cs : List α) :
    peak (cs.flatMap lines) = (cs.map fun c => peak (lines c)).foldr max 0 := by
  induction cs with
  | nil => rfl
  | cons c cs ih => rw [List.flatMap_cons, peak_append, ih, List.map_cons, List.foldr_cons]

/-- A tree has one entry for its root, and the entries of the children. -/
theorem entryCount_lines {n : α} (h : Conformant n) :
    entryCount (lines n) = 1 + ((held n).map fun c => entryCount (lines c)).sum := by
  rw [lines_of_conformant h, entryCount_cons, entryCount_append, entryCount_raise, entryCount_row]
  rfl

/-- The root adds one to the count of its own tag, and to no other. -/
theorem tagCount_lines {n : α} (h : Conformant n) (t : String) :
    tagCount t (lines n) =
      (if t = tag n then 1 else 0) + ((held n).map fun c => tagCount t (lines c)).sum := by
  rw [lines_of_conformant h, tagCount_cons, tagCount_append, tagCount_raise, tagCount_row]
  have hroot : (if (Line.entering n).phase = .enter ∧ (Line.entering n).tag = t then 1 else 0) =
      if t = tag n then 1 else 0 := by
    simp only [Line.entering, true_and, eq_comm]
  rw [hroot]
  rfl

/-- A tree reaches one level deeper than the deepest of its children. -/
theorem peak_lines {n : α} (h : Conformant n) :
    peak (lines n) = 1 + ((held n).map fun c => peak (lines c)).foldr max 0 := by
  have henter : (Line.entering n).phase = .enter := rfl
  rw [lines_of_conformant h, peak, if_pos henter, peak_append, ← peak_row, ← max_peak_raise]
  exact congrArg (max 1) (Nat.max_zero _)

/-- The statistics `s` of a tree whose root has this tag, from those of the children: the root is
    one node and one level more. -/
structure Stats.Gathers (s : Stats) (tag : String) (rs : List Stats) : Prop where
  nodes : s.nodes = 1 + (rs.map Stats.nodes).sum
  depth : s.depth = 1 + (rs.map Stats.depth).foldr max 0
  types : ∀ t, s.count t = (if t = tag then 1 else 0) + (rs.map fun r => r.count t).sum

/-- The counter, which runs over the events one by one, comes to the sum over the children. -/
theorem gathers_of_conformant {n : α} (h : Conformant n) :
    (treeStats n).Gathers (tag n) ((held n).map treeStats) where
  nodes := by
    rw [treeStats_nodes, entryCount_lines h, List.map_map]
    exact congrArg (1 + List.sum ·) (List.map_congr_left fun c _ => (treeStats_nodes c).symm)
  depth := by
    rw [treeStats_depth, peak_lines h, List.map_map]
    exact congrArg (1 + List.foldr max 0 ·)
      (List.map_congr_left fun c _ => (treeStats_depth c).symm)
  types t := by
    rw [treeStats_count, tagCount_lines h, List.map_map]
    exact congrArg (_ + List.sum ·) (List.map_congr_left fun c _ => (treeStats_count c t).symm)

/-! ## From the trace -/

/-- A row has twice as many lines as entries if each of the siblings has. -/
theorem length_row {cs : List α} (h : ∀ c ∈ cs, (lines c).length = 2 * entryCount (lines c)) :
    (cs.flatMap lines).length = 2 * entryCount (cs.flatMap lines) := by
  induction cs with
  | nil => rfl
  | cons c cs ih =>
    obtain ⟨hc, hcs⟩ := List.forall_mem_cons.mp h
    have hrest := ih hcs
    rw [List.flatMap_cons, List.length_append, entryCount_append]
    omega

/-- Every line is an entry or the leave that belongs to one. -/
theorem length_lines {n : α} : Conformant n → (lines n).length = 2 * entryCount (lines n) := by
  induction n using held_induction with
  | step n ih =>
    intro h
    have hheld := (conformant_iff.mp h).2
    have hrow := length_row fun c hc => ih c hc (hheld c hc)
    rw [entryCount_lines h, ← entryCount_row, lines_of_conformant h]
    simp only [List.length_cons, List.length_append, List.length_map, List.length_nil, hrow]
    omega

/-- A leave is as deep as the entry it belongs to, so no line lies deeper than the deepest entry. -/
theorem depth_lt_peak {n : α} : Conformant n → ∀ l ∈ lines n, l.depth < peak (lines n) := by
  induction n using held_induction with
  | step n ih =>
    intro h l hl
    have hheld := (conformant_iff.mp h).2
    have hpeak : peak (lines n) = 1 + peak ((held n).flatMap lines) := by
      rw [peak_lines h, peak_row]
    rw [hpeak]
    rw [lines_of_conformant h] at hl
    simp only [List.mem_cons, List.mem_append, List.not_mem_nil, or_false] at hl
    rcases hl with rfl | hl | rfl
    · exact Nat.lt_of_lt_of_le Nat.one_pos (Nat.le_add_right _ _)
    · obtain ⟨m, hm, rfl⟩ := List.mem_map.mp hl
      obtain ⟨c, hc, hm⟩ := List.mem_flatMap.mp hm
      have hlt := ih c hc (hheld c hc) m hm
      have hle : peak (lines c) ≤ peak ((held n).flatMap lines) := by
        obtain ⟨before, after, hsplit⟩ := List.append_of_mem hc
        rw [hsplit, List.flatMap_append, List.flatMap_cons, peak_append, peak_append]
        omega
      rw [Line.raise_depth]
      omega
    · exact Nat.lt_of_lt_of_le Nat.one_pos (Nat.le_add_right _ _)

/-- If there is an entry at all, some entry lies as deep as the lines reach. -/
theorem exists_depth_eq_peak {ls : List Line} (h : 0 < peak ls) :
    ∃ l ∈ ls, l.phase = .enter ∧ l.depth + 1 = peak ls := by
  induction ls with
  | nil => exact absurd h (Nat.lt_irrefl 0)
  | cons l ls ih =>
    -- either the first line is the deepest entry, or that is one of the others
    have hcases : (l.phase = .enter ∧ l.depth + 1 = peak (l :: ls)) ∨
        peak ls = peak (l :: ls) := by
      rw [peak]
      split
      · rename_i hphase
        have hmax : l.depth + 1 = max (l.depth + 1) (peak ls) ∨
            peak ls = max (l.depth + 1) (peak ls) := by omega
        exact hmax.imp_left fun hdepth => ⟨hphase, hdepth⟩
      · exact .inr rfl
    rcases hcases with hfirst | hrest
    · exact ⟨l, List.mem_cons_self, hfirst⟩
    · rw [← hrest] at h ⊢
      obtain ⟨m, hm, hdepth⟩ := ih h
      exact ⟨m, List.mem_cons_of_mem l hm, hdepth⟩

theorem peak_lines_pos {n : α} (h : Conformant n) : 0 < peak (lines n) := by
  rw [peak_lines h]
  omega

/-- A line has the tag of the node of its event. -/
theorem exists_event_of_mem_ofEvents {es : List (Event α)} {d : Nat} {l : Line}
    (h : l ∈ Line.ofEvents d es) : ∃ e ∈ es, l.tag = tag e.node := by
  induction es generalizing d with
  | nil => exact absurd h List.not_mem_nil
  | cons e es ih =>
    cases e with
    | enter n =>
      rcases List.mem_cons.mp h with rfl | h
      · exact ⟨_, List.mem_cons_self, rfl⟩
      · obtain ⟨e, he, htag⟩ := ih h
        exact ⟨e, List.mem_cons_of_mem _ he, htag⟩
    | leave n =>
      rcases List.mem_cons.mp h with rfl | h
      · exact ⟨_, List.mem_cons_self, rfl⟩
      · obtain ⟨e, he, htag⟩ := ih h
        exact ⟨e, List.mem_cons_of_mem _ he, htag⟩

/-- Every line has the tag of a kind. -/
theorem known_of_mem_lines {n : α} {l : Line} (h : l ∈ lines n) : ∃ k : Kind, k.tag = l.tag := by
  obtain ⟨e, he, htag⟩ := exists_event_of_mem_ofEvents h
  obtain ⟨k, hk⟩ := known_of_mem_record he
  exact ⟨k, hk.trans htag.symm⟩

/-- Only tags of kinds are counted. -/
theorem known_of_count_pos {n : α} {t : String} (h : 0 < (treeStats n).count t) :
    ∃ k : Kind, k.tag = t := by
  rw [treeStats_count, tagCount, List.countP_pos_iff] at h
  obtain ⟨l, hl, hentry⟩ := h
  have hlt : l.tag = t := by simpa using (Bool.and_eq_true_iff.mp hentry).2
  rw [← hlt]
  exact known_of_mem_lines hl

/-- The statistics `s` as a count of the lines of a trace.  Its dictionary has each tag once, in
    order, and only tags that were counted; these are the tags of kinds. -/
structure Stats.Tallies (s : Stats) (ls : List Line) : Prop where
  nodes : s.nodes = ls.countP fun l => l.phase == .enter
  half : ls.length = 2 * s.nodes
  within : ∀ l ∈ ls, l.depth + 1 ≤ s.depth
  reached : ∃ l ∈ ls, l.depth + 1 = s.depth
  types : ∀ t, s.count t = ls.countP fun l => l.phase == .enter && l.tag == t
  sorted : s.types.Sorted
  listed : ∀ t c, (t, c) ∈ s.types ↔ 1 ≤ c ∧ s.count t = c
  known : ∀ p ∈ s.types, ∃ k : Kind, k.tag = p.1

/-- The statistics of a tree are a count of its lines. -/
theorem tallies_of_conformant {n : α} (h : Conformant n) : (treeStats n).Tallies (lines n) where
  nodes := treeStats_nodes n
  half := by rw [length_lines h, treeStats_nodes]
  within l hl := by
    rw [treeStats_depth]
    exact depth_lt_peak h l hl
  reached := by
    rw [treeStats_depth]
    obtain ⟨l, hl, -, hdepth⟩ := exists_depth_eq_peak (peak_lines_pos h)
    exact ⟨l, hl, hdepth⟩
  types := treeStats_count n
  sorted := (treeStats_wellKept n).sorted
  listed := (treeStats_wellKept n).mem_iff
  known p hp := by
    obtain ⟨hpos, hcount⟩ := ((treeStats_wellKept n).mem_iff p.1 p.2).mp hp
    have : 0 < (treeStats n).count p.1 := by omega
    exact known_of_count_pos this

/-! ## The number of open nodes -/

/-- The counter has as many nodes open as there are on the stack.  It subtracts one for each leave,
    and a replay never leaves with the stack empty, so this subtraction never stops at 0. -/
theorem Replays.opened_eq {st st' : List α} {es : List (Event α)} (h : Replays st es st')
    {c : Census} (hc : c.opened = st.length) :
    (es.foldl counter.see c).opened = st'.length := by
  induction h generalizing c with
  | nil => exact hc
  | @enter n st st' es _ ih =>
    rw [List.foldl_cons]
    refine ih ?_
    show c.opened + 1 = st.length + 1
    omega
  | @leave n st st' es _ ih =>
    rw [List.foldl_cons]
    refine ih ?_
    show c.opened - 1 = st.length
    rw [List.length_cons] at hc
    omega

/-- Whenever a walk leaves a node, also a walk that does not get to its end, the counter has a node
    open to be closed. -/
theorem opened_pos_of_leave {n m : α} {before after : List (Event α)}
    (h : (record n).events = before ++ .leave m :: after) :
    1 ≤ (before.foldl counter.see {}).opened := by
  obtain ⟨st, hst⟩ := exists_replays n
  rw [h] at hst
  obtain ⟨mid, hbefore, hleave⟩ := hst.exists_mid
  cases hleave with
  | leave rest =>
    rw [hbefore.opened_eq (c := {}) rfl]
    exact Nat.le_add_left 1 _

/-! ## Statistics -/

/-- Statistics and trace have the same fault, or both are there.  Then the statistics are a sum over
    the children of the root, who have statistics too, and they are a count of the lines of the
    trace.  At no time, on any walk, does the counter close a node when none is open. -/
theorem stats_agree_with_trace (n : α) :
    ((∃ f, stats n = .error f ∧ trace n = .error f) ∨
      ∃ s ls cs rs, stats n = .ok s ∧ trace n = .ok ls ∧ children n = .ok cs ∧
        List.Forall₂ (fun c r => stats c = .ok r) cs rs ∧ s.Gathers (tag n) rs ∧ s.Tallies ls) ∧
    ∀ before m after, (record n).events = before ++ .leave m :: after →
      1 ≤ (before.foldl counter.see {}).opened := by
  refine ⟨?_, fun before m after h => opened_pos_of_leave h⟩
  cases hfault : (record n).fault with
  | some f => exact .inl ⟨f, stats_eq_error_iff.mpr hfault, trace_eq_error_iff.mpr hfault⟩
  | none =>
    have hn := fault_eq_none_iff.mp hfault
    obtain ⟨hsound, hheld⟩ := conformant_iff.mp hn
    refine .inr ⟨treeStats n, lines n, held n, (held n).map treeStats,
      stats_eq_ok_iff.mpr ⟨hn, rfl⟩, trace_eq_ok_iff.mpr ⟨hn, rfl⟩,
      children_eq_ok_iff.mpr ⟨hsound, rfl⟩, ?_, gathers_of_conformant hn, tallies_of_conformant hn⟩
    refine List.forall₂_map_right_iff.mpr (List.forall₂_same.mpr fun c hc => ?_)
    exact stats_eq_ok_iff.mpr ⟨hheld c hc, rfl⟩

end TypeTree
