/-
  Widths: which traces are too wide or too long for a text, and what overflows then.

  The indentation of a line is its depth times the configured indent.  Two things can go wrong with
  it: the product may be no 64-bit word, or it may be a word but too long for a text.  The first never
  happens.  The lines that are shown start at depth 0, and each is at most one level deeper than the
  shown line before it (`climbs_shown`), so the depth cannot jump over the widths that are words but
  too long for a text: the report has stopped there before a product could overflow.

  What is left is room.  Lines that are all narrow enough can still be too many for one text, so it is
  the room for the whole text that decides (`trace_eq_error_iff`).

    * `exists_first_failure`  the lines before the one at which a report fails are not too wide;
    * `Climbs.width_lt`       up to and including that line all products are words;
    * `deepest_shown`         the deepest line is among those that need room.
-/
import TypeTree.Proofs.Counting
import TypeTree.Proofs.TraceReports

namespace TypeTree

universe u

variable {α : Type u} [Node α]

/-! ## Depths rise one by one -/

/-- The first line is not deeper than `bound`, and no line is deeper than one level below the line
    before it. -/
inductive Climbs : Nat → List Line → Prop where
  | nil (bound : Nat) : Climbs bound []
  | cons {bound : Nat} {l : Line} {ls : List Line} (first : l.depth ≤ bound)
      (rest : Climbs (l.depth + 1) ls) : Climbs bound (l :: ls)

/-- The lines that are shown climb, whichever those are.  The induction is on the events; a leave that
    is not shown only brings the next line further up. -/
theorem climbs_shown (c : Config) (es : List (Event α)) {d bound : Nat} (h : d ≤ bound) :
    Climbs bound (c.shown (Line.ofEvents d es)) := by
  induction es generalizing d bound with
  | nil => exact .nil bound
  | cons e es ih =>
    cases e with
    | enter n =>
      have hshows : c.shows ⟨.enter, Node.tag n, d, Node.label? n⟩ = true := by
        simp [Config.shows]
      rw [Line.ofEvents, Config.shown_cons_of_shows hshows]
      refine .cons ?_ (ih ?_)
      · rw [Config.mask_depth]
        exact h
      · rw [Config.mask_depth]
    | leave n =>
      rw [Line.ofEvents]
      cases hshows : c.shows ⟨.leave, Node.tag n, d - 1, Node.label? n⟩ with
      | false =>
        rw [Config.shown_cons_of_not_shows hshows]
        exact ih (by omega)
      | true =>
        rw [Config.shown_cons_of_shows hshows]
        refine .cons ?_ (ih ?_)
        · rw [Config.mask_depth]
          show d - 1 ≤ bound
          omega
        · rw [Config.mask_depth]
          show d - 1 ≤ d - 1 + 1
          omega

/-! ## Widths that follow one another -/

/-- One level below a width that fits a text the product is still a word.  At depth 1 it is the indent
    itself; further down the indent is not greater than the width before it. -/
theorem succ_mul_lt_of_fits {depth indent : Nat} (hindent : indent < 0x10000000000000000)
    (h : depth * indent ≤ Report.Buffer.limit) : (depth + 1) * indent < 0x10000000000000000 := by
  have hlimit : Report.Buffer.limit = 0x7fffffffffffffff := rfl
  rw [Nat.succ_mul]
  cases depth with
  | zero =>
    rw [Nat.zero_mul, Nat.zero_add]
    exact hindent
  | succ depth =>
    have hle : indent ≤ (depth + 1) * indent := Nat.le_mul_of_pos_left indent (Nat.succ_pos depth)
    omega

/-- As long as everything before it fits, the width of a line is a word. -/
theorem Climbs.width_lt {indent : Nat} (hindent : indent < 0x10000000000000000)
    {before after : List Line} {l : Line} : ∀ {bound : Nat},
    Climbs bound (before ++ l :: after) → bound * indent < 0x10000000000000000 →
      (∀ m ∈ before, m.depth * indent ≤ Report.Buffer.limit) →
        l.depth * indent < 0x10000000000000000 := by
  induction before with
  | nil =>
    intro bound hclimbs hbound _
    cases hclimbs with
    | cons first _ =>
      have hle : l.depth * indent ≤ bound * indent := Nat.mul_le_mul_right indent first
      omega
  | cons m before ih =>
    intro bound hclimbs _ hfits
    obtain ⟨hm, hbefore⟩ := List.forall_mem_cons.mp hfits
    cases hclimbs with
    | cons _ rest => exact ih rest (succ_mul_lt_of_fits hindent hm) hbefore

/-- Lines go down one level at a time, so the first line that is too wide for a text is still a word
    wide. -/
theorem width_lt_of_shown {n : α} {c : Config} {before after : List Line} {l : Line}
    (h : c.shown (lines n) = before ++ l :: after)
    (hbefore : ∀ m ∈ before, m.depth * c.indent.toNat ≤ Report.Buffer.limit) :
    l.depth * c.indent.toNat < 0x10000000000000000 := by
  have hclimbs : Climbs 0 (before ++ l :: after) := by
    rw [← h]
    exact climbs_shown c _ (Nat.le_refl 0)
  exact hclimbs.width_lt c.indent.toNat_lt (by omega) hbefore

namespace Report.Text

/-! ## Where a report fails -/

/-- A width that is a word but no length of a text is the one way to fail that is left. -/
theorem overflow_of_word {indent : UInt64} {depth : Nat} {o : Overflow}
    (h : indentation indent depth = .error o) (hword : depth * indent.toNat < 0x10000000000000000) :
    o = .capacity := by
  simp only [indentation] at h
  rw [if_neg (by omega)] at h
  split at h
  · exact (Except.error.inj h).symm
  · exact absurd h (by simp)

/-- A report that fails does so at some line, because that line is too wide or because it finds no
    room.  No line before it was too wide. -/
theorem exists_first_failure {c : Config} {b : Buffer} {ls : List Line} {o : Overflow}
    (h : lines c b ls = .error o) :
    ∃ before l after, c.shown ls = before ++ l :: after ∧
      (∀ m ∈ before, m.depth * c.indent.toNat ≤ Buffer.limit) ∧
        (indentation c.indent l.depth = .error o ∨ o = .capacity) := by
  induction ls generalizing b with
  | nil => exact absurd h (by simp [lines])
  | cons l ls ih =>
    cases hshows : c.shows l with
    | false =>
      rw [lines, if_pos ((skips_iff c l).mpr hshows)] at h
      rw [Config.shown_cons_of_not_shows hshows]
      exact ih h
    | true =>
      rw [lines, if_neg (not_skips_of_shows hshows)] at h
      rw [Config.shown_cons_of_shows hshows]
      have hnone : ∀ m ∈ ([] : List Line), m.depth * c.indent.toNat ≤ Buffer.limit :=
        fun m hm => absurd hm List.not_mem_nil
      cases hindent : indentation c.indent l.depth with
      | error o' =>
        -- this line is too wide
        simp only [hindent] at h
        obtain rfl : o' = o := Except.error.inj h
        exact ⟨[], c.mask l, c.shown ls, rfl, hnone, .inl (by rw [Config.mask_depth, hindent])⟩
      | ok width =>
        have hfits := (indentation_eq_ok_iff.mp hindent).1
        simp only [hindent] at h
        cases hpush : b.pushAll (width :: (linePieces c l).map String.utf8ByteSize) with
        | error o' =>
          -- this line finds no room
          simp only [hpush] at h
          obtain rfl : o' = o := Except.error.inj h
          exact ⟨[], c.mask l, c.shown ls, rfl, hnone, .inr (Buffer.pushAll_eq_error hpush)⟩
        | ok next =>
          simp only [hpush] at h
          cases hrest : lines c next ls with
          | ok more => simp [hrest] at h
          | error o' =>
            simp only [hrest] at h
            obtain rfl : o' = o := Except.error.inj h
            obtain ⟨before, m, after, hshown, hbefore, hm⟩ := ih hrest
            refine ⟨c.mask l :: before, m, after, by rw [hshown]; rfl, ?_, hm⟩
            rw [List.forall_mem_cons, Config.mask_depth]
            exact ⟨hfits, hbefore⟩

/-- Whatever the tree is, only room is ever lacking. -/
theorem overflow_eq_capacity {n : α} {c : Config} {o : Overflow}
    (h : trace c (TypeTree.lines n) = .error o) : o = .capacity := by
  have hlines : lines c {} (TypeTree.lines n) = .error o := by
    rw [trace] at h
    cases hlines : lines c {} (TypeTree.lines n) with
    | ok text => simp [hlines, Except.map] at h
    | error o' =>
      rw [hlines] at h
      exact congrArg _ (Except.error.inj h)
  obtain ⟨before, l, after, hshown, hbefore, hl⟩ := exists_first_failure hlines
  rcases hl with hwide | hcapacity
  · exact overflow_of_word hwide (width_lt_of_shown hshown hbefore)
  · exact hcapacity

/-- A trace has no report in text exactly if its rows would take more room than there can be. -/
theorem trace_eq_error_iff {n : α} {c : Config} {o : Overflow} :
    trace c (TypeTree.lines n) = .error o ↔
      o = .capacity ∧ Buffer.limit <
        Buffer.roomAfter 0 0 ((c.shown (TypeTree.lines n)).flatMap (Line.sizes c.indent.toNat)) := by
  cases htrace : trace c (TypeTree.lines n) with
  | ok text =>
    have hroom := (trace_eq_ok_iff.mp htrace).1
    constructor
    · exact fun h => absurd h (by simp)
    · rintro ⟨-, hlack⟩
      omega
  | error o' =>
    obtain rfl := overflow_eq_capacity htrace
    constructor
    · intro h
      refine ⟨(Except.error.inj h).symm, Nat.lt_of_not_le fun hroom => ?_⟩
      rw [trace_eq_ok_iff.mpr ⟨hroom, rfl⟩] at htrace
      exact absurd htrace (by simp)
    · rintro ⟨rfl, -⟩
      rfl

end Report.Text

/-! ## The deepest line -/

open Node

theorem mask_mem_shown {c : Config} {ls : List Line} {l : Line} (hl : l ∈ ls)
    (h : c.shows l = true) : c.mask l ∈ c.shown ls :=
  List.mem_map_of_mem (List.mem_filter.mpr ⟨hl, h⟩)

/-- Among the lines that are shown are the deepest ones: the deepest nodes are entered, and entries are
    always shown. -/
theorem deepest_shown {n : α} (h : Conformant n) (c : Config) :
    (∀ l ∈ c.shown (lines n), l.depth ≤ (treeStats n).depth - 1) ∧
      ∃ l ∈ c.shown (lines n), l.depth = (treeStats n).depth - 1 := by
  rw [treeStats_depth]
  constructor
  · intro l hl
    obtain ⟨m, hm, rfl⟩ := List.mem_map.mp hl
    have hlt := depth_lt_peak h m (List.mem_of_mem_filter hm)
    rw [Config.mask_depth]
    omega
  · obtain ⟨l, hl, henter, hdepth⟩ := exists_depth_eq_peak (peak_lines_pos h)
    have hshows : c.shows l = true := by simp [Config.shows, henter]
    refine ⟨c.mask l, mask_mem_shown hl hshows, ?_⟩
    rw [Config.mask_depth]
    omega

/-- A trace whose deepest line is too wide finds no room, whatever else is shown. -/
theorem limit_lt_room_of_deepest {n : α} (h : Conformant n) {c : Config}
    (hwide : Report.Buffer.limit < ((treeStats n).depth - 1) * c.indent.toNat) :
    Report.Buffer.limit <
      Report.Buffer.roomAfter 0 0 ((c.shown (lines n)).flatMap (Line.sizes c.indent.toNat)) := by
  obtain ⟨-, l, hl, hdepth⟩ := deepest_shown h c
  refine Nat.lt_of_not_le fun hroom => ?_
  have hfits := Line.width_le_of_room hl hroom
  rw [hdepth] at hfits
  omega

/-! ## Lengths -/

namespace Line

/-- What an indent adds to a row is the indentation. -/
theorem sum_sizes_eq (indent : Nat) (l : Line) :
    (l.sizes indent).sum = l.depth * indent + (l.sizes 0).sum := by
  show (l.depth * indent :: _).sum = l.depth * indent + (l.depth * 0 :: _).sum
  rw [List.sum_cons, List.sum_cons, Nat.mul_zero, Nat.zero_add]

/-- Rows that are at most `d` levels deep are longer by at most as many indents each than they would be
    without any. -/
theorem sum_flatMap_sizes_le {indent d : Nat} {ls : List Line} (h : ∀ l ∈ ls, l.depth ≤ d) :
    (ls.flatMap (sizes indent)).sum ≤ ls.length * (d * indent) + (ls.flatMap (sizes 0)).sum := by
  induction ls with
  | nil => exact Nat.zero_le _
  | cons l ls ih =>
    obtain ⟨hl, hls⟩ := List.forall_mem_cons.mp h
    have hrest := ih hls
    have hwidth : l.depth * indent ≤ d * indent := Nat.mul_le_mul_right indent hl
    rw [List.flatMap_cons, List.flatMap_cons, List.sum_append, List.sum_append, sum_sizes_eq,
      List.length_cons, Nat.succ_mul]
    omega

end Line

/-- A report has no more rows than the trace has lines. -/
theorem Config.length_shown_le (c : Config) (ls : List Line) : (c.shown ls).length ≤ ls.length := by
  rw [shown, List.length_map]
  exact List.length_filter_le _ _

/-! ## Overflows of a text -/

/-- A trace has no report in text exactly if its rows would take more room than the greatest signed
    word, where the room is at least doubled whenever the next piece of a row does not fit.  So there
    is none if the deepest level times the indent is more than that word, and none if the text would
    have more bytes; and there is one if it has at most half as many.  What is exceeded is always the
    capacity of a text: as long as all lines before it fit, the width of a line is a word, so no
    product overflows. -/
theorem text_trace_overflows_iff (c : Config) {n : α} {ls : List Line} (h : trace n = .ok ls) :
    ∃ s, stats n = .ok s ∧ 1 ≤ s.depth ∧
      (∀ o, Report.trace { c with format := .text } ls = .error o ↔
        o = .capacity ∧ 0x7fffffffffffffff <
          Report.Buffer.roomAfter 0 0 ((c.visible ls).flatMap (Line.sizes c.indent.toNat))) ∧
      (0x7fffffffffffffff < (s.depth - 1) * c.indent.toNat →
        Report.trace { c with format := .text } ls = .error .capacity) ∧
      (0x7fffffffffffffff <
          (String.ofList ((c.visible ls).flatMap (Line.row c.indent.toNat))).utf8ByteSize →
        Report.trace { c with format := .text } ls = .error .capacity) ∧
      ((String.ofList ((c.visible ls).flatMap (Line.row c.indent.toNat))).utf8ByteSize ≤
          0x4000000000000000 →
        ∃ text, Report.trace { c with format := .text } ls = .ok text) ∧
      ∀ before l after, c.visible ls = before ++ l :: after →
        (∀ m ∈ before, m.depth * c.indent.toNat ≤ 0x7fffffffffffffff) →
          l.depth * c.indent.toNat < 0x10000000000000000 := by
  obtain ⟨hn, rfl⟩ := trace_eq_ok_iff.mp h
  rw [← Config.shown_eq_visible]
  have herror : ∀ o, Report.trace { c with format := .text } (lines n) = .error o ↔
      o = .capacity ∧ Report.Buffer.limit <
        Report.Buffer.roomAfter 0 0 ((c.shown (lines n)).flatMap (Line.sizes c.indent.toNat)) :=
    fun o => Report.Text.trace_eq_error_iff (c := { c with format := .text })
  refine ⟨treeStats n, stats_eq_ok_iff.mpr ⟨hn, rfl⟩, ?_, herror, ?_, ?_, ?_, ?_⟩
  · rw [treeStats_depth]
    exact peak_lines_pos hn
  · intro hwide
    exact (herror .capacity).mpr ⟨rfl, limit_lt_room_of_deepest hn hwide⟩
  · intro hlong
    rw [← Line.sum_flatMap_sizes] at hlong
    exact (herror .capacity).mpr ⟨rfl, Report.Buffer.limit_lt_roomAfter hlong⟩
  · intro hshort
    rw [← Line.sum_flatMap_sizes] at hshort
    exact ⟨_, Report.Text.trace_eq_ok_iff.mpr ⟨Report.Buffer.roomAfter_le_limit hshort, rfl⟩⟩
  · intro before l after hshown hbefore
    exact width_lt_of_shown hshown hbefore

/-- An optional tuple of anything: three levels. -/
def optionalTuple : Json :=
  .obj [("type", .str "OPTIONAL"),
    ("value", .obj [("type", .str "TUPLE"), ("entries", .arr [.obj [("type", .str "ANY")]])])]

/-- At the third level the product of the greatest indent would be no word, but the second level is too
    wide already.  With a quarter of the words as the indent the third level is too wide by one.  With
    a thirty-second of them the six lines together have room. -/
theorem optionalTuple_overflows :
    ∃ ls, trace optionalTuple = .ok ls ∧
      Report.trace { indent := 0xffffffffffffffff, leaveEvents := false } ls = .error .capacity ∧
      Report.trace { indent := 0x4000000000000000 } ls = .error .capacity ∧
      ∃ text, Report.trace { indent := 0x0800000000000000 } ls = .ok text := by
  have htrace : trace optionalTuple = .ok
      [⟨.enter, "OPTIONAL", 0, none⟩, ⟨.enter, "TUPLE", 1, none⟩, ⟨.enter, "ANY", 2, none⟩,
       ⟨.leave, "ANY", 2, none⟩, ⟨.leave, "TUPLE", 1, none⟩, ⟨.leave, "OPTIONAL", 0, none⟩] := by cbv
  have hstats : ∀ s, stats optionalTuple = .ok s → s.depth = 3 := by
    intro s hs
    have hcount : stats optionalTuple = .ok ⟨3, 3, [("ANY", 1), ("OPTIONAL", 1), ("TUPLE", 1)]⟩ := by
      cbv
    rw [hcount] at hs
    rw [← Except.ok.inj hs]
  refine ⟨_, htrace, ?_, ?_, ?_⟩
  · obtain ⟨s, hs, -, -, hwide, -⟩ :=
      text_trace_overflows_iff { indent := 0xffffffffffffffff, leaveEvents := false } htrace
    apply hwide
    rw [hstats s hs]
    decide
  · obtain ⟨s, hs, -, -, hwide, -⟩ := text_trace_overflows_iff { indent := 0x4000000000000000 } htrace
    apply hwide
    rw [hstats s hs]
    decide
  · obtain ⟨s, -, -, -, -, -, hshort, -⟩ :=
      text_trace_overflows_iff { indent := 0x0800000000000000 } htrace
    apply hshort
    rw [← Line.sum_flatMap_sizes]
    decide

/-- An optional type of anything: two levels. -/
def optionalAny : Json :=
  .obj [("type", .str "OPTIONAL"), ("value", .obj [("type", .str "ANY")])]

/-- With a quarter of the words as the indent no line is too wide, and the text would not be longer
    than the greatest signed word.  But the second line fills more than half of the room that there
    can be, and after its indentation the room cannot be doubled any more. -/
theorem optionalAny_lacks_room :
    ∃ ls s, trace optionalAny = .ok ls ∧ stats optionalAny = .ok s ∧
      (s.depth - 1) * (0x4000000000000000 : UInt64).toNat ≤ 0x7fffffffffffffff ∧
      (∀ l ∈ ls, Report.Text.indentation 0x4000000000000000 l.depth =
        .ok (l.depth * 0x4000000000000000)) ∧
      Report.trace { indent := 0x4000000000000000, leaveEvents := false } ls = .error .capacity := by
  have htrace : trace optionalAny = .ok
      [⟨.enter, "OPTIONAL", 0, none⟩, ⟨.enter, "ANY", 1, none⟩, ⟨.leave, "ANY", 1, none⟩,
       ⟨.leave, "OPTIONAL", 0, none⟩] := by cbv
  have hstats : stats optionalAny = .ok ⟨2, 2, [("ANY", 1), ("OPTIONAL", 1)]⟩ := by cbv
  exact ⟨_, _, htrace, hstats, by decide, by decide, rfl⟩

end TypeTree
