/-
  How many nodes are open at once while a document is walked that was read from a text.

  The nodes that a walk has entered and not yet left lie inside one another, so there are never more
  of them than the document is deep (`peak_le_depth`), also when a fault ends the walk.  How deep a
  document can be is a matter of the text that it was read from: 127 levels, and 126 more for each
  text around the innermost one (`depth_le_of_readWithin`).  With that many nodes open at most, the
  depths in statistics and traces and the widths of lines are bounded too, and so is the length of a
  text, by the number of its lines.

  Towers of optional types show that the bounds are reached (`readWithin_stackedTowers`): a tower
  can be 127 levels high in a text, and 126 levels of the next text can be built around it.
-/
import TypeTree.Proofs.Embedding
import TypeTree.Proofs.Labels
import TypeTree.Proofs.Widths

namespace TypeTree

universe u

open Node

/-! ## Open nodes and lines -/

section Peak

variable {α : Type u} [Node α]

/-- No stack on the way is higher than the deepest entry made it. -/
theorem Replays.length_le_peak {st st' : List α} {es : List (Event α)} (h : Replays st es st') :
    st'.length ≤ max st.length (peak (Line.ofEvents st.length es)) := by
  induction h with
  | nil st => exact Nat.le_max_left _ _
  | @enter n st st' es _ ih =>
    rw [List.length_cons] at ih
    rw [Line.ofEvents, peak, if_pos rfl]
    show st'.length ≤ max st.length (max (st.length + 1) _)
    omega
  | @leave n st st' es _ ih =>
    rw [Line.ofEvents, peak, if_neg (by simp), List.length_cons, Nat.add_sub_cancel]
    omega

/-- The deepest entry is reached on the way, unless the stack was higher before. -/
theorem Replays.exists_length_eq_peak {st st' : List α} {es : List (Event α)}
    (h : Replays st es st') : ∃ before after mid, es = before ++ after ∧ Replays st before mid ∧
      mid.length = max st.length (peak (Line.ofEvents st.length es)) := by
  induction h with
  | nil st => exact ⟨[], [], st, rfl, .nil st, (Nat.max_zero _).symm⟩
  | @enter n st st' es _ ih =>
    obtain ⟨before, after, mid, rfl, hbefore, hmid⟩ := ih
    refine ⟨.enter n :: before, after, mid, rfl, .enter hbefore, ?_⟩
    rw [hmid, Line.ofEvents, peak, if_pos rfl, List.length_cons]
    show _ = max st.length (max (st.length + 1) _)
    omega
  | @leave n st st' es _ ih =>
    rw [Line.ofEvents, peak, if_neg (by simp), List.length_cons, Nat.add_sub_cancel]
    obtain ⟨before, after, mid, rfl, hbefore, hmid⟩ := ih
    by_cases hlow : st.length < mid.length
    · exact ⟨.leave n :: before, after, mid, rfl, .leave hbefore, by omega⟩
    · exact ⟨[], _, n :: st, rfl, .nil _, by rw [List.length_cons]; omega⟩

/-- At every moment of a walk, whether or not it gets to its end. -/
theorem exists_open_le_peak {n : α} {before after : List (Event α)}
    (h : (record n).events = before ++ after) :
    ∃ st, Replays [] before st ∧ st.length ≤ peak (lines n) := by
  obtain ⟨last, hlast⟩ := exists_replays n
  rw [h] at hlast
  obtain ⟨st, hbefore, -⟩ := hlast.exists_mid
  have hsplit := Line.ofEvents_append hbefore after
  have hst := hbefore.length_le_peak
  rw [List.length_nil] at hsplit hst
  refine ⟨st, hbefore, ?_⟩
  rw [lines, h, hsplit, peak_append]
  omega

/-- At some time of the walk as many nodes are open as the lines reach. -/
theorem exists_open_eq_peak (n : α) : ∃ before after st, (record n).events = before ++ after ∧
    Replays [] before st ∧ st.length = peak (lines n) := by
  obtain ⟨last, hlast⟩ := exists_replays n
  obtain ⟨before, after, st, hevents, hbefore, hst⟩ := hlast.exists_length_eq_peak
  rw [List.length_nil, Nat.zero_max] at hst
  exact ⟨before, after, st, hevents, hbefore, hst⟩

/-- Siblings reach no deeper than each of them may. -/
theorem peak_flatMap_lines_le {cs : List α} {d : Nat} (h : ∀ c ∈ cs, peak (lines c) ≤ d) :
    peak (cs.flatMap lines) ≤ d := by
  induction cs with
  | nil => exact Nat.zero_le d
  | cons c cs ih =>
    obtain ⟨hc, hcs⟩ := List.forall_mem_cons.mp h
    rw [List.flatMap_cons, peak_append]
    exact Nat.max_le.mpr ⟨hc, ih hcs⟩

/-- A tree below an open node, walked to its end or not, is one level further down. -/
theorem peak_below_le (n : α) : peak (Line.ofEvents 1 (record n).events) ≤ 1 + peak (lines n) := by
  obtain ⟨st, hst⟩ := exists_replays n
  have hraise : Line.ofEvents 1 (record n).events = (lines n).map (Line.raise 1) :=
    Line.ofEvents_add hst 1
  have hmax := max_peak_raise (lines n)
  rw [hraise]
  omega

/-- So is a row of trees that are walked to their ends. -/
theorem peak_row_append_le {cs : List α} {fs : List (Event α)} {d : Nat}
    (hcs : ∀ c ∈ cs, Conformant c) (hpeak : ∀ c ∈ cs, peak (lines c) ≤ d)
    (hfs : peak (Line.ofEvents 1 fs) ≤ 1 + d) :
    peak (Line.ofEvents 1 ((cs.flatMap fun c => (record c).events) ++ fs)) ≤ 1 + d := by
  have hmax := max_peak_raise (cs.flatMap lines)
  have hrow := peak_flatMap_lines_le hpeak
  rw [ofEvents_row_append hcs, peak_append]
  omega

theorem peak_enter_le (n : α) {es : List (Event α)} {d : Nat}
    (h : peak (Line.ofEvents 1 es) ≤ 1 + d) : peak (Line.ofEvents 0 (.enter n :: es)) ≤ 1 + d := by
  rw [Line.ofEvents, peak, if_pos rfl]
  exact Nat.max_le.mpr ⟨Nat.le_add_right 1 d, h⟩

end Peak

/-! ## Open nodes and depth -/

/-- A node of a kind is an object, so it has a level of its own. -/
theorem Json.depth_pos_of_kind {j : Json} {k : Kind} (h : Node.kind? j = some k) : 0 < j.depth := by
  cases j with
  | obj members => exact Nat.succ_pos _
  | _ => exact absurd (h.symm.trans Kind.ofTag?_empty) (by simp)

/-- Nodes that are open lie inside one another, so there are not more of them than the document is
    deep. -/
theorem peak_le_depth (j : Json) : peak (lines j) ≤ j.depth := by
  induction j using children_induction with
  | unknown j hk =>
    rw [lines, record_of_unknown hk]
    exact Nat.zero_le _
  | malformed j k f hk hc =>
    have hpos := Json.depth_pos_of_kind hk
    rw [lines, record_of_malformed hk hc]
    exact hpos
  | filled j k cs hk hc ih =>
    obtain ⟨d, hd⟩ : ∃ d, j.depth = 1 + d := Nat.exists_eq_add_of_le (Json.depth_pos_of_kind hk)
    have hcs : ∀ c ∈ cs, peak (lines c) ≤ d := by
      intro c hmem
      have hlt : c.depth < j.depth := height_lt_of_childrenAs hc hmem
      have hle := ih c hmem
      omega
    rw [hd, lines, record_of_filled hk hc]
    -- what comes after the children is the leave, or the part of a walk up to its fault
    rcases fault_cases cs with hall | ⟨before, c, after, f, rfl, hbefore, hf⟩
    · rw [recordFilled_of_none j hall]
      refine peak_enter_le j (peak_row_append_le ?_ hcs (Nat.zero_le _))
      exact fun c hc => fault_eq_none_iff.mp (hall c hc)
    · rw [recordFilled_of_some j hbefore hf]
      have hlast := hcs c (List.mem_append_right _ List.mem_cons_self)
      have hbelow := peak_below_le c
      refine peak_enter_le j (peak_row_append_le ?_ ?_ (by omega))
      · exact fun b hb => fault_eq_none_iff.mp (hbefore b hb)
      · exact fun b hb => hcs b (List.mem_append_left _ hb)

/-! ## Towers -/

namespace Json

/-- `n` optional types around a document. -/
def optionals : Nat → Json → Json
  | 0, j => j
  | n + 1, j => obj [("type", str "OPTIONAL"), ("value", optionals n j)]

/-- A tower of `n` optional types, with anything at its bottom. -/
def tower (n : Nat) : Json :=
  optionals n (obj [("type", str "ANY")])

/-- Towers on towers are towers. -/
theorem optionals_tower (m n : Nat) : optionals m (tower n) = tower (m + n) := by
  induction m with
  | zero => rw [Nat.zero_add]; rfl
  | succ m ih =>
    rw [optionals, ih, Nat.succ_add]
    rfl

theorem optionals_succ_eq_ofPairs (n : Nat) (j : Json) :
    optionals (n + 1) j =
      obj (Dict.ofPairs [("type", str "OPTIONAL"), ("value", optionals n j)]) := by
  have hsorted : Dict.Sorted [("type", str "OPTIONAL"), ("value", optionals n j)] :=
    List.pairwise_pair.mpr (by decide : "type" < "value")
  rw [Dict.ofPairs_of_sorted hsorted, optionals]

theorem children_tower_zero : children (tower 0) = .ok [] := by
  rfl

/-- A tower has one child, the tower that is one lower. -/
theorem children_tower_succ (n : Nat) : children (tower (n + 1)) = .ok [tower n] := by
  cases n <;> rfl

theorem depth_tower (n : Nat) : (tower n).depth = n + 1 := by
  induction n with
  | zero => rfl
  | succ n ih =>
    show max 0 (max (tower n).depth 0) + 1 = _
    omega

theorem normal_tower (n : Nat) : (tower n).normal = tower n := by
  induction n with
  | zero => rfl
  | succ n ih =>
    show obj (Dict.ofPairs [("type", str "OPTIONAL"), ("value", (tower n).normal)]) = _
    rw [ih]
    exact (optionals_succ_eq_ofPairs n _).symm

/-- Towers can be written and read back. -/
theorem readable_tower (n : Nat) : (tower n).Readable := by
  induction n with
  | zero =>
    refine .obj ?_ ?_
    · exact List.forall_mem_singleton.mpr (.str _)
    · rintro m ⟨⟩
      decide
  | succ n ih =>
    refine .obj ?_ ?_
    · exact List.forall_mem_cons.mpr ⟨.str _, List.forall_mem_singleton.mpr ih⟩
    · rintro m ⟨⟩
      decide

/-- The text of `n` optional types around an object that stands for the document that is given as
    `cs`. -/
def optionalsText : Nat → List Char → List Char
  | 0, cs => '{' :: (quoted embedKey ++ ':' :: (quoted (String.ofList cs) ++ ['}']))
  | n + 1, cs =>
    '{' :: (quoted "type" ++ ':' :: (quoted "OPTIONAL" ++
      ',' :: (quoted "value" ++ ':' :: (optionalsText n cs ++ ['}']))))

/-- A text that is written in quotes is read as itself, whatever levels are left. -/
theorem value_string (inner : TextReader) (levels : Nat) (s : String) (rest : List Char) :
    (value inner levels ('"' :: (s.toList.flatMap escapeChar ++ '"' :: rest))).view =
      .ok (str s, rest) := by
  refine value_eq_ok_iff.mpr (.scalar (skipSpace_cons (by decide) _) (by decide) ?_)
  rw [scalar, Text.Scanning.view_widen, Text.Scanning.view_map, stringBody_escaped]
  simp [Except.map]

/-- The induction is on the optional types: each is an object with one level less to go. -/
theorem valueRead_optionalsText {inner : TextReader} {cs : List Char} {j : Json}
    (h : inner cs = .ok j) (n : Nat) : ∀ (levels : Nat) (rest : List Char), n < levels →
      ValueRead inner levels (optionalsText n cs ++ rest) (optionals n j) rest := by
  induction n with
  | zero =>
    intro levels rest hlevels
    obtain ⟨below, rfl⟩ : ∃ below, levels = below + 1 := ⟨levels - 1, by omega⟩
    simp only [optionalsText, List.cons_append, List.append_assoc, quoted_append]
    refine .object (skipSpace_cons (by decide) _) ?_
    refine .embedded (skipSpace_cons (by decide) _) (stringBody_escaped embedKey.toList _)
      (String.ofList_toList) (skipSpace_cons (by decide) _) (skipSpace_cons (by decide) _)
      (stringBody_escaped _ _) ?_ (skipSpace_cons (by decide) _)
    rw [String.toList_ofList]
    exact h
  | succ n ih =>
    intro levels rest hlevels
    obtain ⟨below, rfl⟩ : ∃ below, levels = below + 1 := ⟨levels - 1, by omega⟩
    simp only [optionalsText, List.cons_append, List.append_assoc, quoted_append]
    refine .object (skipSpace_cons (by decide) _) ?_
    rw [optionals_succ_eq_ofPairs]
    refine .members (skipSpace_cons (by decide) _) (stringBody_escaped "type".toList _)
      (by decide) ?_
    refine .cons (afterColon_eq_ok_iff.mpr ⟨_, skipSpace_cons (by decide) _, value_string _ _ _ _⟩)
      (skipSpace_cons (by decide) _) (skipSpace_cons (by decide) _)
      (stringBody_escaped "value".toList _) ?_
    refine .last (afterColon_eq_ok_iff.mpr ⟨_, skipSpace_cons (by decide) _, ?_⟩)
      (skipSpace_cons (by decide) _)
    exact value_eq_ok_iff.mpr (ih below _ (by omega))

/-- Around the object that stands for a text there may be 126 others, as it takes the last of the
    127 levels itself. -/
theorem readWithin_optionalsText {e n : Nat} {cs : List Char} {j : Json} (hn : n ≤ 126)
    (h : readWithin e cs = .ok j) :
    readWithin (e + 1) (optionalsText n cs) = .ok (optionals n j) := by
  have hvalue := valueRead_optionalsText h n levelLimit [] (by rw [levelLimit]; omega)
  rw [List.append_nil] at hvalue
  exact readUsing_eq_ok_iff.mpr (document_eq_ok_iff.mpr ⟨[], hvalue, rfl⟩)

/-- A tower of at most 127 nodes fits into the levels of one text. -/
theorem readWithin_tower {n : Nat} (hn : n ≤ 126) :
    readWithin 0 (compactText (tower n)) = .ok (tower n) := by
  have hdepth : (tower n).depth ≤ levelLimit := by rw [depth_tower, levelLimit]; omega
  have hread := document_spelled (fun _ => .error ⟨.endInValue, ⟨1, 0⟩⟩)
    (spells_compactText (readable_tower n)) blank_nil blank_nil
  rw [List.nil_append, List.append_nil, normal_tower] at hread
  rcases hread with ⟨-, hread⟩ | ⟨hdeep, -⟩
  · exact readUsing_eq_ok_iff.mpr hread
  · omega

/-- A text with `e` texts inside one another, and as many levels in each as there can be. -/
def stackedTowers : Nat → List Char
  | 0 => compactText (tower 126)
  | e + 1 => optionalsText 126 (stackedTowers e)

/-- So no bound on the depth is less than that of `depth_le_of_readWithin`. -/
theorem readWithin_stackedTowers (e : Nat) :
    readWithin e (stackedTowers e) = .ok (tower (126 + 126 * e)) := by
  induction e with
  | zero => exact readWithin_tower (Nat.le_refl _)
  | succ e ih =>
    have hread := readWithin_optionalsText (Nat.le_refl 126) ih
    rw [optionals_tower] at hread
    have hlevels : 126 + (126 + 126 * e) = 126 + 126 * (e + 1) := by omega
    rw [← hlevels]
    exact hread

end Json

open Json (tower)

/-- Towers conform. -/
theorem conformant_tower (n : Nat) : Conformant (tower n) := by
  induction n with
  | zero =>
    obtain ⟨hsound, hheld⟩ := children_eq_ok_iff.mp Json.children_tower_zero
    refine conformant_iff.mpr ⟨hsound, fun c hc => ?_⟩
    rw [← hheld] at hc
    exact absurd hc List.not_mem_nil
  | succ n ih =>
    obtain ⟨hsound, hheld⟩ := children_eq_ok_iff.mp (Json.children_tower_succ n)
    refine conformant_iff.mpr ⟨hsound, fun c hc => ?_⟩
    rw [← hheld] at hc
    obtain rfl := List.mem_singleton.mp hc
    exact ih

/-- A tower has all of its nodes open at once. -/
theorem peak_tower (n : Nat) : peak (lines (tower n)) = n + 1 := by
  induction n with
  | zero =>
    obtain ⟨-, hheld⟩ := children_eq_ok_iff.mp Json.children_tower_zero
    rw [peak_lines (conformant_tower 0), ← hheld]
    rfl
  | succ n ih =>
    obtain ⟨-, hheld⟩ := children_eq_ok_iff.mp (Json.children_tower_succ n)
    rw [peak_lines (conformant_tower (n + 1)), ← hheld, List.map_singleton, ih]
    show 1 + max (n + 1) 0 = _
    omega

theorem entryCount_tower (n : Nat) : entryCount (lines (tower n)) = n + 1 := by
  induction n with
  | zero =>
    obtain ⟨-, hheld⟩ := children_eq_ok_iff.mp Json.children_tower_zero
    rw [entryCount_lines (conformant_tower 0), ← hheld]
    rfl
  | succ n ih =>
    obtain ⟨-, hheld⟩ := children_eq_ok_iff.mp (Json.children_tower_succ n)
    rw [entryCount_lines (conformant_tower (n + 1)), ← hheld, List.map_singleton, ih]
    show 1 + (n + 1 + 0) = _
    omega

/-- A row at the top that is moved `d` levels down is indented, and otherwise stays as it is. -/
theorem sum_sizes_raise (indent d : Nat) {l : Line} (h : l.depth = 0) :
    ((l.raise d).sizes indent).sum = d * indent + (l.sizes 0).sum := by
  have hsame : (l.raise d).sizes 0 = l.sizes 0 := rfl
  rw [Line.sum_sizes_eq, hsame, Line.raise_depth, h, Nat.zero_add]

/-- The length of a tower in text, `d` levels down: an optional type takes two lines of 15 bytes,
    anything takes two of 10, and each level is indented one step further. -/
theorem sum_sizes_tower (indent n : Nat) : ∀ d : Nat,
    (((lines (tower n)).map (Line.raise d)).flatMap (Line.sizes indent)).sum =
      30 * n + 20 + indent * ((n + 1) * (n + 2 * d)) := by
  induction n with
  | zero =>
    intro d
    obtain ⟨-, hheld⟩ := children_eq_ok_iff.mp Json.children_tower_zero
    have hentering : ((Line.entering (tower 0)).sizes 0).sum = 10 := by decide
    have hleaving : ((Line.leaving (tower 0)).sizes 0).sum = 10 := by decide
    rw [lines_of_conformant (conformant_tower 0), ← hheld, List.flatMap_nil, List.map_nil,
      List.nil_append, List.map_cons, List.map_singleton, List.flatMap_cons, List.flatMap_singleton,
      List.sum_append, sum_sizes_raise indent d rfl, sum_sizes_raise indent d rfl, hentering, hleaving]
    ring
  | succ n ih =>
    intro d
    obtain ⟨-, hheld⟩ := children_eq_ok_iff.mp (Json.children_tower_succ n)
    have hentering : ((Line.entering (tower (n + 1))).sizes 0).sum = 15 := rfl
    have hleaving : ((Line.leaving (tower (n + 1))).sizes 0).sum = 15 := rfl
    have hbelow : ((lines (tower n)).map (Line.raise 1)).map (Line.raise d) =
        (lines (tower n)).map (Line.raise (d + 1)) := by
      rw [List.map_map, Nat.add_comm d 1]
      exact List.map_congr_left fun l _ => Line.raise_raise 1 d l
    rw [lines_of_conformant (conformant_tower (n + 1)), ← hheld, List.flatMap_singleton,
      List.map_cons, List.map_append, hbelow, List.map_singleton, List.flatMap_cons,
      List.flatMap_append, List.flatMap_singleton, List.sum_append, List.sum_append, ih (d + 1),
      sum_sizes_raise indent d rfl, sum_sizes_raise indent d rfl, hentering, hleaving]
    ring

/-! ## The bounds -/

/-- Where no line is deeper than `d`, a trace has a report in text for every indent that leaves room
    for `d` of them before each line. -/
theorem exists_text_of_depth_le {α : Type u} [Node α] {n : α} (h : Conformant n) {d : Nat}
    (hdepth : ∀ l ∈ lines n, l.depth ≤ d) {c : Config}
    (hroom : 2 * (treeStats n).nodes * (d * c.indent.toNat) +
      ((c.shown (lines n)).flatMap (Line.sizes 0)).sum ≤ 0x4000000000000000) :
    ∃ text, Report.Text.trace c (lines n) = .ok text := by
  have hshown : ∀ l ∈ c.shown (lines n), l.depth ≤ d := by
    intro l hl
    obtain ⟨m, hm, rfl⟩ := List.mem_map.mp hl
    rw [Config.mask_depth]
    exact hdepth m (List.mem_of_mem_filter hm)
  have hcount : (c.shown (lines n)).length ≤ 2 * (treeStats n).nodes := by
    rw [treeStats_nodes, ← length_lines h]
    exact c.length_shown_le (lines n)
  have hindented : (c.shown (lines n)).length * (d * c.indent.toNat) ≤
      2 * (treeStats n).nodes * (d * c.indent.toNat) := Nat.mul_le_mul_right _ hcount
  have hlength : ((c.shown (lines n)).flatMap (Line.sizes c.indent.toNat)).sum ≤ _ :=
    Line.sum_flatMap_sizes_le hshown
  have hfits := Report.Buffer.roomAfter_le_limit (Nat.le_trans hlength (by omega))
  exact ⟨_, Report.Text.trace_eq_ok_iff.mpr ⟨hfits, rfl⟩⟩

/-- While a document is walked that was read from a text, at most 127 nodes are entered and not yet
    left at any moment, whether or not the walk gets to its end.  Where texts are embedded `e` deep
    inside one another, it can be 126 more for each of them.  The depth of statistics and the depths
    of a trace are bounded accordingly, and no line is too wide for an indent of which as many fit
    into a signed word.  There is a report in text if, with so many indents before each line, it still
    has at most half as many bytes. -/
theorem open_nodes_bounded (text : String) (j : Json) :
    (Json.read text = .ok j ↔ ∃ e, Json.readWithin e text.toList = .ok j) ∧
      ∀ e, Json.readWithin e text.toList = .ok j →
        (∀ before after, (record j).events = before ++ after →
          ∃ st, Replays [] before st ∧ st.length ≤ 127 + 126 * e) ∧
        (∀ s, stats j = .ok s → s.depth ≤ 127 + 126 * e) ∧
        ∀ ls, trace j = .ok ls →
          (∀ l ∈ ls, l.depth ≤ 126 + 126 * e) ∧
          (∀ indent : UInt64, indent.toNat ≤ 0x7fffffffffffffff / (126 + 126 * e) →
            ∀ l ∈ ls, Report.Text.indentation indent l.depth = .ok (l.depth * indent.toNat)) ∧
          ∀ (c : Config) (s : Stats), stats j = .ok s →
            2 * s.nodes * ((126 + 126 * e) * c.indent.toNat) +
                (String.ofList ((c.visible ls).flatMap (Line.row 0))).utf8ByteSize ≤
              0x4000000000000000 →
            ∃ out, Report.trace { c with format := .text } ls = .ok out := by
  refine ⟨Json.readChars_eq_ok_iff, fun e hread => ?_⟩
  have hdepth := Json.depth_le_of_readWithin hread
  have hpeak : peak (lines j) ≤ 127 + 126 * e := Nat.le_trans (peak_le_depth j) hdepth
  refine ⟨?_, ?_, ?_⟩
  · intro before after hevents
    obtain ⟨st, hst, hle⟩ := exists_open_le_peak hevents
    exact ⟨st, hst, Nat.le_trans hle hpeak⟩
  · intro s hs
    obtain ⟨-, rfl⟩ := stats_eq_ok_iff.mp hs
    rw [treeStats_depth]
    exact hpeak
  · intro ls hls
    obtain ⟨hj, rfl⟩ := trace_eq_ok_iff.mp hls
    have hlines : ∀ l ∈ lines j, l.depth ≤ 126 + 126 * e := by
      intro l hl
      have hlt := depth_lt_peak hj l hl
      omega
    refine ⟨hlines, ?_, ?_⟩
    · intro indent hindent l hl
      have hle : l.depth * indent.toNat ≤
          (126 + 126 * e) * (0x7fffffffffffffff / (126 + 126 * e)) :=
        Nat.mul_le_mul (hlines l hl) hindent
      have hfits := Nat.mul_div_le 0x7fffffffffffffff (126 + 126 * e)
      exact Report.Text.indentation_eq_ok_iff.mpr ⟨Nat.le_trans hle hfits, rfl⟩
    · intro c s hs hroom
      obtain ⟨-, rfl⟩ := stats_eq_ok_iff.mp hs
      rw [← Config.shown_eq_visible, ← Line.sum_flatMap_sizes] at hroom
      exact exists_text_of_depth_le (c := { c with format := .text }) hj hlines hroom

/-- A tower of 127 nodes: all bounds are reached, and with 2 ^ 47 spaces for each level it still has a
    report. -/
theorem tower_within_bounds :
    Json.readWithin 0 (tower 126).compact.toList = .ok (tower 126) ∧
      (∃ s, stats (tower 126) = .ok s ∧ s.depth = 127) ∧
      ∃ ls out, trace (tower 126) = .ok ls ∧
        (∀ l ∈ ls, Report.Text.indentation 73201365371863300 l.depth =
          .ok (l.depth * 73201365371863300)) ∧
        Report.trace { indent := 0x800000000000 } ls = .ok out := by
  have hread : Json.readWithin 0 (tower 126).compact.toList = .ok (tower 126) := by
    rw [Json.compact, String.toList_ofList]
    exact Json.readWithin_tower (Nat.le_refl _)
  have htrace := trace_eq_ok_iff.mpr ⟨conformant_tower 126, rfl⟩
  have hstats := stats_eq_ok_iff.mpr ⟨conformant_tower 126, rfl⟩
  have hnodes : (treeStats (tower 126)).nodes = 127 := by
    rw [treeStats_nodes, entryCount_tower]
  obtain ⟨-, hbounds⟩ := open_nodes_bounded (tower 126).compact (tower 126)
  obtain ⟨-, -, hreport⟩ := hbounds 0 hread
  obtain ⟨-, hwidths, htext⟩ := hreport _ htrace
  obtain ⟨out, hout⟩ := htext { indent := 0x800000000000 } _ hstats (by
    have hvisible : Config.visible { indent := 0x800000000000 } (lines (tower 126)) =
        (lines (tower 126)).map (Line.raise 0) := (List.map_id _).symm
    rw [hvisible, ← Line.sum_flatMap_sizes, sum_sizes_tower, hnodes]
    decide)
  refine ⟨hread, ⟨treeStats (tower 126), hstats, ?_⟩, _, out, htrace, ?_, hout⟩
  · rw [treeStats_depth, peak_tower]
  · exact hwidths 73201365371863300 (by decide)

/-- One level around a tower that is given as text: 128 nodes are open at some moment, and the last of
    them is too wide for the greatest indent that is narrow enough for 126 levels.  With that indent the
    tower of 127 nodes, which needs no text inside another, has no line that is too wide, but all its
    lines together are too long. -/
theorem embeddedTower_too_deep :
    Json.read (String.ofList (Json.optionalsText 1 (Json.compactText (tower 126)))) =
        .ok (tower 127) ∧
      (∃ before after st, (record (tower 127)).events = before ++ after ∧ Replays [] before st ∧
        st.length = 128) ∧
      (∃ s, stats (tower 127) = .ok s ∧ s.depth = 128) ∧
      (∃ ls, trace (tower 127) = .ok ls ∧ (∃ l ∈ ls, l.depth = 127) ∧
        Report.trace { indent := 73201365371863300 } ls = .error .capacity) ∧
      Json.readWithin 0 (Json.compactText (tower 126)) = .ok (tower 126) ∧
      ∃ ls, trace (tower 126) = .ok ls ∧
        Report.trace { indent := 73201365371863300 } ls = .error .capacity := by
  have hconformant := conformant_tower 127
  have hpeak : peak (lines (tower 127)) = 128 := peak_tower 127
  have hinside := Json.readWithin_tower (Nat.le_refl 126)
  refine ⟨?_, ?_, ?_, ⟨lines (tower 127), trace_eq_ok_iff.mpr ⟨hconformant, rfl⟩, ?_, ?_⟩, hinside,
    lines (tower 126), trace_eq_ok_iff.mpr ⟨conformant_tower 126, rfl⟩, ?_⟩
  · have hread := Json.readWithin_optionalsText (n := 1) (by omega) hinside
    rw [Json.optionals_tower] at hread
    rw [Json.read, String.toList_ofList]
    exact Json.readChars_of_readWithin hread
  · obtain ⟨before, after, st, hevents, hbefore, hst⟩ := exists_open_eq_peak (tower 127)
    exact ⟨before, after, st, hevents, hbefore, hst.trans hpeak⟩
  · refine ⟨_, stats_eq_ok_iff.mpr ⟨hconformant, rfl⟩, ?_⟩
    rw [treeStats_depth, hpeak]
  · obtain ⟨l, hl, -, hdepth⟩ := exists_depth_eq_peak (peak_lines_pos hconformant)
    exact ⟨l, hl, by omega⟩
  · refine Report.Text.trace_eq_error_iff.mpr ⟨rfl, limit_lt_room_of_deepest hconformant ?_⟩
    rw [treeStats_depth, hpeak]
    decide
  · have hshown : Config.shown { indent := 73201365371863300 } (lines (tower 126)) =
        (lines (tower 126)).map (Line.raise 0) := by
      rw [Config.shown_eq_visible]
      exact (List.map_id _).symm
    have hlength := sum_sizes_tower 73201365371863300 126 0
    refine Report.Text.trace_eq_error_iff.mpr ⟨rfl, Report.Buffer.limit_lt_roomAfter ?_⟩
    rw [hshown]
    show _ < (((lines (tower 126)).map (Line.raise 0)).flatMap (Line.sizes 73201365371863300)).sum
    rw [hlength]
    decide

end TypeTree
