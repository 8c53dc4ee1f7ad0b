/-
  The two reports of a trace show the same lines.

  Which lines are shown, and whether with their values, is decided twice: the report in JSON selects
  the lines first (`Config.shown`), the report in text skips lines as it goes and looks at a value
  only when it writes it.  The two decisions are the same one (`skips_iff`, `row_mask`), so the text
  is made of the lines that `Config.shown` selects, one row for each (`Text.lines_eq_ok_iff`).  The
  document in JSON is read back as those lines (`read_trace`).  They are the lines that the settings
  speak of: all without the leaves, if leaves are hidden, and without the values, if values are
  (`shown_eq_visible`).
-/
import Mathlib
import TypeTree.Json.Node
import TypeTree.Proofs.Document
import TypeTree.Proofs.Layout
import TypeTree.Proofs.Lines
import TypeTree.Proofs.Room
import TypeTree.Report

namespace TypeTree

/-! ## Rows of text -/

/-- A line as a row of text: spaces for its depth, the phase, the tag and the value if there is one,
    with a space between, and the line break. -/
def Line.row (indent : Nat) (l : Line) : List Char :=
  List.replicate (l.depth * indent) ' ' ++ l.phase.word.toList ++ ' ' :: l.tag.toList ++
    (l.value?.elim [] fun value => ' ' :: value.toList) ++ ['\n']

namespace Line

/-- The bytes of the pieces of a row, one after another as they are written. -/
def sizes (indent : Nat) (l : Line) : List Nat :=
  [l.depth * indent, l.phase.word.utf8ByteSize, 1, l.tag.utf8ByteSize] ++
    (l.value?.elim [] fun value => [1, value.utf8ByteSize]) ++ [1]

/-- The indentation alone is no longer than the row. -/
theorem width_le_sum_sizes (indent : Nat) (l : Line) : l.depth * indent ≤ (l.sizes indent).sum := by
  show _ ≤ (l.depth * indent :: _).sum
  rw [List.sum_cons]
  exact Nat.le_add_right _ _

theorem utf8ByteSize_spaces (n : Nat) : (String.ofList (List.replicate n ' ')).utf8ByteSize = n := by
  induction n with
  | zero => rfl
  | succ n ih =>
    have hspace : (String.ofList [' ']).utf8ByteSize = 1 := by decide
    rw [List.replicate_succ', String.ofList_append, String.utf8ByteSize_append, ih, hspace]

/-- The pieces of a row are all of it. -/
theorem sum_sizes (indent : Nat) (l : Line) :
    (l.sizes indent).sum = (String.ofList (l.row indent)).utf8ByteSize := by
  have hspace : ∀ cs : List Char,
      (String.ofList (' ' :: cs)).utf8ByteSize = 1 + (String.ofList cs).utf8ByteSize := by
    intro cs
    rw [← List.singleton_append, String.ofList_append, String.utf8ByteSize_append]
    rfl
  have hbreak : (String.ofList ['\n']).utf8ByteSize = 1 := by decide
  obtain ⟨phase, tag, depth, value?⟩ := l
  cases value? with
  | none =>
    simp only [row, sizes, Option.elim_none, List.append_assoc, List.cons_append, List.nil_append,
      String.ofList_append, String.utf8ByteSize_append, String.ofList_toList, utf8ByteSize_spaces,
      hspace, hbreak, List.sum_cons, List.sum_nil, Nat.add_zero]
  | some value =>
    simp only [row, sizes, Option.elim_some, List.append_assoc, List.cons_append, List.nil_append,
      String.ofList_append, String.utf8ByteSize_append, String.ofList_toList, utf8ByteSize_spaces,
      hspace, hbreak, List.sum_cons, List.sum_nil, Nat.add_zero]

/-- So the bytes that rows need are those of their text. -/
theorem sum_flatMap_sizes (indent : Nat) (ls : List Line) :
    (ls.flatMap (sizes indent)).sum =
      (String.ofList (ls.flatMap (row indent))).utf8ByteSize := by
  induction ls with
  | nil => rfl
  | cons l ls ih =>
    rw [List.flatMap_cons, List.flatMap_cons, List.sum_append, String.ofList_append,
      String.utf8ByteSize_append, sum_sizes, ih]

/-- Where all rows find room, none of them is too wide. -/
theorem width_le_of_room {indent : Nat} {ls : List Line} {l : Line} (hl : l ∈ ls)
    (hroom : Report.Buffer.roomAfter 0 0 (ls.flatMap (sizes indent)) ≤ Report.Buffer.limit) :
    l.depth * indent ≤ Report.Buffer.limit := by
  have hwidth := l.width_le_sum_sizes indent
  have hrow : (l.sizes indent).sum ≤ (ls.flatMap (sizes indent)).sum := by
    obtain ⟨before, after, rfl⟩ := List.append_of_mem hl
    rw [List.flatMap_append, List.flatMap_cons, List.sum_append, List.sum_append]
    omega
  have hall := Report.Buffer.add_sum_le_roomAfter (Nat.le_refl 0) (ls.flatMap (sizes indent))
  omega

end Line

namespace Config

theorem shown_cons_of_shows {c : Config} {l : Line} (h : c.shows l = true) (ls : List Line) :
    c.shown (l :: ls) = c.mask l :: c.shown ls := by
  rw [shown, List.filter_cons_of_pos h, List.map_cons]
  rfl

theorem shown_cons_of_not_shows {c : Config} {l : Line} (h : c.shows l = false) (ls : List Line) :
    c.shown (l :: ls) = c.shown ls := by
  rw [shown, List.filter_cons_of_neg (by simp [h])]
  rfl

/-- The lines without the leaves unless leaves are shown, and without the values unless values are
    shown. -/
def visible (c : Config) (ls : List Line) : List Line :=
  let kept := if c.leaveEvents then ls else ls.filter fun l => l.phase ≠ .leave
  if c.showValues then kept else kept.map fun l => { l with value? := none }

/-- What the reports show one line at a time is what the configuration lets be seen. -/
theorem shown_eq_visible (c : Config) (ls : List Line) : c.shown ls = c.visible ls := by
  have hkept : ls.filter c.shows =
      if c.leaveEvents then ls else ls.filter fun l => l.phase ≠ .leave := by
    cases hleave : c.leaveEvents with
    | true =>
      rw [if_pos rfl]
      exact List.filter_eq_self.mpr fun l _ => by simp [shows, hleave]
    | false =>
      rw [if_neg Bool.false_ne_true]
      apply List.filter_congr
      intro l _
      cases hphase : l.phase <;> simp [shows, hleave, hphase]
  rw [shown, visible, hkept]
  cases hvalues : c.showValues with
  | true =>
    have hmask : c.mask = id := by
      funext l
      simp [mask, hvalues]
    rw [hmask, List.map_id, if_pos rfl]
  | false =>
    have hmask : c.mask = fun l => { l with value? := none } := by
      funext l
      simp [mask, hvalues]
    rw [hmask, if_neg Bool.false_ne_true]

@[simp] theorem mask_phase (c : Config) (l : Line) : (c.mask l).phase = l.phase := by
  unfold mask
  split <;> rfl

@[simp] theorem mask_tag (c : Config) (l : Line) : (c.mask l).tag = l.tag := by
  unfold mask
  split <;> rfl

@[simp] theorem mask_depth (c : Config) (l : Line) : (c.mask l).depth = l.depth := by
  unfold mask
  split <;> rfl

end Config

namespace Report.Text

/-- The text skips the lines that are not shown. -/
theorem skips_iff (c : Config) (l : Line) :
    (l.phase = .leave ∧ c.leaveEvents = false) ↔ c.shows l = false := by
  have hphase : l.phase = .leave ↔ ¬ l.phase = .enter := by
    cases l.phase <;> decide
  rw [hphase, Config.shows, Bool.or_eq_false_iff, and_comm, beq_eq_false_iff_ne]

/-- A line that is shown is no leave that is left out. -/
theorem not_skips_of_shows {c : Config} {l : Line} (h : c.shows l = true) :
    ¬ (l.phase = .leave ∧ c.leaveEvents = false) := by
  rw [skips_iff, h]
  decide

/-- The text has the values that are shown. -/
theorem row_mask (c : Config) (l : Line) :
    (c.mask l).row c.indent.toNat =
      List.replicate (l.depth * c.indent.toNat) ' ' ++ (linePieces c l).flatMap String.toList := by
  obtain ⟨phase, tag, depth, value?⟩ := l
  cases hshow : c.showValues with
  | true =>
    cases value? with
    | none => simp [Config.mask, hshow, Line.row, linePieces]
    | some value => simp [Config.mask, hshow, Line.row, linePieces, Option.filter]
  | false => simp [Config.mask, hshow, Line.row, linePieces]

/-- The pieces that need room are those of the row. -/
theorem sizes_mask (c : Config) (l : Line) :
    (c.mask l).sizes c.indent.toNat =
      (l.depth * c.indent.toNat) :: (linePieces c l).map String.utf8ByteSize := by
  have hspace : " ".utf8ByteSize = 1 := by decide
  have hbreak : "\n".utf8ByteSize = 1 := by decide
  obtain ⟨phase, tag, depth, value?⟩ := l
  cases hshow : c.showValues with
  | true =>
    cases value? with
    | none => simp [Config.mask, hshow, Line.sizes, linePieces, hspace, hbreak]
    | some value => simp [Config.mask, hshow, Line.sizes, linePieces, Option.filter, hspace, hbreak]
  | false => simp [Config.mask, hshow, Line.sizes, linePieces, hspace, hbreak]

/-- An indentation fits the machine if its width is a signed word. -/
theorem indentation_eq_ok_iff {indent : UInt64} {depth width : Nat} :
    indentation indent depth = .ok width ↔
      depth * indent.toNat ≤ Buffer.limit ∧ width = depth * indent.toNat := by
  have hlimit : Buffer.limit = 0x7fffffffffffffff := rfl
  simp only [indentation]
  split
  · -- not even an unsigned word
    have hwide : ¬ depth * indent.toNat ≤ Buffer.limit := by omega
    simp [hwide]
  · split
    · have hwide : ¬ depth * indent.toNat ≤ Buffer.limit := by omega
      simp [hwide]
    · have hfits : depth * indent.toNat ≤ Buffer.limit := by omega
      simp [hfits, eq_comm]

/-- The first line that is shown must find room, and the text begins with its row. -/
theorem lines_cons_eq_ok_iff {c : Config} {b : Buffer} {l : Line} (h : c.shows l = true)
    {ls : List Line} {text : List Char} :
    lines c b (l :: ls) = .ok text ↔
      ∃ next more, b.pushAll ((c.mask l).sizes c.indent.toNat) = .ok next ∧
        lines c next ls = .ok more ∧ text = (c.mask l).row c.indent.toNat ++ more := by
  rw [lines, if_neg (not_skips_of_shows h), row_mask]
  cases hindent : indentation c.indent l.depth with
  | error o =>
    constructor
    · exact fun herror => absurd herror (by simp)
    · rintro ⟨next, more, hpush, -⟩
      have hroom := (Buffer.pushAll_eq_ok_iff.mp hpush).1
      have hsum := Buffer.add_sum_le_roomAfter b.used_le ((c.mask l).sizes c.indent.toNat)
      have hwidth := (c.mask l).width_le_sum_sizes c.indent.toNat
      rw [Config.mask_depth] at hwidth
      have hfits : l.depth * c.indent.toNat ≤ Buffer.limit := by omega
      rw [indentation_eq_ok_iff.mpr ⟨hfits, rfl⟩] at hindent
      exact absurd hindent (by simp)
  | ok width =>
    obtain ⟨-, rfl⟩ := indentation_eq_ok_iff.mp hindent
    rw [sizes_mask]
    cases hpush : b.pushAll
      (l.depth * c.indent.toNat :: (linePieces c l).map String.utf8ByteSize) with
    | error o => simp [hpush]
    | ok next =>
      cases hmore : lines c next ls with
      | error o => simp [hpush, hmore]
      | ok more => simp [hpush, hmore, eq_comm]

/-- The text of a trace is there exactly if all pieces of the rows that are shown find room, and it
    is made of these rows, in order. -/
theorem lines_eq_ok_iff {c : Config} {b : Buffer} {ls : List Line} {text : List Char} :
    lines c b ls = .ok text ↔
      Buffer.roomAfter b.room b.used ((c.shown ls).flatMap (Line.sizes c.indent.toNat)) ≤
          Buffer.limit ∧
        text = (c.shown ls).flatMap (Line.row c.indent.toNat) := by
  induction ls generalizing b text with
  | nil =>
    have hroom := b.room_le
    simp [lines, Config.shown, Buffer.roomAfter, hroom, eq_comm]
  | cons l ls ih =>
    cases hshows : c.shows l with
    | false =>
      rw [lines, if_pos ((skips_iff c l).mpr hshows), Config.shown_cons_of_not_shows hshows]
      exact ih
    | true =>
      rw [lines_cons_eq_ok_iff hshows, Config.shown_cons_of_shows hshows, List.flatMap_cons,
        List.flatMap_cons, Buffer.roomAfter_append]
      constructor
      · rintro ⟨next, more, hpush, hmore, rfl⟩
        obtain ⟨-, hroom, hused⟩ := Buffer.pushAll_eq_ok_iff.mp hpush
        obtain ⟨hrest, rfl⟩ := ih.mp hmore
        rw [hroom, hused] at hrest
        exact ⟨hrest, rfl⟩
      · rintro ⟨hrest, rfl⟩
        -- what fits in the end fits after the first row
        have hfirst := Nat.le_trans (Buffer.room_le_roomAfter _ _ _) hrest
        have hused := Buffer.add_sum_le_roomAfter b.used_le ((c.mask l).sizes c.indent.toNat)
        refine ⟨⟨_, _, hused, hfirst⟩, _, Buffer.pushAll_eq_ok_iff.mpr ⟨hfirst, rfl, rfl⟩, ?_, rfl⟩
        exact ih.mpr ⟨hrest, rfl⟩

/-- The text of a trace is there exactly if the buffer has room for all rows, and then it is these
    rows. -/
theorem trace_eq_ok_iff {c : Config} {ls : List Line} {text : String} :
    trace c ls = .ok text ↔
      Buffer.roomAfter 0 0 ((c.shown ls).flatMap (Line.sizes c.indent.toNat)) ≤ Buffer.limit ∧
        text = String.ofList ((c.shown ls).flatMap (Line.row c.indent.toNat)) := by
  rw [trace]
  constructor
  · intro h
    cases hlines : lines c {} ls with
    | error o =>
      rw [hlines] at h
      exact absurd h (by simp [Except.map])
    | ok chars =>
      rw [hlines] at h
      obtain ⟨hroom, rfl⟩ := lines_eq_ok_iff.mp hlines
      exact ⟨hroom, (Except.ok.inj h).symm⟩
  · rintro ⟨hroom, rfl⟩
    rw [lines_eq_ok_iff.mpr ⟨hroom, rfl⟩]
    rfl

end Report.Text

/-! ## Documents of lines -/

/-- A line as a document, its members in the order of their keys.  A line without a value has no
    member for it. -/
def Line.document (l : Line) : Json :=
  .obj ([("depth", Json.int l.depth), ("event", .str l.phase.word), ("type", .str l.tag)] ++
    l.value?.elim [] fun value => [("value", .str value)])

namespace Report.Json

open TypeTree (Json)

/-- The members of a line are put in the order of their keys, and a value comes last anyway. -/
theorem normal_line (l : Line) : (line l).normal = l.document := by
  obtain ⟨phase, tag, depth, value?⟩ := l
  have htype : ¬ "type" < "event" := by decide
  have hdepth : "depth" < "event" := by decide
  have hvalue : ¬ "value" < "depth" ∧ ¬ "value" < "event" ∧ ¬ "value" < "type" := by decide
  cases value? with
  | none =>
    simp [line, Line.document, Json.normal, Json.normalMembers, Dict.ofPairs, Json.int,
      Dict.insert_cons_of_lt hdepth, Dict.insert_cons_of_not_lt htype]
  | some value =>
    simp [line, Line.document, Json.normal, Json.normalMembers, Dict.ofPairs, Json.int,
      Dict.insert_cons_of_lt hdepth, Dict.insert_cons_of_not_lt htype,
      Dict.insert_cons_of_not_lt hvalue.1, Dict.insert_cons_of_not_lt hvalue.2.1,
      Dict.insert_cons_of_not_lt hvalue.2.2]

/-- A line is an object of texts and of its depth.  The phase comes first. -/
theorem exists_members_line {P : Json → Prop} {l : Line} (htext : ∀ s : String, P (.str s))
    (hdepth : P (Json.int l.depth)) :
    ∃ members, line l = .obj members ∧ (∀ m ∈ members, P m.2) ∧
      ∀ m, members.head? = some m → m.1 = "event" := by
  refine ⟨_, rfl, ?_, fun m hm => ?_⟩
  · intro m hm
    rcases List.mem_append.mp hm with hm | hm
    · simp only [List.mem_cons, List.not_mem_nil, or_false] at hm
      rcases hm with rfl | rfl | rfl
      · exact htext _
      · exact htext _
      · exact hdepth
    · cases hvalue : l.value? with
      | none =>
        rw [hvalue] at hm
        exact absurd hm List.not_mem_nil
      | some value =>
        rw [hvalue] at hm
        obtain rfl := List.mem_singleton.mp hm
        exact htext _
  · obtain rfl := Option.some.inj hm
    rfl

/-- A line in JSON is readable if its depth is an integer of one word. -/
theorem readable_line {l : Line} (h : l.depth ≤ Numeral.wordMax) : (line l).Readable := by
  obtain ⟨members, hline, hparts, hfirst⟩ := exists_members_line Json.Readable.str (.nat h)
  have hkey : "event" ≠ Json.embedKey := by decide
  rw [hline]
  refine .obj hparts fun m hm => ?_
  rw [hfirst m hm]
  exact hkey

theorem depth_line (l : Line) : (line l).depth = 1 := by
  obtain ⟨phase, tag, depth, value?⟩ := l
  cases value? <;> rfl

/-- A trace in JSON is read back as the lines that are shown, if their depths are words. -/
theorem read_trace {c : Config} {ls : List Line} (h : ∀ l ∈ ls, l.depth ≤ Numeral.wordMax) :
    Json.read (trace c ls).pretty = .ok (.arr ((c.shown ls).map Line.document)) := by
  have hshown : ∀ l ∈ c.shown ls, l.depth ≤ Numeral.wordMax := by
    intro l hl
    obtain ⟨m, hm, rfl⟩ := List.mem_map.mp hl
    rw [Config.mask_depth]
    exact h m (List.mem_of_mem_filter hm)
  have hreadable : (trace c ls).Readable := by
    refine .arr fun j hj => ?_
    obtain ⟨l, hl, rfl⟩ := List.mem_map.mp hj
    exact readable_line (hshown l hl)
  have hfits : (trace c ls).depth ≤ Json.levelLimit := by
    have hitems : Json.depthItems ((c.shown ls).map line) ≤ 1 := by
      apply Json.depthItems_le
      intro j hj
      obtain ⟨l, -, rfl⟩ := List.mem_map.mp hj
      exact Nat.le_of_eq (depth_line l)
    rw [trace, Json.depth]
    show _ ≤ 127
    omega
  have hnormal : (trace c ls).normal = .arr ((c.shown ls).map Line.document) := by
    rw [trace, Json.normal, Json.normalItems_eq_map, List.map_map]
    exact congrArg Json.arr (List.map_congr_left fun l _ => normal_line l)
  rw [Json.read_pretty hreadable hfits, hnormal]

end Report.Json

/-! ## Depths of lines -/

/-- No line is deeper than its tree is high. -/
theorem depth_le_height {α : Type} [Node α] {n : α} :
    Node.Conformant n → ∀ l ∈ lines n, l.depth ≤ Node.height n := by
  induction n using Node.held_induction with
  | step n ih =>
    intro h l hl
    rcases mem_lines h hl with rfl | rfl | ⟨c, hc, m, hm, rfl⟩
    · exact Nat.zero_le _
    · exact Nat.zero_le _
    · have hm := ih c hc ((Node.conformant_iff.mp h).2 c hc) m hm
      have hc := Node.height_lt_of_mem_held hc
      rw [Line.raise_depth]
      omega

/-! ## Reports of traces -/

/-- Both reports of a trace show the visible lines.  In JSON there is always a report, the same one
    for every indentation, and what is read back from it is those lines, in order, with all that they
    hold; only a document with more levels than a word of 64 bits can count would have depths that are
    no longer read as whole numbers.  In text there is a report if the pieces of all rows find room,
    one after another, and then no line is too wide and the report has one row for each of those
    lines. -/
theorem trace_reports_agree (c : Config) {n : Json} {ls : List Line} (h : trace n = .ok ls) :
    (∃ text, (∀ i, Report.trace { c with format := .json, indent := i } ls = .ok text) ∧
      (n.depth ≤ Numeral.wordMax →
        Json.read text = .ok (.arr ((c.visible ls).map Line.document)))) ∧
    ∀ text, Report.trace { c with format := .text } ls = .ok text ↔
      (∀ l ∈ c.visible ls, l.depth * c.indent.toNat < 0x8000000000000000) ∧
      Report.Buffer.roomAfter 0 0 ((c.visible ls).flatMap (Line.sizes c.indent.toNat)) <
        0x8000000000000000 ∧
      text = String.ofList ((c.visible ls).flatMap (Line.row c.indent.toNat)) := by
  rw [← Config.shown_eq_visible]
  constructor
  · refine ⟨(Report.Json.trace c ls).pretty, fun i => rfl, ?_⟩
    intro hwords
    obtain ⟨hn, rfl⟩ := trace_eq_ok_iff.mp h
    apply Report.Json.read_trace
    intro l hl
    have hdepth : l.depth ≤ n.depth := depth_le_height hn l hl
    omega
  · intro text
    have hreport : Report.trace { c with format := .text } ls = .ok text ↔
        Report.Buffer.roomAfter 0 0 ((c.shown ls).flatMap (Line.sizes c.indent.toNat)) ≤
            Report.Buffer.limit ∧
          text = String.ofList ((c.shown ls).flatMap (Line.row c.indent.toNat)) :=
      Report.Text.trace_eq_ok_iff (c := { c with format := .text })
    rw [hreport]
    constructor
    · rintro ⟨hroom, rfl⟩
      exact ⟨fun l hl => Nat.lt_succ_of_le (Line.width_le_of_room hl hroom),
        Nat.lt_succ_of_le hroom, rfl⟩
    · rintro ⟨-, hroom, rfl⟩
      exact ⟨Nat.le_of_lt_succ hroom, rfl⟩

/-- A union of a name that needs escapes, and of anything. -/
def escapedUnion : Json :=
  .obj [("type", .str "UNION"),
    ("left", .obj [("type", .str "NAME"), ("name", .str "a\"\\\n\x01é")]),
    ("right", .obj [("type", .str "ANY")])]

/-- The name is read back from its escapes, and the text shows neither it nor the leaves. -/
theorem escapedUnion_reports_agree :
    ∃ ls text, trace escapedUnion = .ok ls ∧
      Report.trace { format := .json, indent := 7, leaveEvents := false } ls = .ok text ∧
      Json.read text = .ok (.arr
        [.obj [("depth", Json.int 0), ("event", .str "enter"), ("type", .str "UNION")],
         .obj [("depth", Json.int 1), ("event", .str "enter"), ("type", .str "NAME"),
           ("value", .str "a\"\\\n\x01é")],
         .obj [("depth", Json.int 1), ("event", .str "enter"), ("type", .str "ANY")]]) ∧
      Report.trace { indent := 3, leaveEvents := false, showValues := false } ls =
        .ok "enter UNION\n   enter NAME\n   enter ANY\n" := by
  have htrace : trace escapedUnion = .ok
      [⟨.enter, "UNION", 0, none⟩, ⟨.enter, "NAME", 1, some "a\"\\\n\x01é"⟩,
       ⟨.leave, "NAME", 1, some "a\"\\\n\x01é"⟩, ⟨.enter, "ANY", 1, none⟩,
       ⟨.leave, "ANY", 1, none⟩, ⟨.leave, "UNION", 0, none⟩] := by cbv
  obtain ⟨⟨text, hjson, hread⟩, -⟩ :=
    trace_reports_agree { leaveEvents := false } htrace
  obtain ⟨-, htext⟩ :=
    trace_reports_agree { indent := 3, leaveEvents := false, showValues := false } htrace
  refine ⟨_, text, htrace, hjson 7, hread (by decide), (htext _).mpr ⟨?_, ?_, ?_⟩⟩
  · decide
  · decide
  · decide

end TypeTree
