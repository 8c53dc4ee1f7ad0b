/-
  Rows: what can be read off a trace in text.

  A row of text quotes nothing: after the indentation come the phase, the tag and the label as it is,
  with single spaces between them.  A reader can still take it apart from the left.  The indentation
  ends where the first letter of the phase stands; neither phases nor tags hold spaces or line
  breaks; what follows the tag tells whether there is a label, and the label goes up to the line
  break (`row_append_inj`).  Only a label with a line break of its own spoils that: the text then has
  more lines than there are rows (`count_row`), and none of them tells that it is not a row.

  The width of an indentation gives the depth if there is any indent.  If there is none, but leaves are
  shown, the depths follow from the phases alone (`depths_ofEvents`).
-/
import TypeTree.Proofs.Counting
import TypeTree.Proofs.Output
import TypeTree.Proofs.TraceReports

namespace TypeTree

universe u

/-! ## Parts of a row -/

/-- A text is cut in one way only at the first character that does not have a property. -/
theorem cut_unique {p : Char → Prop} {a b : List Char} {x y : Char} {r s : List Char}
    (ha : ∀ c ∈ a, p c) (hb : ∀ c ∈ b, p c) (hx : ¬ p x) (hy : ¬ p y)
    (h : a ++ x :: r = b ++ y :: s) : a = b ∧ x = y ∧ r = s := by
  induction a generalizing b with
  | nil =>
    cases b with
    | nil =>
      obtain ⟨rfl, rfl⟩ := List.cons.inj h
      exact ⟨rfl, rfl, rfl⟩
    | cons c b =>
      obtain ⟨rfl, -⟩ := List.cons.inj h
      exact absurd (hb x List.mem_cons_self) hx
  | cons c a ih =>
    cases b with
    | nil =>
      obtain ⟨rfl, -⟩ := List.cons.inj h
      exact absurd (ha c List.mem_cons_self) hy
    | cons d b =>
      obtain ⟨rfl, hrest⟩ := List.cons.inj h
      obtain ⟨rfl, rfl, rfl⟩ :=
        ih (List.forall_mem_cons.mp ha).2 (List.forall_mem_cons.mp hb).2 hrest
      exact ⟨rfl, rfl, rfl⟩

/-- Tags are single words. -/
theorem Kind.not_blank_of_mem_tag (k : Kind) : ∀ c ∈ k.tag.toList, c ≠ ' ' ∧ c ≠ '\n' := by
  cases k <;> simp [Kind.tag]

/-- A phase is one word. -/
theorem Phase.not_blank_of_mem_word (p : Phase) : ∀ c ∈ p.word.toList, c ≠ ' ' ∧ c ≠ '\n' := by
  cases p <;> simp [Phase.word]

theorem Phase.exists_word_eq_cons (p : Phase) : ∃ x r, p.word.toList = x :: r ∧ x ≠ ' ' := by
  cases p with
  | enter => exact ⟨'e', _, rfl, by decide⟩
  | leave => exact ⟨'l', _, rfl, by decide⟩

/-- A phase is known by its word. -/
theorem Phase.word_injective {p q : Phase} (h : p.word.toList = q.word.toList) : p = q := by
  cases p <;> cases q <;> simp_all [Phase.word]

namespace Line

/-- The tag names a kind. -/
def Known (l : Line) : Prop :=
  ∃ k : Kind, k.tag = l.tag

/-- The value, if there is one, has no line break. -/
def Unbroken (l : Line) : Prop :=
  ∀ value, l.value? = some value → '\n' ∉ value.toList

/-- A known tag is one word. -/
theorem Known.not_blank {l : Line} (h : l.Known) : ∀ c ∈ l.tag.toList, c ≠ ' ' ∧ c ≠ '\n' := by
  obtain ⟨k, hk⟩ := h
  rw [← hk]
  exact k.not_blank_of_mem_tag

/-- A row after its tag. -/
def tail (l : Line) : List Char :=
  (l.value?.elim [] fun value => ' ' :: value.toList) ++ ['\n']

/-- A row is its indentation, two words and a tail, which is where a value stands. -/
theorem row_eq (indent : Nat) (l : Line) :
    l.row indent = List.replicate (l.depth * indent) ' ' ++
      (l.phase.word.toList ++ ' ' :: (l.tag.toList ++ l.tail)) := by
  simp [row, tail]

theorem tail_of_none {l : Line} (h : l.value? = none) : l.tail = ['\n'] := by
  rw [tail, h]
  rfl

theorem tail_of_some {l : Line} {value : String} (h : l.value? = some value) :
    l.tail = ' ' :: (value.toList ++ ['\n']) := by
  rw [tail, h]
  rfl

/-! ## Rows, taken apart -/

/-- From the tag on: the character after it tells whether there is a value. -/
theorem tag_append_tail_inj {l m : Line} {r s : List Char} (hl : l.Known) (hm : m.Known)
    (hl' : l.Unbroken) (hm' : m.Unbroken)
    (h : l.tag.toList ++ (l.tail ++ r) = m.tag.toList ++ (m.tail ++ s)) :
    l.tag = m.tag ∧ l.value? = m.value? ∧ r = s := by
  -- a tag ends at the first space or line break
  have hcut : ∀ {x y : Char} {a b : List Char}, ¬ (x ≠ ' ' ∧ x ≠ '\n') → ¬ (y ≠ ' ' ∧ y ≠ '\n') →
      l.tag.toList ++ x :: a = m.tag.toList ++ y :: b → l.tag = m.tag ∧ x = y ∧ a = b := by
    intro x y a b hx hy heq
    obtain ⟨htag, hrest⟩ := cut_unique hl.not_blank hm.not_blank hx hy heq
    exact ⟨String.toList_inj.mp htag, hrest⟩
  cases hlv : l.value? with
  | none =>
    rw [tail_of_none hlv] at h
    cases hmv : m.value? with
    | none =>
      rw [tail_of_none hmv] at h
      obtain ⟨htag, -, hrest⟩ := hcut (by decide) (by decide) h
      exact ⟨htag, rfl, hrest⟩
    | some w =>
      rw [tail_of_some hmv] at h
      obtain ⟨-, hbreak, -⟩ := hcut (by decide) (by decide) h
      exact absurd hbreak (by decide)
  | some v =>
    rw [tail_of_some hlv] at h
    cases hmv : m.value? with
    | none =>
      rw [tail_of_none hmv] at h
      obtain ⟨-, hbreak, -⟩ := hcut (by decide) (by decide) h
      exact absurd hbreak (by decide)
    | some w =>
      rw [tail_of_some hmv] at h
      obtain ⟨htag, -, hvalue⟩ := hcut (by decide) (by decide) h
      have hvalue : v.toList ++ '\n' :: r = w.toList ++ '\n' :: s := by simpa using hvalue
      -- a value ends at the first line break
      have hv : ∀ c ∈ v.toList, c ≠ '\n' := fun c hc heq => hl' v hlv (heq ▸ hc)
      have hw : ∀ c ∈ w.toList, c ≠ '\n' := fun c hc heq => hm' w hmv (heq ▸ hc)
      obtain ⟨heq, -, hrest⟩ := cut_unique hv hw (by decide) (by decide) hvalue
      exact ⟨htag, congrArg some (String.toList_inj.mp heq), hrest⟩

/-- Two lines with the same row: all that a row shows of a depth is how wide it makes the
    indentation. -/
structure SameRow (indent : Nat) (l m : Line) : Prop where
  width : l.depth * indent = m.depth * indent
  phase : l.phase = m.phase
  tag : l.tag = m.tag
  value : l.value? = m.value?

/-- A row determines what it shows, and where it ends in a longer text. -/
theorem row_append_inj {indent : Nat} {l m : Line} {r s : List Char} (hl : l.Known) (hm : m.Known)
    (hl' : l.Unbroken) (hm' : m.Unbroken) (h : l.row indent ++ r = m.row indent ++ s) :
    SameRow indent l m ∧ r = s := by
  simp only [row_eq, List.append_assoc, List.cons_append] at h
  obtain ⟨x, a, hx, hx'⟩ := l.phase.exists_word_eq_cons
  obtain ⟨y, b, hy, hy'⟩ := m.phase.exists_word_eq_cons
  -- the indentation ends at the first letter of the phase
  have hspaces : ∀ k : Nat, ∀ c ∈ List.replicate k ' ', c = ' ' :=
    fun k c hc => List.eq_of_mem_replicate hc
  have hindent := h
  rw [hx, hy, List.cons_append, List.cons_append] at hindent
  obtain ⟨hwidth, hxy, hrest⟩ := cut_unique (hspaces _) (hspaces _) hx' hy' hindent
  -- the phase ends at the space after it
  have hphase : l.phase.word.toList ++ ' ' :: (l.tag.toList ++ (l.tail ++ r)) =
      m.phase.word.toList ++ ' ' :: (m.tag.toList ++ (m.tail ++ s)) := by
    rw [hx, hy, List.cons_append, List.cons_append, hxy, hrest]
  obtain ⟨hword, -, hlabelled⟩ := cut_unique
    (fun c hc => (l.phase.not_blank_of_mem_word c hc).1)
    (fun c hc => (m.phase.not_blank_of_mem_word c hc).1) (by decide) (by decide) hphase
  obtain ⟨htag, hvalue, rfl⟩ := tag_append_tail_inj hl hm hl' hm' hlabelled
  have hlength := congrArg List.length hwidth
  rw [List.length_replicate, List.length_replicate] at hlength
  exact ⟨⟨hlength, Phase.word_injective hword, htag, hvalue⟩, rfl⟩

theorem row_ne_nil (indent : Nat) (l : Line) : l.row indent ≠ [] := by
  simp [row]

/-- Equal texts have equal rows, one by one. -/
theorem sameRows_of_flatMap_eq {indent : Nat} {ls : List Line} :
    ∀ {ms : List Line}, (∀ l ∈ ls, l.Known ∧ l.Unbroken) → (∀ m ∈ ms, m.Known ∧ m.Unbroken) →
      ls.flatMap (row indent) = ms.flatMap (row indent) → List.Forall₂ (SameRow indent) ls ms := by
  induction ls with
  | nil =>
    intro ms _ _ h
    cases ms with
    | nil => exact .nil
    | cons m ms =>
      rw [List.flatMap_nil, List.flatMap_cons] at h
      exact absurd (List.append_eq_nil_iff.mp h.symm).1 (row_ne_nil indent m)
  | cons l ls ih =>
    intro ms hls hms h
    cases ms with
    | nil =>
      rw [List.flatMap_nil, List.flatMap_cons] at h
      exact absurd (List.append_eq_nil_iff.mp h).1 (row_ne_nil indent l)
    | cons m ms =>
      obtain ⟨hl, hls⟩ := List.forall_mem_cons.mp hls
      obtain ⟨hm, hms⟩ := List.forall_mem_cons.mp hms
      rw [List.flatMap_cons, List.flatMap_cons] at h
      obtain ⟨hsame, hrest⟩ := row_append_inj hl.1 hm.1 hl.2 hm.2 h
      exact .cons hsame (ih hls hms hrest)

/-! ## Depths -/

/-- Rows that agree and lie equally deep are rows of one line. -/
theorem SameRow.eq {indent : Nat} {l m : Line} (h : SameRow indent l m)
    (hdepth : l.depth = m.depth) : l = m := by
  obtain ⟨phase, tag, depth, value?⟩ := l
  obtain ⟨-, hphase, htag, hvalue⟩ := h
  cases m
  simp_all

/-- Where there is an indent, the width gives the depth. -/
theorem eq_of_sameRows_of_pos {indent : Nat} (hindent : 1 ≤ indent) {ls ms : List Line}
    (h : List.Forall₂ (SameRow indent) ls ms) : ls = ms := by
  induction h with
  | nil => rfl
  | cons hsame _ ih =>
    have hdepth := Nat.eq_of_mul_eq_mul_right hindent hsame.width
    rw [hsame.eq hdepth, ih]

/-- So it is with many rows. -/
theorem eq_of_sameRows_of_depths {indent : Nat} {ls ms : List Line}
    (h : List.Forall₂ (SameRow indent) ls ms) (hdepths : ls.map depth = ms.map depth) :
    ls = ms := by
  induction h with
  | nil => rfl
  | cons hsame _ ih =>
    obtain ⟨hdepth, hrest⟩ := List.cons.inj hdepths
    rw [hsame.eq hdepth, ih hrest]

/-- Rows that agree have the same phases, whatever the indentation is. -/
theorem phases_eq_of_sameRows {indent : Nat} {ls ms : List Line}
    (h : List.Forall₂ (SameRow indent) ls ms) : ls.map phase = ms.map phase := by
  induction h with
  | nil => rfl
  | cons hsame _ ih => rw [List.map_cons, List.map_cons, hsame.phase, ih]

/-- The depths that belong to these phases, when `opened` nodes are open before. -/
def levels (opened : Nat) : List Phase → List Nat
  | [] => []
  | .enter :: ps => opened :: levels (opened + 1) ps
  | .leave :: ps => (opened - 1) :: levels (opened - 1) ps

/-- The phases of a trace determine its depths. -/
theorem depths_ofEvents {α : Type u} [Node α] (es : List (Event α)) (d : Nat) :
    (ofEvents d es).map depth = levels d ((ofEvents d es).map phase) := by
  induction es generalizing d with
  | nil => rfl
  | cons e es ih =>
    cases e with
    | enter n => exact congrArg (d :: ·) (ih (d + 1))
    | leave n => exact congrArg ((d - 1) :: ·) (ih (d - 1))

end Line

namespace Config

/-- Where leaves are shown, all lines are, and a part of them that is not masked stays as it is. -/
theorem map_shown_of_leaveEvents {c : Config} (h : c.leaveEvents = true) {β : Type} {f : Line → β}
    (hf : ∀ l, f (c.mask l) = f l) (ls : List Line) : (c.shown ls).map f = ls.map f := by
  have hall : ls.filter c.shows = ls := List.filter_eq_self.mpr fun l _ => by simp [shows, h]
  rw [shown, hall, List.map_map]
  exact List.map_congr_left fun l _ => hf l

end Config

/-! ## Texts of traces -/

section Traces

variable {α : Type u} [Node α]

/-- Every line that is shown has a known tag. -/
theorem known_of_mem_shown {n : α} {c : Config} {l : Line} (h : l ∈ c.shown (lines n)) :
    l.Known := by
  obtain ⟨m, hm, rfl⟩ := List.mem_map.mp h
  obtain ⟨k, hk⟩ := known_of_mem_lines (List.mem_of_mem_filter hm)
  exact ⟨k, by rw [hk, Config.mask_tag]⟩

/-- Where leaves are shown, the phases that are shown determine the depths that are shown. -/
theorem depths_shown {c : Config} (h : c.leaveEvents = true) (n : α) :
    (c.shown (lines n)).map Line.depth = Line.levels 0 ((c.shown (lines n)).map Line.phase) := by
  rw [Config.map_shown_of_leaveEvents h (Config.mask_depth c),
    Config.map_shown_of_leaveEvents h (Config.mask_phase c)]
  exact Line.depths_ofEvents (record n).events 0

/-- The text of a trace is unambiguous if there is an indent or leaves are shown, and if no value that
    is shown has a line break: two trees with the same text have the same lines to show, with their
    phases, tags, depths and values. -/
theorem text_trace_unambiguous (c : Config) (hc : 1 ≤ c.indent.toNat ∨ c.leaveEvents = true)
    {m n : α} {ls ms : List Line} {text : String} (hls : trace m = .ok ls) (hms : trace n = .ok ms)
    (hls' : ∀ l ∈ c.visible ls, l.Unbroken) (hms' : ∀ l ∈ c.visible ms, l.Unbroken)
    (htext : Report.trace { c with format := .text } ls = .ok text)
    (htext' : Report.trace { c with format := .text } ms = .ok text) :
    c.visible ls = c.visible ms := by
  obtain ⟨-, rfl⟩ := trace_eq_ok_iff.mp hls
  obtain ⟨-, rfl⟩ := trace_eq_ok_iff.mp hms
  rw [← Config.shown_eq_visible] at hls' hms' ⊢
  rw [← Config.shown_eq_visible]
  have hrows : (c.shown (lines m)).flatMap (Line.row c.indent.toNat) =
      (c.shown (lines n)).flatMap (Line.row c.indent.toNat) := by
    have heq := (Report.Text.trace_eq_ok_iff.mp htext).2.symm.trans
      (Report.Text.trace_eq_ok_iff.mp htext').2
    exact String.ofList_injective heq
  have hsame := Line.sameRows_of_flatMap_eq
    (fun l hl => ⟨known_of_mem_shown hl, hls' l hl⟩)
    (fun l hl => ⟨known_of_mem_shown hl, hms' l hl⟩) hrows
  rcases hc with hindent | hleave
  · exact Line.eq_of_sameRows_of_pos hindent hsame
  · -- without an indent the depths are those of the phases
    apply Line.eq_of_sameRows_of_depths hsame
    rw [depths_shown hleave, depths_shown hleave, Line.phases_eq_of_sameRows hsame]

end Traces

/-- A tuple of names: one that looks like a row of its own, one that is empty, and one that has no
    label. -/
def oddNames : Json :=
  .obj [("type", .str "TUPLE"),
    ("entries", .arr
      [.obj [("type", .str "NAME"), ("name", .str "  leave NAME")],
       .obj [("type", .str "NAME"), ("name", .str "")],
       .obj [("type", .str "NAME")]])]

/-- The same tuple, written in another order and with a comment on it. -/
def oddNamesReordered : Json :=
  .obj [("entries", .arr
      [.obj [("name", .str "  leave NAME"), ("type", .str "NAME")],
       .obj [("type", .str "NAME"), ("name", .str "")],
       .obj [("type", .str "NAME"), ("name", .null)]]),
    ("type", .str "TUPLE"), ("comment", .str "a\nb")]

theorem oddNames_unambiguous :
    ∃ ls ms text, trace oddNames = .ok ls ∧ trace oddNamesReordered = .ok ms ∧
      (∀ l ∈ Config.visible { indent := 0 } ls, l.Unbroken) ∧
      Report.trace { indent := 0 } ls = .ok text ∧ Report.trace { indent := 0 } ms = .ok text ∧
      text = "enter TUPLE\nenter NAME   leave NAME\nleave NAME   leave NAME\nenter NAME \n" ++
        "leave NAME \nenter NAME\nleave NAME\nleave TUPLE\n" ∧
      Config.visible { indent := 0 } ls = Config.visible { indent := 0 } ms := by
  have htrace : trace oddNames = .ok
      [⟨.enter, "TUPLE", 0, none⟩, ⟨.enter, "NAME", 1, some "  leave NAME"⟩,
       ⟨.leave, "NAME", 1, some "  leave NAME"⟩, ⟨.enter, "NAME", 1, some ""⟩,
       ⟨.leave, "NAME", 1, some ""⟩, ⟨.enter, "NAME", 1, none⟩, ⟨.leave, "NAME", 1, none⟩,
       ⟨.leave, "TUPLE", 0, none⟩] := by cbv
  have htrace' : trace oddNamesReordered = trace oddNames := by
    rw [htrace]
    cbv
  have hunbroken : ∀ ls, trace oddNames = .ok ls →
      ∀ l ∈ Config.visible { indent := 0 } ls, l.Unbroken := by
    rw [htrace]
    rintro ls ⟨⟩
    simp [Config.visible, Line.Unbroken]
  refine ⟨_, _, _, htrace, htrace'.trans htrace, hunbroken _ htrace, ?_, ?_, rfl, ?_⟩
  · rfl
  · rfl
  · exact text_trace_unambiguous { indent := 0 } (.inr rfl) htrace (htrace'.trans htrace)
      (hunbroken _ htrace) (hunbroken _ htrace) rfl rfl

/-! ## Line breaks -/

namespace Line

/-- The number of line breaks in the value. -/
def breaks (l : Line) : Nat :=
  l.value?.elim 0 fun value => value.toList.count '\n'

/-- A line is unbroken if its value has no line breaks. -/
theorem unbroken_iff {l : Line} : l.Unbroken ↔ l.breaks = 0 := by
  cases hvalue : l.value? with
  | none => simp [Unbroken, breaks, hvalue]
  | some value => simp [Unbroken, breaks, hvalue, List.count_eq_zero]

theorem count_tail (l : Line) : l.tail.count '\n' = l.breaks + 1 := by
  cases hvalue : l.value? with
  | none => simp [tail, breaks, hvalue]
  | some value => simp [tail, breaks, hvalue]

/-- A row has the line break at its end and those of its value. -/
theorem count_row {indent : Nat} {l : Line} (h : l.Known) :
    (l.row indent).count '\n' = l.breaks + 1 := by
  have hspaces : (List.replicate (l.depth * indent) ' ').count '\n' = 0 :=
    List.count_eq_zero.mpr fun hmem => absurd (List.eq_of_mem_replicate hmem) (by decide)
  have hword : l.phase.word.toList.count '\n' = 0 :=
    List.count_eq_zero.mpr fun hmem => (l.phase.not_blank_of_mem_word _ hmem).2 rfl
  have htag : l.tag.toList.count '\n' = 0 :=
    List.count_eq_zero.mpr fun hmem => (h.not_blank _ hmem).2 rfl
  have hspace : (' ' == '\n') = false := by decide
  rw [row_eq, List.count_append, List.count_append, List.count_cons, List.count_append, hspaces,
    hword, htag, count_tail, hspace]
  simp

/-- There are as many line breaks as rows, and those in the values besides. -/
theorem count_rows {indent : Nat} {ls : List Line} (h : ∀ l ∈ ls, l.Known) :
    (ls.flatMap (row indent)).count '\n' = ls.length + (ls.map breaks).sum := by
  induction ls with
  | nil => rfl
  | cons l ls ih =>
    obtain ⟨hl, hls⟩ := List.forall_mem_cons.mp h
    rw [List.flatMap_cons, List.count_append, count_row hl, ih hls, List.length_cons, List.map_cons,
      List.sum_cons]
    omega

end Line

/-- The text of a trace is a row of whole lines: one for every line of the trace that is shown, and one
    more for every line break in a value that is shown.  So it has one line for each event that is
    shown exactly if no value that is shown has a line break. -/
theorem text_trace_line_count (c : Config) {n : Json} {ls : List Line} {text : String}
    (hls : trace n = .ok ls) (htext : Report.trace { c with format := .text } ls = .ok text) :
    EndsLine text ∧
      text.toList.count '\n' = (c.visible ls).length + ((c.visible ls).map Line.breaks).sum ∧
      (text.toList.count '\n' = (c.visible ls).length ↔ ∀ l ∈ c.visible ls, l.Unbroken) := by
  have hends := Report.Text.endsLine_trace hls htext
  obtain ⟨-, rfl⟩ := trace_eq_ok_iff.mp hls
  have hcount : text.toList.count '\n' =
      (c.visible (lines n)).length + ((c.visible (lines n)).map Line.breaks).sum := by
    obtain ⟨-, hrows⟩ := Report.Text.trace_eq_ok_iff.mp htext
    rw [hrows, String.toList_ofList, ← Config.shown_eq_visible]
    exact Line.count_rows fun l hl => known_of_mem_shown hl
  refine ⟨hends, hcount, ?_⟩
  have hsum : ((c.visible (lines n)).map Line.breaks).sum = 0 ↔
      ∀ l ∈ c.visible (lines n), l.Unbroken := by
    rw [List.sum_eq_zero_iff, List.forall_mem_map]
    simp only [Line.unbroken_iff]
  rw [← hsum, hcount]
  omega

/-- Six events, two of them with a label that has a line break. -/
theorem escapedUnion_line_count :
    ∃ ls text, trace escapedUnion = .ok ls ∧ Report.trace {} ls = .ok text ∧
      EndsLine text ∧ text.toList.count '\n' = 6 + 2 := by
  have htrace : trace escapedUnion = .ok
      [⟨.enter, "UNION", 0, none⟩, ⟨.enter, "NAME", 1, some "a\"\\\n\x01é"⟩,
       ⟨.leave, "NAME", 1, some "a\"\\\n\x01é"⟩, ⟨.enter, "ANY", 1, none⟩,
       ⟨.leave, "ANY", 1, none⟩, ⟨.leave, "UNION", 0, none⟩] := by cbv
  obtain ⟨hends, hcount, -⟩ := text_trace_line_count {} htrace rfl
  exact ⟨_, _, htrace, rfl, hends, hcount.trans (by decide)⟩

/-- A tuple of one name, whose label goes on after a line break as the row of another name would. -/
def forgedTuple : Json :=
  .obj [("type", .str "TUPLE"),
    ("entries", .arr [.obj [("type", .str "NAME"), ("name", .str "a\n  enter NAME b")]])]

/-- A tuple of two names. -/
def tupleOfNames : Json :=
  .obj [("type", .str "TUPLE"),
    ("entries", .arr [.obj [("type", .str "NAME"), ("name", .str "a")],
      .obj [("type", .str "NAME"), ("name", .str "b")]])]

/-- There are traces in text with more lines than events: two events are shown here, in the three lines
    of another tree. -/
theorem forgedTuple_extra_line :
    ∃ ls ms text, trace forgedTuple = .ok ls ∧ trace tupleOfNames = .ok ms ∧
      Report.trace { leaveEvents := false } ls = .ok text ∧
      Report.trace { leaveEvents := false } ms = .ok text ∧
      text = "enter TUPLE\n  enter NAME a\n  enter NAME b\n" ∧
      (Config.visible { leaveEvents := false } ls).length = 2 ∧ text.toList.count '\n' = 3 := by
  have hforged : trace forgedTuple = .ok
      [⟨.enter, "TUPLE", 0, none⟩, ⟨.enter, "NAME", 1, some "a\n  enter NAME b"⟩,
       ⟨.leave, "NAME", 1, some "a\n  enter NAME b"⟩, ⟨.leave, "TUPLE", 0, none⟩] := by cbv
  have hnames : trace tupleOfNames = .ok
      [⟨.enter, "TUPLE", 0, none⟩, ⟨.enter, "NAME", 1, some "a"⟩, ⟨.leave, "NAME", 1, some "a"⟩,
       ⟨.enter, "NAME", 1, some "b"⟩, ⟨.leave, "NAME", 1, some "b"⟩,
       ⟨.leave, "TUPLE", 0, none⟩] := by cbv
  refine ⟨_, _, _, hforged, hnames, ?_, ?_, rfl, rfl, ?_⟩
  · rfl
  · rfl
  · decide

end TypeTree
