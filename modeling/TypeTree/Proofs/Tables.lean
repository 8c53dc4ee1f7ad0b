/-
  Tables: what the statistics of a tree look like, and what can be read off them.

  A table has a row for each tag, the most frequent ones first.  Tags are single words in ASCII, so
  their lengths, in characters or in bytes, are one and the same, and a reader can take a row apart:
  the tag goes up to the first space, the spaces go up to the bar, and the count goes up to the line
  break (`row_append_inj`).  The widths of the columns are not needed for that, so two tables that
  are equal as texts have the same rows, and the rows are all that was counted.

  The counter is consistent at every step (`Census.Consistent`): each node that is counted at all is
  counted under its tag too, and no level is reached without a node in it.
-/
import TypeTree.Proofs.Layout
import TypeTree.Proofs.Rows

namespace TypeTree

universe u

/-! ## Totals -/

namespace Dict

/-- The sum over all keys. -/
def total (d : Dict Nat) : Nat :=
  (d.map Prod.snd).sum

theorem total_cons (p : String × Nat) (d : Dict Nat) : total (p :: d) = p.2 + total d :=
  List.sum_cons

/-- A key before all others is not there. -/
theorem get?_eq_none_of_lt {d : Dict Nat} {k : String} (h : ∀ p ∈ d, k < p.1) :
    d.get? k = none := by
  induction d with
  | nil => rfl
  | cons p d ih =>
    obtain ⟨hp, hd⟩ := List.forall_mem_cons.mp h
    have hne : k ≠ p.1 := fun heq => String.lt_irrefl k (by rw [← heq] at hp; exact hp)
    rw [get?, lookup_cons, if_neg hne]
    exact ih hd

/-- Setting a key replaces what it had before. -/
theorem total_insert {d : Dict Nat} (h : d.Sorted) (k : String) (v : Nat) :
    (d.insert k v).total + (d.get? k).getD 0 = d.total + v := by
  induction d with
  | nil => exact Nat.add_comm v 0
  | cons p d ih =>
    obtain ⟨hp, hd⟩ := List.pairwise_cons.mp h
    rw [insert]
    split
    · -- the key is less than all others, so it is new
      rename_i hlt
      have hnew : get? (p :: d) k = none := by
        refine get?_eq_none_of_lt (List.forall_mem_cons.mpr ⟨hlt, ?_⟩)
        exact fun q hq => String.lt_trans hlt (hp q hq)
      rw [hnew, total_cons]
      exact Nat.add_comm v _
    · have hget : get? (p :: d) k = if k = p.1 then some p.2 else get? d k := lookup_cons ..
      rw [hget]
      split
      · rw [total_cons, total_cons, Option.getD_some]
        omega
      · have hrest := ih hd
        rw [total_cons, total_cons]
        omega

/-- Counting one more makes the total one more, under whatever key. -/
theorem total_update {d : Dict Nat} (h : d.Sorted) (k : String) :
    (d.update k 0 (· + 1)).total = d.total + 1 := by
  have hinsert := total_insert h k ((d.get? k).getD 0 + 1)
  rw [update]
  omega

end Dict

/-- What the counter holds goes together: every node is counted under its tag, and there are as many
    nodes as levels at least. -/
structure Census.Consistent (c : Census) : Prop where
  kept : c.stats.WellKept
  opened : c.opened ≤ c.stats.nodes
  depth : c.stats.depth ≤ c.stats.nodes
  total : c.stats.types.total = c.stats.nodes

section Counter

variable {α : Type u} [Node α]

/-- One event keeps the total of the counts equal to the number of nodes. -/
theorem Census.Consistent.see {c : Census} (h : c.Consistent) (e : Event α) :
    (counter.see c e).Consistent := by
  have hopened := h.opened
  have hdepth := h.depth
  cases e with
  | enter n =>
    refine ⟨h.kept.update (Node.tag n) _ _, ?_, ?_, ?_⟩
    · show c.opened + 1 ≤ c.stats.nodes + 1
      omega
    · show max c.stats.depth (c.opened + 1) ≤ c.stats.nodes + 1
      omega
    · show (c.stats.types.update (Node.tag n) 0 (· + 1)).total = c.stats.nodes + 1
      rw [Dict.total_update h.kept.sorted, h.total]
  | leave n =>
    refine ⟨h.kept, ?_, h.depth, h.total⟩
    show c.opened - 1 ≤ c.stats.nodes
    omega

/-- So do any events. -/
theorem Census.Consistent.foldl (es : List (Event α)) : ∀ {c : Census}, c.Consistent →
    (es.foldl counter.see c).Consistent := by
  induction es with
  | nil => exact fun h => h
  | cons e es ih => exact fun h => ih (h.see e)

/-- The counts of a tree add up to its nodes, and it has no more levels than nodes. -/
theorem total_treeStats (n : α) : (treeStats n).types.total = (treeStats n).nodes ∧
    (treeStats n).depth ≤ (treeStats n).nodes := by
  have hempty : Census.Consistent {} :=
    ⟨⟨.nil, fun _ hp => absurd hp List.not_mem_nil⟩, Nat.le_refl 0, Nat.le_refl 0, rfl⟩
  have hlast := hempty.foldl (record n).events
  exact ⟨hlast.total, hlast.depth⟩

end Counter

/-! ## Tags -/

/-- The bytes of a text. -/
def bytes (s : String) : List Nat :=
  s.toByteArray.data.toList.map UInt8.toNat

namespace Kind

/-- Tags are in ASCII: each character is a byte. -/
theorem bytes_tag (k : Kind) : bytes k.tag = k.tag.toList.map Char.toNat := by
  cases k <;> decide

theorem utf8ByteSize_tag (k : Kind) : k.tag.utf8ByteSize = k.tag.length := by
  cases k <;> decide

theorem tag_ne_embedKey (k : Kind) : k.tag ≠ Json.embedKey := by
  cases k <;> decide

/-- So the order of tags is the order of their bytes. -/
theorem bytes_lt_of_tag_lt {k l : Kind} (h : k.tag < l.tag) : bytes k.tag < bytes l.tag := by
  rw [bytes_tag, bytes_tag]
  exact List.map_lt (fun c d hcd => hcd) (String.lt_iff_toList_lt.mp h)

end Kind

namespace Report.Text

/-! ## Rows in order -/

/-- The more frequent tag comes first, and of equally frequent ones the first in order. -/
theorem precedes_iff {p q : String × Nat} :
    precedes p q = true ↔ q.2 < p.2 ∨ p.2 = q.2 ∧ p.1 ≤ q.1 := by
  simp [precedes]

theorem precedes_trans (p q r : String × Nat) (hpq : precedes p q = true)
    (hqr : precedes q r = true) : precedes p r = true := by
  rw [precedes_iff] at *
  rcases hpq with hpq | ⟨hpq, hkeys⟩
  · exact .inl (by omega)
  · rcases hqr with hqr | ⟨hqr, hkeys'⟩
    · exact .inl (by omega)
    · exact .inr ⟨by omega, String.le_trans hkeys hkeys'⟩

theorem precedes_total (p q : String × Nat) : (precedes p q || precedes q p) = true := by
  rw [Bool.or_eq_true, precedes_iff, precedes_iff]
  rcases Nat.lt_trichotomy p.2 q.2 with hlt | heq | hgt
  · exact .inr (.inl hlt)
  · rcases String.le_total p.1 q.1 with hle | hle
    · exact .inl (.inr ⟨heq, hle⟩)
    · exact .inr (.inr ⟨heq.symm, hle⟩)
  · exact .inl (.inl hgt)

/-- The counts by tag in the order of a table. -/
def ranked (types : Dict Nat) : List (String × Nat) :=
  types.mergeSort precedes

/-- Ranking loses no tag and adds none. -/
theorem perm_ranked (types : Dict Nat) : (ranked types).Perm types :=
  List.mergeSort_perm types precedes

/-- Greater counts come first, and lesser tags among equal counts; where no tag stands twice there
    are no ties left. -/
theorem pairwise_ranked {types : Dict Nat} (h : types.Sorted) :
    (ranked types).Pairwise fun p q => q.2 < p.2 ∨ p.2 = q.2 ∧ p.1 < q.1 := by
  have hsorted : (ranked types).Pairwise fun p q => precedes p q = true :=
    List.pairwise_mergeSort precedes_trans precedes_total types
  have hdistinct : ((ranked types).map Prod.fst).Nodup :=
    ((perm_ranked types).map Prod.fst).nodup_iff.mpr h.nodup
  refine hsorted.imp₂ ?_ (List.pairwise_map.mp hdistinct)
  intro p q hprecedes hne
  rcases precedes_iff.mp hprecedes with hlt | ⟨heq, hle⟩
  · exact .inl hlt
  · refine .inr ⟨heq, Decidable.byContradiction fun hnlt => hne ?_⟩
    exact String.le_antisymm hle (String.not_lt.mp hnlt)

/-! ## The width of the first column -/

/-- The running maximum is a bound of all the numbers and one of them, if it is not where it began.
    -/
theorem foldl_max_spec (ns : List Nat) : ∀ m, m ≤ ns.foldl max m ∧ (∀ n ∈ ns, n ≤ ns.foldl max m) ∧
    (ns.foldl max m = m ∨ ns.foldl max m ∈ ns) := by
  induction ns with
  | nil => exact fun m => ⟨Nat.le_refl m, fun n hn => absurd hn List.not_mem_nil, .inl rfl⟩
  | cons n ns ih =>
    intro m
    obtain ⟨hfirst, hall, hmem⟩ := ih (max m n)
    rw [List.foldl_cons]
    refine ⟨by omega, List.forall_mem_cons.mpr ⟨by omega, hall⟩, ?_⟩
    rcases hmem with heq | hmem
    · rcases Nat.le_total m n with hle | hle
      · exact .inr (List.mem_cons.mpr (.inl (by omega)))
      · exact .inl (by omega)
    · exact .inr (List.mem_cons_of_mem n hmem)

/-- The width of the column of tags. -/
def tagWidth (types : Dict Nat) : Nat :=
  ((ranked types).map (·.1.utf8ByteSize)).foldl max 0

/-- The column is as wide as the longest tag. -/
theorem tagWidth_spec {types : Dict Nat} (hknown : ∀ p ∈ types, ∃ k : Kind, k.tag = p.1) :
    (∀ p ∈ ranked types, p.1.length ≤ tagWidth types) ∧
      (types ≠ [] → ∃ p ∈ ranked types, p.1.length = tagWidth types) := by
  have hlength : ∀ p ∈ ranked types, p.1.utf8ByteSize = p.1.length := by
    intro p hp
    obtain ⟨k, hk⟩ := hknown p ((perm_ranked types).mem_iff.mp hp)
    rw [← hk]
    exact k.utf8ByteSize_tag
  obtain ⟨-, hall, hmem⟩ := foldl_max_spec ((ranked types).map (·.1.utf8ByteSize)) 0
  constructor
  · intro p hp
    rw [← hlength p hp]
    exact hall _ (List.mem_map_of_mem hp)
  · intro hne
    rcases hmem with hzero | hmem
    · -- in a column of width 0 every tag is as long as the column is wide
      obtain ⟨p, hp⟩ := List.exists_mem_of_ne_nil types hne
      have hrow : p ∈ ranked types := (perm_ranked types).mem_iff.mpr hp
      have hle := hall _ (List.mem_map_of_mem hrow)
      have heq := hlength p hrow
      rw [hzero] at hle
      refine ⟨p, hrow, ?_⟩
      rw [tagWidth, hzero]
      omega
    · obtain ⟨p, hp, heq⟩ := List.mem_map.mp hmem
      exact ⟨p, hp, (hlength p hp).symm.trans heq⟩

/-! ## Taking a table apart -/

/-- A row: a tag, spaces up to the width of the column, a bar, and a count. -/
def row (width : Nat) (p : String × Nat) : List Char :=
  p.1.toList ++ List.replicate (width - p.1.length) ' ' ++ [' ', '|', ' '] ++ Nat.toDigits 10 p.2

/-- Lines with their line breaks. -/
def unlines (ls : List (List Char)) : List Char :=
  ls.flatMap (· ++ ['\n'])

theorem unlines_cons (l : List Char) (ls : List (List Char)) :
    unlines (l :: ls) = l ++ '\n' :: unlines ls := by
  simp [unlines]

theorem table_eq (types : Dict Nat) :
    table types = (ranked types).map (row (tagWidth types)) := rfl

/-- A number goes up to the line break. -/
theorem toDigits_append_inj {m n : Nat} {r s : List Char}
    (h : Nat.toDigits 10 m ++ '\n' :: r = Nat.toDigits 10 n ++ '\n' :: s) : m = n ∧ r = s := by
  obtain ⟨hnumber, hrest⟩ := Json.toDigits_append_inj (Json.ends_break r) (Json.ends_break s) h
  exact ⟨hnumber, (List.cons.inj hrest).2⟩

/-- A row with what follows it: the first space ends the tag, and the bar ends the spaces. -/
theorem row_append (width : Nat) (p : String × Nat) (rest : List Char) :
    row width p ++ '\n' :: rest =
      p.1.toList ++ ' ' :: (List.replicate (width - p.1.length) ' ' ++
        '|' :: ' ' :: (Nat.toDigits 10 p.2 ++ '\n' :: rest)) := by
  have hspaces : ∀ t : List Char, List.replicate (width - p.1.length) ' ' ++ ' ' :: t =
      ' ' :: (List.replicate (width - p.1.length) ' ' ++ t) := by
    intro t
    rw [← List.cons_append, ← List.replicate_succ, List.replicate_succ', List.append_assoc]
    rfl
  rw [← hspaces]
  simp [row]

/-- A row can be taken apart without knowing the width of its column. -/
theorem row_append_inj {v w : Nat} {p q : String × Nat} {r s : List Char}
    (hp : ∃ k : Kind, k.tag = p.1) (hq : ∃ k : Kind, k.tag = q.1)
    (h : row v p ++ '\n' :: r = row w q ++ '\n' :: s) : p = q ∧ r = s := by
  have hword : ∀ {t : String}, (∃ k : Kind, k.tag = t) → ∀ c ∈ t.toList, c ≠ ' ' := by
    rintro _ ⟨k, rfl⟩ c hc
    exact (k.not_blank_of_mem_tag c hc).1
  rw [row_append, row_append] at h
  obtain ⟨htag, -, h⟩ := cut_unique (p := (· ≠ ' ')) (hword hp) (hword hq) (by simp) (by simp) h
  obtain ⟨-, -, h⟩ := cut_unique (p := (· = ' ')) (fun c hc => List.eq_of_mem_replicate hc)
    (fun c hc => List.eq_of_mem_replicate hc) (by decide) (by decide) h
  obtain ⟨hcount, hrest⟩ := toDigits_append_inj (List.cons.inj h).2
  exact ⟨Prod.ext (String.toList_inj.mp htag) hcount, hrest⟩

/-- The rows of a table, from its text. -/
theorem eq_of_unlines_rows {v w : Nat} {ps : List (String × Nat)} :
    ∀ {qs : List (String × Nat)}, (∀ p ∈ ps, ∃ k : Kind, k.tag = p.1) →
      (∀ q ∈ qs, ∃ k : Kind, k.tag = q.1) →
        unlines (ps.map (row v)) = unlines (qs.map (row w)) → ps = qs := by
  induction ps with
  | nil =>
    intro qs _ _ h
    cases qs with
    | nil => rfl
    | cons q qs => simp [unlines] at h
  | cons p ps ih =>
    intro qs hps hqs h
    cases qs with
    | nil => simp [unlines] at h
    | cons q qs =>
      obtain ⟨hp, hps'⟩ := List.forall_mem_cons.mp hps
      obtain ⟨hq, hqs'⟩ := List.forall_mem_cons.mp hqs
      rw [List.map_cons, List.map_cons, unlines_cons, unlines_cons] at h
      obtain ⟨rfl, hrest⟩ := row_append_inj hp hq h
      exact congrArg (p :: ·) (ih hps' hqs' hrest)

/-! ## Statistics in text -/

/-- The lines of a text: the totals, an empty line and the rows. -/
theorem stats_eq_unlines (s : Stats) :
    stats s = String.ofList (unlines
      (["Nodes: ".toList ++ Nat.toDigits 10 s.nodes, "Depth: ".toList ++ Nat.toDigits 10 s.depth,
        []] ++ (ranked s.types).map (row (tagWidth s.types)))) := by
  refine String.toList_inj.mp ?_
  rw [stats, table_eq]
  simp [unlines, Nat.repr]

/-- Statistics are told by their text. -/
theorem eq_of_stats_eq {s t : Stats} (hs : s.types.Sorted) (ht : t.types.Sorted)
    (hsknown : ∀ p ∈ s.types, ∃ k : Kind, k.tag = p.1)
    (htknown : ∀ p ∈ t.types, ∃ k : Kind, k.tag = p.1) (h : stats s = stats t) : s = t := by
  have hrows : ∀ {types : Dict Nat}, (∀ p ∈ types, ∃ k : Kind, k.tag = p.1) →
      ∀ p ∈ ranked types, ∃ k : Kind, k.tag = p.1 :=
    fun hknown p hp => hknown p ((perm_ranked _).mem_iff.mp hp)
  rw [stats_eq_unlines, stats_eq_unlines] at h
  have hlines := String.ofList_injective h
  simp only [List.cons_append, List.nil_append, unlines_cons, List.append_assoc] at hlines
  obtain ⟨hnodes, hlines⟩ := toDigits_append_inj (List.append_cancel_left hlines)
  obtain ⟨hdepth, hlines⟩ := toDigits_append_inj (List.append_cancel_left hlines)
  have hranked := eq_of_unlines_rows (hrows hsknown) (hrows htknown) (List.cons.inj hlines).2
  -- the rows are the counts in another order, and a dictionary has one order only
  have hperm : s.types.Perm t.types :=
    ((perm_ranked s.types).symm.trans (hranked ▸ .refl _)).trans (perm_ranked t.types)
  have htypes : s.types = t.types :=
    hperm.eq_of_pairwise (fun p q _ _ hpq hqp => absurd hqp (String.lt_asymm hpq)) hs ht
  cases s
  cases t
  simp_all

end Report.Text

/-! ## Statistics in JSON -/

/-- Statistics as a document, its members in the order of their keys. -/
def Stats.document (s : Stats) : Json :=
  .obj [("depth", Json.int s.depth), ("nodes", Json.int s.nodes),
    ("types", .obj (s.types.map fun p => (p.1, Json.int p.2)))]

namespace Report.Json

open TypeTree (Json)

/-- The counts are in the order of their tags. -/
theorem normal_counts {types : Dict Nat} (h : types.Sorted) :
    (Json.obj (types.map fun p => (p.1, Json.int p.2))).normal =
      .obj (types.map fun p => (p.1, Json.int p.2)) := by
  have hsorted : Dict.Sorted (types.map fun p => (p.1, Json.int p.2)) := List.pairwise_map.mpr h
  have hparts : Json.normalMembers (types.map fun p => (p.1, Json.int p.2)) =
      types.map fun p => (p.1, Json.int p.2) := by
    rw [Json.normalMembers_eq_map, List.map_map]
    rfl
  rw [Json.normal, hparts, Dict.ofPairs_of_sorted hsorted]

/-- Read back, statistics have their three members in the order of the keys. -/
theorem normal_stats {s : Stats} (h : s.types.Sorted) : (stats s).normal = s.document := by
  have hdepth : "depth" < "nodes" := by decide
  have htypes : ¬ "types" < "depth" ∧ ¬ "types" < "nodes" := by decide
  rw [stats, Json.normal, Json.normalMembers, Json.normalMembers, Json.normalMembers,
    normal_counts h]
  simp [Stats.document, Dict.ofPairs, Json.normalMembers, Json.normal, Json.int,
    Dict.insert_cons_of_lt hdepth, Dict.insert_cons_of_not_lt htypes.1,
    Dict.insert_cons_of_not_lt htypes.2]

/-- Counts are integers of one word under tags, and no tag is the key of an embedded text. -/
theorem readable_counts {types : Dict Nat} (hwords : ∀ p ∈ types, p.2 ≤ Numeral.wordMax)
    (hknown : ∀ p ∈ types, ∃ k : Kind, k.tag = p.1) :
    (Json.obj (types.map fun p => (p.1, Json.int p.2))).Readable := by
  refine .obj ?_ ?_
  · intro m hm
    obtain ⟨p, hp, rfl⟩ := List.mem_map.mp hm
    exact .nat (hwords p hp)
  · intro m hm
    obtain ⟨p, hp, rfl⟩ := List.mem_map.mp (List.mem_of_mem_head? hm)
    obtain ⟨k, hk⟩ := hknown p hp
    show p.1 ≠ Json.embedKey
    rw [← hk]
    exact k.tag_ne_embedKey

/-- Statistics are an object with an object in it. -/
theorem depth_stats (s : Stats) : (stats s).depth ≤ 2 := by
  have hcounts : Json.depthMembers (s.types.map fun p => (p.1, Json.int p.2)) ≤ 0 := by
    apply Json.depthMembers_le
    intro m hm
    obtain ⟨p, -, rfl⟩ := List.mem_map.mp hm
    exact Nat.le_refl 0
  show max 0 (max 0 (max (Json.depthMembers (s.types.map fun p => (p.1, Json.int p.2)) + 1) 0)) + 1
    ≤ 2
  omega

/-- Statistics in JSON are read back as they were, if their numbers are words. -/
theorem read_stats {s : Stats} (hsorted : s.types.Sorted) (hnodes : s.nodes ≤ Numeral.wordMax)
    (hdepth : s.depth ≤ Numeral.wordMax) (hwords : ∀ p ∈ s.types, p.2 ≤ Numeral.wordMax)
    (hknown : ∀ p ∈ s.types, ∃ k : Kind, k.tag = p.1) :
    Json.read (stats s).pretty = .ok s.document := by
  have hreadable : (stats s).Readable := by
    refine .obj ?_ ?_
    · intro m hm
      simp only [List.mem_cons, List.not_mem_nil, or_false] at hm
      rcases hm with rfl | rfl | rfl
      · exact .nat hnodes
      · exact .nat hdepth
      · exact readable_counts hwords hknown
    · intro m hm
      obtain rfl := Option.some.inj hm
      show "nodes" ≠ Json.embedKey
      decide
  have hfits : (stats s).depth ≤ Json.levelLimit := Nat.le_trans (depth_stats s) (by decide)
  rw [Json.read_pretty hreadable hfits, normal_stats hsorted]

end Report.Json

/-! ## Reports of statistics -/

open Report.Text (row unlines ranked tagWidth)

/-- The statistics of a tree, in both reports.  The text has the totals, an empty line and a row for
    each tag that was counted, in strict order: greater counts first, and lesser tags first among
    equal counts.  The tags stand in a column as wide as the longest of them, and the counts add up
    to the number of nodes.  No other statistics of a tree have the same text.  What is read back
    from the JSON is the same numbers; only in a tree with more nodes than a word of 64 bits can
    count would they no longer be read as whole numbers. -/
theorem stats_reports_complete {n : Json} {s : Stats} (h : stats n = .ok s) :
    (∃ (rows : List (String × Nat)) (width : Nat),
      Report.stats .text s = String.ofList (unlines
        (["Nodes: ".toList ++ Nat.toDigits 10 s.nodes, "Depth: ".toList ++ Nat.toDigits 10 s.depth,
          []] ++ rows.map (row width))) ∧
      rows.Perm s.types ∧ (rows.map Prod.fst).Nodup ∧
      rows.Pairwise (fun p q => q.2 < p.2 ∨ p.2 = q.2 ∧ bytes p.1 < bytes q.1) ∧
      (∀ p ∈ rows, p.1.length ≤ width) ∧ (∃ p ∈ rows, p.1.length = width) ∧
      (rows.map Prod.snd).sum = s.nodes) ∧
    (∀ (m : Json) (t : Stats), stats m = .ok t → Report.stats .text s = Report.stats .text t →
      s = t) ∧
    (s.nodes ≤ Numeral.wordMax → Json.read (Report.stats .json s) = .ok s.document) := by
  obtain ⟨hn, rfl⟩ := stats_eq_ok_iff.mp h
  have hsorted := (treeStats_wellKept n).sorted
  have hknown := (tallies_of_conformant hn).known
  have hperm := Report.Text.perm_ranked (treeStats n).types
  have hwidth := Report.Text.tagWidth_spec hknown
  obtain ⟨htotal, hdepth⟩ := total_treeStats n
  refine ⟨⟨ranked (treeStats n).types, tagWidth (treeStats n).types,
    Report.Text.stats_eq_unlines _, hperm, ?_, ?_, hwidth.1, hwidth.2 ?_, ?_⟩, ?_, ?_⟩
  · exact (hperm.map Prod.fst).nodup_iff.mpr hsorted.nodup
  · refine (Report.Text.pairwise_ranked hsorted).imp_of_mem ?_
    intro p q hp hq hrank
    obtain ⟨k, hk⟩ := hknown p (hperm.mem_iff.mp hp)
    obtain ⟨l, hl⟩ := hknown q (hperm.mem_iff.mp hq)
    refine hrank.imp_right fun ⟨hcount, htag⟩ => ⟨hcount, ?_⟩
    rw [← hk, ← hl] at htag ⊢
    exact Kind.bytes_lt_of_tag_lt htag
  · -- the root is counted, so there is a row
    intro hempty
    have hpos := peak_lines_pos hn
    rw [hempty] at htotal
    rw [treeStats_depth, ← htotal] at hdepth
    exact absurd hpos (Nat.not_lt.mpr hdepth)
  · rw [(hperm.map Prod.snd).sum_eq]
    exact htotal
  · intro m t ht heq
    obtain ⟨hm, rfl⟩ := stats_eq_ok_iff.mp ht
    exact Report.Text.eq_of_stats_eq hsorted (treeStats_wellKept m).sorted hknown
      (tallies_of_conformant hm).known heq
  · intro hwords
    refine Report.Json.read_stats hsorted hwords (Nat.le_trans hdepth hwords) ?_ hknown
    intro p hp
    have hle : p.2 ≤ (treeStats n).types.total := List.le_sum_of_mem (List.mem_map_of_mem hp)
    omega

/-- A tuple of an optional name and of anything, optional. -/
def tupleOfOptionals : Json :=
  .obj [("type", .str "TUPLE"),
    ("entries", .arr
      [.obj [("type", .str "OPTIONAL"), ("value", .obj [("type", .str "NAME")])],
       .obj [("type", .str "OPTIONAL"), ("value", .obj [("type", .str "ANY")])]])]

/-- The tag that was counted twice comes first, and the others are in order. -/
theorem tupleOfOptionals_reported :
    ∃ s : Stats, s = ⟨5, 3, [("ANY", 1), ("NAME", 1), ("OPTIONAL", 2), ("TUPLE", 1)]⟩ ∧
      stats tupleOfOptionals = .ok s ∧
      Report.stats .text s =
        "Nodes: 5\nDepth: 3\n\nOPTIONAL | 2\nANY      | 1\nNAME     | 1\nTUPLE    | 1\n" ∧
      (∀ (m : Json) (t : Stats), stats m = .ok t →
        Report.stats .text s = Report.stats .text t → s = t) ∧
      Json.read (Report.stats .json s) = .ok s.document := by
  have hstats : stats tupleOfOptionals =
      .ok ⟨5, 3, [("ANY", 1), ("NAME", 1), ("OPTIONAL", 2), ("TUPLE", 1)]⟩ := by cbv
  obtain ⟨-, htext, hjson⟩ := stats_reports_complete hstats
  exact ⟨_, rfl, hstats, by cbv, htext, hjson (by decide)⟩

end TypeTree
