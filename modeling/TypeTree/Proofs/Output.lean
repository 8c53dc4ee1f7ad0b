/-
  All or nothing.

  A run prints once, after everything that can fail is done, so a run that stops has printed nothing.
  What is printed then is a row of whole lines, at least one: a trace in text shows the entry of the
  root whatever the configuration is, statistics have their totals, a schema has the tag of a kind,
  and a report in JSON gets a line break of its own (`endsLine_of_reports`).
-/
import TypeTree.Proofs.Pipeline
import TypeTree.Proofs.TraceReports

namespace TypeTree

/-- The text ends with a line break. -/
def EndsLine (text : String) : Prop :=
  ∃ body, text = body ++ "\n"

/-! ## Reports in text -/

/-- Rows that end with a line break, at least one of them or after a text that ends with one. -/
theorem endsLine_append_rows {α : Type} {row : α → List Char}
    (hrow : ∀ a, ∃ body, row a = body ++ ['\n']) {s : String} {l : List α}
    (h : l ≠ [] ∨ EndsLine s) : EndsLine (s ++ String.ofList (l.flatMap row)) := by
  rcases List.eq_nil_or_concat l with rfl | ⟨init, last, rfl⟩
  · rcases h with hne | hs
    · exact absurd rfl hne
    · simpa using hs
  · obtain ⟨body, hbody⟩ := hrow last
    refine ⟨s ++ String.ofList (init.flatMap row ++ body), ?_⟩
    apply String.toList_inj.mp
    simp [List.flatMap_append, hbody]

/-- A row ends with a line break. -/
theorem Line.row_eq_append (indent : Nat) (l : Line) : ∃ body, l.row indent = body ++ ['\n'] :=
  ⟨_, rfl⟩

/-- The entry of the root is shown under every configuration. -/
theorem shown_lines_ne_nil {n : Json} (h : Node.Conformant n) (c : Config) : c.shown (lines n) ≠ [] := by
  have hshows : c.shows (.entering n) = true := by
    simp [Config.shows, Line.entering]
  rw [lines_of_conformant h, Config.shown_cons_of_shows hshows]
  exact List.cons_ne_nil _ _

namespace Report.Text

/-- The text of a trace ends with a line break: there is at least one line, as the root is entered
    whatever is shown. -/
theorem endsLine_trace {n : Json} {ls : List Line} {c : Config} {text : String}
    (hls : TypeTree.trace n = .ok ls) (h : trace c ls = .ok text) : EndsLine text := by
  obtain ⟨hconformant, rfl⟩ := TypeTree.trace_eq_ok_iff.mp hls
  obtain ⟨-, rfl⟩ := trace_eq_ok_iff.mp h
  have hrows := endsLine_append_rows (Line.row_eq_append c.indent.toNat) (s := "")
    (.inl (shown_lines_ne_nil hconformant c))
  rwa [String.empty_append] at hrows

theorem endsLine_stats (s : Stats) : EndsLine (stats s) := by
  apply endsLine_append_rows (fun cells => ⟨cells, rfl⟩)
  exact .inr ⟨"Nodes: " ++ Nat.repr s.nodes ++ "\nDepth: " ++ Nat.repr s.depth ++ "\n",
    by simp [String.append_assoc]⟩

/-- The text of a schema ends with a line break, if it lists any kind. -/
theorem endsLine_schema {ks : List Kind} (h : ks ≠ []) : EndsLine (schema ks) := by
  have hrows : ks.flatMap kind ≠ [] := by
    obtain ⟨k, ks, rfl⟩ := List.exists_cons_of_ne_nil h
    exact List.cons_ne_nil _ _
  obtain ⟨init, last, hlast⟩ := (List.eq_nil_or_concat _).resolve_left hrows
  refine ⟨String.join (init.map (· ++ "\n")) ++ last, ?_⟩
  rw [schema, hlast, List.concat_eq_append, List.map_append, String.join_append]
  simp [String.append_assoc]

end Report.Text

namespace Cli

/-! ## What is printed -/

/-- A report in JSON gets a line break, and one in text has it. -/
theorem endsLine_of_prints {f : Format} {text : Except Overflow String} {json out : String}
    (htext : ∀ t, text = .ok t → EndsLine t) (h : Prints f text json (.ok out)) : EndsLine out := by
  cases h with
  | text => exact htext out rfl
  | json => exact ⟨json, rfl⟩

/-- Whatever the command is, what it reports ends with a line break. -/
theorem endsLine_of_reports {d : Directory} {stdin : ByteArray} {c : Config} {command : Command}
    {out : String} (h : Reports d stdin c command (.ok out)) : EndsLine out := by
  cases h with
  | traced input traced printed =>
    exact endsLine_of_prints (fun t ht => Report.Text.endsLine_trace traced ht) printed
  | @counted path tree s r input counted printed =>
    apply endsLine_of_prints _ printed
    rintro t ⟨⟩
    exact Report.Text.endsLine_stats s
  | @oneKind k r printed =>
    apply endsLine_of_prints _ printed
    rintro t ⟨⟩
    exact Report.Text.endsLine_schema (List.cons_ne_nil k [])
  | allKinds printed =>
    apply endsLine_of_prints _ printed
    rintro t ⟨⟩
    exact Report.Text.endsLine_schema (List.ne_nil_of_mem (Kind.mem_all .name))

/-- A run that stops has one of two exit codes, and neither is 0. -/
theorem exitCode_stopped (stop : Stop) :
    (Ending.stopped stop).exitCode = 2 ∨ (Ending.stopped stop).exitCode = 101 := by
  cases stop with
  | failed f => exact .inl rfl
  | overflowed o => exact .inr rfl

/-- A run prints a whole report and succeeds, or it prints nothing and fails. -/
theorem invoke_all_or_nothing (d : Directory) (stdin : ByteArray) (i : Invocation) :
    ((invoke d stdin i).ending.exitCode = 0 ∧ EndsLine (invoke d stdin i).output) ∨
      (((invoke d stdin i).ending.exitCode = 2 ∨ (invoke d stdin i).ending.exitCode = 101) ∧
        (invoke d stdin i).output = "") := by
  have hruns : Runs d stdin i (invoke d stdin i).ending (invoke d stdin i).output :=
    runs_iff.mpr ⟨rfl, rfl⟩
  -- the rules are told apart by their ending, so ending and output have to be variables
  revert hruns
  generalize (invoke d stdin i).ending = e, (invoke d stdin i).output = out
  intro hruns
  cases hruns with
  | unconfigured config => exact .inr ⟨exitCode_stopped _, rfl⟩
  | unreported config report => exact .inr ⟨exitCode_stopped _, rfl⟩
  | reported config report => exact .inl ⟨rfl, endsLine_of_reports report⟩

/-- A run ends well and has printed a text that ends with a line break, or it fails, with whatever
    exit code, and has printed nothing. -/
theorem run_all_or_nothing (args : List String) (d : Directory) (stdin : ByteArray) :
    ((run args d stdin).ending.exitCode = 0 ∧
        ∃ body, (run args d stdin).output = body ++ "\n") ∨
      (((run args d stdin).ending.exitCode = 2 ∨ (run args d stdin).ending.exitCode = 101) ∧
        (run args d stdin).output = "") := by
  unfold run
  split
  · exact .inr ⟨.inl rfl, rfl⟩
  · exact .inl ⟨rfl, "twalk 0.1.0", rfl⟩
  · exact invoke_all_or_nothing d stdin _

end Cli

end TypeTree
