/-
  What the stages of a run can do.

  `Stage.andThen` is opened here and nowhere else: a stage that stops the run passes the stop on, and
  any other hands over its result, with what was logged and printed so far in front
  (`andThen_of_error`, `andThen_of_ok`).  No stage before the last one prints (`Stage.Silent`), so a
  run goes one of three ways: it stops at the configuration (`invoke_of_unconfigured`) or at the
  report (`invoke_of_unreported`) with nothing printed, or it prints its report
  (`invoke_of_reported`).
-/
import TypeTree.Cli.Run
import TypeTree.Proofs.Notes

namespace TypeTree.Cli

namespace Stage

variable {α β : Type}

/-! ## Sequences of stages -/

/-- A stage that stops passes its stop on, and the next one is never asked. -/
theorem andThen_of_error {s : Stage α} {stop : Stop} (h : s.result = .error stop)
    (next : α → Stage β) : s.andThen next = ⟨s.log, s.output, .error stop⟩ := by
  unfold andThen
  rw [h]

/-- A stage that succeeds has its log and its output stand before those of the next. -/
theorem andThen_of_ok {s : Stage α} {a : α} (h : s.result = .ok a) (next : α → Stage β) :
    s.andThen next = ⟨s.log ++ (next a).log, s.output ++ (next a).output, (next a).result⟩ := by
  unfold andThen
  rw [h]

/-! ## Stages that print nothing -/

/-- The stage prints nothing. -/
def Silent (s : Stage α) : Prop :=
  s.output = ""

theorem silent_ofExcept (result : Except Failure α) : (ofExcept result).Silent := rfl

theorem silent_ofReport (report : Except Overflow α) : (ofReport report).Silent := rfl

theorem Silent.noting {s : Stage α} (h : s.Silent) (r : Record) : (s.noting r).Silent := h

/-- Silent stages one after the other are silent, also if the first one stops. -/
theorem Silent.andThen {s : Stage α} {next : α → Stage β} (hs : s.Silent)
    (hnext : ∀ a, (next a).Silent) : (s.andThen next).Silent := by
  unfold Silent
  cases h : s.result with
  | error stop =>
    rw [andThen_of_error h]
    exact hs
  | ok a =>
    rw [andThen_of_ok h]
    show s.output ++ (next a).output = ""
    rw [hs, hnext a, String.append_empty]

end Stage

open Stage

variable (d : Directory) (stdin : ByteArray)

/-- Loading a configuration prints nothing, wherever it comes from. -/
theorem silent_loadConfig (path? : Option String) : (loadConfig d stdin path?).Silent := by
  unfold loadConfig
  split
  · exact silent_ofExcept _
  · split <;> exact (silent_ofExcept _).noting _

theorem silent_configure (o : Options) : (configure d stdin o).Silent :=
  (silent_loadConfig d stdin o.config?).andThen fun _ => silent_ofExcept _

/-- Reading the input prints nothing. -/
theorem silent_readTree (path : String) : (readTree d stdin path).Silent := by
  unfold readTree
  split
  · exact silent_ofExcept _
  · exact (silent_ofExcept _).noting _

theorem silent_walked {α : Type} (n : Noted α) : (walked n).Silent := rfl

/-- A report is put together before any of it is printed. -/
theorem silent_report (c : Config) (command : Command) : (report d stdin c command).Silent := by
  cases command with
  | walk path =>
    exact (silent_readTree d stdin path).andThen fun _ =>
      (silent_walked _).andThen fun _ => silent_ofReport _
  | stats path =>
    exact (silent_readTree d stdin path).andThen fun _ =>
      (silent_walked _).andThen fun _ => silent_ofReport _
  | schema tag? => exact silent_ofExcept _

/-! ## Results of walks -/

/-- A walk fails as a failure of the tree, with the fault it found. -/
theorem walked_result {α : Type} (n : Noted α) :
    (walked n).result = n.result.mapError fun f => .failed (.treeFaulty f) := by
  show (n.result.mapError Failure.treeFaulty).mapError Stop.failed = _
  cases n.result <;> rfl

/-- Noting what happens on a walk does not change what the trace is. -/
theorem walked_traceNoting_result (tree : Json) :
    (walked (traceNoting tree)).result = (trace tree).mapError fun f => .failed (.treeFaulty f) := by
  rw [walked_result, traceNoting_result]

/-- Nor does it change what the statistics are. -/
theorem walked_statsNoting_result (tree : Json) :
    (walked (statsNoting tree)).result = (stats tree).mapError fun f => .failed (.treeFaulty f) := by
  rw [walked_result, statsNoting_result]

/-! ## Ways of a run -/

variable {d stdin} {i : Invocation} {c : Config}

/-- A run whose configuration fails stops there. -/
theorem invoke_of_unconfigured {stop : Stop}
    (hconfig : (configure d stdin i.options).result = .error stop) :
    (invoke d stdin i).ending = .stopped stop ∧ (invoke d stdin i).output = "" := by
  have hquiet : (configure d stdin i.options).output = "" := silent_configure d stdin i.options
  unfold invoke perform
  rw [andThen_of_error hconfig]
  exact ⟨rfl, hquiet⟩

/-- A run whose report fails stops there, with nothing printed. -/
theorem invoke_of_unreported {stop : Stop}
    (hconfig : (configure d stdin i.options).result = .ok c)
    (hreport : (report d (unconsumed d stdin i.options) c i.command).result = .error stop) :
    (invoke d stdin i).ending = .stopped stop ∧ (invoke d stdin i).output = "" := by
  have hquiet : (configure d stdin i.options).output = "" := silent_configure d stdin i.options
  have hsilent : (report d (unconsumed d stdin i.options) c i.command).output = "" :=
    silent_report d _ c i.command
  unfold invoke perform
  rw [andThen_of_ok hconfig, andThen_of_error hreport]
  refine ⟨rfl, ?_⟩
  show (configure d stdin i.options).output ++
    (report d (unconsumed d stdin i.options) c i.command).output = ""
  rw [hquiet, hsilent, String.append_empty]

/-- Any other run prints its report and nothing else. -/
theorem invoke_of_reported {text : String}
    (hconfig : (configure d stdin i.options).result = .ok c)
    (hreport : (report d (unconsumed d stdin i.options) c i.command).result = .ok text) :
    (invoke d stdin i).ending = .finished ∧
      (invoke d stdin i).output = printed c.format text := by
  have hquiet : (configure d stdin i.options).output = "" := silent_configure d stdin i.options
  have hsilent : (report d (unconsumed d stdin i.options) c i.command).output = "" :=
    silent_report d _ c i.command
  unfold invoke perform
  rw [andThen_of_ok hconfig, andThen_of_ok hreport]
  refine ⟨rfl, ?_⟩
  show (configure d stdin i.options).output ++
    ((report d (unconsumed d stdin i.options) c i.command).output ++ printed c.format text) = _
  rw [hquiet, hsilent, String.empty_append, String.empty_append]

end TypeTree.Cli
