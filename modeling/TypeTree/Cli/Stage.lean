/-
  Stages of a run.

  A stage makes records, may print something, and comes to a result or stops the run.  Stages follow
  one another (`Stage.andThen`): a stage that stops the run is the last one, and what was logged and
  printed up to there stays.
-/
import TypeTree.Cli.Log
import TypeTree.Overflow

namespace TypeTree.Cli

/-- What stops a run. -/
inductive Stop where
  | failed (f : Failure)
  /-- a report that does not fit the machine -/
  | overflowed (o : Overflow)

/-- What a stage logs and prints, and its result unless it stops the run. -/
structure Stage (α : Type) where
  log : List Record
  output : String
  result : Except Stop α

namespace Stage

variable {α β : Type}

/-- A result, or a failure, without any effect. -/
def ofExcept (result : Except Failure α) : Stage α :=
  ⟨[], "", result.mapError .failed⟩

/-- A report, or its overflow, without any effect. -/
def ofReport (report : Except Overflow α) : Stage α :=
  ⟨[], "", report.mapError .overflowed⟩

/-- Makes a record first. -/
def noting (r : Record) (s : Stage α) : Stage α :=
  { s with log := r :: s.log }

/-- Prints a text. -/
def print (text : String) : Stage Unit :=
  ⟨[], text, .ok ()⟩

/-- Goes on with the result, if there is one. -/
def andThen (s : Stage α) (next : α → Stage β) : Stage β :=
  match s.result with
  | .error stop => ⟨s.log, s.output, .error stop⟩
  | .ok a =>
    let t := next a
    ⟨s.log ++ t.log, s.output ++ t.output, t.result⟩

end Stage

end TypeTree.Cli
