/-
  The log of a run.

  Each record has a level, and a log keeps the records up to a level of its own: INFO, or DEBUG if
  the command line asks for more.  Records of level TRACE are made but never kept.  Whatever is
  logged is first made safe for a terminal (`Text.inert`).

  The ERROR record of a run that fails is no record of this log: it repeats the failure with which the
  run ends, and is written from there (`failureText`, `Ending.complaint?`).
-/
import TypeTree.Failure
import TypeTree.Text.Inert
import TypeTree.Walk.Notes

namespace TypeTree.Cli

/-- How much a record matters. -/
inductive Level where
  | info
  | debug
  | trace
  deriving DecidableEq, Repr

namespace Level

/-- The name of a level. -/
def name : Level → String
  | info => "INFO"
  | debug => "DEBUG"
  | trace => "TRACE"

/-- The place of a level; what matters more comes first. -/
def rank : Level → Nat
  | info => 0
  | debug => 1
  | trace => 2

/-- The last level that a log keeps. -/
def limit (verbose : Bool) : Level :=
  if verbose then debug else info

end Level

/-- Something worth noting. -/
inductive Record where
  | configFound (path : String)
  | noConfig
  | inputRead (bytes : Nat) (path : String)
  | walkNoted (note : Note)
  deriving DecidableEq, Repr

namespace Record

/-- The level of a record. -/
def level : Record → Level
  | configFound _ => .info
  | noConfig | inputRead _ _ => .debug
  | walkNoted (.entered _) => .trace
  | walkNoted (.unknownTag _) | walkNoted (.malformed _ _) => .debug

/-- The wording of a record. -/
def text : Record → String
  | configFound path => "Using config: " ++ Text.inert path
  | noConfig => "No config file found, using defaults"
  | inputRead bytes path => "Read " ++ Nat.repr bytes ++ " bytes from " ++ Text.inert path
  | walkNoted (.entered kind) => "enter node_type=" ++ kind.tag
  | walkNoted (.unknownTag tag) => "No schema for node type tag=" ++ Text.quote tag
  | walkNoted (.malformed kind property) =>
    "Malformed node node_type=" ++ kind.tag ++ " property=" ++ Text.quote property

/-- The record is kept in a log, with or without more records than usual. -/
def kept (verbose : Bool) (r : Record) : Bool :=
  r.level.rank ≤ (Level.limit verbose).rank

end Record

/-- A failure as it is logged. -/
def failureText (f : Failure) : String :=
  Text.inert f.message

end TypeTree.Cli
