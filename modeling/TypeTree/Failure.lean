/-
  Why there is no report.
-/
import TypeTree.Config
import TypeTree.Fault

namespace TypeTree

/-- Why a file, or the standard input, cannot be read as text. -/
inductive ReadFault where
  | missing
  | notDirectory
  | isDirectory
  | nameTooLong
  | notUtf8
  /-- anything else that the system reports, by its number and in its words -/
  | system (code : Nat) (words : String)
  deriving DecidableEq, Repr

/-- The wording of a fault. -/
def ReadFault.message : ReadFault → String
  | missing => "No such file or directory (os error 2)"
  | notDirectory => "Not a directory (os error 20)"
  | isDirectory => "Is a directory (os error 21)"
  | nameTooLong => "File name too long (os error 36)"
  | notUtf8 => "stream did not contain valid UTF-8"
  | system code words => words ++ " (os error " ++ Nat.repr code ++ ")"

/-- Why there is no report. -/
inductive Failure where
  | configUnread (path : String) (fault : ReadFault)
  | configInvalid (e : ConfigError)
  | inputUnread (path : String) (fault : ReadFault)
  | inputInvalid (e : Json.ReadError)
  | treeFaulty (fault : Fault)

/-- The wording of a failure. -/
def Failure.message : Failure → String
  | configUnread path fault =>
    "Configuration error: Failed to read " ++ path ++ ": " ++ fault.message
  | configInvalid e => "Configuration error: " ++ e.message
  | inputUnread path fault => "Failed to read " ++ path ++ ": " ++ fault.message
  | inputInvalid e => "Invalid JSON AST: " ++ e.message
  | treeFaulty fault => "Traversal failed: " ++ fault.message

end TypeTree
