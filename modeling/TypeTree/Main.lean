/-
  The program: it fetches the files that a run may look at, runs, and prints what the run leaves
  behind, the report on the standard output and everything else on the standard error.
-/
import TypeTree.Cli.Run

namespace TypeTree.Cli

/-- The paths that stand for the standard input. -/
def stdinPaths : List String :=
  ["/dev/stdin", "/dev/fd/0", "/proc/self/fd/0"]

/-- What the system reports, by its number and in its words. -/
def faultOfCode (code : UInt32) (words : String) : ReadFault :=
  match code.toNat with
  | 2 => .missing
  | 20 => .notDirectory
  | 21 => .isDirectory
  | 36 => .nameTooLong
  | n => .system n words

/-- Why the system refuses to open or to read a file. -/
def faultOf : IO.Error → ReadFault
  | .alreadyExists _ code words | .inappropriateType _ code words
  | .interrupted _ code words | .invalidArgument _ code words
  | .noFileOrDirectory _ code words | .noSuchThing _ code words
  | .permissionDenied _ code words | .resourceExhausted _ code words
  | .hardwareFault code words | .illegalOperation code words | .otherError code words
  | .protocolError code words | .resourceBusy code words | .resourceVanished code words
  | .timeExpired code words | .unsatisfiedConstraints code words
  | .unsupportedOperation code words => faultOfCode code words
  | e => .system 0 (toString e)

/-- Something lies at a path that is no directory: nothing can be looked up below it. -/
def isNoDirectory (path : String) : IO Bool := do
  try
    let _ ← IO.FS.Handle.mk (path ++ "/.") .read
    return false
  catch e => return faultOf e == .notDirectory

/-- The standard input comes from a file that has a name of its own.  Then a path that stands for it is
    opened anew, from the beginning and without consuming anything; a pipe or a terminal is not. -/
def opensAnew (path : String) : IO Bool := do
  try
    let target ← IO.FS.realPath path
    return !(toString target).startsWith "/dev/"
  catch _ => return false

/-- What lies at a path on disk. -/
def fetch (path : String) : IO (Except ReadFault Entry) := do
  if stdinPaths.contains path then
    unless ← opensAnew path do return .ok .stdin
  try
    let handle ← IO.FS.Handle.mk path .read
    return .ok (.file (← handle.readBinToEnd))
  catch e =>
    match faultOf e with
    | .isDirectory => return .ok .directory
    | .system code words =>
      -- it may be that the file is there but must not be read
      if ← isNoDirectory path then return .ok (.unreadable (.system code words))
      else return .error (.system code words)
    | fault => return .error fault

/-- The files that a command line may look at. -/
def fetchAll (args : List String) : IO Directory := do
  let paths := match Request.ofArgs? args with
    | some (.invoke i) => i.paths
    | _ => []
  let entries ← paths.mapM fun path => return (path, ← fetch path)
  return ⟨fun path => (entries.lookup path).getD (.error .missing)⟩

/-- A command line reads the standard input if it names it. -/
def readsStdin (args : List String) : Bool :=
  match Request.ofArgs? args with
  | some (.invoke i) =>
    i.command.input? == some "-" || i.paths.any fun path => stdinPaths.contains path
  | _ => false

/-- All that is left of a stream. -/
partial def drain (s : IO.FS.Stream) (content : ByteArray) : IO ByteArray := do
  let chunk ← s.read 65536
  if chunk.isEmpty then return content else drain s (content ++ chunk)

/-- What is said of an ending on the standard error. -/
def Ending.complaint? : Ending → Option String
  | finished => none
  | misused =>
    some "usage: twalk [-v] [-c PATH] [-f text|json] <walk INPUT | stats INPUT | schema [TYPE]>"
  | stopped (.failed f) => some ("ERROR " ++ failureText f)
  | stopped (.overflowed o) => some o.message

end TypeTree.Cli

open TypeTree.Cli in
/-- Runs the program on the real file system. -/
def main (args : List String) : IO UInt32 := do
  let directory ← fetchAll args
  let stdin ←
    if readsStdin args then drain (← IO.getStdin) ByteArray.empty else pure ByteArray.empty
  let outcome := run args directory stdin
  for r in outcome.log do
    IO.eprintln (r.level.name ++ " " ++ r.text)
  if let some complaint := outcome.ending.complaint? then
    IO.eprintln complaint
  IO.print outcome.output
  return UInt32.ofNat outcome.ending.exitCode
