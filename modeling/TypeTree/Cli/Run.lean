/-
  A run of the program, as a function of its arguments, the working directory and the standard
  input.

  A run goes through its stages in order: the command line, the configuration, the input, the walk,
  the report.  The first stage that fails ends it; printing the report is the last.
-/
import TypeTree.Cli.Args
import TypeTree.Cli.Directory
import TypeTree.Cli.Stage
import TypeTree.Json.Node
import TypeTree.Json.Reader
import TypeTree.Report

namespace TypeTree.Cli

/-- How a run ends. -/
inductive Ending where
  | finished
  | misused
  | stopped (s : Stop)

/-- The exit code. -/
def Ending.exitCode : Ending → Nat
  | finished => 0
  | misused | stopped (.failed _) => 2
  | stopped (.overflowed _) => 101

/-- What a run leaves behind. -/
structure Outcome where
  ending : Ending
  /-- the standard output -/
  output : String
  log : List Record

/-! ## Stages -/

/-- The configurations that are looked for, the first that is there being used. -/
def configPaths : List String :=
  ["./.typewalk.jsonc", "./.typewalk.json"]

/-- Reads the configuration at a path. -/
def readConfig (d : Directory) (stdin : ByteArray) (path : String) : Except Failure Config :=
  match d.read stdin path with
  | .error f => .error (.configUnread path f)
  | .ok text => (Config.ofText text).mapError .configInvalid

/-- The configuration: the one that is asked for, or one that is found, or the default. -/
def loadConfig (d : Directory) (stdin : ByteArray) (path? : Option String) : Stage Config :=
  match path? with
  | some path => .ofExcept (readConfig d stdin path)
  | none =>
    match configPaths.find? d.isFile with
    | some path => .noting (.configFound path) (.ofExcept (readConfig d stdin path))
    | none => .noting .noConfig (.ofExcept (.ok {}))

/-- The configuration, with the format that the options ask for. -/
def configure (d : Directory) (stdin : ByteArray) (o : Options) : Stage Config :=
  (loadConfig d stdin o.config?).andThen fun c =>
    .ofExcept (.ok { c with format := o.format?.getD c.format })

/-- What the configuration leaves on the standard input, which is all of it unless the configuration
    was read from there. -/
def unconsumed (d : Directory) (stdin : ByteArray) (o : Options) : ByteArray :=
  match o.config? with
  | some path => d.leftover stdin path
  | none => stdin

/-- The text of the input; a hyphen stands for the standard input. -/
def readText (d : Directory) (stdin : ByteArray) (path : String) : Except ReadFault String :=
  if path = "-" then Directory.decode stdin else d.read stdin path

/-- The tree that the input holds. -/
def readTree (d : Directory) (stdin : ByteArray) (path : String) : Stage Json :=
  match readText d stdin path with
  | .error f => .ofExcept (.error (.inputUnread path f))
  | .ok text =>
    .noting (.inputRead text.utf8ByteSize path)
      (.ofExcept ((Json.read text).mapError .inputInvalid))

/-- What was found on a walk, or its fault, with the notes of the walk as records. -/
def walked {α : Type} (n : Noted α) : Stage α :=
  { Stage.ofExcept (n.result.mapError .treeFaulty) with log := n.notes.map .walkNoted }

/-- The kinds whose schema is asked for. -/
def kindsOf (tag? : Option String) : Except Failure (List Kind) :=
  match tag? with
  | none => .ok Kind.all
  | some tag => ((Kind.ofTag tag).map fun k => [k]).mapError .treeFaulty

/-- A report as it is printed: one in JSON ends with a line break of its own. -/
def printed (f : Format) (report : String) : String :=
  match f with
  | .text => report
  | .json => report ++ "\n"

/-- The report that a command asks for. -/
def report (d : Directory) (stdin : ByteArray) (c : Config) : Command → Stage String
  | .walk path =>
    (readTree d stdin path).andThen fun tree =>
      (walked (traceNoting tree)).andThen fun ls => .ofReport (Report.trace c ls)
  | .stats path =>
    (readTree d stdin path).andThen fun tree =>
      (walked (statsNoting tree)).andThen fun s => .ofReport (.ok (Report.stats c.format s))
  | .schema tag? =>
    .ofExcept ((kindsOf tag?).map fun ks => Report.schema c.format ks)

/-! ## Runs -/

/-- The paths that carrying out a command may look at. -/
def Invocation.paths (i : Invocation) : List String :=
  (match i.options.config? with
    | some path => [path]
    | none => configPaths) ++ i.command.input?.toList

/-- What `--version` prints. -/
def versionText : String := "twalk 0.1.0\n"

/-- All stages of a command. -/
def perform (d : Directory) (stdin : ByteArray) (i : Invocation) : Stage Unit :=
  (configure d stdin i.options).andThen fun c =>
    (report d (unconsumed d stdin i.options) c i.command).andThen fun text =>
      .print (printed c.format text)

/-- Carries out a command. -/
def invoke (d : Directory) (stdin : ByteArray) (i : Invocation) : Outcome :=
  let whole := perform d stdin i
  let ending := match whole.result with
    | .error stop => .stopped stop
    | .ok () => .finished
  ⟨ending, whole.output, whole.log.filter (·.kept i.options.verbose)⟩

/-- Runs the program. -/
def run (args : List String) (d : Directory) (stdin : ByteArray) : Outcome :=
  match Request.ofArgs? args with
  | none => ⟨.misused, "", []⟩
  | some .version => ⟨.finished, versionText, []⟩
  | some (.invoke i) => invoke d stdin i

end TypeTree.Cli
