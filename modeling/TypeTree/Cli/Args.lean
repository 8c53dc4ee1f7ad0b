/-
  The command line.

  Arguments are cut into words first: a long option, each letter of a bundle of short ones, or a
  plain argument.  Words are then read from left to right, at the top level up to the name of a
  command and at the level of that command from there on.  Each level takes each option once; an
  option given on both counts as it was given last.
-/
import TypeTree.Config

namespace TypeTree.Cli

/-! ## Words -/

/-- A word of the command line.  An option that takes a value may have it attached. -/
inductive Word where
  | config (value? : Option String)
  | format (value? : Option String)
  | verbose
  | version
  /-- the mark after which every argument is plain -/
  | rest
  | plain (arg : String)
  | unknown
  deriving DecidableEq, Repr

/-- The value attached to a short option, without the equals sign that may stand before it. -/
def attached? : List Char → Option String
  | [] => none
  | '=' :: cs => some (String.ofList cs)
  | cs => some (String.ofList cs)

/-- The words of a bundle of short options. -/
def shortWords : List Char → List Word
  | [] => []
  | 'v' :: cs => .verbose :: shortWords cs
  | 'V' :: cs => .version :: shortWords cs
  | 'c' :: cs => [.config (attached? cs)]
  | 'f' :: cs => [.format (attached? cs)]
  | _ => [.unknown]

/-- The word of a long option, given without its hyphens. -/
def longWord (cs : List Char) : Word :=
  let name := String.ofList (cs.takeWhile (· != '='))
  let value? := match cs.dropWhile (· != '=') with
    | [] => none
    | _ :: value => some (String.ofList value)
  match name, value? with
  | "config", v => .config v
  | "format", v => .format v
  | "verbose", none => .verbose
  | "version", none => .version
  | _, _ => .unknown

/-- The words of a command line.  A lone hyphen is a plain argument. -/
def words : List String → List Word
  | [] => []
  | arg :: args =>
    match arg.toList with
    | ['-', '-'] => .rest :: args.map .plain
    | '-' :: '-' :: cs => longWord cs :: words args
    | ['-'] => .plain arg :: words args
    | '-' :: cs => shortWords cs ++ words args
    | _ => .plain arg :: words args

/-! ## Options -/

/-- The options of one level, or of both. -/
structure Options where
  config? : Option String := none
  format? : Option Format := none
  verbose : Bool := false
  deriving DecidableEq, Repr

namespace Options

/-- Sets the path of the configuration, which may be given once and not be empty. -/
def setConfig? (o : Options) (path : String) : Option Options :=
  if o.config?.isSome || path.isEmpty then none else some { o with config? := some path }

/-- Sets the format, which may be given once. -/
def setFormat? (o : Options) (name : String) : Option Options :=
  if o.format?.isSome then none
  else (Format.ofName? name).map fun f => { o with format? := some f }

/-- Asks for more records in the log, which may be done once. -/
def setVerbose? (o : Options) : Option Options :=
  if o.verbose then none else some { o with verbose := true }

/-- The options of both levels together; the inner ones win. -/
def merge (outer inner : Options) : Options :=
  { config? := inner.config?.or outer.config?
    format? := inner.format?.or outer.format?
    verbose := inner.verbose || outer.verbose }

end Options

/-! ## Commands -/

/-- What is to be reported. -/
inductive Command where
  | walk (input : String)
  | stats (input : String)
  /-- the schema of the kind with this tag, or of all kinds -/
  | schema (tag? : Option String)
  deriving DecidableEq, Repr

/-- The input of a command. -/
def Command.input? : Command → Option String
  | walk input | stats input => some input
  | schema _ => none

/-- A command and its options. -/
structure Invocation where
  command : Command
  options : Options
  deriving DecidableEq, Repr

/-- What a command line asks for. -/
inductive Request where
  | version
  | invoke (i : Invocation)
  deriving DecidableEq, Repr

/-- The command of a name with its plain arguments.  An input may not be empty. -/
def command? (name : String) (args : List String) : Option Command :=
  match name, args with
  | "walk", [input] => if input.isEmpty then none else some (.walk input)
  | "stats", [input] => if input.isEmpty then none else some (.stats input)
  | "schema", [] => some (.schema none)
  | "schema", [tag] => some (.schema (some tag))
  | _, _ => none

/-- The level of a command: its options and its plain arguments, last first. -/
def inner? (o : Options) (plains : List String) : List Word → Option (Options × List String)
  | [] => some (o, plains)
  | .verbose :: ws => o.setVerbose?.bind fun o => inner? o plains ws
  | .config (some path) :: ws => (o.setConfig? path).bind fun o => inner? o plains ws
  | .config none :: .plain path :: ws => (o.setConfig? path).bind fun o => inner? o plains ws
  | .format (some name) :: ws => (o.setFormat? name).bind fun o => inner? o plains ws
  | .format none :: .plain name :: ws => (o.setFormat? name).bind fun o => inner? o plains ws
  | .rest :: ws => inner? o plains ws
  | .plain arg :: ws => inner? o (arg :: plains) ws
  | _ => none

/-- The top level, up to the name of a command.  Asking for the version ends the reading. -/
def outer? (o : Options) : List Word → Option Request
  | .version :: _ => some .version
  | .verbose :: ws => o.setVerbose?.bind fun o => outer? o ws
  | .config (some path) :: ws => (o.setConfig? path).bind fun o => outer? o ws
  | .config none :: .plain path :: ws => (o.setConfig? path).bind fun o => outer? o ws
  | .format (some name) :: ws => (o.setFormat? name).bind fun o => outer? o ws
  | .format none :: .plain name :: ws => (o.setFormat? name).bind fun o => outer? o ws
  | .plain name :: ws =>
    (inner? {} [] ws).bind fun (i, plains) =>
      (command? name plains.reverse).map fun command => .invoke ⟨command, o.merge i⟩
  | _ => none

/-- What a command line asks for; none if it is wrong. -/
def Request.ofArgs? (args : List String) : Option Request :=
  outer? {} (words args)

end TypeTree.Cli
