import MutationTesting.Shell.Editor.Run
import MutationTesting.Shell.Tool.Compare
import MutationTesting.Shell.Tool.Field
import MutationTesting.Shell.Tool.File
import MutationTesting.Shell.Tool.Grep
import MutationTesting.Shell.Tool.Number
import MutationTesting.Shell.Tool.Sort
import MutationTesting.Shell.Tool.System

/-!
# The tools by name

`tool?` gives the tool that a name is for.
-/

namespace MutationTesting.Shell

/-- The tools by their names. -/
def tools : List (String × Tool) := [
  ("true", constant 0), ("false", constant 1), ("echo", echo), ("printf", printf), ("pwd", pwd),
  ("test", testTool), ("[", testTool), ("sleep", sleep), ("cat", cat), ("tac", tac), ("rev", rev),
  ("head", head), ("tail", tail), ("tee", tee), ("wc", wc), ("nl", nl), ("fold", fold),
  ("sort", sortTool), ("uniq", uniq), ("comm", comm), ("cut", cut), ("paste", paste), ("tr", tr),
  ("grep", grep), ("egrep", egrep), ("fgrep", fgrep), ("sed", sed), ("cmp", cmp),
  ("diff", diffTool), ("seq", seq), ("factor", factor), ("expr", expr), ("rm", rm),
  ("rmdir", rmdir), ("mkdir", mkdir), ("touch", touch), ("chmod", chmod), ("chown", constant 0),
  ("cp", cp), ("mv", mv), ("ln", ln), ("ls", ls), ("basename", basename), ("dirname", dirname),
  ("realpath", realpath), ("readlink", readlink), ("mktemp", mktemp), ("stat", stat),
  ("truncate", truncateTool), ("printenv", printenv), ("yes", yes), ("uname", uname),
  ("whoami", whoami), ("id", idTool), ("cksum", cksum), ("od", od), ("sync", constant 0)]

def tool? (name : String) : Option Tool := tools.lookup name

/-- Programs that run other programs. -/
def launchers : List String := [
  "env", "xargs", "timeout", "nohup", "nice", "setsid", "stdbuf", "find", "awk", "mawk", "which"]

/-- The names under which the shell is found. -/
def shells : List String := ["sh", "dash", "bash"]

/-- Whether a name is one of a program of the system. -/
def isProgramName (name : String) : Bool :=
  shells.contains name || launchers.contains name || (tool? name).isSome

end MutationTesting.Shell
