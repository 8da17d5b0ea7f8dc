import NestedSpec.CommandLine

/-!
# The program

Reads the arguments and the files that a command asks for, executes the command and prints what it
gives. For a list, standard input names the files in the directory, one in each line.
-/

namespace NestedSpec.Main

open CommandLine

def usageText : String :=
  "Usage: testcase-locate locate [--crate-name NAME] [--json] FILE LINE\n" ++
  "       testcase-locate list [--crate-name NAME] [--json] DIR < NAMES\n"

def versionText : String := "testcase-locate 0.1.0\n"

def addPath (tree : FileTree) (path : String) : IO FileTree := do
  try
    let bytes ← IO.FS.readBinFile path
    pure (tree.addFile path (String.fromUTF8? bytes))
  catch
    | .noFileOrDirectory .. => pure tree
    | _ => pure (tree.addDirectory path)

partial def readNames (input : IO.FS.Stream) : IO (List String) := do
  let line ← input.getLine
  if line.isEmpty then pure []
  else pure (line.trimAsciiEnd.toString :: (← readNames input))

def readTree : Command → IO FileTree
  | .locate path _ _ => addPath {} path
  | .list directory _ => do
    let names ← readNames (← IO.getStdin)
    let start ← addPath {} directory
    names.foldlM (fun tree name => addPath tree (FileTree.join directory name)) start

def printUsage (usage : Usage) : IO UInt32 := do
  match usage with
  | .help => IO.print usageText
  | .version => IO.print versionText
  | _ => IO.eprint usageText
  pure (UInt32.ofNat usage.exitCode)

end NestedSpec.Main

open NestedSpec in
def main (arguments : List String) : IO UInt32 := do
  match CommandLine.Command.ofArguments arguments with
  | .error usage => Main.printUsage usage
  | .ok command =>
    let tree ← Main.readTree command
    match CommandLine.execute tree (← IO.getEnv termKey) command with
    | .ok output =>
      IO.print output
      pure 0
    | .error failure =>
      IO.eprintln ("Error: " ++ failure.message)
      pure 1
