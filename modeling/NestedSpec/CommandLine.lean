import NestedSpec.CommandLine.Arguments
import NestedSpec.Document
import NestedSpec.Search

/-!
# The command line

Executes commands on a tree of files. A block is shown under a heading with its place, with the
number of every line in front of the line; a list of blocks has a line for each. Either can be
written as a document instead.
-/

namespace NestedSpec.CommandLine

inductive Failure where
  | noFile (path : String)
  | noBlock (path : String) (line : Nat)
  | search (error : SearchError)
deriving Repr, DecidableEq

def Failure.message : Failure → String
  | .noFile path => path ++ " does not exist"
  | .noBlock path line => "no runtime block contains " ++ path ++ ":" ++ toString line
  | .search error => error.message

def place (block : Source.RuntimeBlock) : String :=
  block.file ++ ":" ++ toString block.body.firstLine ++ "-" ++ toString block.body.lastLine

def summary (block : Source.RuntimeBlock) : Document :=
  .object [
    ("file", .text block.file),
    ("start_line", .number block.body.firstLine),
    ("end_line", .number block.body.lastLine),
    ("statements", .number block.body.statements),
    ("calls", .list (block.body.calls.map .text))]

def column (n : Nat) : String :=
  let digits := toString n
  String.ofList (List.replicate (5 - digits.length) ' ') ++ digits

def colours (terminal : Option String) : Bool :=
  match terminal with
  | none => false
  | some name => name ≠ "dumb"

def heading (coloured : Bool) (text : String) : String :=
  if coloured then
    Terminal.reset ++ Terminal.bold ++ Terminal.begin .yellow ++ text ++ "\n" ++ Terminal.reset
  else text ++ "\n"

def showBlock (coloured : Bool) (block : Source.RuntimeBlock) : String :=
  let lines := (Text.lines block.text).mapIdx fun index line =>
    column (block.body.firstLine + index) ++ " | " ++ line ++ "\n"
  heading coloured (place block) ++ String.join lines

def listedBlock (block : Source.RuntimeBlock) : String :=
  place block ++ " (" ++ toString block.body.statements ++ " statements)\n"

/-- Executes a command; `terminal` is the name of the terminal. Gives the output. -/
def execute (tree : FileTree) (terminal : Option String) : Command → Except Failure String
  | .locate path line options =>
    if !tree.contains path then .error (.noFile path)
    else
      match (Search.ofPackage tree options.package).locate path line with
      | .error error => .error (.search error)
      | .ok none => .error (.noBlock path line)
      | .ok (some block) =>
        if options.json then .ok ((summary block).pretty ++ "\n")
        else .ok (showBlock (colours terminal) block)
  | .list directory options =>
    match (Search.ofPackage tree options.package).list directory with
    | .error error => .error (.search error)
    | .ok blocks =>
      if options.json then .ok ((Document.list (blocks.map summary)).pretty ++ "\n")
      else .ok (String.join (blocks.map listedBlock))

end NestedSpec.CommandLine
