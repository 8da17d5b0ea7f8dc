import NestedSpec.Source.ContextNames
import NestedSpec.Source.File
import NestedSpec.Source.Walk
import NestedSpec.Text.Lines

/-!
# Runtime blocks

A runtime block is the body of a closure that runs with a context: the type of its first parameter
is the context type, or it is given to a method that registers a leaf or a hook and its only
parameter has no type. A line belongs to the innermost block around it.
-/

namespace NestedSpec.Source

/-- The body of a closure that runs with a context. -/
structure RuntimeBlock where
  file : String
  body : Body
  text : String

def registeringMethods : List String := ["test", "then", "before", "after", "around"]

namespace Node

def registers (n : Node) : Bool :=
  match n.kind with
  | .methodCall name => registeringMethods.contains name
  | _ => false

end Node

namespace Closure

/-- Whether a closure runs with a context. `around` are the nodes around it, innermost first. -/
def runsWithContext (c : Closure) (names : ContextNames) (around : List Node) : Bool :=
  match c.annotation with
  | some type => names.isContext type
  | none =>
    c.parameters = 1 && c.isArgument && (around.head?.map Node.registers).getD false

end Closure

namespace Node

def runtimeBody? (names : ContextNames) (around : List Node) (n : Node) : Option Body :=
  match n.kind with
  | .closure c => if c.runsWithContext names around then some c.body else none
  | _ => none

end Node

namespace RuntimeBlock

def ofBody (file contents : String) (body : Body) : RuntimeBlock where
  file
  body
  text := "\n".intercalate
    (((Text.lines contents).drop (body.firstLine - 1)).take (body.lastLine + 1 - body.firstLine))

def calls (block : RuntimeBlock) (name : String) : Bool := block.body.calls.contains name

def containsLine (block : RuntimeBlock) (line : Nat) : Bool :=
  block.body.firstLine ≤ line && line ≤ block.body.lastLine

def bodies (names : ContextNames) (outline : List Node) : List Body :=
  (Walk.run (fun node around found =>
    (.enter, (node.runtimeBody? names around).toList ++ found)) outline []).reverse

/-- The innermost body around a line that runs with a context. Nodes that do not cover the line are
left out, and the search ends at a node that begins after it. -/
def innermostBody (names : ContextNames) (outline : List Node) (line : Nat) : Option Body :=
  Walk.run (fun node around found =>
    if line < node.first then (.stop, found)
    else if !node.covers line then (.skip, found)
    else (.enter, (node.runtimeBody? names around).or found)) outline none

def all (library file contents : String) : Except Position (List RuntimeBlock) := do
  let found ← outline contents
  pure ((bodies (.ofOutline library found) found).map (ofBody file contents))

def around? (library file contents : String) (line : Nat) :
    Except Position (Option RuntimeBlock) := do
  let found ← outline contents
  pure ((innermostBody (.ofOutline library found) found line).map (ofBody file contents))

end RuntimeBlock
end NestedSpec.Source
