import NestedSpec.Source.Position

/-!
# Outlines

The part of a source that searches look at: items, closures and calls, in the order of the source
and nested as they are there, with the lines they cover. Everything else is left out, and what it
contains moves up to the next node around it.
-/

namespace NestedSpec.Source

/-- What a `use` item brings into scope. -/
inductive UseTree where
  | name (name : String)
  | rename (name newName : String)
  | glob
  | path (name : String) (rest : UseTree)
  | group (trees : List UseTree)

inductive Import where
  | use (tree : UseTree)
  | externCrate (name : String) (newName : Option String)

/-- A type, as far as its name tells what it is. -/
inductive TypeName where
  | path (segments : List String)
  | behind (inner : TypeName)
  | other

structure Body where
  firstLine : Nat
  lastLine : Nat
  statements : Nat
  /-- The names of the functions and methods called in it, in order. -/
  calls : List String

structure Closure where
  parameters : Nat
  /-- The type written after the first parameter. -/
  annotation : Option TypeName
  /-- The closure itself is written as an argument of a method call. -/
  isArgument : Bool
  body : Body

inductive Kind where
  | item (imported : Option Import)
  | closure (closure : Closure)
  | methodCall (name : String)
  | call (name : Option String)

inductive Node where
  | node (kind : Kind) (first last : Nat) (children : List Node)

namespace Kind

def calledName : Kind → Option String
  | methodCall name => some name
  | call name => name
  | _ => none

def word : Kind → String
  | item _ => "Item"
  | closure _ => "Closure"
  | methodCall _ => "MethodCall"
  | call _ => "Call"

end Kind

namespace Node

def kind : Node → Kind
  | node kind _ _ _ => kind

def first : Node → Nat
  | node _ first _ _ => first

def last : Node → Nat
  | node _ _ last _ => last

def children : Node → List Node
  | node _ _ _ children => children

def covers (n : Node) (line : Nat) : Bool := n.first ≤ line && line ≤ n.last

def text (n : Node) : String :=
  n.kind.word ++ "(" ++ toString n.first ++ "..=" ++ toString n.last ++ ")"

mutual
def callNames : Node → List String
  | node kind _ _ children => kind.calledName.toList ++ callNamesAll children

def callNamesAll : List Node → List String
  | [] => []
  | first :: rest => callNames first ++ callNamesAll rest
end

mutual
def imports : Node → List Import
  | node kind _ _ children =>
    (match kind with
      | .item (some imported) => [imported]
      | _ => []) ++ importsAll children

def importsAll : List Node → List Import
  | [] => []
  | first :: rest => imports first ++ importsAll rest
end

end Node
end NestedSpec.Source
