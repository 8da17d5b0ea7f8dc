import NestedSpec.Source.Outline

/-!
# Names of the context type

The context type is the type `T` of the library, and stands also in its module `t`. A source reaches
it under the names that its imports give to the library and to the type. Imports are read in the
order of the source, so an import can use the names that earlier ones have brought.
-/

namespace NestedSpec.Source

structure ContextNames where
  libraries : List String
  types : List String := []
  /-- Everything in the library, or in its module, has been brought into scope. -/
  everything : Bool := false
deriving Repr, DecidableEq

namespace ContextNames

def ofLibrary (name : String) : ContextNames := { libraries := [name] }

/-- Whether a path is that of the library or of its module with the type. -/
def isModulePath (names : ContextNames) : List String → Bool
  | [library] => names.libraries.contains library
  | [library, part] => names.libraries.contains library && part == "t"
  | _ => false

def isTypePath (names : ContextNames) : List String → Bool
  | [library, last] => names.libraries.contains library && last == "T"
  | [library, part, last] => names.libraries.contains library && part == "t" && last == "T"
  | _ => false

mutual
/-- Adds what a `use` tree brings into scope. `around` is the path in front of the tree. -/
def addTree (names : ContextNames) (around : List String) : UseTree → ContextNames
  | .path name rest => addTree names (around ++ [name]) rest
  | .name name =>
    if names.isTypePath (around ++ [name]) then { names with types := name :: names.types }
    else names
  | .rename name newName =>
    let path := around ++ [name]
    if names.isTypePath path then { names with types := newName :: names.types }
    else if around.isEmpty && names.libraries.contains name then
      { names with libraries := newName :: names.libraries }
    else names
  | .glob => { names with everything := names.everything || names.isModulePath around }
  | .group trees => addTrees names around trees

def addTrees (names : ContextNames) (around : List String) : List UseTree → ContextNames
  | [] => names
  | first :: rest => addTrees (addTree names around first) around rest
end

def add (names : ContextNames) : Import → ContextNames
  | .use tree => names.addTree [] tree
  | .externCrate _ none => names
  | .externCrate name (some newName) =>
    if names.libraries.contains name then { names with libraries := newName :: names.libraries }
    else names

def ofOutline (library : String) (outline : List Node) : ContextNames :=
  (Node.importsAll outline).foldl add (ofLibrary library)

def isContext (names : ContextNames) : TypeName → Bool
  | .path [name] => names.types.contains name || (names.everything && name == "T")
  | .path segments => names.isTypePath segments
  | .behind inner => names.isContext inner
  | .other => false

end ContextNames
end NestedSpec.Source
