import NestedSpec.FileTree
import NestedSpec.Source.RuntimeBlock

/-!
# Searches in files

Runtime blocks in the files of a tree: around a line, in one file, or in all sources right inside a
directory. Every file has its own names for the context type.
-/

namespace NestedSpec

inductive SearchError where
  | unreadable (path : String)
  | unlistable (path : String)
  | malformed (path : String) (offset length : Nat)
deriving Repr, DecidableEq

namespace SearchError

def message : SearchError → String
  | unreadable path => "failed to read " ++ path
  | unlistable path => "failed to scan " ++ path
  | malformed path _ _ => path ++ ": syntax error"

def code : SearchError → String
  | unreadable _ => "testcase::introspect::io"
  | unlistable _ => "testcase::introspect::scan"
  | malformed _ _ _ => "testcase::introspect::parse"

def help : SearchError → Option String
  | malformed _ _ _ => some "runtime blocks can only be located in files that parse as Rust"
  | _ => none

def ofPosition (path contents : String) (place : Source.Position) : SearchError :=
  let chars := contents.toList
  malformed path (place.byteOffset chars) (place.byteLength chars)

end SearchError

structure SourceFile where
  path : String
  blocks : List Source.RuntimeBlock

/-- A search in a tree of files, for a library of that name. -/
structure Search where
  tree : FileTree
  library : String

namespace Search

def usualLibrary : String := "testcase"

/-- The name by which sources call a package: an underscore stands for each hyphen. -/
def libraryName (package : String) : String := package.map fun c => if c = '-' then '_' else c

def ofPackage (tree : FileTree) (package : String) : Search := ⟨tree, libraryName package⟩

def inFile {α : Type} (path contents : String) (found : Except Source.Position α) :
    Except SearchError α :=
  found.mapError (SearchError.ofPosition path contents)

/-- The innermost block around a line of a file. In a file that is missing there is none. -/
def locate (search : Search) (path : String) (line : Nat) :
    Except SearchError (Option Source.RuntimeBlock) :=
  match search.tree.readText path with
  | .error .missing => .ok none
  | .error .unusable => .error (.unreadable path)
  | .ok contents => inFile path contents (Source.RuntimeBlock.around? search.library path contents line)

def blocks (search : Search) (path : String) : Except SearchError (List Source.RuntimeBlock) :=
  match search.tree.readText path with
  | .error _ => .error (.unreadable path)
  | .ok contents => inFile path contents (Source.RuntimeBlock.all search.library path contents)

def isSourceName (name : String) : Bool := name.endsWith ".rs" && name ≠ ".rs"

/-- The sources right inside a directory with their blocks, in the order of their names. -/
def sources (search : Search) (directory : String) : Except SearchError (List SourceFile) :=
  match search.tree.fileNames directory with
  | .error _ => .error (.unlistable directory)
  | .ok names =>
    (names.filter isSourceName).mapM fun name => do
      let path := FileTree.join directory name
      pure ⟨path, ← search.blocks path⟩

def list (search : Search) (directory : String) :
    Except SearchError (List Source.RuntimeBlock) := do
  pure ((← search.sources directory).flatMap (·.blocks))

end Search
end NestedSpec
