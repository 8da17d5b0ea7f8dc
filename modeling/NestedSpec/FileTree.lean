import NestedSpec.Text.Lines

/-!
# Trees of files

Files and directories below a working directory, named by paths. A path is followed part by part:
an empty part and a single dot stay in a directory, two dots leave it, and every part but the last
has to be a directory.
-/

namespace NestedSpec

/-- What a path leads to. -/
inductive Entry where
  | directory
  /-- A file; without a text its bytes are no text. -/
  | file (text : Option String)
deriving Repr, DecidableEq

/-- Files and directories below a working directory, each with the parts of its path. -/
structure FileTree where
  entries : List (List String × Entry) := []

inductive PathFault where
  | missing
  | unusable
deriving Repr, DecidableEq

namespace FileTree

def longestName : Nat := 255

def start (path : String) : List String := if path.startsWith "/" then ["/"] else []

/-- The place that two dots lead to. -/
def parent (place : List String) : List String :=
  match place.getLast? with
  | none | some ".." => place ++ [".."]
  | some "/" => place
  | some _ => place.dropLast

def enter (place : List String) (part : String) : List String :=
  if part = "" || part = "." then place
  else if part = ".." then parent place
  else place ++ [part]

def place (path : String) : List String :=
  (Text.splitAtChar '/' path).foldl enter (start path)

def addFile (tree : FileTree) (path : String) (text : Option String) : FileTree :=
  ⟨(place path, .file text) :: tree.entries⟩

def addDirectory (tree : FileTree) (path : String) : FileTree :=
  ⟨(place path, .directory) :: tree.entries⟩

/-- What has a place in the tree. What something is below is a directory. -/
def entry? (tree : FileTree) (place : List String) : Option Entry :=
  match tree.entries.find? fun (found, _) => found = place with
  | some (_, entry) => some entry
  | none =>
    if place.isEmpty || tree.entries.any fun (found, _) => place.isPrefixOf found then
      some .directory
    else none

def follow (tree : FileTree) : List String → List String → Except PathFault (List String × Entry)
  | place, parts =>
    match tree.entry? place with
    | none => .error .missing
    | some entry =>
      match parts, entry with
      | [], _ => .ok (place, entry)
      | _ :: _, .file _ => .error .unusable
      | part :: rest, .directory =>
        if longestName < part.utf8ByteSize || part.contains '\x00' then .error .unusable
        else follow tree (enter place part) rest
termination_by _ parts => parts.length

/-- What a path leads to. The empty path leads nowhere. -/
def resolve (tree : FileTree) (path : String) : Except PathFault (List String × Entry) :=
  if path.isEmpty then .error .missing
  else tree.follow (start path) (Text.splitAtChar '/' path)

def contains (tree : FileTree) (path : String) : Bool := (tree.resolve path).isOk

def readText (tree : FileTree) (path : String) : Except PathFault String :=
  match tree.resolve path with
  | .error fault => .error fault
  | .ok (_, .file (some text)) => .ok text
  | .ok _ => .error .unusable

def fileNames (tree : FileTree) (path : String) : Except PathFault (List String) :=
  match tree.resolve path with
  | .error fault => .error fault
  | .ok (_, .file _) => .ok []
  | .ok (place, .directory) =>
    let found := tree.entries.filterMap fun (names, entry) =>
      match entry with
      | .directory => none
      | .file _ => if names.dropLast = place then names.getLast? else none
    .ok (found.eraseDups.mergeSort fun a b => a < b || a == b)

def join (directory name : String) : String :=
  if directory.endsWith "/" then directory ++ name else directory ++ "/" ++ name

end FileTree
end NestedSpec
