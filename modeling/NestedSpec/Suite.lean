import NestedSpec.Text.Lines

/-!
# Names of suites

A suite without a name of its own is named after its type.
-/

namespace NestedSpec.Suite

def lastPart (path : List Char) : List Char :=
  go [] path
where
  go (current : List Char) : List Char → List Char
    | [] => current.reverse
    | ':' :: ':' :: rest => go [] rest
    | c :: rest => go (c :: current) rest

def defaultName (typeName : String) : String :=
  String.ofList (lastPart (typeName.toList.takeWhile (· ≠ '<')))

example : defaultName "cases::Generic<list::Vec<cases::Plain>>" = "Generic" := by decide +kernel

end NestedSpec.Suite
