/-!
# Where things are declared

A place in a source file. Places are ordered by file, then line, then column; files are ordered by
their characters, which is the order of their UTF-8 bytes.
-/

namespace NestedSpec

structure Location where
  file : String
  line : Nat
  column : Nat
deriving Repr, DecidableEq, Inhabited

namespace Location

def atMost (a b : Location) : Bool :=
  a.file < b.file ||
    (a.file == b.file && (a.line < b.line || (a.line == b.line && a.column ≤ b.column)))

def first (a b : Location) : Location :=
  if a.atMost b then a else b

def text (place : Location) : String :=
  place.file ++ ":" ++ toString place.line ++ ":" ++ toString place.column

end Location
end NestedSpec
