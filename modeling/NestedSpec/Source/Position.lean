import NestedSpec.Text.Lines

/-!
# Positions in a source

A position is a line and the number of characters before it in that line. It stands for a prefix
of the text, and the byte offset of a position is the length of that prefix in UTF-8.
-/

namespace NestedSpec.Source

structure Position where
  /-- The line, counted from 1. -/
  line : Nat
  /-- The number of characters of the line before the place. -/
  column : Nat
deriving Repr, DecidableEq

namespace Position

def start : Position := ⟨1, 0⟩

def next (p : Position) (c : Char) : Position :=
  if c = '\n' then ⟨p.line + 1, 0⟩ else ⟨p.line, p.column + 1⟩

def after (p : Position) (chars : List Char) : Position :=
  chars.foldl next p

/-- The part of a text before a position. A line that the text does not have begins at its end, and
a column that a line does not have is its end. -/
def textBefore (text : List Char) (p : Position) : List Char :=
  let earlier := ((Text.piecesWithFeed text).take (p.line - 1)).flatten
  earlier ++ (((text.drop earlier.length).takeWhile (· ≠ '\n')).take p.column)

def byteSize (chars : List Char) : Nat :=
  chars.foldl (fun size c => size + c.utf8Size) 0

def byteOffset (text : List Char) (p : Position) : Nat :=
  byteSize (textBefore text p)

def byteLength (text : List Char) (p : Position) : Nat :=
  byteSize ((text.drop (textBefore text p).length).take 1)

end Position
end NestedSpec.Source
