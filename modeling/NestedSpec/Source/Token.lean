import NestedSpec.Source.Position

/-!
# Tokens

A source is read as a sequence of token trees: words, lifetimes, marks, literals, and groups in
brackets that hold token trees again.
-/

namespace NestedSpec.Source

inductive Delimiter where
  | parenthesis
  | bracket
  | brace
deriving Repr, DecidableEq

inductive LiteralKind where
  | text
  | bytes
  | terminated
  | byte
  | character
  | integer
  | decimal
deriving Repr, DecidableEq

inductive Token where
  /-- A keyword or identifier. An identifier marked as raw keeps its mark. -/
  | word (text : String)
  | lifetime (name : String)
  /-- One mark; `joint` says that another mark follows at once. -/
  | mark (char : Char) (joint : Bool)
  | literal (kind : LiteralKind) (text : String)
deriving Repr, DecidableEq

inductive Tree where
  | token (token : Token) (start stop : Position)
  /-- The closing bracket stands at `close`. -/
  | group (delimiter : Delimiter) (start close stop : Position) (inner : List Tree)

namespace Tree

def start : Tree → Position
  | token _ start _ => start
  | group _ start _ _ _ => start

def stop : Tree → Position
  | token _ _ stop => stop
  | group _ _ _ stop _ => stop

mutual
def size : Tree → Nat
  | token _ _ _ => 1
  | group _ _ _ _ inner => 1 + sizeAll inner

def sizeAll : List Tree → Nat
  | [] => 0
  | first :: rest => size first + sizeAll rest
end

end Tree
end NestedSpec.Source
