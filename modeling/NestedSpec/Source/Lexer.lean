import NestedSpec.Source.Literal
import NestedSpec.Text.Blank

/-!
# Reading tokens

A text is read from left to right. Blanks and comments separate tokens, a documentation comment
stands for an attribute, and every bracket opens a group that a bracket of the same kind closes. The
result is the token trees, or the place of the first fault: of a character that begins no token, of
a bracket that closes nothing, or of the innermost bracket that is not closed.
-/

namespace NestedSpec.Source.Lexer

def isSeparator (c : Char) : Bool :=
  Text.isBlank c || c = '\u200e' || c = '\u200f'

def lineCommentLength (chars : List Char) : Nat :=
  (go chars).length
where
  go : List Char → List Char
    | [] => []
    | '\n' :: _ => []
    | '\r' :: '\n' :: _ => ['\r']
    | c :: rest => c :: go rest

/-- The length of the rest of a comment that is open `depth + 1` times. -/
def blockCommentTail : Nat → List Char → Option Nat
  | _, [] => none
  | depth, '/' :: '*' :: rest => (blockCommentTail (depth + 1) rest).map (· + 2)
  | 0, '*' :: '/' :: _ => some 2
  | depth + 1, '*' :: '/' :: rest => (blockCommentTail depth rest).map (· + 2)
  | depth, _ :: rest => (blockCommentTail depth rest).map (· + 1)

def blockCommentLength : List Char → Option Nat
  | '/' :: '*' :: rest => (blockCommentTail 0 rest).map (· + 2)
  | _ => none

/-- The length of the comment at the beginning of some characters that is no documentation. -/
def commentLength (chars : List Char) : Option Nat :=
  match chars with
  | '/' :: '/' :: '!' :: _ => none
  | '/' :: '/' :: '/' :: '/' :: _ => some (lineCommentLength chars)
  | '/' :: '/' :: '/' :: _ => none
  | '/' :: '/' :: _ => some (lineCommentLength chars)
  | '/' :: '*' :: '*' :: '/' :: _ => some 4
  | '/' :: '*' :: '!' :: _ => none
  | '/' :: '*' :: '*' :: '*' :: _ => blockCommentLength chars
  | '/' :: '*' :: '*' :: _ => none
  | '/' :: '*' :: _ => blockCommentLength chars
  | _ => none

def hasLoneReturn : List Char → Bool
  | [] => false
  | '\r' :: '\n' :: rest => hasLoneReturn rest
  | '\r' :: _ => true
  | _ :: rest => hasLoneReturn rest

/-- A documentation comment: its length, and whether it belongs to what it stands in. -/
def documentation (chars : List Char) : Option (Nat × Bool) :=
  let line (inner : Bool) : Option (Nat × Bool) :=
    let length := lineCommentLength chars
    let shown := (chars.take length).drop 3
    let text := if (chars.drop length).head? = some '\n' && shown.getLast? = some '\r' then
      shown.dropLast else shown
    if hasLoneReturn text then none else some (length, inner)
  let block (inner : Bool) : Option (Nat × Bool) :=
    match blockCommentLength chars with
    | none => none
    | some length =>
      if hasLoneReturn ((chars.take (length - 2)).drop 3) then none else some (length, inner)
  match chars with
  | '/' :: '/' :: '!' :: _ => line true
  | '/' :: '*' :: '!' :: _ => block true
  | '/' :: '/' :: '/' :: '/' :: _ => none
  | '/' :: '/' :: '/' :: _ => line false
  | '/' :: '*' :: '*' :: '*' :: _ => none
  | '/' :: '*' :: '*' :: _ => block false
  | _ => none

def documentationTrees (inner : Bool) (start stop : Position) : List Tree :=
  let one (token : Token) : Tree := .token token start stop
  let bracketed : Tree := .group .bracket start stop stop
    [one (.word "doc"), one (.mark '=' false), one (.literal .text "\"\"")]
  one (.mark '#' false) :: (if inner then [one (.mark '!' false)] else []) ++ [bracketed]

def markChars : List Char := "~!@#$%^&*-=+|;:,<.>/?'".toList

def beginsMark : List Char → Bool
  | '/' :: '/' :: _ => false
  | '/' :: '*' :: _ => false
  | c :: _ => markChars.contains c
  | [] => false

/-- A lifetime and its length: a quote and an identifier after which no quote follows, nor, without
the mark of a raw identifier, a number sign. -/
def lifetime : List Char → Option (Token × Nat)
  | '\'' :: rest =>
    match wordLength rest with
    | none => none
    | some n =>
      let raw := rest.take 2 == ['r', '#']
      match rest.drop n with
      | '\'' :: _ => none
      | '#' :: _ => if raw then some (.lifetime (String.ofList (rest.take n)), n + 1) else none
      | _ => some (.lifetime (String.ofList (rest.take n)), n + 1)
  | _ => none

/-- Beginnings of quoted literals; an identifier does not begin with one of them. -/
def literalPrefixes : List String :=
  ["r\"", "r#\"", "r##", "b\"", "b'", "br\"", "br#", "c\"", "cr\"", "cr#"]

def leaf (chars : List Char) : Option (Token × Nat) :=
  match Literal.scan chars with
  | some (kind, n) => some (.literal kind (String.ofList (chars.take n)), n)
  | none =>
    match chars with
    | '\'' :: _ => lifetime chars
    | c :: rest =>
      if beginsMark chars then some (.mark c (beginsMark rest), 1)
      else if literalPrefixes.any fun p => p.toList.isPrefixOf chars then none
      else (wordLength chars).map fun n => (.word (String.ofList (chars.take n)), n)
    | [] => none

/-- An open bracket, with what stands before it in reverse. -/
structure Frame where
  delimiter : Delimiter
  start : Position
  before : List Tree

def opening : Char → Option Delimiter
  | '(' => some .parenthesis
  | '[' => some .bracket
  | '\x7b' => some .brace
  | _ => none

def closing : Char → Option Delimiter
  | ')' => some .parenthesis
  | ']' => some .bracket
  | '\x7d' => some .brace
  | _ => none

/-- The token trees of some characters that stand at `place`. `trees` holds those read since the
last open bracket, in reverse, and `frames` the open brackets, innermost first. Every step takes at
least one character, so as many steps as characters are enough. -/
def read : Nat → List Char → Position → List Tree → List Frame → Except Position (List Tree)
  | 0, _, place, _, _ => .error place
  | steps + 1, chars, place, trees, frames =>
    match chars with
    | [] =>
      match frames with
      | [] => .ok trees.reverse
      | frame :: _ => .error frame.start
    | c :: rest =>
      let skip (n : Nat) : Except Position (List Tree) :=
        read steps (chars.drop n) (place.after (chars.take n)) trees frames
      match commentLength chars with
      | some n => skip n
      | none =>
        if isSeparator c then skip 1
        else
          match documentation chars with
          | some (n, inner) =>
            let stop := place.after (chars.take n)
            read steps (chars.drop n) stop
              ((documentationTrees inner place stop).reverse ++ trees) frames
          | none =>
            match opening c, closing c with
            | some delimiter, _ =>
              read steps rest (place.next c) [] (⟨delimiter, place, trees⟩ :: frames)
            | none, some delimiter =>
              match frames with
              | [] => .error place
              | frame :: outer =>
                if frame.delimiter = delimiter then
                  let stop := place.next c
                  read steps rest stop
                    (.group delimiter frame.start place stop trees.reverse :: frame.before) outer
                else .error place
            | none, none =>
              match leaf chars with
              | none => .error place
              | some (token, n) =>
                let stop := place.after (chars.take n)
                read steps (chars.drop n) stop (.token token place stop :: trees) frames

/-- The token trees of a text. A mark of the byte order at its beginning is left out. -/
def trees (chars : List Char) : Except Position (List Tree) :=
  match chars with
  | '\ufeff' :: rest => read (rest.length + 1) rest (Position.start.next '\ufeff') [] []
  | _ => read (chars.length + 1) chars Position.start [] []

def skipBlanks : Nat → List Char → List Char
  | 0, chars => chars
  | steps + 1, chars =>
    match commentLength chars with
    | some n => skipBlanks steps (chars.drop n)
    | none =>
      match chars with
      | [] => []
      | c :: rest => if isSeparator c then skipBlanks steps rest else chars

/-- A source without a mark of the byte order and without a first line that names the program to
run it; that line stays as an empty line. An inner attribute is no such line. -/
def withoutHeader (chars : List Char) : List Char :=
  let chars := match chars with
    | '\ufeff' :: rest => rest
    | _ => chars
  match chars with
  | '#' :: '!' :: rest =>
    if (skipBlanks rest.length rest).head? = some '[' then chars
    else chars.dropWhile (· ≠ '\n')
  | _ => chars

end NestedSpec.Source.Lexer
