import NestedSpec.Source.Token
import NestedSpec.Text.Identifier

/-!
# Words and literals

How long the word or literal at the beginning of some characters is. Every scanner gives the number
of characters it takes, or nothing if there is no such word or literal.
-/

namespace NestedSpec.Source

def identifierLength : List Char → Option Nat
  | [] => none
  | c :: rest =>
    if Text.isIdentifierStart c then some (1 + (rest.takeWhile Text.isIdentifierContinue).length)
    else none

def neverRaw : List String := ["_", "super", "self", "Self", "crate"]

def wordLength : List Char → Option Nat
  | 'r' :: '#' :: rest =>
    match identifierLength rest with
    | none => none
    | some n => if neverRaw.contains (String.ofList (rest.take n)) then none else some (n + 2)
  | chars => identifierLength chars

namespace Literal

structure Alphabet where
  plain : Char → Bool
  /-- The characters that stand for others after a backslash. -/
  escapes : List Char
  pair : Char → Char → Bool
  /-- Whether a code point may be given in braces after `\u`. -/
  point : Nat → Bool

def isHexDigit (c : Char) : Bool := c.isDigit || ('a' ≤ c && c ≤ 'f') || ('A' ≤ c && c ≤ 'F')

def hexValue (c : Char) : Nat :=
  if c.isDigit then c.toNat - '0'.toNat
  else if 'a' ≤ c then c.toNat - 'a'.toNat + 10
  else c.toNat - 'A'.toNat + 10

def isCodePoint (n : Nat) : Bool := n < 0xD800 || (0xDFFF < n && n < 0x110000)

def unicode : Alphabet where
  plain _ := true
  escapes := ['n', 'r', 't', '\\', '\'', '"', '0']
  pair first second := '0' ≤ first && first ≤ '7' && isHexDigit second
  point := isCodePoint

/-- Texts that end with a NUL, so that none may stand in them. -/
def terminated : Alphabet where
  plain c := c.toNat ≠ 0
  escapes := ['n', 'r', 't', '\\', '\'', '"']
  pair first second := isHexDigit first && isHexDigit second && !(first = '0' && second = '0')
  point n := n ≠ 0 && isCodePoint n

def ascii : Alphabet where
  plain c := c.toNat < 128
  escapes := ['n', 'r', 't', '\\', '0', '\'', '"']
  pair first second := isHexDigit first && isHexDigit second
  point _ := false

def pointLength (alphabet : Alphabet) (value digits : Nat) : List Char → Option Nat
  | [] => none
  | c :: rest =>
    if isHexDigit c then
      if digits = 6 then none
      else (pointLength alphabet (16 * value + hexValue c) (digits + 1) rest).map (· + 1)
    else if c = '_' && 0 < digits then (pointLength alphabet value digits rest).map (· + 1)
    else if c = '\x7d' && 0 < digits && alphabet.point value then some 1
    else none

def escapeLength (alphabet : Alphabet) : List Char → Option Nat
  | 'x' :: first :: second :: _ => if alphabet.pair first second then some 3 else none
  | 'u' :: '\x7b' :: rest => (pointLength alphabet 0 0 rest).map (· + 2)
  | c :: _ => if alphabet.escapes.contains c then some 1 else none
  | [] => none

/-- The number of blanks and line ends after a backslash that ends a line; a carriage return must
come with a line feed, and something must follow. -/
def continuationLength : List Char → Option Nat
  | [] => none
  | '\r' :: '\n' :: rest => (continuationLength rest).map (· + 2)
  | '\r' :: _ => none
  | c :: rest =>
    if c = ' ' || c = '\t' || c = '\n' then (continuationLength rest).map (· + 1) else some 0

def quotedLength (alphabet : Alphabet) : List Char → Option Nat
  | [] => none
  | '"' :: _ => some 1
  | '\r' :: '\n' :: rest => (quotedLength alphabet rest).map (· + 2)
  | '\r' :: _ => none
  | '\\' :: rest =>
    let escape :=
      match rest with
      | '\n' :: _ | '\r' :: _ => continuationLength rest
      | _ => escapeLength alphabet rest
    match escape with
    | none => none
    | some n => (quotedLength alphabet (rest.drop n)).map (· + n + 1)
  | c :: rest =>
    if alphabet.plain c then (quotedLength alphabet rest).map (· + 1) else none
termination_by chars => chars.length
decreasing_by all_goals (simp only [List.length_cons, List.length_drop]; omega)

/-- The number of characters of a raw literal after its opening quote, up to a quote that as many
number signs follow as stood before it. -/
def rawTailLength (plain : Char → Bool) (signs : Nat) : List Char → Option Nat
  | [] => none
  | '\r' :: '\n' :: rest => (rawTailLength plain signs rest).map (· + 2)
  | '\r' :: _ => none
  | c :: rest =>
    if c = '"' && (rest.take signs) == List.replicate signs '#' then some (1 + signs)
    else if plain c then (rawTailLength plain signs rest).map (· + 1)
    else none

def rawLength (plain : Char → Bool) (chars : List Char) : Option Nat :=
  let signs := (chars.takeWhile (· = '#')).length
  match chars.drop signs with
  | '"' :: rest =>
    if 255 < signs then none else (rawTailLength plain signs rest).map (· + signs + 1)
  | _ => none

def singleLength (alphabet : Alphabet) : List Char → Option Nat
  | '\\' :: rest =>
    match escapeLength alphabet rest with
    | none => none
    | some n => if (rest.drop n).head? = some '\'' then some (n + 2) else none
  | c :: '\'' :: _ => if alphabet.plain c then some 2 else none
  | _ => none

def withSuffix (chars : List Char) (length : Nat) : Nat :=
  length + (identifierLength (chars.drop length)).getD 0

def quoted (chars : List Char) : Option (LiteralKind × Nat) :=
  let found (kind : LiteralKind) (opening : Nat) (rest : Option Nat) : Option (LiteralKind × Nat) :=
    rest.map fun n => (kind, withSuffix chars (n + opening))
  match chars with
  | '"' :: rest => found .text 1 (quotedLength unicode rest)
  | 'r' :: rest => found .text 1 (rawLength (fun _ => true) rest)
  | 'b' :: '"' :: rest => found .bytes 2 (quotedLength ascii rest)
  | 'b' :: 'r' :: rest => found .bytes 2 (rawLength ascii.plain rest)
  | 'b' :: '\'' :: rest => found .byte 2 (singleLength ascii rest)
  | 'c' :: '"' :: rest => found .terminated 2 (quotedLength terminated rest)
  | 'c' :: 'r' :: rest => found .terminated 2 (rawLength terminated.plain rest)
  | '\'' :: rest => found .character 1 (singleLength unicode rest)
  | _ => none

/-- The length of the digits, the point and the letter of the exponent of a number, whether the
point is there, and what follows the letter. A point that another point or an identifier follows
does not belong to a number. -/
def mantissa (point : Bool) : List Char → Option (Nat × Bool × Option (List Char))
  | [] => some (0, point, none)
  | c :: rest =>
    let more (point : Bool) : Option (Nat × Bool × Option (List Char)) :=
      (mantissa point rest).map fun (n, found) => (n + 1, found)
    if c.isDigit || c = '_' then more point
    else if c = '.' then
      if point then some (0, point, none)
      else
        match rest with
        | d :: _ => if d = '.' || Text.isIdentifierStart d then none else more true
        | [] => more true
    else if c = 'e' || c = 'E' then some (1, point, some rest)
    else some (0, point, none)

/-- The length of an exponent: a sign, digits and underscores. There is none without a digit, or if
a second sign comes before the first digit. -/
def exponent (signed valued : Bool) : List Char → Option Nat
  | [] => if valued then some 0 else none
  | c :: rest =>
    if c = '+' || c = '-' then
      if valued then some 0
      else if signed then none
      else (exponent true valued rest).map (· + 1)
    else if c.isDigit then (exponent signed true rest).map (· + 1)
    else if c = '_' then (exponent signed valued rest).map (· + 1)
    else if valued then some 0
    else none

def decimalDigits (chars : List Char) : Option Nat :=
  if (chars.head?.map Char.isDigit).getD false then
    match mantissa false chars with
    | none => none
    | some (n, point, none) => if point then some n else none
    | some (n, point, some rest) =>
      match exponent false false rest with
      | some m => some (n + m)
      | none => if point then some (n - 1) else none
  else none

/-- The length of the digits of an integer. A decimal digit that the base does not have makes the
whole no number, a letter that it does not have ends it. -/
def integerDigits (base : Nat) (empty : Bool) : List Char → Option Nat
  | [] => if empty then none else some 0
  | c :: rest =>
    if c.isDigit then
      if c.toNat - '0'.toNat < base then (integerDigits base false rest).map (· + 1) else none
    else if isHexDigit c && hexValue c < base then (integerDigits base false rest).map (· + 1)
    else if c = '_' then
      if empty && base = 10 then none else (integerDigits base empty rest).map (· + 1)
    else if empty then none
    else some 0

def integerLength : List Char → Option Nat
  | '0' :: 'x' :: rest => (integerDigits 16 true rest).map (· + 2)
  | '0' :: 'o' :: rest => (integerDigits 8 true rest).map (· + 2)
  | '0' :: 'b' :: rest => (integerDigits 2 true rest).map (· + 2)
  | chars => integerDigits 10 true chars

def complete (chars : List Char) (digits : Option Nat) : Option Nat :=
  match digits with
  | none => none
  | some n =>
    let length := withSuffix chars n
    match chars.drop length with
    | c :: _ => if Text.isIdentifierContinue c then none else some length
    | [] => some length

def scan (chars : List Char) : Option (LiteralKind × Nat) :=
  match quoted chars with
  | some found => some found
  | none =>
    match complete chars (decimalDigits chars) with
    | some n => some (.decimal, n)
    | none => (complete chars (integerLength chars)).map fun n => (.integer, n)

end Literal
end NestedSpec.Source
