/-!
# JSON documents

Values and their text over several lines: every member of a list or an object stands in a line of
its own, two blanks deeper than what it is in.
-/

namespace NestedSpec

/-- A value of a document. The fields of an object keep their order. -/
inductive Document where
  | text (value : String)
  | number (value : Nat)
  | list (members : List Document)
  | object (fields : List (String × Document))

namespace Document

def fourDigits (n : Nat) : String :=
  let digits := Nat.toDigits 16 n
  String.ofList (List.replicate (4 - digits.length) '0' ++ digits)

/-- One character of a text. Only quotes, backslashes and control characters are escaped. -/
def escape (c : Char) : String :=
  if c = '"' then "\\\""
  else if c = '\\' then "\\\\"
  else if c = '\n' then "\\n"
  else if c = '\r' then "\\r"
  else if c = '\t' then "\\t"
  else if c = '\x08' then "\\b"
  else if c = '\x0c' then "\\f"
  else if c.toNat < 0x20 then "\\u" ++ fourDigits c.toNat
  else String.singleton c

def quoted (value : String) : String :=
  "\"" ++ String.join (value.toList.map escape) ++ "\""

def newLine (depth : Nat) : String :=
  "\n" ++ String.ofList (List.replicate (2 * depth) ' ')

mutual
def write (depth : Nat) : Document → String
  | text value => quoted value
  | number value => toString value
  | list [] => "[]"
  | list (first :: rest) =>
    "[" ++ newLine (depth + 1) ++ write (depth + 1) first ++ writeMore (depth + 1) rest ++
      newLine depth ++ "]"
  | object [] => "\x7b\x7d"
  | object ((name, first) :: rest) =>
    "\x7b" ++ newLine (depth + 1) ++ quoted name ++ ": " ++ write (depth + 1) first ++
      writeFields (depth + 1) rest ++ newLine depth ++ "\x7d"

def writeMore (depth : Nat) : List Document → String
  | [] => ""
  | first :: rest => "," ++ newLine depth ++ write depth first ++ writeMore depth rest

def writeFields (depth : Nat) : List (String × Document) → String
  | [] => ""
  | (name, first) :: rest =>
    "," ++ newLine depth ++ quoted name ++ ": " ++ write depth first ++ writeFields depth rest
end

def pretty (document : Document) : String := write 0 document

end Document
end NestedSpec
