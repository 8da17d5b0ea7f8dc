import NestedSpec.Text.Printable

/-!
# Quoted text

A text between double quotes, or a character between single quotes, in which every character that
a reader could not see or could mistake is written as an escape.
-/

namespace NestedSpec.Text

def hexadecimal (n : Nat) : String :=
  String.ofList (Nat.toDigits 16 n)

def numericEscape (c : Char) : String :=
  "\\u\x7b" ++ hexadecimal c.toNat ++ "\x7d"

def escapeChar (quote c : Char) : String :=
  if c = quote then "\\" ++ String.singleton c
  else if c = '\\' then "\\\\"
  else if c = '\t' then "\\t"
  else if c = '\r' then "\\r"
  else if c = '\n' then "\\n"
  else if c.toNat = 0 then "\\0"
  else if isGraphemeExtend c || !isPrintable c then numericEscape c
  else String.singleton c

def quote (text : String) : String :=
  "\"" ++ String.join (text.toList.map (escapeChar '"')) ++ "\""

def quoteChar (c : Char) : String :=
  "'" ++ escapeChar '\'' c ++ "'"

end NestedSpec.Text
