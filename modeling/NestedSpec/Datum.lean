import NestedSpec.Decimal.Shortest
import NestedSpec.Text.Quoted

/-!
# Data and how it is shown

The values that assertions compare, their equality, and two renderings: on one line, and with one
component a line.
-/

namespace NestedSpec

/-- A value that assertions compare. A double is held by its bits. -/
inductive Datum where
  | unit
  | bool (value : Bool)
  | int (value : Int)
  | double (bits : UInt64)
  | char (value : Char)
  | text (value : String)
  | list (items : List Datum)
  /-- Components in parentheses, after the name of the variant if it has one. -/
  | tuple (name : String) (items : List Datum)
  | record (name : String) (fields : List (String × Datum))
  /-- Entries by key; the keys are in order and without repetition. -/
  | map (entries : List (String × Datum))

namespace Datum

def none : Datum := .tuple "None" []

def some (value : Datum) : Datum := .tuple "Some" [value]

/-- A map from its entries in any order; of two entries with one key the later counts. -/
def ofEntries (entries : List (String × Datum)) : Datum :=
  .map (entries.foldl insert [])
where
  insert : List (String × Datum) → String × Datum → List (String × Datum)
    | [], entry => [entry]
    | first :: rest, entry =>
      if entry.1 < first.1 then entry :: first :: rest
      else if entry.1 = first.1 then entry :: rest
      else first :: insert rest entry

mutual
/-- Equality of values; doubles are compared as numbers, so a NaN differs from itself. -/
def same : Datum → Datum → Bool
  | .unit, .unit => true
  | .bool a, .bool b => a == b
  | .int a, .int b => a == b
  | .double a, .double b => Float.ofBits a == Float.ofBits b
  | .char a, .char b => a == b
  | .text a, .text b => a == b
  | .list a, .list b => sameItems a b
  | .tuple m a, .tuple n b => m == n && sameItems a b
  | .record m a, .record n b => m == n && sameFields a b
  | .map a, .map b => sameFields a b
  | _, _ => false

def sameItems : List Datum → List Datum → Bool
  | [], [] => true
  | a :: as, b :: bs => same a b && sameItems as bs
  | _, _ => false

def sameFields : List (String × Datum) → List (String × Datum) → Bool
  | [], [] => true
  | (m, a) :: as, (n, b) :: bs => m == n && same a b && sameFields as bs
  | _, _ => false
end

def atomText : Datum → String
  | .unit => "()"
  | .bool value => if value then "true" else "false"
  | .int value => toString value
  | .double bits => Decimal.doubleText bits.toNat
  | .char value => Text.quoteChar value
  | .text value => Text.quote value
  | _ => ""

mutual
def inline : Datum → String
  | .list items => "[" ++ ", ".intercalate (inlineItems items) ++ "]"
  | .tuple name [] => name
  | .tuple name items => name ++ "(" ++ ", ".intercalate (inlineItems items) ++ ")"
  | .record name fields =>
    name ++ " \x7b " ++ ", ".intercalate (inlineFields id fields) ++ " \x7d"
  | .map entries => "\x7b" ++ ", ".intercalate (inlineFields Text.quote entries) ++ "\x7d"
  | atom => atom.atomText

def inlineItems : List Datum → List String
  | [] => []
  | item :: rest => inline item :: inlineItems rest

def inlineFields (label : String → String) : List (String × Datum) → List String
  | [] => []
  | (name, value) :: rest => (label name ++ ": " ++ inline value) :: inlineFields label rest
end

/-- Puts lines of components between an opening and a closing line; no component, no lines. -/
def enclose (opening closing : String) (components : List (List String)) : List String :=
  match components with
  | [] => [opening ++ closing]
  | _ =>
    let body := components.flatMap fun lines =>
      (lines.mapIdx fun i line => if i + 1 = lines.length then line ++ "," else line).map
        ("    " ++ ·)
    [opening] ++ body ++ [closing]

def labelled (label : String) : List String → List String
  | [] => [label]
  | first :: rest => (label ++ first) :: rest

mutual
def layout : Datum → List String
  | .list items => enclose "[" "]" (layoutItems items)
  | .tuple name [] => [name]
  | .tuple name items => enclose (name ++ "(") ")" (layoutItems items)
  | .record name fields => enclose (name ++ " \x7b") "\x7d" (layoutFields id fields)
  | .map entries => enclose "\x7b" "\x7d" (layoutFields Text.quote entries)
  | atom => [atom.atomText]

def layoutItems : List Datum → List (List String)
  | [] => []
  | item :: rest => layout item :: layoutItems rest

def layoutFields (label : String → String) : List (String × Datum) → List (List String)
  | [] => []
  | (name, value) :: rest =>
    labelled (label name ++ ": ") (layout value) :: layoutFields label rest
end

def spread (value : Datum) : String :=
  "\n".intercalate value.layout

end Datum
end NestedSpec
