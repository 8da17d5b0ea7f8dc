import NestedSpec.Source.Token

/-!
# Parsers

A parser takes token trees from the front of a group. It fails at a position. What is left in a
group when its parser has ended is remembered: the first such token is the fault of a text that is
otherwise well formed.
-/

namespace NestedSpec.Source

/-- Where a parser stands. -/
structure Cursor where
  rest : List Tree
  /-- The fault when something is missing at the end of the group. -/
  scope : Position
  last : Position
  /-- The last tree that was taken is a group in braces. -/
  afterBrace : Bool := false
  leftover : Option Position := none

abbrev Parser (α : Type) := StateT Cursor (Except Position) α

/-- A test of the trees ahead. -/
abbrev Ahead := List Tree → Bool

def keywords : List String :=
  ["_", "abstract", "as", "async", "await", "become", "box", "break", "const", "continue", "crate",
    "do", "dyn", "else", "enum", "extern", "false", "final", "fn", "for", "if", "impl", "in", "let",
    "loop", "macro", "match", "mod", "move", "mut", "override", "priv", "pub", "ref", "return",
    "Self", "self", "static", "struct", "super", "trait", "true", "try", "type", "typeof", "unsafe",
    "unsized", "use", "virtual", "where", "while", "yield"]

namespace Ahead

def word (text : String) : Ahead
  | .token (.word found) _ _ :: _ => found == text
  | _ => false

def oneOf (texts : List String) : Ahead
  | .token (.word found) _ _ :: _ => texts.contains found
  | _ => false

def anyWord : Ahead
  | .token (.word _) _ _ :: _ => true
  | _ => false

def identifier : Ahead
  | .token (.word found) _ _ :: _ => !keywords.contains found
  | _ => false

def marks : List Char → Ahead
  | [], _ => true
  | [c], .token (.mark found _) _ _ :: _ => found = c
  | c :: more, .token (.mark found joint) _ _ :: rest => found = c && joint && marks more rest
  | _, _ => false

def mark (text : String) : Ahead := marks text.toList

def lifetime : Ahead
  | .token (.lifetime _) _ _ :: _ => true
  | _ => false

def literalOf (kind : LiteralKind) : Ahead
  | .token (.literal found _) _ _ :: _ => found = kind
  | _ => false

def literal : Ahead
  | .token (.literal _ _) _ _ :: _ => true
  | .token (.word found) _ _ :: _ => found == "true" || found == "false"
  | .token (.mark '-' _) _ _ :: .token (.literal kind _) _ _ :: _ =>
    kind = .integer || kind = .decimal
  | _ => false

def group (delimiter : Delimiter) : Ahead
  | .group found _ _ _ _ :: _ => found = delimiter
  | _ => false

def anyGroup : Ahead
  | .group _ _ _ _ _ :: _ => true
  | _ => false

def second (test : Ahead) : Ahead
  | _ :: rest => test rest
  | [] => false

def third (test : Ahead) : Ahead := second (second test)

def pathWord : Ahead := fun trees =>
  identifier trees || oneOf ["super", "self", "Self", "crate"] trees

end Ahead

namespace Parser

variable {α : Type}

def here : Parser Position := do
  let cursor ← get
  pure ((cursor.rest.head?.map Tree.start).getD cursor.scope)

def failAt (place : Position) : Parser α := throw place

def fail : Parser α := do failAt (← here)

def ahead (test : Ahead) : Parser Bool := do pure (test (← get).rest)

def atEnd : Parser Bool := do pure (← get).rest.isEmpty

def line : Parser Nat := do pure (← here).line

def lastLine : Parser Nat := do pure (← get).last.line

def take : Parser Tree := do
  let cursor ← get
  match cursor.rest with
  | [] => fail
  | tree :: rest =>
    let brace := match tree with
      | .group .brace _ _ _ _ => true
      | _ => false
    set { cursor with rest, last := tree.stop, afterBrace := brace }
    pure tree

def takeEach {β : Type} : List β → Parser Unit
  | [] => pure ()
  | _ :: more => do
    let _ ← take
    takeEach more

def expect (test : Ahead) : Parser Unit := do
  if ← ahead test then
    let _ ← take
  else fail

def optional (test : Ahead) : Parser Bool := do
  if ← ahead test then
    let _ ← take
    pure true
  else pure false

def word (text : String) : Parser Unit := expect (Ahead.word text)

def optionalWord (text : String) : Parser Bool := optional (Ahead.word text)

def mark (text : String) : Parser Unit := do
  if ← ahead (Ahead.mark text) then takeEach text.toList else fail

def optionalMark (text : String) : Parser Bool := do
  if ← ahead (Ahead.mark text) then
    takeEach text.toList
    pure true
  else pure false

def anyWord : Parser String := do
  match (← get).rest with
  | .token (.word text) _ _ :: _ =>
    let _ ← take
    pure text
  | _ => fail

def identifier : Parser String := do
  if ← ahead Ahead.identifier then anyWord else fail

def lifetime : Parser Unit := expect Ahead.lifetime

def literal : Parser Unit := do
  if ← ahead Ahead.literal then
    if ← ahead (Ahead.mark "-") then
      let _ ← take
    let _ ← take
  else fail

def group (delimiter : Delimiter) (inner : Parser α) : Parser α := do
  let cursor ← get
  match cursor.rest with
  | .group found start close stop trees :: rest =>
    if found = delimiter then
      let (value, ended) ← fun outer => do
        let (value, ended) ← inner
          { rest := trees, scope := close, last := start, leftover := cursor.leftover }
        pure ((value, ended), outer)
      let leftover := ended.leftover.or (ended.rest.head?.map Tree.start)
      set { cursor with rest, last := stop, afterBrace := delimiter == Delimiter.brace, leftover }
      pure value
    else fail
  | _ => fail

def anyContents : Parser Bool := do
  if ← ahead Ahead.anyGroup then
    let _ ← take
    pure (← get).afterBrace
  else fail

def lookAhead (p : Parser α) : Parser (Option α) := fun cursor =>
  match p cursor with
  | .ok (value, _) => .ok (some value, cursor)
  | .error _ => .ok (none, cursor)

/-- Goes back and takes nothing if the parser fails. -/
def attempt (p : Parser α) : Parser (Option α) := fun cursor =>
  match p cursor with
  | .ok (value, ended) => .ok (some value, ended)
  | .error _ => .ok (none, cursor)

def repeatAtMost : Nat → Parser (Option α) → Parser (List α)
  | 0, _ => pure []
  | count + 1, step => do
    match ← step with
    | none => pure []
    | some value => do
      let more ← repeatAtMost count step
      pure (value :: more)

/-- Repeats a step until it gives nothing more. A step that gives something takes a token, so there
are no more steps than tokens. -/
def collect (step : Parser (Option α)) : Parser (List α) := do
  repeatAtMost ((← get).rest.length + 1) step

def improveAtMost : Nat → (α → Parser (Option α)) → α → Parser α
  | 0, _, value => pure value
  | count + 1, step, value => do
    match ← step value with
    | none => pure value
    | some better => improveAtMost count step better

/-- Goes on for as long as a step changes a value. A step that changes it takes a token. -/
def improve (step : α → Parser (Option α)) (value : α) : Parser α := do
  improveAtMost ((← get).rest.length + 1) step value

/-- Members up to a place where `stops` holds, with separators between them and perhaps after the
last one. -/
def separatedUntil (stops : Parser Bool) (separator : String) (member : Parser α) :
    Parser (List α) := do
  let members ← improve (fun (done, members) => do
    if done || (← stops) then pure none
    else
      let value ← member
      if ← stops then pure (some (true, value :: members))
      else
        mark separator
        pure (some (false, value :: members))) (false, [])
  pure members.2.reverse

def listed (member : Parser α) : Parser (List α) := separatedUntil atEnd "," member

/-- Members for as long as a separator follows, and up to a place where `stops` holds. -/
def joined (stops : Parser Bool) (separator : String) (member : Parser α) : Parser (List α) := do
  let members ← improve (fun (done, members) => do
    if done || (← stops) then pure none
    else
      let value ← member
      pure (some (!(← optionalMark separator), value :: members))) (false, [])
  pure members.2.reverse

end Parser
end NestedSpec.Source
