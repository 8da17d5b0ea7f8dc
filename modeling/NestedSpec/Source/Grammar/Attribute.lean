import NestedSpec.Source.Grammar

/-!
# Attributes, visibility and bodies

Attributes stand before what they are about, or at the beginning of its body. Only a value given
after an equals sign is looked into.
-/

namespace NestedSpec.Source.Grammar

open NestedSpec.Source.Parser

def plainPath : Parser (List String) := do
  let _ ← optionalMark "::"
  let (trailing, names) ← improve (fun (state : Bool × List String) => do
    if !state.1 || !(← ahead Ahead.pathWord) then pure none
    else
      let name ← anyWord
      pure (some (← optionalMark "::", name :: state.2))) (true, [])
  if trailing then fail else pure names.reverse

def attributeContent (g : Grammar) : Parser (List Node) := do
  if !(← optionalWord "unsafe") then
    let _ ← plainPath
  if ← ahead Ahead.anyGroup then
    let _ ← take
    pure []
  else if ← optionalMark "=" then
    let literalAlone ← lookAhead do
      literal
      atEnd
    if literalAlone = some true then
      literal
      pure []
    else if (← ahead (Ahead.mark "#")) && (← ahead (Ahead.second (Ahead.group .bracket))) then fail
    else
      let value ← g.expression true
      pure value.nodes
  else pure []

def attributes (g : Grammar) : Parser Attributes := do
  let first ← line
  let nodes ← collect do
    if ← optionalMark "#" then some <$> group .bracket g.attributeContent else pure none
  pure { line := if nodes.isEmpty then none else some first, nodes := nodes.flatten }

def innerAttributes (g : Grammar) : Parser (List Node) := do
  let nodes ← collect do
    if (← ahead (Ahead.mark "#")) && (← ahead (Ahead.second (Ahead.mark "!"))) then
      mark "#"
      mark "!"
      some <$> group .bracket g.attributeContent
    else pure none
  pure nodes.flatten

def block (g : Grammar) : Parser Block := group .brace g.statements

def bracedBody (g : Grammar) : Parser BracedBody := group .brace do
  let inner ← g.innerAttributes
  let block ← g.statements
  pure ⟨inner, block⟩

/-- A visibility; says whether there is one. What stands in parentheses after it belongs to it only
if it is one word for a place, or a path after `in`. -/
def visibility : Parser Bool := do
  if ← optionalWord "pub" then
    match (← get).rest with
    | .group .parenthesis _ _ _ (.token (.word "in") _ _ :: _) :: _ =>
      let _ ← group .parenthesis do
        word "in"
        plainPath
    | .group .parenthesis _ _ _ [.token (.word place) _ _] :: _ =>
      if ["crate", "self", "super"].contains place then
        let _ ← take
    | _ => pure ()
    pure true
  else pure false

def macroArguments : Parser Bool := do
  mark "!"
  anyContents

def foreignInterface : Parser Bool := do
  if ← optionalWord "extern" then
    let _ ← optional (Ahead.literalOf .text)
    pure true
  else pure false

end NestedSpec.Source.Grammar
