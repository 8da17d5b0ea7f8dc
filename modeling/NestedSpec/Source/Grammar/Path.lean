import NestedSpec.Source.Grammar.Attribute

/-!
# Paths

Names joined by two colons, with generic arguments after any of them, and perhaps a type in front.
In an expression two colons have to stand before the arguments.
-/

namespace NestedSpec.Source.Grammar

open NestedSpec.Source.Parser

def constantArgument (g : Grammar) : Parser (List Node) := do
  if ← ahead Ahead.literal then
    literal
    pure []
  else if ← ahead Ahead.identifier then
    let _ ← take
    pure []
  else if ← ahead (Ahead.group .brace) then
    let body ← g.bracedBody
    pure (body.attributes ++ body.block.nodes)
  else fail

def constantOrType (g : Grammar) : Parser (List Node) := do
  if (← ahead Ahead.literal) || (← ahead (Ahead.group .brace)) then g.constantArgument
  else (·.nodes) <$> g.type true

def genericArgument (g : Grammar) : Parser (List Node) := do
  if (← ahead Ahead.lifetime) && !(← ahead (Ahead.second (Ahead.mark "+"))) then
    lifetime
    pure []
  else if (← ahead Ahead.literal) || (← ahead (Ahead.group .brace)) then g.constantArgument
  else
    let argument ← g.type true
    if argument.isSingleName then
      if ← optionalMark "=" then
        pure (argument.nodes ++ (← g.constantOrType))
      else if ← optionalMark ":" then
        let stops := do pure ((← ahead (Ahead.mark ",")) || (← ahead (Ahead.mark ">")))
        let bounds ← joined stops "+" (g.bound false true)
        pure (argument.nodes ++ bounds.flatMap (·.nodes))
      else pure argument.nodes
    else pure argument.nodes

def angleArguments (g : Grammar) : Parser (List Node) := do
  mark "<"
  let nodes ← separatedUntil (ahead (Ahead.mark ">")) "," g.genericArgument
  mark ">"
  pure nodes.flatten

def turbofish (g : Grammar) : Parser (List Node) := do
  mark "::"
  g.angleArguments

def returnType (g : Grammar) (allowPlus : Bool) : Parser (Option TypeSyntax) := do
  if ← optionalMark "->" then some <$> g.type allowPlus else pure none

def returnNodes (output : Option TypeSyntax) : List Node :=
  (output.map (·.nodes)).getD []

def parenthesisedArguments (g : Grammar) : Parser (List Node × Option TypeSyntax) := do
  let inputs ← group .parenthesis (listed (g.type true))
  let output ← g.returnType false
  pure (inputs.flatMap (·.nodes) ++ returnNodes output, output)

def parenthesesFollow : Parser Bool := do
  pure ((← ahead (Ahead.group .parenthesis)) ||
    ((← ahead (Ahead.mark "::")) && (← ahead (Ahead.third (Ahead.group .parenthesis)))))

def segment (g : Grammar) (inExpression : Bool) : Parser PathSyntax := do
  if ← ahead (Ahead.oneOf ["super", "self", "crate", "try"]) then
    pure { segments := [← anyWord] }
  else
    let name ← if ← ahead (Ahead.word "Self") then anyWord else identifier
    let angle ← ahead (Ahead.mark "<")
    let comparison := (← ahead (Ahead.mark "<=")) || (← ahead (Ahead.mark "<<="))
    let colons := (← ahead (Ahead.mark "::")) && (← ahead (Ahead.third (Ahead.mark "<")))
    if (!inExpression && angle && !comparison) || colons then
      let _ ← optionalMark "::"
      pure { segments := [name], nodes := ← g.angleArguments, isPlain := false, endsPlain := false }
    else pure { segments := [name] }

def pathRest (g : Grammar) (inExpression : Bool) (path : PathSyntax) : Parser PathSyntax :=
  improve (fun (path : PathSyntax) => do
    if (← ahead (Ahead.mark "::")) && !(← ahead (Ahead.third (Ahead.group .parenthesis))) then
      mark "::"
      let last ← g.segment inExpression
      pure (some (path.add last))
    else pure none) path

def path (g : Grammar) (inExpression : Bool) : Parser PathSyntax := do
  let leading ← optionalMark "::"
  let first ← g.segment inExpression
  g.pathRest inExpression { first with leading }

def qualifiedPath (g : Grammar) (inExpression : Bool) : Parser PathSyntax := do
  if ← optionalMark "<" then
    let this ← g.type true
    let start ←
      if ← optionalWord "as" then g.path false else pure { segments := [] }
    mark ">"
    mark "::"
    let first ← g.segment inExpression
    let start : PathSyntax :=
      { start with nodes := this.nodes ++ start.nodes, qualified := true }
    improve (fun (path : PathSyntax) => do
      if ← optionalMark "::" then
        let last ← g.segment inExpression
        pure (some (path.add last))
      else pure none) (start.add first)
  else g.path inExpression

end NestedSpec.Source.Grammar
