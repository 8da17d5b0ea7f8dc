import NestedSpec.Source.Grammar.Type

/-!
# Patterns
-/

namespace NestedSpec.Source.Grammar

open NestedSpec.Source.Parser

def rangeBound (g : Grammar) : Parser (Option (List Node)) := do
  let colon := (← ahead (Ahead.mark ":")) && !(← ahead (Ahead.mark "::"))
  if (← atEnd) || (← atMark ["|", "=", ",", ";"]) || colon || (← ahead (Ahead.word "if")) then
    pure none
  else if ← ahead Ahead.literal then
    literal
    pure (some [])
  else if (← ahead Ahead.pathWord) || (← atMark ["::", "<"]) then
    (fun path => some path.nodes) <$> g.qualifiedPath true
  else if ← optionalWord "const" then
    let body ← g.bracedBody
    pure (some (body.attributes ++ body.block.nodes))
  else fail

def rangeLimits (allowThreeDots : Bool) : Parser Bool := do
  if ← optionalMark "..=" then pure true
  else if ← ahead (Ahead.mark "...") then
    if allowThreeDots then
      mark "..."
      pure true
    else fail
  else
    mark ".."
    pure false

def rangeEnd (g : Grammar) (closed : Bool) : Parser (Option (List Node)) := do
  let last ← g.rangeBound
  if closed && last.isNone then fail else pure last

def rangeAfter (g : Grammar) (first : List Node) : Parser PatternSyntax := do
  let dots ← here
  let last ← g.rangeEnd (← rangeLimits true)
  pure { nodes := first ++ last.getD [], openRange := if last.isNone then some dots else none }

def alternatives (g : Grammar) : Parser PatternSyntax := do
  let bar ← optionalMark "|"
  let first ← g.pattern
  let others ← collect do
    if (← ahead (Ahead.mark "|")) && !(← atMark ["||", "|="]) then
      mark "|"
      some <$> g.pattern
    else pure none
  if bar || !others.isEmpty then pure { nodes := first.nodes ++ others.flatMap (·.nodes) }
  else pure first

def fieldPattern (g : Grammar) : Parser (List Node) := do
  let boxed ← optionalWord "box"
  let byReference ← optionalWord "ref"
  let mutable ← optionalWord "mut"
  if boxed || byReference || mutable then
    let _ ← identifier
    pure []
  else if ← ahead (Ahead.literalOf .integer) then
    literal
    mark ":"
    (·.nodes) <$> g.alternatives
  else
    let _ ← identifier
    if ← optionalMark ":" then (·.nodes) <$> g.alternatives else pure []

def fieldPatterns (g : Grammar) : Parser (List Node) := do
  let (_, nodes) ← improve (fun (state : Bool × List Node) => do
    if state.1 || (← atEnd) then pure none
    else
      let attributes ← g.attributes
      if ← optionalMark ".." then pure (some (true, state.2 ++ attributes.nodes))
      else
        let nodes := state.2 ++ attributes.nodes ++ (← g.fieldPattern)
        if ← atEnd then pure (some (true, nodes))
        else
          mark ","
          pure (some (false, nodes))) (false, [])
  pure nodes

def pathPattern (g : Grammar) : Parser PatternSyntax := do
  let path ← g.qualifiedPath true
  let bang := (← ahead (Ahead.mark "!")) && !(← ahead (Ahead.mark "!="))
  if !path.qualified && path.isPlain && bang then
    let _ ← macroArguments
    pure {}
  else if ← ahead (Ahead.group .brace) then
    pure { nodes := path.nodes ++ (← group .brace g.fieldPatterns) }
  else if ← ahead (Ahead.group .parenthesis) then
    let members ← group .parenthesis (listed g.alternatives)
    pure { nodes := path.nodes ++ members.flatMap (·.nodes) }
  else if ← ahead (Ahead.mark "..") then g.rangeAfter path.nodes
  else pure { nodes := path.nodes }

def namePattern (g : Grammar) : Parser PatternSyntax := do
  let _ ← optionalWord "ref"
  let _ ← optionalWord "mut"
  if ← ahead (Ahead.word "self") then
    let _ ← anyWord
  else
    let _ ← identifier
  if ← optionalMark "@" then
    pure { nodes := (← g.pattern).nodes }
  else pure {}

def tuplePattern (g : Grammar) : Parser PatternSyntax := do
  let members ← group .parenthesis (listed g.alternatives)
  pure { nodes := members.flatMap (·.nodes) }

def slicePattern (g : Grammar) : Parser PatternSyntax := do
  let members ← group .bracket <| listed do
    let member ← g.alternatives
    match member.openRange with
    | some dots => failAt dots
    | none => pure member
  pure { nodes := members.flatMap (·.nodes) }

def beginsPathPattern : Ahead := fun trees =>
  (Ahead.identifier trees &&
    (Ahead.second (Ahead.mark "::") trees || Ahead.second (Ahead.mark "!") trees ||
      Ahead.second (Ahead.group .brace) trees || Ahead.second (Ahead.group .parenthesis) trees ||
      Ahead.second (Ahead.mark "..") trees)) ||
    (Ahead.word "self" trees && Ahead.second (Ahead.mark "::") trees) ||
    Ahead.mark "::" trees || Ahead.mark "<" trees ||
    Ahead.oneOf ["Self", "super", "crate"] trees

def parsePattern (g : Grammar) : Parser PatternSyntax := do
  if ← ahead beginsPathPattern then g.pathPattern
  else if ← optionalWord "_" then pure {}
  else if ← optionalWord "box" then
    let _ ← g.pattern
    pure {}
  else if (← ahead (Ahead.mark "-")) || (← ahead Ahead.literal) || (← ahead (Ahead.word "const")) then
    match ← g.rangeBound with
    | none => fail
    | some first => if ← ahead (Ahead.mark "..") then g.rangeAfter first else pure { nodes := first }
  else if (← ahead (Ahead.oneOf ["ref", "mut", "self"])) || (← ahead Ahead.identifier) then
    g.namePattern
  else if ← optionalMark "&" then
    let _ ← optionalWord "mut"
    pure { nodes := (← g.pattern).nodes }
  else if ← ahead (Ahead.group .parenthesis) then g.tuplePattern
  else if ← ahead (Ahead.group .bracket) then g.slicePattern
  else if (← ahead (Ahead.mark "..")) && !(← ahead (Ahead.mark "...")) then
    let dots ← here
    let last ← g.rangeEnd (← rangeLimits false)
    pure { nodes := last.getD [], openRange := if last.isSome then some dots else none }
  else fail

end NestedSpec.Source.Grammar
