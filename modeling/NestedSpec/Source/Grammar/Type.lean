import NestedSpec.Source.Grammar.Bound

/-!
# Types

References, pointers, tuples, arrays, functions, bounds, macros, and above all paths.
-/

namespace NestedSpec.Source.Grammar

open NestedSpec.Source.Parser

def unnamed (nodes : List Node) : TypeSyntax := { nodes }

def moreBounds (g : Grammar) : Parser (List Node) := do
  let found ← collect do
    if ← optionalMark "+" then some <$> g.bound false false else pure none
  pure (found.flatMap (·.nodes))

def beginsBound : Parser Bool := do
  pure ((← ahead Ahead.anyWord) || (← atMark ["::", "?"]) || (← ahead Ahead.lifetime) ||
    (← ahead (Ahead.group .parenthesis)))

def boundsType (g : Grammar) (place : Position) (allowPlus allowCapture allowConstant : Bool) :
    Parser TypeSyntax := do
  let found ← g.bounds allowPlus allowCapture allowConstant
  if found.any fun b => b.form = .trait || b.form = .unsupported then
    pure (unnamed (found.flatMap (·.nodes)))
  else failAt place

def parenthesisedType (g : Grammar) (allowPlus : Bool) : Parser TypeSyntax := do
  let (complete, first) ← group .parenthesis do
    if ← atEnd then pure (true, {})
    else if ← ahead Ahead.lifetime then
      let bounds ← g.boundsType (← here) true false false
      pure (true, { bounds with isParenthesised := true })
    else if ← ahead (Ahead.mark "?") then
      let first ← g.traitBound false
      pure (false, unnamed first.nodes)
    else
      let first ← g.type true
      if ← optionalMark "," then
        let others ← listed (g.type true)
        pure (true, unnamed (first.nodes ++ others.flatMap (·.nodes)))
      else
        pure (true,
          { first with
            isPath := false, isSingleName := false, isParenthesised := true,
            name := .behind first.name })
  if !complete then
    pure (unnamed (first.nodes ++ (← g.moreBounds)))
  else if first.isParenthesised && first.isBound && allowPlus && (← ahead (Ahead.mark "+")) then
    pure (unnamed (first.nodes ++ (← g.moreBounds)))
  else pure { first with isBound := false }

def functionTypeParameter (g : Grammar) (first : Bool) : Parser (List Node) := do
  let selfFollows := (← ahead (Ahead.word "mut")) && (← ahead (Ahead.second (Ahead.word "self")))
  let mutableSelf := first && selfFollows
  if mutableSelf then word "mut"
  let named := (← ahead Ahead.identifier) || (← ahead (Ahead.word "_")) ||
    (first && (← ahead (Ahead.word "self")))
  let colon := (← ahead (Ahead.second (Ahead.mark ":"))) &&
    !(← ahead (Ahead.second (Ahead.mark "::")))
  if named && colon then
    let _ ← anyWord
    mark ":"
    pure (← g.type true).nodes
  else if mutableSelf then
    word "self"
    pure []
  else pure (← g.type true).nodes

def functionTypeParameters (g : Grammar) : Parser (List Node) := do
  let (_, _, nodes) ← improve (fun (state : Bool × Bool × List Node) => do
    let (done, first, nodes) := state
    if done || (← atEnd) then pure none
    else
      let attributes ← g.attributes
      let named := ((← ahead Ahead.identifier) || (← ahead (Ahead.word "_"))) &&
        (← ahead (Ahead.second (Ahead.mark ":"))) && (← ahead (Ahead.third (Ahead.mark "...")))
      if named || (← ahead (Ahead.mark "...")) then
        if named then
          let _ ← anyWord
          mark ":"
        mark "..."
        let _ ← optionalMark ","
        pure (some (true, false, nodes ++ attributes.nodes))
      else
        let nodes := nodes ++ attributes.nodes ++ (← g.functionTypeParameter first)
        if ← atEnd then pure (some (true, false, nodes))
        else
          mark ","
          pure (some (false, false, nodes))) (false, true, [])
  pure nodes

def functionType (g : Grammar) : Parser TypeSyntax := do
  let lifetimes ← g.boundLifetimes
  let _ ← optionalWord "unsafe"
  let _ ← foreignInterface
  word "fn"
  let inputs ← group .parenthesis g.functionTypeParameters
  let output ← g.returnType false
  pure (unnamed (lifetimes.getD [] ++ inputs ++ returnNodes output))

/-- Further arguments in parentheses after a path, which may go on after them. -/
def callablePath (g : Grammar) (path : PathSyntax) : Parser PathSyntax :=
  improve (fun (path : PathSyntax) => do
    if path.endsPlain && (← parenthesesFollow) then
      let _ ← optionalMark "::"
      let (nodes, output) ← g.parenthesisedArguments
      let path : PathSyntax :=
        { path with
          nodes := path.nodes ++ nodes, isPlain := false, endsPlain := false,
          endsParenthesised := true }
      let goesOn := match output with
        | none => true
        | some type => type.isParenthesised
      if goesOn then some <$> g.pathRest false path else pure (some path)
    else pure none) path

def pathType (g : Grammar) (lifetimes : Option (List Node)) (allowPlus : Bool) :
    Parser TypeSyntax := do
  let path ← g.callablePath (← g.qualifiedPath false)
  if path.qualified then pure (unnamed path.nodes)
  else if (← ahead (Ahead.mark "!")) && !(← ahead (Ahead.mark "!=")) && path.isPlain then
    let _ ← macroArguments
    pure {}
  else if lifetimes.isSome || (allowPlus && (← ahead (Ahead.mark "+"))) then
    let start := lifetimes.getD [] ++ path.nodes
    let (_, count, nodes) ← improve (fun (state : Bool × Nat × List Node) => do
      if !state.1 then pure none
      else if ← optionalMark "+" then
        if ← beginsBound then
          let next ← g.bound false false
          pure (some (true, state.2.1 + 1, state.2.2 ++ next.nodes))
        else pure (some (false, state.2.1 + 1, state.2.2))
      else pure none) (allowPlus, 1, start)
    pure { nodes, isBound := count = 1 }
  else
    pure {
      name := .path path.segments
      nodes := path.nodes
      isPath := true
      isSingleName := !path.leading && path.segments.length = 1 && !path.endsParenthesised
      isBound := true }

def bracketType (g : Grammar) : Parser TypeSyntax := group .bracket do
  let member ← g.type true
  if ← optionalMark ";" then
    let size ← g.expression true
    pure (unnamed (member.nodes ++ size.nodes))
  else pure (unnamed member.nodes)

def parseType (g : Grammar) (allowPlus : Bool) : Parser TypeSyntax := do
  let lifetimes ← g.boundLifetimes
  let afterLifetimes := (← ahead Ahead.identifier) ||
    (← ahead (Ahead.oneOf ["fn", "unsafe", "extern", "super", "self", "Self", "crate"]))
  if lifetimes.isSome && !afterLifetimes then fail
  let place ← here
  if ← ahead (Ahead.group .parenthesis) then g.parenthesisedType allowPlus
  else if ← ahead (Ahead.oneOf ["fn", "unsafe", "extern"]) then
    let type ← g.functionType
    pure { type with nodes := lifetimes.getD [] ++ type.nodes }
  else if (← ahead Ahead.pathWord) || (← atMark ["::", "<"]) then g.pathType lifetimes allowPlus
  else if ← optionalWord "dyn" then
    if ← optionalMark "*" then
      let _ ← g.boundsType place allowPlus false false
      pure {}
    else g.boundsType place allowPlus false false
  else if ← ahead (Ahead.group .bracket) then g.bracketType
  else if ← optionalMark "*" then
    if !(← optionalWord "const") then word "mut"
    pure (unnamed (← g.type false).nodes)
  else if ← optionalMark "&" then
    let _ ← optional Ahead.lifetime
    let _ ← optionalWord "mut"
    let inner ← g.type false
    pure { name := .behind inner.name, nodes := inner.nodes }
  else if ← optionalMark "!" then pure {}
  else if ← optionalWord "impl" then g.boundsType place allowPlus true true
  else if ← optionalWord "_" then pure {}
  else if ← ahead Ahead.lifetime then g.boundsType place true false false
  else fail

end NestedSpec.Source.Grammar
