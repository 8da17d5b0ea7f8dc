import NestedSpec.Source.Grammar.Path

/-!
# Bounds and generic parameters

What types and lifetimes have to obey, and the parameters of generic items with the conditions on
them.
-/

namespace NestedSpec.Source.Grammar

open NestedSpec.Source.Parser

def atMark (texts : List String) : Parser Bool := do
  let trees := (← get).rest
  pure (texts.any fun text => Ahead.mark text trees)

def atParameterEnd : Parser Bool := do
  pure ((← atEnd) || (← atMark [",", ">", "="]))

def atConditionEnd : Parser Bool := do
  let colon := (← ahead (Ahead.mark ":")) && !(← ahead (Ahead.mark "::"))
  pure ((← atEnd) || (← ahead (Ahead.group .brace)) || (← atMark [",", ";", "="]) || colon)

def lifetimeParameter : Parser (List Node) := do
  lifetime
  if ← optionalMark ":" then
    let stops := do pure ((← atEnd) || (← atMark [",", ">"]))
    let _ ← joined stops "+" lifetime
  pure []

def typeParameter (g : Grammar) : Parser (List Node) := do
  let _ ← identifier
  let bounds ← if ← optionalMark ":" then joined atParameterEnd "+" (g.bound false true) else pure []
  let other ← if ← optionalMark "=" then (·.nodes) <$> g.type true else pure []
  pure (bounds.flatMap (·.nodes) ++ other)

def constantParameter (g : Grammar) : Parser (List Node) := do
  word "const"
  let _ ← identifier
  mark ":"
  let type ← g.type true
  let other ← if ← optionalMark "=" then g.constantArgument else pure []
  pure (type.nodes ++ other)

/-- A generic parameter. Only in a list of an item's parameters may it be an underscore. -/
def genericParameter (g : Grammar) (allowUnderscore : Bool) : Parser (List Node) := do
  let attributes ← g.attributes
  let nodes ←
    if ← ahead Ahead.lifetime then lifetimeParameter
    else if ← ahead Ahead.identifier then g.typeParameter
    else if ← ahead (Ahead.word "const") then g.constantParameter
    else if allowUnderscore then
      word "_"
      pure []
    else fail
  pure (attributes.nodes ++ nodes)

def boundLifetimes (g : Grammar) : Parser (Option (List Node)) := do
  if ← optionalWord "for" then
    mark "<"
    let nodes ← separatedUntil (ahead (Ahead.mark ">")) "," (g.genericParameter false)
    mark ">"
    pure (some nodes.flatten)
  else pure none

def constantMark : Parser (Option Position) := do
  let place ← here
  if ← ahead (Ahead.group .bracket) then
    group .bracket (word "const")
    pure (some place)
  else if (← ahead (Ahead.mark "~")) && (← ahead (Ahead.second (Ahead.word "const"))) then
    mark "~"
    word "const"
    pure (some place)
  else if ← optionalWord "const" then pure (some place)
  else pure none

def traitBound (g : Grammar) (allowConstant : Bool) : Parser BoundSyntax := do
  let lifetimes ← g.boundLifetimes
  let constant ← constantMark
  if let some place := constant then
    if !allowConstant then failAt place
  let place ← here
  let relaxed ← optionalMark "?"
  let lifetimes ← if lifetimes.isNone && relaxed then g.boundLifetimes else pure lifetimes
  let path ← g.path false
  let inputs ←
    if path.endsPlain && (← parenthesesFollow) then
      let _ ← optionalMark "::"
      (·.1) <$> g.parenthesisedArguments
    else pure []
  if lifetimes.isSome && relaxed then failAt place
  if constant.isSome then pure { form := .unsupported }
  else pure { form := .trait, nodes := lifetimes.getD [] ++ path.nodes ++ inputs }

def captures : Parser Unit := do
  word "use"
  mark "<"
  let _ ← separatedUntil (ahead (Ahead.mark ">")) "," do
    if ← ahead Ahead.lifetime then lifetime
    else if ← ahead (Ahead.word "Self") then
      let _ ← anyWord
    else
      let _ ← identifier
  mark ">"

def parseBound (g : Grammar) (allowCapture allowConstant : Bool) : Parser BoundSyntax := do
  if ← ahead Ahead.lifetime then
    lifetime
    pure { form := .lifetime }
  else if ← ahead (Ahead.word "use") then
    let place ← here
    captures
    if allowCapture then pure { form := .capture } else failAt place
  else if ← ahead (Ahead.group .parenthesis) then
    group .parenthesis (g.traitBound allowConstant)
  else g.traitBound allowConstant

def bounds (g : Grammar) (allowPlus allowCapture allowConstant : Bool) :
    Parser (List BoundSyntax) := do
  let first ← g.bound allowCapture allowConstant
  let (_, found) ← improve (fun (state : Bool × List BoundSyntax) => do
    if !state.1 then pure none
    else if ← optionalMark "+" then
      let more := (← ahead Ahead.anyWord) || (← atMark ["::", "?"]) || (← ahead Ahead.lifetime) ||
        (← ahead (Ahead.group .parenthesis)) ||
        (allowConstant && (← ahead (Ahead.group .bracket)))
      if more then
        let next ← g.bound allowCapture allowConstant
        pure (some (true, next :: state.2))
      else pure (some (false, state.2))
    else pure none) (allowPlus, [first])
  pure found.reverse

def condition (g : Grammar) : Parser (List Node) := do
  if (← ahead Ahead.lifetime) && (← ahead (Ahead.second (Ahead.mark ":"))) then
    lifetime
    mark ":"
    let stops := do
      pure ((← atEnd) || (← ahead (Ahead.group .brace)) || (← atMark [",", ";", ":", "="]))
    let _ ← joined stops "+" lifetime
    pure []
  else
    let lifetimes ← g.boundLifetimes
    let type ← g.type true
    mark ":"
    let bounds ← joined atConditionEnd "+" (g.bound false true)
    pure (lifetimes.getD [] ++ type.nodes ++ bounds.flatMap (·.nodes))

def conditions (g : Grammar) : Parser (Option (List Node)) := do
  if ← optionalWord "where" then
    let found ← joined atConditionEnd "," g.condition
    pure (some found.flatten)
  else pure none

def generics (g : Grammar) : Parser (Option (List Node)) := do
  if ← optionalMark "<" then
    let nodes ← separatedUntil (ahead (Ahead.mark ">")) "," (g.genericParameter true)
    mark ">"
    pure (some nodes.flatten)
  else pure none

end NestedSpec.Source.Grammar
