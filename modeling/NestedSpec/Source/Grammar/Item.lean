import NestedSpec.Source.Grammar.Expression

/-!
# Items

Functions, types, traits, implementations, modules, imports and macro calls. Every item is a node.
Some forms are accepted but not looked into: their nodes have no children.
-/

namespace NestedSpec.Source.Grammar

open NestedSpec.Source.Parser

structure ItemSyntax where
  imported : Option Import := none
  nodes : List Node := []
  /-- A form that is accepted but not looked into. -/
  unsupported : Bool := false

def ItemSyntax.unexamined : ItemSyntax := { unsupported := true }

/-! ## Imports -/

def newName : Parser String := do
  if ← ahead (Ahead.word "_") then anyWord else identifier

/-- A `use` tree. It is nothing if a part of it begins at the root although it has a part of its
own. -/
def parseUseTree (g : Grammar) (allowRoot : Bool) : Parser (Option UseTree) := do
  if (← ahead Ahead.identifier) ||
      (← ahead (Ahead.oneOf ["self", "super", "crate", "try"])) then
    let name ← anyWord
    if ← optionalMark "::" then
      let rest ← g.useTree false
      pure (rest.map (.path name))
    else if ← optionalWord "as" then
      pure (some (.rename name (← newName)))
    else pure (some (.name name))
  else if ← optionalMark "*" then pure (some .glob)
  else if ← ahead (Ahead.group .brace) then
    let found ← group .brace <| listed do
      let fromRoot ← if allowRoot then optionalMark "::" else pure false
      let tree ← g.useTree (allowRoot && !fromRoot)
      pure (if fromRoot then none else tree)
    if found.any Option.isNone then pure none
    else pure (some (.group (found.filterMap id)))
  else fail

def useItem (g : Grammar) : Parser ItemSyntax := do
  word "use"
  let fromRoot ← optionalMark "::"
  let tree ← g.useTree (!fromRoot)
  mark ";"
  match tree with
  | none => pure .unexamined
  | some tree => pure { imported := some (.use tree) }

def externCrate : Parser ItemSyntax := do
  word "extern"
  word "crate"
  let name ← if ← ahead (Ahead.word "self") then anyWord else identifier
  let other ← if ← optionalWord "as" then some <$> newName else pure none
  mark ";"
  pure { imported := some (.externCrate name other) }

/-! ## Functions -/

def receiver (g : Grammar) : Parser (List Node × Position) := do
  let reference ← optionalMark "&"
  if reference then
    let _ ← optional Ahead.lifetime
  let _ ← optionalWord "mut"
  let place ← here
  word "self"
  let nodes ←
    if reference || !(← ahead (Ahead.mark ":")) then pure []
    else do
      mark ":"
      (·.nodes) <$> g.type true
  pure (nodes, place)

/-- A parameter of a function that is not the value that it is called on; says whether it stands for
any number of values. -/
def parameter (g : Grammar) : Parser (Bool × List Node) := do
  if (← ahead Ahead.identifier) && (← ahead (Ahead.second (Ahead.mark "<"))) then
    pure (false, (← g.type true).nodes)
  else
    let pattern ← g.pattern
    mark ":"
    if ← optionalMark "..." then pure (true, pattern.nodes)
    else pure (false, pattern.nodes ++ (← g.type true).nodes)

def parameters (g : Grammar) : Parser (List Node) := do
  let (_, _, nodes) ← improve (fun (state : Bool × Nat × List Node) => do
    let (done, count, nodes) := state
    if done || (← atEnd) then pure none
    else
      let attributes ← g.attributes
      let nodes := nodes ++ attributes.nodes
      let goOn (last : Bool) (nodes : List Node) : Parser (Option (Bool × Nat × List Node)) := do
        if ← atEnd then pure (some (true, count + 1, nodes))
        else
          mark ","
          pure (some (last, count + 1, nodes))
      if ← optionalMark "..." then goOn true nodes
      else
        match ← attempt g.receiver with
        | some (found, place) =>
          if 0 < count then failAt place else goOn false (nodes ++ found)
        | none =>
          let (last, found) ← g.parameter
          goOn last (nodes ++ found)) (false, 0, [])
  pure nodes

/-- Whether the head of a function comes next; a function of a foreign interface may be marked as
safe. -/
def headFollows (allowSafe : Bool) : Parser Bool := do
  let found ← lookAhead do
    let _ ← optionalWord "const"
    let _ ← optionalWord "async"
    if !(allowSafe && (← ahead (Ahead.word "safe"))) then
      let _ ← optionalWord "unsafe"
    else
      let _ ← take
    let _ ← foreignInterface
    ahead (Ahead.word "fn")
  pure (found = some true)

def functionHead (g : Grammar) (allowSafe : Bool) : Parser (List Node × Bool) := do
  let _ ← optionalWord "const"
  let _ ← optionalWord "async"
  let isUnsafe ← optionalWord "unsafe"
  let safe ← if allowSafe && !isUnsafe then optionalWord "safe" else pure false
  let _ ← foreignInterface
  word "fn"
  let _ ← identifier
  let generic ← g.generics
  let inputs ← group .parenthesis g.parameters
  let output ← g.returnType true
  let conditions ← g.conditions
  pure (generic.getD [] ++ conditions.getD [] ++ inputs ++ returnNodes output, safe)

/-- A function; without a body it is not looked into. -/
def functionItem (g : Grammar) : Parser ItemSyntax := do
  let (head, _) ← g.functionHead false
  if ← optionalMark ";" then pure .unexamined
  else
    let body ← g.bracedBody
    pure { nodes := body.attributes ++ head ++ body.block.nodes }

/-! ## Values -/

def initialValue (g : Grammar) : Parser (Option (List Node)) := do
  if ← optionalMark "=" then (fun e => some e.nodes) <$> g.expression true else pure none

/-- A static. Without a type or a value it is not looked into. -/
def staticItem (g : Grammar) : Parser ItemSyntax := do
  word "static"
  let _ ← optionalWord "mut"
  let _ ← identifier
  if ← optionalMark "=" then
    let _ ← g.expression true
    mark ";"
    pure .unexamined
  else
    mark ":"
    let type ← g.type true
    if ← optionalMark ";" then pure .unexamined
    else
      mark "="
      let value ← g.expression true
      mark ";"
      pure { nodes := type.nodes ++ value.nodes }

def constant (g : Grammar) : Parser (List Node × Bool × Bool) := do
  word "const"
  if (← ahead Ahead.identifier) || (← ahead (Ahead.word "_")) then
    let _ ← anyWord
  else fail
  let generic ← g.generics
  mark ":"
  let type ← g.type true
  let value ← g.initialValue
  let conditions ← g.conditions
  mark ";"
  pure (type.nodes ++ value.getD [], generic.isSome || conditions.isSome, value.isSome)

def constantItem (g : Grammar) : Parser ItemSyntax := do
  let (nodes, generic, valued) ← g.constant
  if generic || !valued then pure .unexamined else pure { nodes }

/-! ## Types -/

inductive ConditionPlace where
  | beforeDefinition
  | afterDefinition
  | anywhere
deriving DecidableEq

structure TypeItem where
  generic : List Node
  bounds : Option (List Node)
  definition : Option (List Node)

def typeItem (g : Grammar) (place : ConditionPlace) : Parser TypeItem := do
  word "type"
  let _ ← identifier
  let generic ← g.generics
  let stops := do pure ((← ahead (Ahead.word "where")) || (← atMark ["=", ";"]))
  let bounds ←
    if ← optionalMark ":" then some <$> separatedUntil stops "+" (g.bound false true) else pure none
  let before ← if place = .afterDefinition then pure none else g.conditions
  let definition ← if ← optionalMark "=" then some <$> g.type true else pure none
  let after ←
    if place = .beforeDefinition || before.isSome then pure none else g.conditions
  mark ";"
  pure {
    generic := generic.getD [] ++ before.getD [] ++ after.getD []
    bounds := bounds.map fun found => found.flatMap (·.nodes)
    definition := definition.map (·.nodes) }

/-- A type alias; without a definition, or with bounds, it is not looked into. -/
def aliasOf (type : TypeItem) : ItemSyntax :=
  match type.bounds, type.definition with
  | none, some nodes => { nodes := type.generic ++ nodes }
  | _, _ => .unexamined

def namedField (g : Grammar) : Parser (List Node) := do
  let attributes ← g.attributes
  let _ ← visibility
  let unnamed ← ahead (Ahead.word "_")
  if unnamed then
    let _ ← anyWord
  else
    let _ ← identifier
  mark ":"
  pure (attributes.nodes ++ (← g.type true).nodes)

def unnamedField (g : Grammar) : Parser (List Node) := do
  let attributes ← g.attributes
  let _ ← visibility
  pure (attributes.nodes ++ (← g.type true).nodes)

def namedFields (g : Grammar) : Parser (List Node) :=
  List.flatten <$> group .brace (listed g.namedField)

def unnamedFields (g : Grammar) : Parser (List Node) :=
  List.flatten <$> group .parenthesis (listed g.unnamedField)

def structItem (g : Grammar) : Parser ItemSyntax := do
  word "struct"
  let _ ← identifier
  let generic ← g.generics
  let before ← g.conditions
  if before.isNone && (← ahead (Ahead.group .parenthesis)) then
    let fields ← g.unnamedFields
    let after ← g.conditions
    mark ";"
    pure { nodes := generic.getD [] ++ after.getD [] ++ fields }
  else
    let head := generic.getD [] ++ before.getD []
    if ← ahead (Ahead.group .brace) then
      pure { nodes := head ++ (← g.namedFields) }
    else
      mark ";"
      pure { nodes := head }

def variant (g : Grammar) : Parser (List Node) := do
  let attributes ← g.attributes
  let _ ← visibility
  let _ ← identifier
  let fields ←
    if ← ahead (Ahead.group .brace) then g.namedFields
    else if ← ahead (Ahead.group .parenthesis) then g.unnamedFields
    else pure []
  let value ← g.initialValue
  pure (attributes.nodes ++ fields ++ value.getD [])

def enumItem (g : Grammar) : Parser ItemSyntax := do
  word "enum"
  let _ ← identifier
  let generic ← g.generics
  let conditions ← g.conditions
  let variants ← group .brace (listed g.variant)
  pure { nodes := generic.getD [] ++ conditions.getD [] ++ variants.flatten }

def unionItem (g : Grammar) : Parser ItemSyntax := do
  word "union"
  let _ ← identifier
  let generic ← g.generics
  let conditions ← g.conditions
  let fields ← g.namedFields
  pure { nodes := generic.getD [] ++ conditions.getD [] ++ fields }

/-! ## Macro calls -/

def macroMember : Parser Unit := do
  let _ ← plainPath
  if !(← macroArguments) then mark ";"

def macroItem : Parser ItemSyntax := do
  let _ ← plainPath
  mark "!"
  if ← ahead (Ahead.word "try") then
    let _ ← anyWord
  else
    let _ ← optional Ahead.identifier
  if !(← anyContents) then mark ";"
  pure {}

def macroDefinition : Parser ItemSyntax := do
  word "macro"
  let _ ← identifier
  let _ ← optional (Ahead.group .parenthesis)
  expect (Ahead.group .brace)
  pure .unexamined

def beginsMacroCall : Ahead := fun trees =>
  Ahead.identifier trees || Ahead.oneOf ["self", "super", "crate"] trees || Ahead.mark "::" trees

/-! ## Members of traits, implementations and foreign interfaces -/

def members (member : Parser (List Node)) : Parser (List Node) := do
  let found ← collect do
    if ← atEnd then pure none else some <$> member
  pure found.flatten

def traitFunction (g : Grammar) : Parser (List Node) := do
  let (head, _) ← g.functionHead false
  if ← ahead (Ahead.group .brace) then
    let body ← g.bracedBody
    pure (body.attributes ++ head ++ body.block.nodes)
  else
    mark ";"
    pure head

/-- A member of a trait. With a visibility, or marked as a default, it is not looked into. -/
def traitMember (g : Grammar) : Parser (List Node) := do
  let attributes ← g.attributes
  let visible ← visibility
  let isDefault ← optionalWord "default"
  let constantFollows := (← ahead (Ahead.word "const")) &&
    ((← ahead (Ahead.second Ahead.identifier)) || (← ahead (Ahead.second (Ahead.word "_"))))
  let found ←
    if ← headFollows false then some <$> g.traitFunction
    else if constantFollows then
      let (nodes, generic, _) ← g.constant
      pure (if generic then none else some nodes)
    else if ← ahead (Ahead.word "const") then
      word "const"
      fail
    else if ← ahead (Ahead.word "type") then
      let type ← g.typeItem .afterDefinition
      pure (some (type.generic ++ type.bounds.getD [] ++ type.definition.getD []))
    else if !visible && !isDefault && (← ahead beginsMacroCall) then
      macroMember
      pure (some [])
    else fail
  match found with
  | some nodes => pure (if visible || isDefault then [] else attributes.nodes ++ nodes)
  | none => pure []

def implMember (g : Grammar) : Parser (List Node) := do
  let attributes ← g.attributes
  let visible ← visibility
  let isDefault ←
    if (← ahead (Ahead.word "default")) && !(← ahead (Ahead.second (Ahead.mark "!"))) then
      optionalWord "default"
    else pure false
  let found ←
    if ← headFollows false then g.functionItem
    else if ← ahead (Ahead.word "const") then g.constantItem
    else if ← ahead (Ahead.word "type") then aliasOf <$> g.typeItem .afterDefinition
    else if !visible && !isDefault && (← ahead beginsMacroCall) then
      macroMember
      pure {}
    else fail
  pure (if found.unsupported then [] else attributes.nodes ++ found.nodes)

def foreignStatic (g : Grammar) : Parser ItemSyntax := do
  let isUnsafe ← optionalWord "unsafe"
  let safe ← if isUnsafe then pure false else optionalWord "safe"
  word "static"
  let _ ← optionalWord "mut"
  let _ ← identifier
  mark ":"
  let type ← g.type true
  let value ← g.initialValue
  mark ";"
  if isUnsafe || safe || value.isSome then pure .unexamined else pure { nodes := type.nodes }

def foreignFunction (g : Grammar) : Parser ItemSyntax := do
  let (head, safe) ← g.functionHead true
  if ← ahead (Ahead.group .brace) then
    let _ ← g.bracedBody
    pure .unexamined
  else
    mark ";"
    if safe then pure .unexamined else pure { nodes := head }

def foreignMember (g : Grammar) : Parser (List Node) := do
  let attributes ← g.attributes
  let visible ← visibility
  let safeStatic := (← ahead (Ahead.oneOf ["unsafe", "safe"])) &&
    (← ahead (Ahead.second (Ahead.word "static")))
  let found ←
    if ← headFollows true then g.foreignFunction
    else if safeStatic || (← ahead (Ahead.word "static")) then g.foreignStatic
    else if ← ahead (Ahead.word "type") then
      let type ← g.typeItem .anywhere
      if type.bounds.isSome || type.definition.isSome then pure .unexamined
      else pure { nodes := type.generic }
    else if !visible && (← ahead beginsMacroCall) then
      macroMember
      pure {}
    else fail
  pure (if found.unsupported then [] else attributes.nodes ++ found.nodes)

def bracedMembers (g : Grammar) (member : Parser (List Node)) :
    Parser (List Node × List Node) :=
  group .brace do
    let inner ← g.innerAttributes
    let found ← members member
    pure (inner, found)

def foreignItem (g : Grammar) : Parser ItemSyntax := do
  let _ ← optionalWord "unsafe"
  word "extern"
  let _ ← optional (Ahead.literalOf .text)
  let (inner, found) ← g.bracedMembers g.foreignMember
  pure { nodes := inner ++ found }

def traitItem (g : Grammar) : Parser ItemSyntax := do
  let isUnsafe ← optionalWord "unsafe"
  let isAuto ← optionalWord "auto"
  word "trait"
  let _ ← identifier
  let generic ← g.generics
  let plain := !isUnsafe && !isAuto
  if plain && (← ahead (Ahead.mark "=")) then
    mark "="
    let stops := do pure ((← ahead (Ahead.word "where")) || (← ahead (Ahead.mark ";")))
    let bounds ← separatedUntil stops "+" (g.bound false true)
    let conditions ← g.conditions
    mark ";"
    pure { nodes := generic.getD [] ++ conditions.getD [] ++ bounds.flatMap (·.nodes) }
  else
    let stops := do pure ((← ahead (Ahead.word "where")) || (← ahead (Ahead.group .brace)))
    let bounds ←
      if ← optionalMark ":" then separatedUntil stops "+" (g.bound false true) else pure []
    let conditions ← g.conditions
    let (inner, found) ← g.bracedMembers g.traitMember
    pure {
      nodes := inner ++ generic.getD [] ++ conditions.getD [] ++ bounds.flatMap (·.nodes) ++ found }

/-- Whether the parameters of an implementation begin here, and not a type in angle brackets. -/
def beginsGenerics : Ahead := fun trees =>
  let second (test : Ahead) : Bool := Ahead.second test trees
  let third (test : Ahead) : Bool := Ahead.third test trees
  Ahead.mark "<" trees &&
    (second (Ahead.mark ">") || second (Ahead.mark "#") || second (Ahead.word "const") ||
      ((second Ahead.lifetime || second Ahead.identifier) &&
        ((third (Ahead.mark ":") && !third (Ahead.mark "::")) || third (Ahead.mark ",") ||
          third (Ahead.mark ">") || third (Ahead.mark "="))))

/-- An implementation; with a visibility, for a constant trait, or of something that is no trait's
name it is not looked into. -/
def implItem (g : Grammar) (visible : Bool) : Parser ItemSyntax := do
  let _ ← optionalWord "default"
  let _ ← optionalWord "unsafe"
  word "impl"
  let generic ← if ← ahead beginsGenerics then g.generics else pure none
  let constantFollows := (← ahead (Ahead.word "const")) ||
    ((← ahead (Ahead.mark "?")) && (← ahead (Ahead.second (Ahead.word "const"))))
  if constantFollows then
    let _ ← optionalMark "?"
    word "const"
  let place ← here
  let negative ←
    if ← ahead (Ahead.second (Ahead.group .brace)) then pure false else optionalMark "!"
  let first ← g.type true
  let forType ← if ← optionalWord "for" then some <$> g.type true else pure none
  if forType.isNone && negative then failAt place
  let conditions ← g.conditions
  let (inner, found) ← g.bracedMembers g.implMember
  let types := first.nodes ++ (forType.map (·.nodes)).getD []
  if visible || constantFollows || (forType.isSome && !first.isPath) then pure .unexamined
  else pure { nodes := inner ++ generic.getD [] ++ conditions.getD [] ++ types ++ found }

def moduleItem (g : Grammar) : Parser ItemSyntax := do
  let _ ← optionalWord "unsafe"
  word "mod"
  if ← ahead (Ahead.word "try") then
    let _ ← anyWord
  else
    let _ ← identifier
  if ← ahead (Ahead.group .brace) then
    let (inner, found) ← g.bracedMembers ((fun node => [node]) <$> g.item)
    pure { nodes := inner ++ found }
  else
    mark ";"
    pure {}

/-! ## All items -/

def externItem (g : Grammar) : Parser ItemSyntax := do
  let text ← ahead (Ahead.second (Ahead.literalOf .text))
  if ← ahead (Ahead.second (Ahead.word "crate")) then externCrate
  else if text || (← ahead (Ahead.second (Ahead.group .brace))) then g.foreignItem
  else
    word "extern"
    fail

def unsafeItem (g : Grammar) (visible : Bool) : Parser ItemSyntax := do
  let autoTrait := (← ahead (Ahead.second (Ahead.word "auto"))) &&
    (← ahead (Ahead.third (Ahead.word "trait")))
  if autoTrait || (← ahead (Ahead.second (Ahead.word "trait"))) then g.traitItem
  else if ← ahead (Ahead.second (Ahead.word "impl")) then g.implItem visible
  else if ← ahead (Ahead.second (Ahead.word "extern")) then g.foreignItem
  else if ← ahead (Ahead.second (Ahead.word "mod")) then g.moduleItem
  else
    word "unsafe"
    fail

def itemBody (g : Grammar) (visible : Bool) : Parser ItemSyntax := do
  let defaultImpl := (← ahead (Ahead.word "default")) &&
    !(← ahead (Ahead.second (Ahead.mark "!")))
  let autoTrait := (← ahead (Ahead.word "auto")) && (← ahead (Ahead.second (Ahead.word "trait")))
  if ← headFollows false then g.functionItem
  else if ← ahead (Ahead.word "extern") then g.externItem
  else if ← ahead (Ahead.word "use") then g.useItem
  else if ← ahead (Ahead.word "static") then g.staticItem
  else if ← ahead (Ahead.word "const") then g.constantItem
  else if ← ahead (Ahead.word "unsafe") then g.unsafeItem visible
  else if ← ahead (Ahead.word "mod") then g.moduleItem
  else if ← ahead (Ahead.word "type") then aliasOf <$> g.typeItem .beforeDefinition
  else if ← ahead (Ahead.word "struct") then g.structItem
  else if ← ahead (Ahead.word "enum") then g.enumItem
  else if (← ahead (Ahead.word "union")) && (← ahead (Ahead.second Ahead.identifier)) then
    g.unionItem
  else if autoTrait || (← ahead (Ahead.word "trait")) then g.traitItem
  else if defaultImpl || (← ahead (Ahead.word "impl")) then g.implItem visible
  else if ← ahead (Ahead.word "macro") then macroDefinition
  else if !visible && (← ahead beginsMacroCall) then macroItem
  else fail

def itemAfter (g : Grammar) (start : Nat) (attributes : Attributes) : Parser Node := do
  let visible ← visibility
  let found ← g.itemBody visible
  let children := if found.unsupported then [] else attributes.nodes ++ found.nodes
  pure (.node (.item found.imported) start (← lastLine) children)

def parseItem (g : Grammar) : Parser Node := do
  let start ← line
  let attributes ← g.attributes
  g.itemAfter start attributes

end NestedSpec.Source.Grammar
