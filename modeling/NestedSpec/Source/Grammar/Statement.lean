import NestedSpec.Source.Grammar.Item

/-!
# Statements

A statement is a definition of names by a pattern, an item, a macro call or an expression. A lone
semicolon counts as a statement.
-/

namespace NestedSpec.Source.Grammar

open NestedSpec.Source.Parser

structure StatementSyntax where
  nodes : List Node
  /-- Another statement cannot follow without a semicolon. -/
  isOpen : Bool := false

def definition (g : Grammar) : Parser (List Node) := do
  word "let"
  let pattern ← g.pattern
  let type ← if ← optionalMark ":" then (·.nodes) <$> g.type true else pure []
  let value ←
    if ← optionalMark "=" then
      let value ← g.expression true
      let braced := (← get).afterBrace
      if !braced && (← ahead (Ahead.word "else")) then
        word "else"
        pure (value.nodes ++ (← g.block).nodes)
      else pure value.nodes
    else pure []
  mark ";"
  pure (pattern.nodes ++ type ++ value)

def beginsItem : Ahead := fun trees =>
  let word (text : String) : Bool := Ahead.word text trees
  let second (test : Ahead) : Bool := Ahead.second test trees
  let third (test : Ahead) : Bool := Ahead.third test trees
  Ahead.oneOf ["pub", "extern", "use", "fn", "mod", "type", "struct", "enum", "trait", "impl",
      "macro"] trees ||
    (word "crate" && !second (Ahead.mark "::")) ||
    (word "static" &&
      (second (Ahead.word "mut") ||
        (second Ahead.identifier))) ||
    (word "const" &&
      !(second (Ahead.group .brace) || second (Ahead.word "static") ||
        (second (Ahead.word "async") && !third (Ahead.oneOf ["unsafe", "extern", "fn"])) ||
        second (Ahead.word "move") || second (Ahead.mark "|"))) ||
    (word "unsafe" && !second (Ahead.group .brace)) ||
    (word "async" && second (Ahead.oneOf ["unsafe", "extern", "fn"])) ||
    (word "union" && second Ahead.identifier) ||
    (word "auto" && second (Ahead.word "trait")) ||
    (word "default" && second (Ahead.oneOf ["unsafe", "impl"]))

inductive MacroStatement where
  /-- It names what it defines. -/
  | item
  | braced
deriving DecidableEq

def macroStatement : Parser (Option MacroStatement) := do
  let found ← lookAhead do
    let _ ← plainPath
    if ← ahead (Ahead.mark "!") then
      let dot := (← ahead (Ahead.third (Ahead.mark "."))) &&
        !(← ahead (Ahead.third (Ahead.mark "..")))
      let named := (← ahead (Ahead.second Ahead.identifier)) ||
        (← ahead (Ahead.second (Ahead.word "try")))
      let goesOn := dot || (← ahead (Ahead.third (Ahead.mark "?")))
      if named then pure (some MacroStatement.item)
      else if (← ahead (Ahead.second (Ahead.group .brace))) && !goesOn then
        pure (some MacroStatement.braced)
      else pure none
    else pure none
  pure (found.getD none)

/-- An expression as a statement. A macro call in braces, or with a semicolon, is a statement of its
own. -/
def expressionStatement (g : Grammar) (attributes : Attributes) : Parser StatementSyntax := do
  let e ← g.early
  let e := e.withAttributes attributes
  let closed ← optionalMark ";"
  pure { nodes := e.nodes, isOpen := !closed && e.needsSemicolon }

def statement (g : Grammar) : Parser StatementSyntax := do
  let start ← line
  let attributes ← g.attributes
  let macroCall ← macroStatement
  if macroCall = some .braced then
    let _ ← plainPath
    let _ ← macroArguments
    let _ ← optionalMark ";"
    pure { nodes := attributes.nodes }
  else if ← ahead (Ahead.word "let") then
    pure { nodes := attributes.nodes ++ (← g.definition) }
  else if (← ahead beginsItem) || macroCall = some .item then
    pure { nodes := [← g.itemAfter start attributes] }
  else g.expressionStatement attributes

def parseStatements (g : Grammar) : Parser Block := do
  let (_, block) ← improve (fun (state : Bool × Block) => do
    let (done, block) := state
    if done then pure none
    else if ← optionalMark ";" then
      pure (some (false, { block with statements := block.statements + 1 }))
    else if ← atEnd then pure none
    else
      let next ← g.statement
      let block : Block := ⟨block.statements + 1, block.nodes ++ next.nodes⟩
      if ← atEnd then pure (some (true, block))
      else if next.isOpen then fail
      else pure (some (false, block))) (false, ⟨0, []⟩)
  pure block

end NestedSpec.Source.Grammar
