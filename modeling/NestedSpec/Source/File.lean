import NestedSpec.Source.Grammar.Item
import NestedSpec.Source.Grammar.Statement
import NestedSpec.Source.Lexer

/-!
# Whole texts

The parsers of the grammar call each other to a depth that the number of tokens bounds. Here they
are tied together up to a depth, and whole texts are read: the outline of a source, and the name of
a type that is given as a text.
-/

namespace NestedSpec.Source

namespace Grammar

/-- The grammar with calls up to a depth; deeper calls fail. -/
def within : Nat → Grammar
  | 0 => {
      useTree := fun _ => Parser.fail
      type := fun _ => Parser.fail
      bound := fun _ _ => Parser.fail
      pattern := Parser.fail
      expression := fun _ => Parser.fail
      operand := fun _ => Parser.fail
      operators := fun _ _ _ => Parser.fail
      early := Parser.fail
      statements := Parser.fail
      item := Parser.fail }
  | depth + 1 => {
      useTree := fun allowRoot => (within depth).parseUseTree allowRoot
      type := fun allowPlus => (within depth).parseType allowPlus
      bound := fun allowCapture allowConstant =>
        (within depth).parseBound allowCapture allowConstant
      pattern := fun cursor => (within depth).parsePattern cursor
      expression := fun allowStruct => (within depth).parseExpression allowStruct
      operand := fun allowStruct => (within depth).parseOperand allowStruct
      operators := fun allowStruct base left =>
        (within depth).parseOperators allowStruct base left
      early := fun cursor => (within depth).parseEarly cursor
      statements := fun cursor => (within depth).parseStatements cursor
      item := fun cursor => (within depth).parseItem cursor }

/-- A grammar that is deep enough for some trees: between two tokens there are fewer than sixteen
calls. -/
def forTrees (trees : List Tree) : Grammar := within (16 * Tree.sizeAll trees + 64)

def fileNodes (g : Grammar) : Parser (List Node) := do
  let inner ← g.innerAttributes
  let items ← Parser.collect do
    if ← Parser.atEnd then pure none else some <$> g.item
  pure (inner ++ items)

end Grammar

def parseAll {α : Type} (parser : Parser α) (trees : List Tree) : Except Position α := do
  let (value, ended) ← parser { rest := trees, scope := Position.start, last := Position.start }
  match ended.leftover.or (ended.rest.head?.map Tree.start) with
  | some fault => throw fault
  | none => pure value

/-- The outline of a source, or the place of the first fault. -/
def outline (text : String) : Except Position (List Node) := do
  let trees ← Lexer.trees (Lexer.withoutHeader text.toList)
  parseAll (Grammar.forTrees trees).fileNodes trees

def typeName? (text : String) : Option TypeName :=
  match Lexer.trees text.toList with
  | .error _ => none
  | .ok trees => (parseAll ((Grammar.forTrees trees).type true) trees).toOption.map (·.name)

end NestedSpec.Source
