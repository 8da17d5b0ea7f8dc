import NestedSpec.Source.Outline
import NestedSpec.Source.Parser

/-!
# The grammar

What the parsers of the grammar give, and the parsers that the others call again. A parser of a part
takes these as a `Grammar`, so each part of the grammar stands in a module of its own. The knot is
tied where the depth of the calls is bounded by the length of the source.
-/

namespace NestedSpec.Source

structure Attributes where
  line : Option Nat := none
  nodes : List Node := []

structure TypeSyntax where
  name : TypeName := .other
  nodes : List Node := []
  /-- A path without a type in front of it. -/
  isPath : Bool := false
  /-- A single name, which may be that of an associated type or constant. -/
  isSingleName : Bool := false
  /-- What can stand for one bound. -/
  isBound : Bool := false
  isParenthesised : Bool := false

structure PathSyntax where
  segments : List String
  nodes : List Node := []
  leading : Bool := false
  /-- A type stands in front of it. -/
  qualified : Bool := false
  /-- No segment has arguments. -/
  isPlain : Bool := true
  /-- The last segment has no arguments. -/
  endsPlain : Bool := true
  /-- The last segment has arguments in parentheses. -/
  endsParenthesised : Bool := false

inductive BoundForm where
  | trait
  | lifetime
  | capture
  /-- A form that is accepted but not looked into. -/
  | unsupported
deriving Repr, DecidableEq

structure BoundSyntax where
  form : BoundForm
  nodes : List Node := []

structure PatternSyntax where
  nodes : List Node := []
  openRange : Option Position := none

inductive ExpressionForm where
  | path (name : String)
  | block (statements : Nat)
  | control
  | macroCall (braced : Bool)
  | range
  | comparison
  | closure
  /-- A form that is accepted but not looked into. -/
  | unsupported
  | other
deriving Repr, DecidableEq

structure Expression where
  form : ExpressionForm := .other
  nodes : List Node := []
  /-- The operand at the left is itself the first node. -/
  leads : Bool := false

structure Block where
  statements : Nat
  nodes : List Node

structure BracedBody where
  attributes : List Node
  block : Block

/-- The parsers that other parsers call again. -/
structure Grammar where
  /-- A `use` tree; it is nothing if one of its parts begins at the root. The flag says whether a
  part may do so. -/
  useTree : Bool → Parser (Option UseTree)
  type : Bool → Parser TypeSyntax
  /-- A bound; the flags say whether it may capture lifetimes and whether it may be constant. -/
  bound : Bool → Bool → Parser BoundSyntax
  pattern : Parser PatternSyntax
  /-- An expression; the flag says whether it may be a structure's name with fields in braces. -/
  expression : Bool → Parser Expression
  operand : Bool → Parser Expression
  /-- The binary operators after an operand that bind at least as strongly as a given one. -/
  operators : Bool → Nat → Expression → Parser Expression
  early : Parser Expression
  statements : Parser Block
  item : Parser Node

namespace PathSyntax

def add (path last : PathSyntax) : PathSyntax :=
  { path with
    segments := path.segments ++ last.segments
    nodes := path.nodes ++ last.nodes
    isPlain := path.isPlain && last.isPlain
    endsPlain := last.endsPlain
    endsParenthesised := last.endsParenthesised }

end PathSyntax

namespace Expression

/-- Puts attributes in front of an expression. They belong to the operand at its left. -/
def withAttributes (attributes : Attributes) (e : Expression) : Expression :=
  match attributes.line, e.form with
  | none, _ => e
  | some _, .unsupported => e
  | some line, _ =>
    match e.leads, e.nodes with
    | true, .node kind _ last children :: rest =>
      { e with nodes := .node kind line last (attributes.nodes ++ children) :: rest }
    | _, nodes => { e with nodes := attributes.nodes ++ nodes }

def isControl (e : Expression) : Bool :=
  match e.form with
  | .block _ => true
  | .control => true
  | _ => false

def needsSemicolon (e : Expression) : Bool :=
  match e.form with
  | .macroCall braced => !braced
  | _ => !e.isControl

def calledName (e : Expression) : Option String :=
  match e.form with
  | .path name => some name
  | _ => none

/-- A closure as an argument of a method call; any other expression stays as it is. -/
def asArgument (e : Expression) : List Node :=
  match e.form, e.nodes with
  | .closure, [.node (.closure c) first last children] =>
    [.node (.closure { c with isArgument := true }) first last children]
  | _, nodes => nodes

end Expression
end NestedSpec.Source
