import NestedSpec.Source.Grammar.Pattern
import NestedSpec.Source.Literal

/-!
# Expressions

An expression is operands with binary operators between them; an operand is an atom with what may
be added to it: calls, fields, indices. Calls, method calls and closures become nodes. The number of
an operator says how strongly it binds.
-/

namespace NestedSpec.Source.Grammar

open NestedSpec.Source.Parser

def assignmentLevel : Nat := 1
def rangeLevel : Nat := 2
def comparisonLevel : Nat := 6
def conversionLevel : Nat := 13

/-- The binary operators and how strongly they bind; one that begins with another comes first. -/
def binaryOperators : List (String × Nat) :=
  [("+=", 1), ("-=", 1), ("*=", 1), ("/=", 1), ("%=", 1), ("^=", 1), ("&=", 1), ("|=", 1),
    ("<<=", 1), (">>=", 1), ("&&", 4), ("||", 3), ("<<", 10), (">>", 10), ("==", 6), ("<=", 6),
    ("!=", 6), (">=", 6), ("+", 11), ("-", 11), ("*", 12), ("/", 12), ("%", 12), ("^", 8),
    ("&", 9), ("|", 7), ("<", 6), (">", 6)]

def binaryOperator : Parser (Option (String × Nat)) := do
  let trees := (← get).rest
  pure (binaryOperators.find? fun (text, _) => Ahead.mark text trees)

/-- How strongly the operator that comes next binds; zero if none comes. -/
def nextLevel : Parser Nat := do
  match ← binaryOperator with
  | some (_, level) => pure level
  | none =>
    if (← ahead (Ahead.mark "=")) && !(← ahead (Ahead.mark "=>")) then pure assignmentLevel
    else if ← ahead (Ahead.mark "..") then pure rangeLevel
    else if ← ahead (Ahead.word "as") then pure conversionLevel
    else pure 0

def beginsExpression : Ahead := fun trees =>
  let mark (text : String) (longer : List String) : Bool :=
    Ahead.mark text trees && !longer.any fun other => Ahead.mark other trees
  (Ahead.anyWord trees && !Ahead.word "as" trees) || Ahead.anyGroup trees ||
    Ahead.literal trees || mark "!" ["!="] || mark "-" ["-=", "->"] || mark "*" ["*="] ||
    mark "|" ["|="] || mark "&" ["&="] || mark ".." [] || mark "<" ["<=", "<<="] ||
    mark "::" [] || Ahead.lifetime trees || mark "#" []

def endsOpenRange (allowStruct : Bool) : Ahead := fun trees =>
  let oneOf (texts : List String) : Bool := texts.any fun text => Ahead.mark text trees
  trees.isEmpty || (Ahead.mark "." trees && !Ahead.mark ".." trees) ||
    (!allowStruct && Ahead.group .brace trees) || Ahead.word "as" trees ||
    oneOf [",", ";", "?", "=>", "=", "+", "/", "%", "^", ">", "<=", "!=", "-=", "*=", "&=", "|=",
      "<<="]

/-- The operand at the right of an operator, with the operators after it that bind more strongly;
assignments go together from the right. -/
def rightOperand (g : Grammar) (allowStruct : Bool) (level : Nat) : Parser Expression := do
  let first ← g.operand allowStruct
  let (_, result) ← improve (fun (state : Bool × Expression) => do
    if state.1 then pure none
    else
      let next ← nextLevel
      if level < next || (level = next && level = assignmentLevel) then
        let before := (← get).rest.length
        let more ← g.operators allowStruct next state.2
        pure (some ((← get).rest.length == before, more))
      else pure none) (false, first)
  pure result

def rangeTail (g : Grammar) (allowStruct : Bool) : Parser (List Node) := do
  let closed ← rangeLimits false
  if !closed && (← ahead (endsOpenRange allowStruct)) then pure []
  else (·.nodes) <$> g.rightOperand allowStruct rangeLevel

/-- Fails if something is added to a conversion that would have to be added to its type. -/
def checkConversion : Parser Unit := do
  let dot := (← ahead (Ahead.mark ".")) && !(← ahead (Ahead.mark ".."))
  if dot || (← ahead (Ahead.mark "?")) || (← ahead (Ahead.group .bracket)) ||
      (← ahead (Ahead.group .parenthesis)) then
    fail

/-- An operand with one binary operator after it, if one comes that binds strongly enough. A range
is never the left side of an operator, and comparisons do not follow each other. -/
def operatorStep (g : Grammar) (allowStruct : Bool) (base : Nat) (left : Expression) :
    Parser (Option Expression) := do
  if left.form = .range then pure none
  else
    match ← binaryOperator with
    | some (text, level) =>
      if level < base then pure none
      else if level = comparisonLevel && left.form = .comparison then fail
      else
        mark text
        let right ← g.rightOperand allowStruct level
        pure (some {
          form := if level = comparisonLevel then .comparison else .other
          nodes := left.nodes ++ right.nodes
          leads := left.leads })
    | none =>
      let next ← nextLevel
      if next = 0 || next < base then pure none
      else if next = assignmentLevel then
        mark "="
        let right ← g.rightOperand allowStruct assignmentLevel
        pure (some { nodes := left.nodes ++ right.nodes, leads := left.leads })
      else if next = rangeLevel then
        let last ← g.rangeTail allowStruct
        pure (some { form := .range, nodes := left.nodes ++ last })
      else
        word "as"
        let type ← g.type false
        checkConversion
        pure (some { nodes := left.nodes ++ type.nodes, leads := left.leads })

def parseOperators (g : Grammar) (allowStruct : Bool) (base : Nat) (left : Expression) :
    Parser Expression :=
  improve (g.operatorStep allowStruct base) left

def parseExpression (g : Grammar) (allowStruct : Bool) : Parser Expression := do
  let left ← g.operand allowStruct
  g.operators allowStruct 0 left

/-! ## What is added to an atom -/

def indexDigits (base : Nat) (chars : List Char) : Option Nat :=
  chars.foldl (fun value c => do
    let value ← value
    if c = '_' then some value
    else if Literal.isHexDigit c && Literal.hexValue c < base then
      some (base * value + Literal.hexValue c)
    else none) (some 0)

/-- Whether a text names a field by its place: an integer of 32 bits without a suffix. -/
def isFieldIndex (text : String) : Bool :=
  let value := match text.toList with
    | '0' :: 'x' :: digits => indexDigits 16 digits
    | '0' :: 'o' :: digits => indexDigits 8 digits
    | '0' :: 'b' :: digits => indexDigits 2 digits
    | [] => none
    | digits => indexDigits 10 digits
  match value with
  | some n => n < UInt32.size
  | none => false

/-- Places of fields that are written like a number with a point. Says whether a name has to follow
because the number ends with the point. -/
def fieldPlaces (text : String) : Option Bool :=
  let trailing := text.endsWith "."
  let digits := if trailing then (text.dropEnd 1).toString else text
  if (Text.splitAtChar '.' digits).all isFieldIndex then some trailing else none

def member : Parser (Option String) := do
  if ← ahead Ahead.identifier then some <$> anyWord
  else
    match (← get).rest with
    | .token (.literal .integer text) _ _ :: _ =>
      if isFieldIndex text then
        let _ ← take
        pure none
      else fail
    | _ => fail

def arguments (g : Grammar) : Parser (List Expression) :=
  group .parenthesis (listed (g.expression true))

def afterDot (g : Grammar) (start : Nat) (e : Expression) : Parser Expression := do
  let field : Expression := { nodes := e.nodes }
  if ← optionalWord "await" then pure field
  else
    let name ← member
    let types ←
      if name.isSome && (← ahead (Ahead.mark "::")) then some <$> g.turbofish else pure none
    match name with
    | none => pure field
    | some name =>
      if types.isSome || (← ahead (Ahead.group .parenthesis)) then
        let given ← g.arguments
        let children := e.nodes ++ types.getD [] ++ given.flatMap Expression.asArgument
        pure { nodes := [.node (.methodCall name) start (← lastLine) children], leads := true }
      else pure field

def additionStep (g : Grammar) (start : Nat) (e : Expression) : Parser (Option Expression) := do
  let isRange := e.form = .range
  if ← ahead (Ahead.group .parenthesis) then
    let given ← g.arguments
    let children := e.nodes ++ given.flatMap (·.nodes)
    pure (some {
      nodes := [.node (.call e.calledName) start (← lastLine) children]
      leads := true })
  else if (← ahead (Ahead.mark ".")) && !(← ahead (Ahead.mark "..")) && !isRange then
    mark "."
    let place ← here
    match (← get).rest with
    | .token (.literal .decimal text) _ _ :: _ =>
      match fieldPlaces text with
      | none => failAt place
      | some trailing =>
        let _ ← take
        let field : Expression := { nodes := e.nodes }
        if trailing then some <$> g.afterDot start field else pure (some field)
    | _ => some <$> g.afterDot start e
  else if ← ahead (Ahead.group .bracket) then
    let index ← group .bracket (g.expression true)
    pure (some { nodes := e.nodes ++ index.nodes })
  else if (← ahead (Ahead.mark "?")) && !isRange then
    mark "?"
    pure (some { nodes := e.nodes })
  else pure none

def additions (g : Grammar) (start : Nat) (e : Expression) : Parser Expression :=
  improve (g.additionStep start) e

/-! ## Atoms -/

def fieldValue (g : Grammar) : Parser (List Node) := do
  let attributes ← g.attributes
  let name ← member
  if name.isNone || (← ahead (Ahead.mark ":")) then
    mark ":"
    pure (attributes.nodes ++ (← g.expression true).nodes)
  else pure attributes.nodes

def fieldValues (g : Grammar) : Parser (List Node) := do
  let (_, nodes) ← improve (fun (state : Bool × List Node) => do
    if state.1 || (← atEnd) then pure none
    else if ← optionalMark ".." then
      if ← atEnd then pure (some (true, state.2))
      else pure (some (true, state.2 ++ (← g.expression true).nodes))
    else
      let nodes := state.2 ++ (← g.fieldValue)
      if ← atEnd then pure (some (true, nodes))
      else
        mark ","
        pure (some (false, nodes))) (false, [])
  pure nodes

def pathExpression (g : Grammar) (allowStruct : Bool) : Parser Expression := do
  let path ← g.qualifiedPath true
  let bang := (← ahead (Ahead.mark "!")) && !(← ahead (Ahead.mark "!="))
  if !path.qualified && bang && path.isPlain then
    pure { form := .macroCall (← macroArguments) }
  else if allowStruct && (← ahead (Ahead.group .brace)) then
    let fields ← group .brace g.fieldValues
    pure { nodes := path.nodes ++ fields }
  else pure { form := .path (path.segments.getLastD ""), nodes := path.nodes }

def tupleExpression (g : Grammar) : Parser Expression := do
  let members ← group .parenthesis (listed (g.expression true))
  pure { nodes := members.flatMap (·.nodes) }

def arrayExpression (g : Grammar) : Parser Expression := group .bracket do
  if ← atEnd then pure {}
  else
    let first ← g.expression true
    if ← atEnd then pure { nodes := first.nodes }
    else if ← optionalMark "," then
      let others ← listed (g.expression true)
      pure { nodes := first.nodes ++ others.flatMap (·.nodes) }
    else if ← optionalMark ";" then
      let size ← g.expression true
      pure { nodes := first.nodes ++ size.nodes }
    else fail

def blockExpression (g : Grammar) : Parser Expression := do
  let body ← g.bracedBody
  pure { form := .block body.block.statements, nodes := body.attributes ++ body.block.nodes }

def controlExpression (g : Grammar) (parts : Parser (List Node)) : Parser Expression := do
  let nodes ← parts
  let body ← g.bracedBody
  pure { form := .control, nodes := body.attributes ++ nodes ++ body.block.nodes }

def ifExpression (g : Grammar) : Parser Expression := do
  let (_, nodes) ← improve (fun (state : Bool × List Node) => do
    if state.1 then pure none
    else
      word "if"
      let condition ← g.expression false
      let body ← g.block
      let nodes := state.2 ++ condition.nodes ++ body.nodes
      if ← optionalWord "else" then
        if ← ahead (Ahead.word "if") then pure (some (false, nodes))
        else if ← ahead (Ahead.group .brace) then
          pure (some (true, nodes ++ (← g.block).nodes))
        else fail
      else pure (some (true, nodes))) (false, [])
  pure { form := .control, nodes }

def whileExpression (g : Grammar) : Parser Expression := g.controlExpression do
  word "while"
  (·.nodes) <$> g.expression false

def forExpression (g : Grammar) : Parser Expression := g.controlExpression do
  word "for"
  let pattern ← g.alternatives
  word "in"
  let members ← g.expression false
  pure (pattern.nodes ++ members.nodes)

def keywordBody (g : Grammar) (keyword : String) : Parser Expression := g.controlExpression do
  word keyword
  pure []

def labelledExpression (g : Grammar) : Parser Expression := do
  lifetime
  mark ":"
  if ← ahead (Ahead.word "while") then g.whileExpression
  else if ← ahead (Ahead.word "for") then g.forExpression
  else if ← ahead (Ahead.word "loop") then g.keywordBody "loop"
  else if ← ahead (Ahead.group .brace) then g.blockExpression
  else fail

def arm (g : Grammar) : Parser (List Node) := do
  let attributes ← g.attributes
  let pattern ← g.alternatives
  let guard ← if ← optionalWord "if" then (·.nodes) <$> g.expression true else pure []
  mark "=>"
  let body ← g.early
  if !body.isControl && !(← atEnd) then mark ","
  else
    let _ ← optionalMark ","
  pure (attributes.nodes ++ pattern.nodes ++ guard ++ body.nodes)

def matchExpression (g : Grammar) : Parser Expression := do
  word "match"
  let value ← g.expression false
  let (inner, arms) ← group .brace do
    let inner ← g.innerAttributes
    let arms ← collect do
      if ← atEnd then pure none else some <$> g.arm
    pure (inner, arms)
  pure { form := .control, nodes := inner ++ value.nodes ++ arms.flatten }

def closureParameter (g : Grammar) : Parser (List Node × Option TypeName) := do
  let attributes ← g.attributes
  let pattern ← g.pattern
  let nodes := attributes.nodes ++ pattern.nodes
  if ← optionalMark ":" then
    let type ← g.type true
    pure (nodes ++ type.nodes, some type.name)
  else pure (nodes, none)

/-- The body of a closure. With a type of the result it has to be in braces. -/
def closureBody (g : Grammar) (allowStruct braced : Bool) : Parser (Body × List Node) := do
  let first ← line
  let (statements, nodes) ←
    if braced then
      let body ← g.block
      pure (body.statements, body.nodes)
    else
      let e ← g.expression allowStruct
      let statements := match e.form with
        | .block count => count
        | _ => 1
      pure (statements, e.nodes)
  pure (⟨first, ← lastLine, statements, Node.callNamesAll nodes⟩, nodes)

def closureExpression (g : Grammar) (allowStruct : Bool) : Parser Expression := do
  let start ← line
  let lifetimes ← g.boundLifetimes
  let _ ← optionalWord "const"
  let _ ← optionalWord "static"
  let _ ← optionalWord "async"
  let _ ← optionalWord "move"
  mark "|"
  let parameters ← separatedUntil (ahead (Ahead.mark "|")) "," g.closureParameter
  mark "|"
  let output ← g.returnType true
  let (body, inside) ← g.closureBody allowStruct output.isSome
  let closure : Closure :=
    ⟨parameters.length, (parameters.head?.map (·.2)).getD none, false, body⟩
  let children :=
    lifetimes.getD [] ++ parameters.flatMap (·.1) ++ returnNodes output ++ inside
  pure {
    form := .closure
    nodes := [.node (.closure closure) start (← lastLine) children]
    leads := true }

def controlHere (g : Grammar) : Parser (Option Expression) := do
  let lifetimesFollow :=
    (← ahead (Ahead.second (Ahead.mark "<"))) &&
      ((← ahead (Ahead.third Ahead.lifetime)) || (← ahead (Ahead.third (Ahead.mark ">"))))
  let braceFollows ← ahead (Ahead.second (Ahead.group .brace))
  if ← ahead (Ahead.word "if") then some <$> g.ifExpression
  else if ← ahead (Ahead.word "while") then some <$> g.whileExpression
  else if (← ahead (Ahead.word "for")) && !lifetimesFollow then some <$> g.forExpression
  else if ← ahead (Ahead.word "loop") then some <$> g.keywordBody "loop"
  else if ← ahead (Ahead.word "match") then some <$> g.matchExpression
  else if (← ahead (Ahead.word "try")) && braceFollows then
    word "try"
    pure (some { form := .control, nodes := (← g.block).nodes })
  else if ← ahead (Ahead.word "unsafe") then some <$> g.keywordBody "unsafe"
  else if (← ahead (Ahead.word "const")) && braceFollows then some <$> g.keywordBody "const"
  else if ← ahead (Ahead.group .brace) then some <$> g.blockExpression
  else if ← ahead Ahead.lifetime then some <$> g.labelledExpression
  else pure none

/-- An expression where a statement or an arm of a choice begins. What is a statement without a
semicolon ends there, unless a field, a method or a question mark is added to it. -/
def parseEarly (g : Grammar) : Parser Expression := do
  let attributes ← g.attributes
  let start ← line
  match ← g.controlHere with
  | none =>
    let e ← g.operand true
    g.operators true 0 (e.withAttributes attributes)
  | some e =>
    let dot := (← ahead (Ahead.mark ".")) && !(← ahead (Ahead.mark ".."))
    if dot || (← ahead (Ahead.mark "?")) then
      let e ← g.additions start e
      g.operators true 0 (e.withAttributes attributes)
    else pure (e.withAttributes attributes)

def letExpression (g : Grammar) (allowStruct : Bool) : Parser Expression := do
  word "let"
  let pattern ← g.alternatives
  mark "="
  let value ← g.operators allowStruct comparisonLevel (← g.operand allowStruct)
  pure { nodes := pattern.nodes ++ value.nodes }

def breakExpression (g : Grammar) (allowStruct : Bool) : Parser Expression := do
  word "break"
  let place ← here
  if (← ahead Ahead.lifetime) && (← ahead (Ahead.second (Ahead.mark ":"))) then
    let _ ← g.expression true
    failAt place
  else
    let _ ← optional Ahead.lifetime
    if (← ahead beginsExpression) && (allowStruct || !(← ahead (Ahead.group .brace))) then
      pure { nodes := (← g.expression true).nodes }
    else pure {}

def keywordValue (g : Grammar) (keyword : String) : Parser Expression := do
  word keyword
  if ← ahead beginsExpression then pure { nodes := (← g.expression true).nodes } else pure {}

def beginsClosure : Ahead := fun trees =>
  let second (test : Ahead) : Bool := Ahead.second test trees
  let third (test : Ahead) : Bool := Ahead.third test trees
  Ahead.mark "|" trees || Ahead.word "move" trees || Ahead.word "static" trees ||
    (Ahead.word "for" trees && second (Ahead.mark "<") &&
      (third Ahead.lifetime || third (Ahead.mark ">"))) ||
    (Ahead.word "const" trees && !second (Ahead.group .brace)) ||
    (Ahead.word "async" trees && (second (Ahead.mark "|") || second (Ahead.word "move")))

def beginsAsync : Ahead := fun trees =>
  Ahead.word "async" trees &&
    (Ahead.second (Ahead.group .brace) trees ||
      (Ahead.second (Ahead.word "move") trees && Ahead.third (Ahead.group .brace) trees))

def beginsPath : Ahead := fun trees =>
  Ahead.pathWord trees || Ahead.mark "::" trees || Ahead.mark "<" trees ||
    (Ahead.word "try" trees &&
      (Ahead.second (Ahead.mark "!") trees || Ahead.second (Ahead.mark "::") trees))

def builtinExpression : Parser Expression := do
  word "builtin"
  mark "#"
  let _ ← identifier
  if ← ahead (Ahead.group .parenthesis) then
    let _ ← take
    pure { form := .unsupported }
  else fail

def keywordExpression (g : Grammar) (allowStruct : Bool) (keyword : String) :
    Parser Expression :=
  match keyword with
  | "break" => g.breakExpression allowStruct
  | "continue" => do
    word "continue"
    let _ ← optional Ahead.lifetime
    pure {}
  | "return" => g.keywordValue "return"
  | "become" => do
    word "become"
    let _ ← g.expression true
    pure { form := .unsupported }
  | "let" => g.letExpression allowStruct
  | "if" => g.ifExpression
  | "while" => g.whileExpression
  | "for" => g.forExpression
  | "loop" => g.keywordBody "loop"
  | "match" => g.matchExpression
  | "yield" => g.keywordValue "yield"
  | "unsafe" => g.keywordBody "unsafe"
  | "const" => g.keywordBody "const"
  | "_" => do
    word "_"
    pure {}
  | _ => fail

def atom (g : Grammar) (allowStruct : Bool) : Parser Expression := do
  if ← ahead Ahead.literal then
    literal
    pure {}
  else if ← ahead beginsAsync then
    word "async"
    let _ ← optionalWord "move"
    pure { nodes := (← g.block).nodes }
  else if (← ahead (Ahead.word "try")) && (← ahead (Ahead.second (Ahead.group .brace))) then
    word "try"
    pure { form := .control, nodes := (← g.block).nodes }
  else if ← ahead beginsClosure then g.closureExpression allowStruct
  else if (← ahead (Ahead.word "builtin")) && (← ahead (Ahead.second (Ahead.mark "#"))) then
    builtinExpression
  else if ← ahead beginsPath then g.pathExpression allowStruct
  else if ← ahead (Ahead.group .parenthesis) then g.tupleExpression
  else if ← ahead (Ahead.group .bracket) then g.arrayExpression
  else if ← ahead (Ahead.group .brace) then g.blockExpression
  else if ← ahead (Ahead.mark "..") then
    pure { form := .range, nodes := ← g.rangeTail allowStruct }
  else if ← ahead Ahead.lifetime then g.labelledExpression
  else
    match (← get).rest with
    | .token (.word keyword) _ _ :: _ => g.keywordExpression allowStruct keyword
    | _ => fail

def parseOperand (g : Grammar) (allowStruct : Bool) : Parser Expression := do
  let attributes ← g.attributes
  let prefixed (parts : Parser Unit) : Parser Expression := do
    parts
    let inner ← g.operand allowStruct
    pure ({ nodes := inner.nodes : Expression }.withAttributes attributes)
  if ← ahead (Ahead.mark "&") then
    prefixed do
      mark "&"
      let raw := (← ahead (Ahead.word "raw")) &&
        (← ahead (Ahead.second (Ahead.oneOf ["mut", "const"])))
      if raw then
        word "raw"
        let _ ← anyWord
      else
        let _ ← optionalWord "mut"
  else if ← atMark ["*", "!", "-"] then
    prefixed do
      let _ ← take
  else
    let start ← line
    let e ← g.additions start (← g.atom allowStruct)
    pure (e.withAttributes attributes)

end NestedSpec.Source.Grammar
