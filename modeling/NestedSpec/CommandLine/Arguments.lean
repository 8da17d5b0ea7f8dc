import NestedSpec.Config

/-!
# Arguments of the command line

The first argument names a command, or asks for help or for the version. The arguments after it are
read from left to right. Two hyphens end the options. A value is checked when the next argument of
the command is taken or after the last one, so the first fault in that order decides.
-/

namespace NestedSpec.CommandLine

/-- What both commands can be told besides their values. -/
structure Options where
  package : String := "testcase"
  json : Bool := false
deriving Repr, DecidableEq

inductive Command where
  | locate (file : String) (line : Nat) (options : Options)
  | list (directory : String) (options : Options)
deriving Repr, DecidableEq

inductive Usage where
  | help
  | version
  | nothingGiven
  | unknownCommand
  | unknownArgument
  | missingArgument
  | missingValue
  | invalidValue
  | unexpectedValue
  | repeatedOption
deriving Repr, DecidableEq

def Usage.exitCode : Usage → Nat
  | .help => 0
  | .version => 0
  | _ => 2

inductive Pending where
  | path (text : String)
  | line (text : String)
  | package (text : Option String)

structure Reading where
  path : Option String := none
  line : Option Nat := none
  package : Option String := none
  json : Bool := false
  pending : Option Pending := none
  values : Nat := 0
  ended : Bool := false

namespace Reading

def settle (r : Reading) : Except Usage Reading :=
  match r.pending with
  | none => .ok r
  | some (.path text) =>
    if text.isEmpty then .error .missingValue else .ok { r with path := some text, pending := none }
  | some (.line text) =>
    match readUnsigned text.toList with
    | .ok line => .ok { r with line := some line, pending := none }
    | .error _ => .error .invalidValue
  | some (.package none) => .error .missingValue
  | some (.package (some text)) =>
    if r.package.isSome then .error .repeatedOption
    else .ok { r with package := some text, pending := none }

def flag (value : Option String) (take : Reading → Except Usage Reading) (r : Reading) :
    Except Usage Reading :=
  match value with
  | some _ => .error .unexpectedValue
  | none => r.settle >>= take

def takeOption (r : Reading) (name : String) (value : Option String) : Except Usage Reading :=
  match name with
  | "help" => flag value (fun _ => .error .help) r
  | "json" =>
    flag value (fun r => if r.json then .error .repeatedOption else .ok { r with json := true }) r
  | "crate-name" => do
    let r ← r.settle
    let r := { r with pending := some (.package value) }
    if value.isSome then r.settle else .ok r
  | _ => .error .unknownArgument

def takeValue (most : Nat) (r : Reading) (text : String) : Except Usage Reading :=
  if most ≤ r.values then .error .unknownArgument
  else do
    let r ← r.settle
    let next := if r.values = 0 then Pending.path text else Pending.line text
    .ok { r with pending := some next, values := r.values + 1 }

end Reading

inductive Form where
  | separator
  | option (name : String) (value : Option String)
  | letters (first : Char)
  | plain

def Form.of (argument : String) : Form :=
  match argument.toList with
  | ['-', '-'] => .separator
  | '-' :: '-' :: rest =>
    let name := String.ofList (rest.takeWhile (· ≠ '='))
    match rest.dropWhile (· ≠ '=') with
    | [] => .option name none
    | _ :: text => .option name (some (String.ofList text))
  | '-' :: first :: _ => .letters first
  | _ => .plain

def Reading.take (most : Nat) (r : Reading) (argument : String) : Except Usage Reading :=
  if r.ended then r.takeValue most argument
  else
    match Form.of argument with
    | .separator => .ok { r with ended := true }
    | .option name value => r.takeOption name value
    | .letters 'h' => r.flag none fun _ => .error .help
    | .letters _ => .error .unknownArgument
    | .plain =>
      match r.pending with
      | some (.package none) => .ok { r with pending := some (.package (some argument)) }
      | _ => r.takeValue most argument

def Reading.all (most : Nat) (arguments : List String) : Except Usage Reading := do
  let r ← arguments.foldlM (Reading.take most) {}
  r.settle

def Reading.options (r : Reading) : Options :=
  { package := r.package.getD "testcase", json := r.json }

def locateCommand (arguments : List String) : Except Usage Command := do
  let r ← Reading.all 2 arguments
  match r.path, r.line with
  | some path, some line => .ok (.locate path line r.options)
  | _, _ => .error .missingArgument

def listCommand (arguments : List String) : Except Usage Command := do
  let r ← Reading.all 1 arguments
  match r.path with
  | some path => .ok (.list path r.options)
  | none => .error .missingArgument

def helpUsage : List String → Usage
  | [] => .help
  | [topic] => if ["locate", "list", "help"].contains topic then .help else .unknownCommand
  | _ => .unknownCommand

def leadingOption (name : String) (value : Option String) : Usage :=
  match name, value with
  | "help", none => .help
  | "version", none => .version
  | "help", some _ => .unexpectedValue
  | "version", some _ => .unexpectedValue
  | _, _ => .unknownArgument

def Command.ofArguments : List String → Except Usage Command
  | [] => .error .nothingGiven
  | "locate" :: arguments => locateCommand arguments
  | "list" :: arguments => listCommand arguments
  | "help" :: topics => .error (helpUsage topics)
  | first :: rest =>
    match Form.of first with
    | .separator =>
      match rest with
      | [] => .error .nothingGiven
      | next :: _ =>
        if ["locate", "list", "help"].contains next then .error .unknownArgument
        else .error .unknownCommand
    | .option name value => .error (leadingOption name value)
    | .letters 'h' => .error .help
    | .letters 'V' => .error .version
    | .letters _ => .error .unknownArgument
    | .plain => .error .unknownCommand

end NestedSpec.CommandLine
