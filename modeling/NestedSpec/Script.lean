import NestedSpec.Recorder
import NestedSpec.Random
import NestedSpec.Location

/-!
# Scripts and registrations

A script is what user code does to the flow it runs on: a tree of requests, each with the script
that follows for every possible answer. What a script may ask for depends on its target: on a leaf
there are tags, variables, random values and finalisers, on a plain flow there are none.

A registration is what user code does to a spec while it is being declared. Scripts may declare
and run nested specs, and registrations hold the scripts of hooks and leaves.
-/

namespace NestedSpec

/-- What a script runs on. -/
inductive Target where
  /-- A flow: a sub-run, a cleanup, or a hook that runs once for a spec. -/
  | flow
  /-- One invocation of a leaf. -/
  | leaf
deriving Repr, DecidableEq

inductive ValueKind where
  | int
  | text
deriving Repr, DecidableEq

inductive Value where
  | int (value : Int64)
  | text (value : String)
deriving Repr, DecidableEq

def ValueKind.default : ValueKind → Value
  | .int => .int 0
  | .text => .text ""

/-- How the value of an initialiser is found: variables are read one after another. -/
inductive Expression where
  | constant (value : Value)
  | read (name : String) (next : Value → Expression)

/-- Changes to a spec that add nothing to run. -/
inductive Modifier where
  | sideEffect
  | parallel
  | sequential
  | orderAs (mode : Mode)
  | tag (tags : List String)
  | skip (reason : String)
  | skipBenchmark
deriving Repr, DecidableEq

mutual

/-- What user code does on a target. `ν` is the type of the entries of the journal. -/
inductive Script (ν : Type) : Target → Type where
  | done {t : Target} : Script ν t
  /-- Leaves the flow without marking it. -/
  | stop {t : Target} (stop : Stop) : Script ν t
  | note {t : Target} (entry : ν) (next : Script ν t) : Script ν t
  | log {t : Target} (message : String) (next : Script ν t) : Script ν t
  | fail {t : Target} (next : Script ν t) : Script ν t
  | failNow {t : Target} : Script ν t
  | skipNow {t : Target} : Script ν t
  | name {t : Target} (next : String → Script ν t) : Script ν t
  | failed {t : Target} (next : Bool → Script ν t) : Script ν t
  | skipped {t : Target} (next : Bool → Script ν t) : Script ν t
  | cleanup {t : Target} (body : Script ν .flow) (next : Script ν t) : Script ν t
  | tempDir {t : Target} (next : Option Nat → Script ν t) : Script ν t
  | directories {t : Target} (next : List Bool → Script ν t) : Script ν t
  | run {t : Target} (name : String) (body : Script ν .flow) (next : Bool → Script ν t) :
      Script ν t
  | guard {t : Target} (body : Script ν t) (next : Outcome → Script ν t) : Script ν t
  | environment {t : Target} (key : String) (next : Option String → Script ν t) : Script ν t
  | setEnvironment {t : Target} (key : String) (value : Option String) (next : Script ν t) :
      Script ν t
  | spec {t : Target} (config : Config) (body : Registration ν) (next : Script ν t) : Script ν t
  | defer (body : Script ν .leaf) (next : Script ν .leaf) : Script ν .leaf
  | tags (next : List String → Script ν .leaf) : Script ν .leaf
  | counts (next : Nat → Nat → Script ν .leaf) : Script ν .leaf
  | random (next : Random → Script ν .leaf) : Script ν .leaf
  | setRandom (random : Random) (next : Script ν .leaf) : Script ν .leaf
  | get (name : String) (next : Value → Script ν .leaf) : Script ν .leaf
  | getOrDefault (name : String) (next : Value → Script ν .leaf) : Script ν .leaf
  | set (name : String) (value : Value) (next : Script ν .leaf) : Script ν .leaf

/-- What user code does to a spec. -/
inductive Registration (ν : Type) : Type where
  | done
  | panic (payload : Payload)
  | note (entry : ν) (next : Registration ν)
  | describe (description : String) (place : Location) (body next : Registration ν)
  | leaf (description : String) (place : Location) (body : Script ν .leaf)
      (next : Registration ν)
  | before (body : Script ν .leaf) (next : Registration ν)
  | after (body : Script ν .leaf) (next : Registration ν)
  /-- Runs a script before every leaf and, if it came to its end, another one after the leaf. -/
  | around (enter exit : Script ν .leaf) (next : Registration ν)
  | beforeAll (body : Script ν .flow) (next : Registration ν)
  | afterAll (body : Script ν .flow) (next : Registration ν)
  | modify (modifier : Modifier) (next : Registration ν)
  /-- Runs the leaves; only the outermost spec can. -/
  | finish (next : Registration ν)
  /-- Asks for the leaves in the order they will run. -/
  | plan (next : List String → Registration ν)
  | config (next : Config → Registration ν)
  | declare (name label : String) (kind : ValueKind) (next : Registration ν)
  | withInit (name : String) (init : Initialiser ν) (next : Registration ν)
  | withOnLet (name : String) (body next : Registration ν)
  | letInit (name : String) (init : Initialiser ν) (next : Registration ν)
  | bind (name : String) (next : Registration ν)
  | eager (name : String) (next : Registration ν)
  | inspect (name : String) (next : String → Bool → Bool → Registration ν)

/-- What gives a variable its value in a leaf: some steps, then a value. -/
inductive Initialiser (ν : Type) : Type where
  | mk (steps : Script ν .leaf) (value : Expression)

end

/-- A variable. Labels are for readers, variables are told apart by their number. -/
structure Variable (ν : Type) where
  id : Nat
  label : String
  kind : ValueKind
  init : Option (Initialiser ν)
  onLet : Option (Registration ν)

end NestedSpec
