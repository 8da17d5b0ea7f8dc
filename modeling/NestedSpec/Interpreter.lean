import NestedSpec.Flow

/-!
# Running scripts

A script is run by recursion on the script itself. What it reaches that is not a part of it, the
initialisers of variables and the specs it declares, is run through `Deeper`: the entries to the
interpreter one call further down. How deep calls may go is fixed where the entries are made.
-/

namespace NestedSpec

variable {ν α : Type} {t : Target}

inductive RunMode where
  | test
  /-- Every leaf is run so many times, and at least once. -/
  | benchmark (iterations : Nat)
deriving Repr, DecidableEq

/-- A spec that is being declared. -/
structure Building (ν : Type) where
  group : Group ν
  items : List (Item ν)
  /-- The leaves have been run. -/
  finished : Bool
  nextIndex : Nat

/-- What surrounds a registration. -/
structure Surroundings (ν : Type) where
  config : Config
  mode : RunMode
  /-- The specs around the one that is being declared, innermost first, as far as they are. -/
  enclosing : List (Group ν × List (Item ν))

/-- A computation that declares a spec on a flow. -/
abbrev Declaring (ν : Type) (α : Type) := StateT (Building ν) (Flow ν .flow) α

/-- The entries to the interpreter one call further down. -/
structure Deeper (ν : Type) where
  initialise : Initialiser ν → Flow ν .leaf Value
  /-- Applies the registration that belongs to the first binding of a variable. -/
  onLet : Surroundings ν → Registration ν → Declaring ν Unit
  /-- Declares a spec and runs it. -/
  spec : Config → Registration ν → Flow ν .flow Unit

namespace Flow

def lookupVariable (name : String) : Flow ν t (Variable ν) := do
  match ← ask fun s => s.world.named.lookup name with
  | some v => pure v
  | none => raise (.panic (.text ("no variable " ++ Text.quote name)))

def store (id : Nat) (value : Value) : Flow ν .leaf Unit :=
  changeLeaf fun leaf => { leaf with cache := (id, value) :: leaf.cache.filter (·.1 ≠ id) }

/-- The initialiser in force for a variable: the innermost binding, else the variable's own. -/
def initialiser (v : Variable ν) : Flow ν .leaf (Option (Initialiser ν)) :=
  ask fun s => ((bindingIn (s.own : LeafState ν).scope v.id).map (·.init)).or v.init

def unboundMessage (label : String) : String :=
  "variable " ++ Text.quote label ++ " is not bound in this scope; bind it with \x60let_init\x60/" ++
    "\x60let_value\x60 in an enclosing spec or give it a default with \x60with_init\x60"

/-- The value of a variable: the one kept, else that of its initialiser, which is then kept. An
unbound variable is left to `missing`. -/
def readVariable (deeper : Deeper ν) (v : Variable ν) (missing : Flow ν .leaf Value) :
    Flow ν .leaf Value := do
  match ← ask fun s => (s.own : LeafState ν).cache.lookup v.id with
  | some value => pure value
  | none =>
    match ← initialiser v with
    | none => missing
    | some init =>
      let value ← deeper.initialise init
      store v.id value
      pure value

def get (deeper : Deeper ν) (v : Variable ν) : Flow ν .leaf Value :=
  readVariable deeper v (fatal (unboundMessage v.label))

def getOrDefault (deeper : Deeper ν) (v : Variable ν) : Flow ν .leaf Value :=
  readVariable deeper v do
    error (unboundMessage v.label)
    pure v.kind.default

def tempDir : Flow ν t Nat := do
  let number ← ask fun s => s.world.directories.length
  changeWorld fun w => { w with directories := w.directories ++ [true] }
  pushCleanup (changeWorld fun w => { w with directories := w.directories.set number false })
  pure number

def setEnvironment (key : String) (value : Option String) : Flow ν t Unit :=
  changeWorld fun w =>
    let others := w.environment.filter (·.1 ≠ key)
    { w with environment := (value.map fun v => (key, v)).toList ++ others }

end Flow

def Expression.evaluate (deeper : Deeper ν) : Expression → Flow ν .leaf Value
  | constant value => pure value
  | read name next => do
    let value ← Flow.get deeper (← Flow.lookupVariable name)
    (next value).evaluate deeper

def Script.exec (deeper : Deeper ν) : {t : Target} → Script ν t → Flow ν t Unit
  | _, .done => pure ()
  | _, .stop reason => Flow.raise reason
  | _, .note entry next => do
    Flow.note entry
    next.exec deeper
  | _, .log message next => do
    Flow.log message
    next.exec deeper
  | _, .fail next => do
    Flow.changeRecorder Recorder.fail
    next.exec deeper
  | _, .failNow => Flow.failNow
  | _, .skipNow => Flow.skipNow
  | _, .name next => do
    (next (← Flow.ask fun s => s.recorder.name)).exec deeper
  | _, .failed next => do
    (next (← Flow.ask fun s => s.recorder.failed)).exec deeper
  | _, .skipped next => do
    (next (← Flow.ask fun s => s.recorder.skipped)).exec deeper
  | _, .cleanup body next => do
    Flow.pushCleanup (body.exec deeper)
    next.exec deeper
  | _, .tempDir next => do
    (next (some (← Flow.tempDir))).exec deeper
  | _, .directories next => do
    (next (← Flow.ask fun s => s.world.directories)).exec deeper
  | _, .run title body next => do
    (next (← Flow.runChild title (body.exec deeper))).exec deeper
  | _, .guard body next => do
    (next (← Flow.guard (body.exec deeper))).exec deeper
  | _, .environment key next => do
    (next (← Flow.ask fun s => s.world.environment.lookup key)).exec deeper
  | _, .setEnvironment key value next => do
    Flow.setEnvironment key value
    next.exec deeper
  | _, .spec config body next => do
    Flow.onFlow (deeper.spec config body)
    next.exec deeper
  | _, .defer body next => do
    Flow.pushFinaliser (body.exec deeper)
    next.exec deeper
  | _, .tags next => do
    (next (← Flow.ask fun s => (s.own : LeafState ν).tags)).exec deeper
  | _, .counts next => do
    let (cached, deferred) ← Flow.ask fun s =>
      ((s.own : LeafState ν).cache.length, (s.own : LeafState ν).deferred)
    (next cached deferred).exec deeper
  | _, .random next => do
    (next (← Flow.ask fun s => (s.own : LeafState ν).random)).exec deeper
  | _, .setRandom source next => do
    Flow.changeLeaf fun leaf => { leaf with random := source }
    next.exec deeper
  | _, .get key next => do
    (next (← Flow.get deeper (← Flow.lookupVariable key))).exec deeper
  | _, .getOrDefault key next => do
    (next (← Flow.getOrDefault deeper (← Flow.lookupVariable key))).exec deeper
  | _, .set key value next => do
    Flow.store (← Flow.lookupVariable key).id value
    next.exec deeper

def Initialiser.evaluate (deeper : Deeper ν) : Initialiser ν → Flow ν .leaf Value
  | .mk steps value => do
    steps.exec deeper
    value.evaluate deeper

end NestedSpec
