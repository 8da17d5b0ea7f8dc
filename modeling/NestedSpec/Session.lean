import NestedSpec.Runner

/-!
# Declaring and running specs

A registration is applied by recursion on it: it builds the tree of groups and leaves, and it runs
the tree when it asks for that, or when it has come to its end. Mistakes in the use of a spec are
reported on the flow it was declared on and stop nothing.
-/

namespace NestedSpec

variable {ν α : Type} {t : Target}

namespace Declaring

def misuse (message : String) : Declaring ν Unit :=
  StateT.lift (Flow.error ("testcase: " ++ message))

/-- Does something that is allowed only before the leaves have run. -/
def whileOpen (what : String) (body : Declaring ν Unit) : Declaring ν Unit := do
  if (← get).finished then misuse (what ++ " registered after the spec started running")
  else body

def changeGroup (update : Group ν → Group ν) : Declaring ν Unit :=
  modify fun b => { b with group := update b.group }

def addItem (item : Item ν) : Declaring ν Unit :=
  modify fun b => { b with items := b.items ++ [item] }

def chainTo (surroundings : Surroundings ν) (group : Group ν) : Chain ν :=
  (surroundings.enclosing.map (·.1)).reverse ++ [group]

def wholeTree (surroundings : Surroundings ν) (b : Building ν) : Item ν :=
  surroundings.enclosing.foldl (fun inner (group, items) => Item.group group (items ++ [inner]))
    (Item.group b.group b.items)

def modifierName : Modifier → String
  | .sideEffect => "has_side_effect"
  | .parallel => "parallel"
  | .sequential => "sequential"
  | .orderAs _ => "order_as"
  | .tag _ => "tag"
  | .skip _ => "skip"
  | .skipBenchmark => "skip_benchmark"

/-- Changes the settings of a group. Its leaves cannot be made parallel where a side effect has been
declared around them. -/
def applyModifier (surroundings : Surroundings ν) (modifier : Modifier) : Declaring ν Unit :=
  whileOpen (modifierName modifier) do
    let blocked := Chain.hasSideEffect (chainTo surroundings (← get).group)
    if modifier = .parallel && blocked then
      misuse "parallel requested in a spec that has a side effect"
    else changeGroup fun g => g.modify modifier

def describe (surroundings : Surroundings ν) (description : String) (place : Location)
    (body : Surroundings ν → Declaring ν Unit) : Declaring ν Unit :=
  whileOpen "describe" do
    let outer ← get
    set { outer with
      group := { index := outer.nextIndex, description, place : Group ν }
      items := []
      nextIndex := outer.nextIndex + 1 }
    body { surroundings with
      enclosing := (outer.group, outer.items) :: surroundings.enclosing }
    let inner ← get
    set { outer with
      items := outer.items ++ [Item.group inner.group inner.items]
      nextIndex := inner.nextIndex }

/-- Reports that another variable with the same label is bound in the group, if one is. -/
def reportClash (v : Variable ν) : Declaring ν Unit := do
  let b ← get
  if b.group.clashes v.id v.label then
    misuse ("two different variables labelled " ++ Text.quote v.label ++
      " are bound in the same spec")

/-- Binds an initialiser in the group that is being declared and hands back whether the variable was
bound here for the first time. -/
def bindHere (v : Variable ν) (init : Initialiser ν) : Declaring ν Bool := do
  let b ← get
  if b.finished then
    whileOpen "variable binding" (pure ())
    pure false
  else
    reportClash v
    changeGroup fun g => g.bind ⟨v.id, v.label, init⟩
    pure !(b.group.boundOnce.contains v.id)

/-- Binds an initialiser; a first binding applies the registration that belongs to it. -/
def letInit (deeper : Deeper ν) (surroundings : Surroundings ν) (v : Variable ν)
    (init : Initialiser ν) : Declaring ν Unit := do
  if ← bindHere v init then
    if let some body := v.onLet then
      deeper.onLet surroundings body

def lookupVariable (name : String) : Declaring ν (Variable ν) :=
  StateT.lift (Flow.lookupVariable name)

def keepVariable (name : String) (v : Variable ν) : Declaring ν Unit :=
  StateT.lift (Flow.changeWorld fun w =>
    { w with named := (name, v) :: w.named.filter (·.1 ≠ name) })

def declare (name label : String) (kind : ValueKind) : Declaring ν Unit := do
  let id ← StateT.lift (Flow.ask fun s => s.world.nextVariable)
  StateT.lift (Flow.changeWorld fun w => { w with nextVariable := id + 1 })
  keepVariable name ⟨id, label, kind, none, none⟩

/-- Runs the leaves, once; the outermost spec alone can. The tree is left empty. -/
def finish (deeper : Deeper ν) (surroundings : Surroundings ν) : Declaring ν Unit := do
  let b ← get
  if !surroundings.enclosing.isEmpty then
    misuse "finish called on a nested spec; only the outermost spec runs"
  else if b.finished then pure ()
  else
    set { b with
      group := { index := 0, description := b.group.description, place := b.group.place : Group ν }
      items := []
      finished := true }
    StateT.lift (Runner.run ⟨surroundings.config, surroundings.mode, deeper⟩
      (.group b.group b.items))

end Declaring

open Declaring in
def Registration.apply (deeper : Deeper ν) :
    Registration ν → Surroundings ν → Declaring ν Unit
  | .done, _ => pure ()
  | .panic payload, _ => StateT.lift (Flow.raise (.panic payload))
  | .note entry next, here => do
    StateT.lift (Flow.note entry)
    next.apply deeper here
  | .describe description place body next, here => do
    Declaring.describe here description place (body.apply deeper)
    next.apply deeper here
  | .leaf description place body next, here => do
    whileOpen "test" (addItem (.leaf ⟨description, place, body⟩))
    next.apply deeper here
  | .before body next, here => do
    whileOpen "before" (changeGroup fun g => { g with hooks := g.hooks ++ [.before body] })
    next.apply deeper here
  | .after body next, here => do
    whileOpen "after" (changeGroup fun g => { g with hooks := g.hooks ++ [.after body] })
    next.apply deeper here
  | .around enter exit next, here => do
    whileOpen "around"
      (changeGroup fun g => { g with hooks := g.hooks ++ [.around enter exit] })
    next.apply deeper here
  | .beforeAll body next, here => do
    whileOpen "before_all" (changeGroup fun g => { g with beforeAll := g.beforeAll ++ [body] })
    next.apply deeper here
  | .afterAll body next, here => do
    whileOpen "after_all" (changeGroup fun g => { g with afterAll := g.afterAll ++ [body] })
    next.apply deeper here
  | .modify modifier next, here => do
    applyModifier here modifier
    next.apply deeper here
  | .finish next, here => do
    Declaring.finish deeper here
    next.apply deeper here
  | .plan next, here => do
    let runner : Runner ν := ⟨here.config, here.mode, deeper⟩
    let tree := runner.plan (wholeTree here (← get))
    (next (tree.leafPaths [])).apply deeper here
  | .config next, here => (next here.config).apply deeper here
  | .declare key label kind next, here => do
    Declaring.declare key label kind
    next.apply deeper here
  | .withInit key init next, here => do
    keepVariable key { (← Declaring.lookupVariable key) with init := some init }
    next.apply deeper here
  | .withOnLet key body next, here => do
    keepVariable key { (← Declaring.lookupVariable key) with onLet := some body }
    next.apply deeper here
  | .letInit key init next, here => do
    Declaring.letInit deeper here (← Declaring.lookupVariable key) init
    next.apply deeper here
  | .bind key next, here => do
    let v ← Declaring.lookupVariable key
    if let some init := v.init then Declaring.letInit deeper here v init
    next.apply deeper here
  | .eager key next, here => do
    let v ← Declaring.lookupVariable key
    whileOpen "before" (changeGroup fun g => { g with hooks := g.hooks ++ [.eager v] })
    next.apply deeper here
  | .inspect key next, here => do
    let v ← Declaring.lookupVariable key
    (next v.label v.init.isSome v.onLet.isSome).apply deeper here

def Registration.declareAndRun (deeper : Deeper ν) (mode : RunMode) (config : Config)
    (body : Registration ν) : Flow ν .flow Unit := do
  let name ← Flow.ask fun s => s.recorder.name
  let here : Surroundings ν := ⟨config, mode, []⟩
  let start : Building ν :=
    ⟨{ index := 0, description := name, place := default }, [], false, 1⟩
  let (_, _) ← StateT.run (do body.apply deeper here; Declaring.finish deeper here) start
  pure ()

/-- The entries to the interpreter when calls may go so many levels deeper. A call beyond that is a
panic. -/
def Deeper.within : Nat → Deeper ν
  | 0 =>
    let tooDeep : Stop := .panic (.text "calls nested too deeply")
    { initialise := fun _ => Flow.raise tooDeep
      onLet := fun _ _ => StateT.lift (Flow.raise tooDeep)
      spec := fun _ _ => Flow.raise tooDeep }
  | levels + 1 =>
    let deeper := Deeper.within levels
    { initialise := Initialiser.evaluate deeper
      onLet := fun here body => body.apply deeper here
      spec := Registration.declareAndRun deeper .test }

def callDepth : Nat := 512

namespace Script

def perform {t : Target} (script : Script ν t) : Flow ν t Unit :=
  script.exec (Deeper.within callDepth)

end Script

namespace Registration

def perform (body : Registration ν) (mode : RunMode) (config : Config) : Flow ν .flow Unit :=
  body.declareAndRun (Deeper.within callDepth) mode config

end Registration
end NestedSpec
