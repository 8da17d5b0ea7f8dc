import NestedSpec.Runner
import NestedSpec.Script.Basic
import NestedSpec.Proofs.Traces

/-!
# Borrowed variables of the environment

User code borrows variables of the environment: it gives them values for the rest of a flow, and
promises to put the former ones back. A script could also change the environment for good. Whether
it may is a parameter, so that what is proved of borrowing holds of all scripts if it does not depend
on the environment.
-/

namespace NestedSpec

variable {ν : Type}

mutual

/-- The script changes the environment by borrowing alone, unless it is `free` to do otherwise, and
so does all that it hands on. -/
inductive Script.Borrows {ν : Type} (free : Prop) : {t : Target} → Script ν t → Prop
  | done {t : Target} : Script.Borrows free (.done : Script ν t)
  | stop {t : Target} (reason : Stop) : Script.Borrows free (.stop reason : Script ν t)
  | note {t : Target} (entry : ν) {next : Script ν t} (later : Script.Borrows free next) :
      Script.Borrows free (.note entry next)
  | log {t : Target} (message : String) {next : Script ν t} (later : Script.Borrows free next) :
      Script.Borrows free (.log message next)
  | fail {t : Target} {next : Script ν t} (later : Script.Borrows free next) :
      Script.Borrows free (.fail next)
  | failNow {t : Target} : Script.Borrows free (.failNow : Script ν t)
  | skipNow {t : Target} : Script.Borrows free (.skipNow : Script ν t)
  | name {t : Target} {next : String → Script ν t}
      (later : ∀ title, Script.Borrows free (next title)) : Script.Borrows free (.name next)
  | failed {t : Target} {next : Bool → Script ν t}
      (later : ∀ mark, Script.Borrows free (next mark)) : Script.Borrows free (.failed next)
  | skipped {t : Target} {next : Bool → Script ν t}
      (later : ∀ mark, Script.Borrows free (next mark)) : Script.Borrows free (.skipped next)
  | cleanup {t : Target} {body : Script ν .flow} {next : Script ν t}
      (inside : Script.Borrows free body) (later : Script.Borrows free next) :
      Script.Borrows free (.cleanup body next)
  | tempDir {t : Target} {next : Option Nat → Script ν t}
      (later : ∀ number, Script.Borrows free (next number)) : Script.Borrows free (.tempDir next)
  | directories {t : Target} {next : List Bool → Script ν t}
      (later : ∀ existing, Script.Borrows free (next existing)) :
      Script.Borrows free (.directories next)
  | run {t : Target} (title : String) {body : Script ν .flow} {next : Bool → Script ν t}
      (inside : Script.Borrows free body) (later : ∀ passed, Script.Borrows free (next passed)) :
      Script.Borrows free (.run title body next)
  | guard {t : Target} {body : Script ν t} {next : Outcome → Script ν t}
      (inside : Script.Borrows free body) (later : ∀ outcome, Script.Borrows free (next outcome)) :
      Script.Borrows free (.guard body next)
  | environment {t : Target} (key : String) {next : Option String → Script ν t}
      (later : ∀ value, Script.Borrows free (next value)) :
      Script.Borrows free (.environment key next)
  | putEnvironment {t : Target} (key : String) (value : Option String) {next : Script ν t}
      (later : Script.Borrows free next) : Script.Borrows free (.putEnvironment key value next)
  | setEnvironment {t : Target} (permitted : free) (key : String) (value : Option String)
      {next : Script ν t} (later : Script.Borrows free next) :
      Script.Borrows free (.setEnvironment key value next)
  | spec {t : Target} (config : Config) {body : Registration ν} {next : Script ν t}
      (inside : Registration.Borrows free body) (later : Script.Borrows free next) :
      Script.Borrows free (.spec config body next)
  | defer {body next : Script ν .leaf} (inside : Script.Borrows free body)
      (later : Script.Borrows free next) : Script.Borrows free (.defer body next)
  | tags {next : List String → Script ν .leaf}
      (later : ∀ names, Script.Borrows free (next names)) : Script.Borrows free (.tags next)
  | counts {next : Nat → Nat → Script ν .leaf}
      (later : ∀ cached deferred, Script.Borrows free (next cached deferred)) :
      Script.Borrows free (.counts next)
  | random {next : NestedSpec.Random → Script ν .leaf}
      (later : ∀ source, Script.Borrows free (next source)) : Script.Borrows free (.random next)
  | setRandom (source : NestedSpec.Random) {next : Script ν .leaf}
      (later : Script.Borrows free next) : Script.Borrows free (.setRandom source next)
  | get (key : String) {next : Value → Script ν .leaf}
      (later : ∀ value, Script.Borrows free (next value)) : Script.Borrows free (.get key next)
  | getOrDefault (key : String) {next : Value → Script ν .leaf}
      (later : ∀ value, Script.Borrows free (next value)) :
      Script.Borrows free (.getOrDefault key next)
  | set (key : String) (value : Value) {next : Script ν .leaf}
      (later : Script.Borrows free next) : Script.Borrows free (.set key value next)

inductive Registration.Borrows {ν : Type} (free : Prop) : Registration ν → Prop
  | done : Registration.Borrows free .done
  | panic (payload : Payload) : Registration.Borrows free (.panic payload)
  | note (entry : ν) {next : Registration ν} (later : Registration.Borrows free next) :
      Registration.Borrows free (.note entry next)
  | describe (description : String) (place : Location) {body next : Registration ν}
      (inside : Registration.Borrows free body) (later : Registration.Borrows free next) :
      Registration.Borrows free (.describe description place body next)
  | leaf (description : String) (place : Location) {body : Script ν .leaf}
      {next : Registration ν} (inside : Script.Borrows free body)
      (later : Registration.Borrows free next) :
      Registration.Borrows free (.leaf description place body next)
  | before {body : Script ν .leaf} {next : Registration ν} (inside : Script.Borrows free body)
      (later : Registration.Borrows free next) : Registration.Borrows free (.before body next)
  | after {body : Script ν .leaf} {next : Registration ν} (inside : Script.Borrows free body)
      (later : Registration.Borrows free next) : Registration.Borrows free (.after body next)
  | around {enter exit : Script ν .leaf} {next : Registration ν}
      (first : Script.Borrows free enter) (last : Script.Borrows free exit)
      (later : Registration.Borrows free next) :
      Registration.Borrows free (.around enter exit next)
  | beforeAll {body : Script ν .flow} {next : Registration ν} (inside : Script.Borrows free body)
      (later : Registration.Borrows free next) : Registration.Borrows free (.beforeAll body next)
  | afterAll {body : Script ν .flow} {next : Registration ν} (inside : Script.Borrows free body)
      (later : Registration.Borrows free next) : Registration.Borrows free (.afterAll body next)
  | modify (modifier : Modifier) {next : Registration ν}
      (later : Registration.Borrows free next) : Registration.Borrows free (.modify modifier next)
  | finish {next : Registration ν} (later : Registration.Borrows free next) :
      Registration.Borrows free (.finish next)
  | plan {next : List String → Registration ν}
      (later : ∀ names, Registration.Borrows free (next names)) :
      Registration.Borrows free (.plan next)
  | config {next : Config → Registration ν}
      (later : ∀ config, Registration.Borrows free (next config)) :
      Registration.Borrows free (.config next)
  | declare (name label : String) (kind : ValueKind) {next : Registration ν}
      (later : Registration.Borrows free next) :
      Registration.Borrows free (.declare name label kind next)
  | withInit (name : String) {init : Initialiser ν} {next : Registration ν}
      (inside : Initialiser.Borrows free init) (later : Registration.Borrows free next) :
      Registration.Borrows free (.withInit name init next)
  | withOnLet (name : String) {body next : Registration ν}
      (inside : Registration.Borrows free body) (later : Registration.Borrows free next) :
      Registration.Borrows free (.withOnLet name body next)
  | letInit (name : String) {init : Initialiser ν} {next : Registration ν}
      (inside : Initialiser.Borrows free init) (later : Registration.Borrows free next) :
      Registration.Borrows free (.letInit name init next)
  | bind (name : String) {next : Registration ν} (later : Registration.Borrows free next) :
      Registration.Borrows free (.bind name next)
  | eager (name : String) {next : Registration ν} (later : Registration.Borrows free next) :
      Registration.Borrows free (.eager name next)
  | inspect (name : String) {next : String → Bool → Bool → Registration ν}
      (later : ∀ label bound applied, Registration.Borrows free (next label bound applied)) :
      Registration.Borrows free (.inspect name next)

inductive Initialiser.Borrows {ν : Type} (free : Prop) : Initialiser ν → Prop
  | mk {steps : Script ν .leaf} (value : Expression) (inside : Script.Borrows free steps) :
      Initialiser.Borrows free (.mk steps value)

end

/-! ## Whatever is free to change the environment borrows -/

mutual

theorem Script.borrows_free : {t : Target} → (script : Script ν t) → script.Borrows True
  | _, .done => .done
  | _, .stop reason => .stop reason
  | _, .note entry next => .note entry next.borrows_free
  | _, .log message next => .log message next.borrows_free
  | _, .fail next => .fail next.borrows_free
  | _, .failNow => .failNow
  | _, .skipNow => .skipNow
  | _, .name next => .name fun title => (next title).borrows_free
  | _, .failed next => .failed fun mark => (next mark).borrows_free
  | _, .skipped next => .skipped fun mark => (next mark).borrows_free
  | _, .cleanup body next => .cleanup body.borrows_free next.borrows_free
  | _, .tempDir next => .tempDir fun number => (next number).borrows_free
  | _, .directories next => .directories fun existing => (next existing).borrows_free
  | _, .run title body next => .run title body.borrows_free fun passed => (next passed).borrows_free
  | _, .guard body next => .guard body.borrows_free fun outcome => (next outcome).borrows_free
  | _, .environment key next => .environment key fun value => (next value).borrows_free
  | _, .setEnvironment key value next => .setEnvironment trivial key value next.borrows_free
  | _, .spec config body next => .spec config body.borrows_free next.borrows_free
  | _, .defer body next => .defer body.borrows_free next.borrows_free
  | _, .tags next => .tags fun names => (next names).borrows_free
  | _, .counts next => .counts fun cached deferred => (next cached deferred).borrows_free
  | _, .random next => .random fun source => (next source).borrows_free
  | _, .setRandom source next => .setRandom source next.borrows_free
  | _, .get key next => .get key fun value => (next value).borrows_free
  | _, .getOrDefault key next => .getOrDefault key fun value => (next value).borrows_free
  | _, .set key value next => .set key value next.borrows_free

theorem Registration.borrows_free : (body : Registration ν) → body.Borrows True
  | .done => .done
  | .panic payload => .panic payload
  | .note entry next => .note entry next.borrows_free
  | .describe description place body next =>
    .describe description place body.borrows_free next.borrows_free
  | .leaf description place body next => .leaf description place body.borrows_free next.borrows_free
  | .before body next => .before body.borrows_free next.borrows_free
  | .after body next => .after body.borrows_free next.borrows_free
  | .around enter exit next => .around enter.borrows_free exit.borrows_free next.borrows_free
  | .beforeAll body next => .beforeAll body.borrows_free next.borrows_free
  | .afterAll body next => .afterAll body.borrows_free next.borrows_free
  | .modify modifier next => .modify modifier next.borrows_free
  | .finish next => .finish next.borrows_free
  | .plan next => .plan fun names => (next names).borrows_free
  | .config next => .config fun config => (next config).borrows_free
  | .declare name label kind next => .declare name label kind next.borrows_free
  | .withInit name init next => .withInit name init.borrows_free next.borrows_free
  | .withOnLet name body next => .withOnLet name body.borrows_free next.borrows_free
  | .letInit name init next => .letInit name init.borrows_free next.borrows_free
  | .bind name next => .bind name next.borrows_free
  | .eager name next => .eager name next.borrows_free
  | .inspect name next => .inspect name fun label bound applied =>
    (next label bound applied).borrows_free

theorem Initialiser.borrows_free : (init : Initialiser ν) → init.Borrows True
  | .mk steps value => .mk value steps.borrows_free

end

/-! ## What a run holds -/

structure Variable.Borrows (free : Prop) (v : Variable ν) : Prop where
  init : ∀ init ∈ v.init, init.Borrows free
  onLet : ∀ body ∈ v.onLet, body.Borrows free

theorem Variable.borrows_free (v : Variable ν) : v.Borrows True :=
  ⟨fun init _ => init.borrows_free, fun body _ => body.borrows_free⟩

def World.Borrows (free : Prop) (w : World ν) : Prop :=
  ∀ entry ∈ w.named, entry.2.Borrows free

structure State.Borrows (free : Prop) {t : Target} (s : State ν t) : Prop where
  world : s.world.Borrows free
  scope : ∀ binding ∈ t.scope s.own, binding.init.Borrows free

theorem World.Borrows.flow {free : Prop} {w : World ν} (borrows : w.Borrows free)
    (recorder : Recorder) : State.Borrows free (⟨w, recorder, ()⟩ : State ν .flow) :=
  ⟨borrows, List.forall_mem_nil _⟩

inductive Hook.Borrows (free : Prop) : Hook ν → Prop
  | before {body : Script ν .leaf} (inside : body.Borrows free) : Hook.Borrows free (.before body)
  | after {body : Script ν .leaf} (inside : body.Borrows free) : Hook.Borrows free (.after body)
  | around {enter exit : Script ν .leaf} (first : enter.Borrows free) (last : exit.Borrows free) :
      Hook.Borrows free (.around enter exit)
  | eager {v : Variable ν} (inside : v.Borrows free) : Hook.Borrows free (.eager v)

structure Group.Borrows (free : Prop) (group : Group ν) : Prop where
  hooks : ∀ hook ∈ group.hooks, hook.Borrows free
  beforeAll : ∀ hook ∈ group.beforeAll, hook.Borrows free
  afterAll : ∀ hook ∈ group.afterAll, hook.Borrows free
  bindings : ∀ binding ∈ group.bindings, binding.init.Borrows free

def Chain.Borrows (free : Prop) (chain : Chain ν) : Prop :=
  ∀ group ∈ chain, group.Borrows free

inductive Item.Borrows (free : Prop) : Item ν → Prop
  | leaf {l : Leaf ν} (inside : l.body.Borrows free) : Item.Borrows free (.leaf l)
  | group {g : Group ν} {items : List (Item ν)} (here : g.Borrows free)
      (inside : ∀ item ∈ items, Item.Borrows free item) : Item.Borrows free (.group g items)

structure Building.Borrows (free : Prop) (b : Building ν) : Prop where
  group : b.group.Borrows free
  items : ∀ item ∈ b.items, item.Borrows free

theorem Group.borrows_bare (free : Prop) (index : Nat) (description : String) (place : Location) :
    ({ index, description, place } : Group ν).Borrows free where
  hooks := List.forall_mem_nil _
  beforeAll := List.forall_mem_nil _
  afterAll := List.forall_mem_nil _
  bindings := List.forall_mem_nil _

theorem Building.borrows_bare (free : Prop) (index : Nat) (description : String) (place : Location)
    (finished : Bool) (nextIndex : Nat) :
    (⟨{ index, description, place }, [], finished, nextIndex⟩ : Building ν).Borrows free :=
  ⟨Group.borrows_bare free index description place, List.forall_mem_nil _⟩

namespace Variable.Borrows

variable {free : Prop} {v : Variable ν}

theorem unbound (free : Prop) (id : Nat) (label : String) (kind : ValueKind) :
    (⟨id, label, kind, none, none⟩ : Variable ν).Borrows free where
  init _ same := absurd same nofun
  onLet _ same := absurd same nofun

theorem withInit (borrows : v.Borrows free) {init : Initialiser ν} (inside : init.Borrows free) :
    ({ v with init := some init } : Variable ν).Borrows free where
  init _ same := Option.some.inj same ▸ inside
  onLet := borrows.onLet

theorem withOnLet (borrows : v.Borrows free) {body : Registration ν} (inside : body.Borrows free) :
    ({ v with onLet := some body } : Variable ν).Borrows free where
  init := borrows.init
  onLet _ same := Option.some.inj same ▸ inside

end Variable.Borrows
end NestedSpec
