import NestedSpec.Proofs.Enrolling

/-!
# Calls on a spec

What is called on a spec and on the specs nested in it, told in order. Before the leaves have run a
call does what it says. After that every call that would register something is refused: nothing
comes of it but an error on the host.
-/

namespace NestedSpec

variable {ν α β : Type}

/-- A call on a spec. Groups are told by their numbers, and `around` are the numbers of the groups
around one, outermost first. -/
inductive Operation (ν : Type) where
  | leaf (group : Nat) (leaf : Leaf ν)
  | modified (around : List Nat) (group : Nat) (modifier : Modifier)
  | blocked (around : List Nat) (group : Nat)
  | refused (what : String)
  | finishedNested
  | finishedAgain
  | ran (tree : Item ν)

namespace Operation

def late : Operation ν → Bool
  | refused _ | finishedAgain => true
  | leaf _ _ | modified _ _ _ | blocked _ _ | finishedNested | ran _ => false

def mistaken : Operation ν → Bool
  | blocked _ _ | refused _ | finishedNested => true
  | leaf _ _ | modified _ _ _ | finishedAgain | ran _ => false

end Operation

def numbers (stack : List (Group ν × List (Item ν))) : List Nat :=
  (stack.map (·.1.index)).reverse

/-- A computation that declares a spec, run from there, makes these calls, in this order. No leaf is
left out, nor a modifier that makes leaves parallel or not, nor a run or a mistake. -/
inductive Operates :
    Surroundings ν → {α : Type} → Declaring ν α → Building ν → State ν .flow →
      List (Operation ν) → Prop
  | ret {here : Surroundings ν} {α : Type} (value : α) (b : Building ν) (s : State ν .flow) :
      Operates here (pure value) b s []
  | lift {here : Surroundings ν} {α : Type} {flow : Flow ν .flow α}
      (silent : ∀ s, (flow.run s).state.recorder = s.recorder) (b : Building ν)
      (s : State ν .flow) : Operates here (StateT.lift flow) b s []
  | read {here : Surroundings ν} (b : Building ν) (s : State ν .flow) : Operates here get b s []
  | bindOk {here : Surroundings ν} {α β : Type} {first : Declaring ν α} {next : α → Declaring ν β}
      {b b' : Building ν} {s : State ν .flow} {value : α} {ops later : List (Operation ν)}
      (operates : Operates here first b s ops)
      (completed : ((first.run b).run s).result = .ok (value, b'))
      (goesOn : Operates here (next value) b' ((first.run b).run s).state later) :
      Operates here (first >>= next) b s (ops ++ later)
  | bindError {here : Surroundings ν} {α β : Type} {first : Declaring ν α}
      {next : α → Declaring ν β} {b : Building ν} {s : State ν .flow} {stop : Stop}
      {ops : List (Operation ν)} (operates : Operates here first b s ops)
      (stopped : ((first.run b).run s).result = .error stop) :
      Operates here (first >>= next) b s ops
  | addLeaf {here : Surroundings ν} (what : String) (leaf : Leaf ν) {b : Building ν}
      (isOpen : b.finished = false) (s : State ν .flow) :
      Operates here (Declaring.whileOpen what (Declaring.addItem (.leaf leaf))) b s
        [.leaf b.group.index leaf]
  | change {here : Surroundings ν} (what : String) {update : Group ν → Group ν}
      (unsettling : Unsettling update) {b : Building ν} (isOpen : b.finished = false)
      (s : State ν .flow) :
      Operates here (Declaring.whileOpen what (Declaring.changeGroup update)) b s []
  | modify {here : Surroundings ν} {modifier : Modifier} {b : Building ν}
      (isOpen : b.finished = false)
      (allowed : modifier = .parallel →
        (Declaring.chainTo here b.group).hasSideEffect = false) (s : State ν .flow) :
      Operates here (Declaring.applyModifier here modifier) b s
        [.modified (numbers here.enclosing) b.group.index modifier]
  | blocked {here : Surroundings ν} {b : Building ν} (isOpen : b.finished = false)
      (blocked : (Declaring.chainTo here b.group).hasSideEffect = true) (s : State ν .flow) :
      Operates here (Declaring.applyModifier here .parallel) b s
        [.blocked (numbers here.enclosing) b.group.index]
  | bindHere {here : Surroundings ν} (v : Variable ν) (init : Initialiser ν) {b : Building ν}
      (isOpen : b.finished = false) (s : State ν .flow) :
      Operates here (Declaring.bindHere v init) b s []
  | describe {here : Surroundings ν} {description : String} {place : Location}
      {body : Surroundings ν → Declaring ν Unit} {b : Building ν} {s : State ν .flow}
      {ops : List (Operation ν)} (isOpen : b.finished = false)
      (inside : Operates { here with enclosing := (b.group, b.items) :: here.enclosing }
        (body { here with enclosing := (b.group, b.items) :: here.enclosing })
        (b.inner description place) s ops) :
      Operates here (Declaring.describe here description place body) b s ops
  | refused {here : Surroundings ν} (what : String) (body : Declaring ν Unit) {b : Building ν}
      (closed : b.finished = true) (s : State ν .flow) :
      Operates here (Declaring.whileOpen what body) b s [.refused what]
  | refusedBinding {here : Surroundings ν} (v : Variable ν) (init : Initialiser ν) {b : Building ν}
      (closed : b.finished = true) (s : State ν .flow) :
      Operates here (Declaring.bindHere v init) b s [.refused "variable binding"]
  | finish {deeper : Deeper ν} (respects : growth.RespectsDeeper deeper) {config : Config}
      {mode : RunMode} {b : Building ν} (isOpen : b.finished = false) (s : State ν .flow) :
      Operates ⟨config, mode, []⟩ (Declaring.finish deeper ⟨config, mode, []⟩) b s
        [.ran (.group b.group b.items)]
  | finishNested {deeper : Deeper ν} {here : Surroundings ν} (nested : here.nested = true)
      (b : Building ν) (s : State ν .flow) :
      Operates here (Declaring.finish deeper here) b s [.finishedNested]
  | finishAgain {deeper : Deeper ν} {config : Config} {mode : RunMode} {b : Building ν}
      (closed : b.finished = true) (s : State ν .flow) :
      Operates ⟨config, mode, []⟩ (Declaring.finish deeper ⟨config, mode, []⟩) b s
        [.finishedAgain]

/-! ## Every registration makes calls -/

def Operating (here : Surroundings ν) (action : Declaring ν α) : Prop :=
  ∀ b s, ∃ ops, Operates here action b s ops

def OperatingDeeper (deeper : Deeper ν) : Prop :=
  ∀ here body, Operating here (deeper.onLet here body)

namespace Operating

variable {here : Surroundings ν} {deeper : Deeper ν}

theorem ret (value : α) : Operating here (pure value : Declaring ν α) :=
  fun b s => ⟨_, .ret value b s⟩

theorem lift {flow : Flow ν .flow α} (silent : ∀ s, (flow.run s).state.recorder = s.recorder) :
    Operating here (StateT.lift flow : Declaring ν α) :=
  fun b s => ⟨_, .lift silent b s⟩

theorem read : Operating here (get : Declaring ν (Building ν)) :=
  fun b s => ⟨_, .read b s⟩

theorem bind {first : Declaring ν α} {next : α → Declaring ν β} (operating : Operating here first)
    (later : ∀ value, Operating here (next value)) : Operating here (first >>= next) := by
  intro b s
  obtain ⟨ops, operates⟩ := operating b s
  cases ended : ((first.run b).run s).result with
  | error stop => exact ⟨_, .bindError operates ended⟩
  | ok completed =>
    obtain ⟨more, goesOn⟩ := later completed.1 completed.2 ((first.run b).run s).state
    exact ⟨_, .bindOk operates ended goesOn⟩

theorem addLeaf (what : String) (leaf : Leaf ν) :
    Operating here (Declaring.whileOpen what (Declaring.addItem (.leaf leaf))) := by
  intro b s
  cases stage : b.finished with
  | true => exact ⟨_, .refused what _ stage s⟩
  | false => exact ⟨_, .addLeaf what leaf stage s⟩

theorem change (what : String) {update : Group ν → Group ν} (unsettling : Unsettling update) :
    Operating here (Declaring.whileOpen what (Declaring.changeGroup update)) := by
  intro b s
  cases stage : b.finished with
  | true => exact ⟨_, .refused what _ stage s⟩
  | false => exact ⟨_, .change what unsettling stage s⟩

theorem applyModifier (modifier : Modifier) :
    Operating here (Declaring.applyModifier here modifier) := by
  intro b s
  cases stage : b.finished with
  | true => exact ⟨_, .refused _ _ stage s⟩
  | false =>
    by_cases parallel : modifier = .parallel
    · subst parallel
      cases effect : (Declaring.chainTo here b.group).hasSideEffect with
      | true => exact ⟨_, .blocked stage effect s⟩
      | false => exact ⟨_, .modify stage (fun _ => effect) s⟩
    · exact ⟨_, .modify stage (fun same => absurd same parallel) s⟩

theorem bindHere (v : Variable ν) (init : Initialiser ν) :
    Operating here (Declaring.bindHere v init) := by
  intro b s
  cases stage : b.finished with
  | true => exact ⟨_, .refusedBinding v init stage s⟩
  | false => exact ⟨_, .bindHere v init stage s⟩

theorem describe (description : String) (place : Location)
    {body : Surroundings ν → Declaring ν Unit} (each : ∀ inner, Operating inner (body inner)) :
    Operating here (Declaring.describe here description place body) := by
  intro b s
  cases stage : b.finished with
  | true => exact ⟨_, .refused _ _ stage s⟩
  | false =>
    obtain ⟨ops, inside⟩ := each _ (b.inner description place) s
    exact ⟨_, .describe stage inside⟩

theorem finish (respects : growth.RespectsDeeper deeper) (here : Surroundings ν) :
    Operating here (Declaring.finish deeper here) := by
  obtain ⟨config, mode, enclosing⟩ := here
  intro b s
  cases enclosing with
  | cons around rest => exact ⟨_, .finishNested rfl b s⟩
  | nil =>
    cases stage : b.finished with
    | true => exact ⟨_, .finishAgain stage s⟩
    | false => exact ⟨_, .finish respects stage s⟩

theorem lookupVariable (name : String) :
    Operating here (Declaring.lookupVariable name : Declaring ν (Variable ν)) := by
  refine lift fun s => ?_
  have asked : (Flow.ask fun s => s.world.named.lookup name :
      Flow ν .flow (Option (Variable ν))).run s =
        ⟨.ok (s.world.named.lookup name), s, [], []⟩ := rfl
  unfold Flow.lookupVariable
  rw [Flow.run_bind_ok _ asked]
  cases s.world.named.lookup name <;> rfl

theorem keepVariable (name : String) (v : Variable ν) :
    Operating here (Declaring.keepVariable name v) :=
  lift fun _ => rfl

theorem declare (name label : String) (kind : ValueKind) :
    Operating here (Declaring.declare name label kind : Declaring ν Unit) :=
  (lift fun _ => rfl).bind fun _ => (lift fun _ => rfl).bind fun _ => keepVariable _ _

theorem letInit (below : OperatingDeeper deeper) (v : Variable ν) (init : Initialiser ν) :
    Operating here (Declaring.letInit deeper here v init) :=
  (bindHere v init).bind (Declaring.followUp_cases (ret ()) fun body _ => below here body)

end Operating

theorem Declared.operating {deeper : Deeper ν} (below : OperatingDeeper deeper)
    (respects : growth.RespectsDeeper deeper) {here : Surroundings ν} {action : Declaring ν Unit}
    (declared : Declared deeper True here action) : Operating here action := by
  induction declared with
  | done => exact .ret ()
  | raise | note => exact .lift fun _ => rfl
  | andThen _ _ ih ihLater => exact ih.bind fun _ => ihLater
  | look _ ih => exact Operating.read.bind ih
  | withVariable name _ ih => exact (Operating.lookupVariable name).bind fun v => ih v v.borrows_free
  | keepVariable name => exact .keepVariable name _
  | declare name label kind => exact .declare name label kind
  | addLeaf what => exact .addLeaf what _
  | addHook what hooking => exact .change what hooking.toUnsettling
  | applyModifier modifier => exact .applyModifier modifier
  | letInit => exact .letInit below _ _
  | describe description place _ ih => exact .describe description place ih
  | finish here => exact .finish respects here

theorem operating_deeper (levels : Nat) :
    OperatingDeeper (Deeper.within levels : Deeper ν) := by
  induction levels with
  | zero => exact fun _ _ => .lift fun _ => rfl
  | succ levels ih =>
    exact fun here body =>
      (Declared.apply body.borrows_free here).operating ih (Likeness.respects_deeper levels)

theorem Registration.operating (levels : Nat) (config : Config) (mode : RunMode)
    (body : Registration ν) :
    Operating ⟨config, mode, []⟩ (body.declaration (Deeper.within levels) ⟨config, mode, []⟩) :=
  (Declared.declaration body.borrows_free _).operating (operating_deeper levels)
    (Likeness.respects_deeper levels)

end NestedSpec
