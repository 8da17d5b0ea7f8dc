import NestedSpec.Proofs.Borrowing

/-!
# What declarations are composed of

Applying a registration takes few kinds of steps: leaves and hooks are added, settings changed,
variables bound, specs declared inside, and the leaves are run. What is to hold of all registrations
is shown for each kind of step, and follows by induction on how they are composed.
-/

namespace NestedSpec

variable {ν α β : Type}

structure Unbinding (update : Group ν → Group ν) : Prop where
  index : ∀ group, (update group).index = group.index
  bindings : ∀ group, (update group).bindings = group.bindings

structure Unsettling (update : Group ν → Group ν) : Prop where
  index : ∀ group, (update group).index = group.index
  sideEffect : ∀ group, (update group).sideEffect = group.sideEffect
  parallel : ∀ group, (update group).parallel = group.parallel

structure Hooking (free : Prop) (update : Group ν → Group ν) : Prop
    extends Unbinding update, Unsettling update where
  boundOnce : ∀ group, (update group).boundOnce = group.boundOnce
  borrows : ∀ group, group.Borrows free → (update group).Borrows free

theorem Hooking.append {free : Prop} {hooks : List (Hook ν)} {first last : List (Script ν .flow)}
    (borrow : ∀ hook ∈ hooks, hook.Borrows free) (borrowFirst : ∀ hook ∈ first, hook.Borrows free)
    (borrowLast : ∀ hook ∈ last, hook.Borrows free) :
    Hooking free fun group => { group with
      hooks := group.hooks ++ hooks
      beforeAll := group.beforeAll ++ first
      afterAll := group.afterAll ++ last } where
  index _ := rfl
  bindings _ := rfl
  sideEffect _ := rfl
  parallel _ := rfl
  boundOnce _ := rfl
  borrows _ borrows :=
    { hooks := List.forall_mem_append.mpr ⟨borrows.hooks, borrow⟩
      beforeAll := List.forall_mem_append.mpr ⟨borrows.beforeAll, borrowFirst⟩
      afterAll := List.forall_mem_append.mpr ⟨borrows.afterAll, borrowLast⟩
      bindings := borrows.bindings }

theorem Hooking.hooks {free : Prop} {hook : Hook ν} (inside : hook.Borrows free) :
    Hooking free fun group => { group with hooks := group.hooks ++ [hook] } := by
  simpa using append (List.forall_mem_singleton.mpr inside) (List.forall_mem_nil _)
    (List.forall_mem_nil _)

theorem Hooking.beforeAll {free : Prop} {hook : Script ν .flow} (inside : hook.Borrows free) :
    Hooking free fun group => { group with beforeAll := group.beforeAll ++ [hook] } := by
  simpa using append (List.forall_mem_nil _) (List.forall_mem_singleton.mpr inside)
    (List.forall_mem_nil _)

theorem Hooking.afterAll {free : Prop} {hook : Script ν .flow} (inside : hook.Borrows free) :
    Hooking free fun group => { group with afterAll := group.afterAll ++ [hook] } := by
  simpa using append (List.forall_mem_nil _) (List.forall_mem_nil _)
    (List.forall_mem_singleton.mpr inside)

theorem unbinding_modify (modifier : Modifier) :
    Unbinding fun group : Group ν => group.modify modifier := by
  cases modifier <;> exact ⟨fun _ => rfl, fun _ => rfl⟩

namespace Declaring

/-- What follows a binding: what belongs to the variable is applied if it was its first. -/
def followUp (deeper : Deeper ν) (here : Surroundings ν) (v : Variable ν) (first : Bool) :
    Declaring ν Unit := do
  if first then
    if let some body := v.onLet then
      deeper.onLet here body

theorem letInit_eq (deeper : Deeper ν) (here : Surroundings ν) (v : Variable ν)
    (init : Initialiser ν) :
    letInit deeper here v init = bindHere v init >>= followUp deeper here v := rfl

theorem followUp_silent {v : Variable ν} {first : Bool} (silent : first = true → v.onLet = none)
    (deeper : Deeper ν) (here : Surroundings ν) : followUp deeper here v first = pure () := by
  unfold followUp
  cases first with
  | false => rfl
  | true =>
    rw [if_pos rfl, silent rfl]

theorem followUp_called {v : Variable ν} {body : Registration ν} (callback : v.onLet = some body)
    (deeper : Deeper ν) (here : Surroundings ν) :
    followUp deeper here v true = deeper.onLet here body := by
  unfold followUp
  rw [if_pos rfl, callback]

theorem followUp_cases {P : Declaring ν Unit → Prop} {deeper : Deeper ν} {here : Surroundings ν}
    {v : Variable ν} (silent : P (pure ())) (each : ∀ body ∈ v.onLet, P (deeper.onLet here body))
    (first : Bool) : P (followUp deeper here v first) := by
  cases first with
  | false => exact silent
  | true =>
    cases callback : v.onLet with
    | none =>
      rw [followUp_silent fun _ => callback]
      exact silent
    | some body =>
      rw [followUp_called callback]
      exact each body callback

end Declaring

/-- Steps that declare a spec, where `deeper` are the entries to the interpreter one call further
down and `free` says whether what is declared may do more than borrow. They are indexed by what
surrounds the spec. -/
inductive Declared (deeper : Deeper ν) (free : Prop) : Surroundings ν → Declaring ν Unit → Prop
  | done {here : Surroundings ν} : Declared deeper free here (pure ())
  | raise {here : Surroundings ν} (stop : Stop) :
      Declared deeper free here (StateT.lift (Flow.raise stop))
  | note {here : Surroundings ν} (entry : ν) :
      Declared deeper free here (StateT.lift (Flow.note entry))
  | andThen {here : Surroundings ν} {first next : Declaring ν Unit}
      (declared : Declared deeper free here first) (later : Declared deeper free here next) :
      Declared deeper free here (first >>= fun _ => next)
  | look {here : Surroundings ν} {next : Building ν → Declaring ν Unit}
      (later : ∀ b, Declared deeper free here (next b)) : Declared deeper free here (get >>= next)
  | withVariable {here : Surroundings ν} (name : String) {next : Variable ν → Declaring ν Unit}
      (later : ∀ v, v.Borrows free → Declared deeper free here (next v)) :
      Declared deeper free here (Declaring.lookupVariable name >>= next)
  | keepVariable {here : Surroundings ν} (name : String) {v : Variable ν}
      (borrows : v.Borrows free) : Declared deeper free here (Declaring.keepVariable name v)
  | declare {here : Surroundings ν} (name label : String) (kind : ValueKind) :
      Declared deeper free here (Declaring.declare name label kind)
  | addLeaf {here : Surroundings ν} (what : String) {leaf : Leaf ν}
      (inside : leaf.body.Borrows free) :
      Declared deeper free here (Declaring.whileOpen what (Declaring.addItem (.leaf leaf)))
  | addHook {here : Surroundings ν} (what : String) {update : Group ν → Group ν}
      (hooking : Hooking free update) :
      Declared deeper free here (Declaring.whileOpen what (Declaring.changeGroup update))
  | applyModifier {here : Surroundings ν} (modifier : Modifier) :
      Declared deeper free here (Declaring.applyModifier here modifier)
  | letInit {here : Surroundings ν} {v : Variable ν} {init : Initialiser ν}
      (borrows : v.Borrows free) (inside : init.Borrows free) :
      Declared deeper free here (Declaring.letInit deeper here v init)
  | describe {here : Surroundings ν} (description : String) (place : Location)
      {body : Surroundings ν → Declaring ν Unit}
      (inside : ∀ inner, Declared deeper free inner (body inner)) :
      Declared deeper free here (Declaring.describe here description place body)
  | finish (here : Surroundings ν) : Declared deeper free here (Declaring.finish deeper here)

def Registration.declaration (deeper : Deeper ν) (here : Surroundings ν) (body : Registration ν) :
    Declaring ν Unit := do
  body.apply deeper here
  Declaring.finish deeper here

namespace Declared

variable {deeper : Deeper ν} {free : Prop}

theorem apply : {body : Registration ν} → body.Borrows free → (here : Surroundings ν) →
    Declared deeper free here (body.apply deeper here)
  | _, .done, _ => done
  | _, .panic _, _ => raise _
  | _, .note entry later, here => (note entry).andThen (apply later here)
  | _, .describe description place inside later, here =>
    (describe description place fun inner => apply inside inner).andThen (apply later here)
  | _, .leaf _ _ inside later, here => (addLeaf _ inside).andThen (apply later here)
  | _, .before inside later, here =>
    (addHook _ (.hooks (.before inside))).andThen (apply later here)
  | _, .after inside later, here =>
    (addHook _ (.hooks (.after inside))).andThen (apply later here)
  | _, .around first last later, here =>
    (addHook _ (.hooks (.around first last))).andThen (apply later here)
  | _, .beforeAll inside later, here =>
    (addHook _ (.beforeAll inside)).andThen (apply later here)
  | _, .afterAll inside later, here => (addHook _ (.afterAll inside)).andThen (apply later here)
  | _, .modify modifier later, here => (applyModifier modifier).andThen (apply later here)
  | _, .finish later, here => (finish here).andThen (apply later here)
  | _, .plan later, here => look fun _ => apply (later _) here
  | _, .config later, here => apply (later here.config) here
  | _, .declare name label kind later, here =>
    (declare name label kind).andThen (apply later here)
  | _, .withInit name inside later, here => withVariable name fun _ borrows =>
    (keepVariable name (borrows.withInit inside)).andThen (apply later here)
  | _, .withOnLet name inside later, here => withVariable name fun _ borrows =>
    (keepVariable name (borrows.withOnLet inside)).andThen (apply later here)
  | _, .letInit name inside later, here => withVariable name fun _ borrows =>
    (letInit borrows inside).andThen (apply later here)
  | _, .bind name later, here => withVariable name fun v borrows => by
    cases own : v.init with
    | none => exact apply later here
    | some init => exact (letInit borrows (borrows.init init own)).andThen (apply later here)
  | _, .eager name later, here => withVariable name fun _ borrows =>
    (addHook _ (.hooks (.eager borrows))).andThen (apply later here)
  | _, .inspect name later, here => withVariable name fun _ _ => apply (later _ _ _) here

theorem declaration {body : Registration ν} (borrows : body.Borrows free)
    (here : Surroundings ν) : Declared deeper free here (body.declaration deeper here) :=
  (apply borrows here).andThen (finish here)

end Declared

/-! ## Declarations as flows -/

theorem lookup_filter_ne {κ : Type} [BEq κ] [LawfulBEq κ] [DecidableEq κ] {name other : κ}
    (away : other ≠ name) (table : List (κ × α)) :
    (table.filter (·.1 ≠ name)).lookup other = table.lookup other := by
  induction table with
  | nil => rfl
  | cons entry rest ih =>
    obtain ⟨key, value⟩ := entry
    by_cases same : key = name
    · have passed : (other == key) = false := by simp [same, away]
      rw [List.filter_cons_of_neg (by simp [same]), ih, List.lookup_cons, passed]
    · rw [List.filter_cons_of_pos (by simp [same]), List.lookup_cons, List.lookup_cons, ih]

theorem lookup_kept {κ : Type} [BEq κ] [LawfulBEq κ] [DecidableEq κ] (name other : κ) (value : α)
    (table : List (κ × α)) :
    ((name, value) :: table.filter (·.1 ≠ name)).lookup other =
      if other = name then some value else table.lookup other := by
  by_cases same : other = name
  · simp [same]
  · have passed : (other == name) = false := by simpa using same
    rw [List.lookup_cons, passed, lookup_filter_ne same, if_neg same]

def Declares (deeper : Deeper ν) (sees : Bool) (declaring : Declaring ν α) : Prop :=
  ∀ b, Composed deeper sees (declaring.run b)

namespace Declares

variable {deeper : Deeper ν} {sees : Bool}

theorem ret (value : α) : Declares deeper sees (pure value : Declaring ν α) :=
  fun b => .pure (value, b)

theorem bind {first : Declaring ν α} {next : α → Declaring ν β}
    (declares : Declares deeper sees first)
    (later : ∀ value, Declares deeper sees (next value)) : Declares deeper sees (first >>= next) :=
  fun b => (declares b).bind fun ended => later ended.1 ended.2

theorem read : Declares deeper sees (get : Declaring ν (Building ν)) :=
  fun b => .pure (b, b)

theorem put (b : Building ν) : Declares deeper sees (set b : Declaring ν Unit) :=
  fun _ => .pure ((), b)

theorem change (update : Building ν → Building ν) :
    Declares deeper sees (modify update : Declaring ν Unit) :=
  fun b => .pure ((), update b)

theorem lift {flow : Flow ν .flow α} (composed : Composed deeper sees flow) :
    Declares deeper sees (StateT.lift flow) :=
  fun b => composed.bind fun value => .pure (value, b)

theorem misuse (message : String) :
    Declares deeper sees (Declaring.misuse message : Declaring ν Unit) :=
  lift (Composed.error _)

theorem whileOpen (what : String) {body : Declaring ν Unit} (declares : Declares deeper sees body) :
    Declares deeper sees (Declaring.whileOpen what body) := by
  refine read.bind fun b => ?_
  split
  · exact misuse _
  · exact declares

theorem keepVariable (name : String) (v : Variable ν) :
    Declares deeper sees (Declaring.keepVariable name v) :=
  lift <| .adjust (fun _ => rfl) fun _ _ known =>
    ⟨fun other view => by rw [lookup_kept, lookup_kept, known.named other view],
      known.nextVariable, known.entered⟩

theorem declare (name label : String) (kind : ValueKind) :
    Declares deeper sees (Declaring.declare name label kind : Declaring ν Unit) :=
  (lift (.ask fun _ _ same => same.world.nextVariable rfl)).bind fun _ =>
    (lift (Composed.countVariables _)).bind fun _ => keepVariable _ _

theorem applyModifier (here : Surroundings ν) (modifier : Modifier) :
    Declares deeper sees (Declaring.applyModifier here modifier) := by
  refine whileOpen _ (read.bind fun b => ?_)
  dsimp only
  split
  · exact misuse _
  · exact change _

theorem describe (here : Surroundings ν) (description : String) (place : Location)
    {body : Surroundings ν → Declaring ν Unit} (each : ∀ inner, Declares deeper sees (body inner)) :
    Declares deeper sees (Declaring.describe here description place body) :=
  whileOpen _ <| read.bind fun _ => (put _).bind fun _ => (each _).bind fun _ =>
    read.bind fun _ => put _

theorem reportClash (v : Variable ν) : Declares deeper sees (Declaring.reportClash v) := by
  refine read.bind fun b => ?_
  split
  · exact misuse _
  · exact ret ()

theorem bindHere (v : Variable ν) (init : Initialiser ν) :
    Declares deeper sees (Declaring.bindHere v init) := by
  refine read.bind fun b => ?_
  split
  · exact (whileOpen _ (ret ())).bind fun _ => ret _
  · exact (reportClash v).bind fun _ => (change _).bind fun _ => ret _

theorem letInit (here : Surroundings ν) (v : Variable ν) (init : Initialiser ν) :
    Declares deeper sees (Declaring.letInit deeper here v init) :=
  (bindHere v init).bind (Declaring.followUp_cases (ret ()) fun body _ b => .onLet here body b)

theorem finish (here : Surroundings ν) : Declares deeper sees (Declaring.finish deeper here) := by
  refine read.bind fun b => ?_
  split
  · exact misuse _
  · split
    · exact ret ()
    · let runner : Runner ν := ⟨here.config, here.mode, deeper⟩
      have run : Composed runner.deeper sees (runner.run (.group b.group b.items)) :=
        Composed.run _
      exact (put _).bind fun _ => lift run

end Declares

/-- What declares a spec is composed as a flow, whatever has been declared before. -/
theorem Declared.declares {deeper : Deeper ν} {sees : Bool} {here : Surroundings ν}
    {action : Declaring ν Unit} (declared : Declared deeper True here action) :
    Declares deeper sees action := by
  induction declared with
  | done => exact .ret ()
  | raise => exact .lift (.raise _)
  | note entry => exact .lift (.call (.note entry))
  | andThen _ _ ih ihLater => exact ih.bind fun _ => ihLater
  | look _ ih => exact Declares.read.bind ih
  | withVariable name _ ih =>
    exact (Declares.lift (Composed.lookupVariable name)).bind fun v => ih v v.borrows_free
  | keepVariable name => exact .keepVariable name _
  | declare name label kind => exact .declare name label kind
  | addLeaf what | addHook what => exact .whileOpen what (.change _)
  | applyModifier modifier => exact .applyModifier _ modifier
  | letInit => exact .letInit _ _ _
  | describe description place _ ih => exact .describe _ description place ih
  | finish here => exact .finish here

theorem Composed.apply {deeper : Deeper ν} {sees : Bool} (here : Surroundings ν)
    (body : Registration ν) (b : Building ν) : Composed deeper sees ((body.apply deeper here).run b) :=
  (Declared.apply body.borrows_free here).declares b

theorem Composed.declareAndRun {deeper : Deeper ν} {sees : Bool} (mode : RunMode) (config : Config)
    (body : Registration ν) :
    Composed deeper sees (body.declareAndRun deeper mode config) := by
  refine (Composed.ask fun _ _ same => same.name).bind fun name => ?_
  have declared : Declared deeper True ⟨config, mode, []⟩
      (body.declaration deeper ⟨config, mode, []⟩) := .declaration body.borrows_free _
  exact (declared.declares _).bind fun _ => .pure ()

end NestedSpec
