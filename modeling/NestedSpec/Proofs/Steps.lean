import NestedSpec.Proofs.Coverage
import NestedSpec.Proofs.Declarations

/-!
# What the steps of a declaration come to

As long as a spec is open, a step does what it says. Once the leaves have run, what would register
something is refused: nothing comes of it but an error on the host.
-/

namespace NestedSpec

variable {ν α β : Type}

def Surroundings.nested (here : Surroundings ν) : Bool := !here.enclosing.isEmpty

def Building.inner (b : Building ν) (description : String) (place : Location) : Building ν :=
  { b with
    group := { index := b.nextIndex, description, place }
    items := []
    nextIndex := b.nextIndex + 1 }

variable {b b' : Building ν} {s : State ν .flow}

/-! ## One step after another -/

theorem result_bind_ok {first : Declaring ν α} {next : α → Declaring ν β} {value : α}
    (completed : ((first.run b).run s).result = .ok (value, b')) :
    (((first >>= next).run b).run s).result =
      (((next value).run b').run ((first.run b).run s).state).result := by
  rw [StateT.run_bind, Flow.run_bind_of_ok _ completed]

theorem result_bind_error {first : Declaring ν α} {next : α → Declaring ν β} {stop : Stop}
    (stopped : ((first.run b).run s).result = .error stop) :
    (((first >>= next).run b).run s).result = .error stop := by
  rw [StateT.run_bind, Flow.run_bind_of_error _ stopped]

theorem result_bind_ne_ok {first : Declaring ν α} {next : α → Declaring ν β} {stop : Stop}
    (stopped : ((first.run b).run s).result = .error stop) (ended : β × Building ν) :
    (((first >>= next).run b).run s).result ≠ .ok ended := by
  rw [result_bind_error stopped]
  exact nofun

/-- A flow that came to its end did so with what its first part had handed back. -/
theorem result_bind_pure {first : Flow ν .flow α} {last : α → β} {value : β}
    (completed : ((first >>= fun handed => pure (last handed)).run s).result = .ok value) :
    ∃ handed, (first.run s).result = .ok handed ∧ value = last handed := by
  rcases ended : first.run s with ⟨stop | handed, s', finalisers, cleanups⟩
  · rw [Flow.run_bind_error _ ended] at completed
    exact absurd completed nofun
  · rw [Flow.run_bind_ok _ ended] at completed
    exact ⟨handed, rfl, (Except.ok.inj completed).symm⟩

theorem result_lift {flow : Flow ν .flow α} {value : α}
    (completed : (((StateT.lift flow : Declaring ν α).run b).run s).result = .ok (value, b')) :
    b' = b := by
  rw [StateT.run_lift] at completed
  obtain ⟨handed, -, same⟩ := result_bind_pure completed
  exact congrArg Prod.snd same

theorem run_describe (isOpen : b.finished = false) (here : Surroundings ν) (description : String)
    (place : Location) (body : Surroundings ν → Declaring ν Unit) :
    (Declaring.describe here description place body).run b = (do
      let ended ← (body { here with enclosing := (b.group, b.items) :: here.enclosing }).run
        (b.inner description place)
      pure ((), { b with
        items := b.items ++ [.group ended.2.group ended.2.items]
        nextIndex := ended.2.nextIndex })) := by
  simp only [Declaring.describe, Declaring.whileOpen, StateT.run_bind, StateT.run_get, pure_bind,
    isOpen, Bool.false_eq_true, if_false, StateT.run_set, Building.inner]

/-- A nested spec that has come to its end is one more member. -/
theorem describe_completes (isOpen : b.finished = false) {here : Surroundings ν}
    {description : String} {place : Location} {body : Surroundings ν → Declaring ν Unit}
    {value : Unit}
    (completed : (((Declaring.describe here description place body).run b).run s).result =
      .ok (value, b')) :
    ∃ ended, (((body { here with enclosing := (b.group, b.items) :: here.enclosing }).run
        (b.inner description place)).run s).result = .ok ((), ended) ∧
      b' = { b with
        items := b.items ++ [.group ended.group ended.items]
        nextIndex := ended.nextIndex } := by
  rw [run_describe isOpen] at completed
  obtain ⟨ended, came, same⟩ := result_bind_pure completed
  exact ⟨ended.2, came, congrArg Prod.snd same⟩

/-! ## Single steps -/

def reported {α : Type} (value : α) (message : String) (b : Building ν) (s : State ν .flow) :
    Step ν .flow (α × Building ν) :=
  ⟨.ok (value, b), { s with recorder := (s.recorder.log ("testcase: " ++ message)).fail }, [], []⟩

namespace Declaring

variable {b b' : Building ν} {s : State ν .flow} {here : Surroundings ν}

theorem run_whileOpen (isOpen : b.finished = false) (what : String) (body : Declaring ν Unit) :
    (whileOpen what body).run b = body.run b := by
  simp [whileOpen, isOpen]

/-- After the leaves have run a call is refused, whatever it was to do. -/
theorem run_whileOpen_closed (closed : b.finished = true) (what : String) (body : Declaring ν Unit)
    (s : State ν .flow) : ((whileOpen what body).run b).run s =
      reported () (what ++ " registered after the spec started running") b s := by
  unfold whileOpen
  rw [StateT.run_bind, StateT.run_get, pure_bind, if_pos closed]
  rfl

theorem run_bindHere_closed (closed : b.finished = true) (v : Variable ν) (init : Initialiser ν)
    (s : State ν .flow) : ((bindHere v init).run b).run s =
      reported false "variable binding registered after the spec started running" b s := by
  have refused := run_whileOpen_closed closed "variable binding" (pure ()) s
  unfold bindHere
  rw [StateT.run_bind, StateT.run_get, pure_bind, if_pos closed, StateT.run_bind,
    Flow.run_bind_ok _ refused]
  rfl

theorem run_letInit_closed (closed : b.finished = true) (deeper : Deeper ν) (v : Variable ν)
    (init : Initialiser ν) (s : State ν .flow) : ((letInit deeper here v init).run b).run s =
      reported () "variable binding registered after the spec started running" b s := by
  unfold letInit
  rw [StateT.run_bind, Flow.run_bind_ok _ (run_bindHere_closed closed v init s)]
  rfl

theorem result_reportClash (v : Variable ν) (b : Building ν) (s : State ν .flow) :
    (((reportClash v).run b).run s).result = .ok ((), b) := by
  unfold reportClash
  rw [StateT.run_bind, StateT.run_get, pure_bind]
  dsimp only
  split <;> rfl

theorem result_bindHere {b : Building ν} (isOpen : b.finished = false) (v : Variable ν)
    (init : Initialiser ν) (s : State ν .flow) :
    (((bindHere v init).run b).run s).result = .ok (!b.group.boundOnce.contains v.id,
      { b with group := b.group.bind ⟨v.id, v.label, init⟩ }) := by
  unfold bindHere
  rw [result_bind_ok rfl, if_neg (by simp [isOpen]),
    result_bind_ok (result_reportClash v b _), result_bind_ok rfl]
  rfl

theorem bindHere_completes (isOpen : b.finished = false) {v : Variable ν} {init : Initialiser ν}
    {first : Bool} (completed : (((bindHere v init).run b).run s).result = .ok (first, b')) :
    b' = { b with group := b.group.bind ⟨v.id, v.label, init⟩ } := by
  rw [result_bindHere isOpen] at completed
  exact (congrArg Prod.snd (Except.ok.inj completed)).symm

theorem run_applyModifier (isOpen : b.finished = false) {modifier : Modifier}
    (allowed : modifier = .parallel → (chainTo here b.group).hasSideEffect = false)
    (s : State ν .flow) : ((applyModifier here modifier).run b).run s =
      ⟨.ok ((), { b with group := b.group.modify modifier }), s, [], []⟩ := by
  have unblocked : ¬ (modifier = .parallel && (chainTo here b.group).hasSideEffect) = true := by
    simpa using allowed
  unfold applyModifier
  rw [run_whileOpen isOpen, StateT.run_bind, StateT.run_get, pure_bind]
  dsimp only
  rw [if_neg unblocked]
  rfl

/-- Leaves cannot be made parallel where a side effect has been declared. -/
theorem run_applyModifier_blocked (isOpen : b.finished = false)
    (blocked : (chainTo here b.group).hasSideEffect = true) (s : State ν .flow) :
    ((applyModifier here .parallel).run b).run s =
      reported () "parallel requested in a spec that has a side effect" b s := by
  unfold applyModifier
  rw [run_whileOpen isOpen, StateT.run_bind, StateT.run_get, pure_bind]
  dsimp only
  rw [if_pos (by simpa using blocked)]
  rfl

theorem run_finish_nested (nested : here.nested = true) (deeper : Deeper ν) (b : Building ν)
    (s : State ν .flow) : ((finish deeper here).run b).run s =
      reported () "finish called on a nested spec; only the outermost spec runs" b s := by
  unfold finish
  rw [StateT.run_bind, StateT.run_get, pure_bind]
  exact congrArg (fun action : Declaring ν Unit => (action.run b).run s) (if_pos nested)

theorem run_finish_closed (closed : b.finished = true) (deeper : Deeper ν) (config : Config)
    (mode : RunMode) (s : State ν .flow) :
    ((finish deeper ⟨config, mode, []⟩).run b).run s = ⟨.ok ((), b), s, [], []⟩ := by
  simp [finish, closed]

end Declaring

theorem finished_finish {deeper : Deeper ν} {config : Config} {mode : RunMode} {value : Unit}
    (completed : (((Declaring.finish deeper ⟨config, mode, []⟩).run b).run s).result =
      .ok (value, b')) : b'.finished = true := by
  obtain ⟨group, items, finished, nextIndex⟩ := b
  cases finished with
  | true =>
    cases completed
    rfl
  | false =>
    rw [Declaring.run_finish] at completed
    obtain ⟨_, -, same⟩ := result_bind_pure completed
    exact congrArg (·.2.finished) same

end NestedSpec
