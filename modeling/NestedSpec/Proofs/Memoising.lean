import NestedSpec.Proofs.Watching

/-!
# Variables are memoised

What an invocation of a leaf does with one variable is the run of a small machine, which keeps no
value, keeps one, or waits for the initialiser. The laws of memoisation are read off its steps. The
variables that they hold for are those whose initialiser does nothing with the variable itself.
-/

namespace NestedSpec

variable {ν : Type} {t : Target}

/-! ## Invocations -/

theorem Deferred.tracks (deferred : Deferred ν) : Tracks deferred.flow deferred.watch :=
  .exec (.initialise deferred.level) deferred.script

theorem Flow.kept_reported (flow : Flow ν .leaf Unit) (s : State ν .leaf) (id : Nat) :
    (flow.reported s).kept id = (flow.run s).state.kept id := by
  unfold Flow.reported Flow.reportFinaliser
  cases (flow.outcome s).panicMessage? <;> rfl

theorem FinalisersUse.leads {deferred : List (Deferred ν)} {s final : State ν .leaf}
    {uses : List VariableUse} (finalise : FinalisersUse deferred s uses final) (id : Nat) :
    Leads id (s.kept id) uses (final.kept id) := by
  induction finalise with
  | nil s => exact .nil _
  | @run newest older s final later rest ih =>
    have here := (newest.tracks s.popped).leads id
    rw [Flow.kept_reported] at ih
    exact here.append ih

theorem finalisersUse_of_unwinds {u : Unwinding (State ν .leaf × List (Cleanup ν))}
    {trace : List (Nat × Ended (State ν .leaf × List (Cleanup ν)))}
    {final : State ν .leaf × List (Cleanup ν)} (run : Unwinds Flow.reportFinaliser u trace final)
    {deferred : List (Deferred ν)}
    (stack : u.stack.map (·.2) = deferred.map fun entry => Flow.toFinaliser entry.flow) :
    ∃ uses, FinalisersUse deferred u.state.1 uses final.1 := by
  induction run generalizing deferred with
  | done next s =>
    obtain rfl : deferred = [] := by simpa using stack.symm
    exact ⟨[], .nil s.1⟩
  | @pop next number entry older s final trace later ih =>
    cases deferred with
    | nil => simp at stack
    | cons newest rest =>
      obtain ⟨rfl, below⟩ : entry = Flow.toFinaliser newest.flow ∧
          older.map (·.2) = rest.map fun entry => Flow.toFinaliser entry.flow := by
        simpa using stack
      have entries := Unwinding.popped_entries Flow.reportFinaliser next
        (Flow.toFinaliser newest.flow s) older
      have pushed : (Flow.toFinaliser newest.flow s).pushed =
          (newest.watch s.1.popped).deferred.map fun entry => Flow.toFinaliser entry.flow :=
        (newest.tracks s.1.popped).finalisers
      rw [pushed, below, ← List.map_append] at entries
      obtain ⟨uses, finalise⟩ := ih entries
      rw [Unwinding.popped, Flow.accounted_toFinaliser] at finalise
      exact ⟨_, .run finalise⟩

namespace Tracks

theorem runHook {config : Config} {mode : RunMode} {level : Nat} : (hook : Hook ν) →
    Tracks (Runner.runHook ⟨config, mode, Deeper.within level⟩ hook) (hook.watch level)
  | .before body => exec (initialise level) body
  | .after body => defer level body
  | .around enter exit => (exec (initialise level) enter).bind fun _ => defer level exit
  | .eager v => (get (initialise level) v).bind fun _ => idle (.pure ())

theorem inTurn {parts : List (Flow ν t Unit × Watch ν t)}
    (each : ∀ part ∈ parts, Tracks part.1 part.2) :
    Tracks (NestedSpec.inTurn (parts.map (·.1))) (.inTurn parts) := by
  induction parts with
  | nil => exact idle (.pure ())
  | cons part rest ih =>
    obtain ⟨first, later⟩ := List.forall_mem_cons.mp each
    exact first.bind fun _ => ih later

end Tracks

namespace Runner

variable (config : Config) (mode : RunMode) (level : Nat) (chain : Chain ν) (leaf : Leaf ν)

theorem idle_enter (group : Group ν) :
    (Runner.enter ⟨config, mode, Deeper.within level⟩ group).Idle := by
  refine (Flow.Idle.ask _).bind fun entered => ?_
  split
  · exact .pure ()
  · refine (Flow.Idle.changeWorld _).bind fun _ => .forM _ fun hook => .onFlow ?_
    have composed : Composed (Deeper.within level) true (hook.exec (Deeper.within level)) :=
      .exec hook
    exact composed.finalisers_flow (plain_deeper level) rfl

/-- What is watched of the parts of an invocation is what they do. -/
theorem tallies_parts (s : State ν .flow) :
    let runner : Runner ν := ⟨config, mode, Deeper.within level⟩
    let start : State ν .leaf := ⟨s.world, s.recorder, runner.leafStart chain leaf⟩
    Tallies start (runner.ranParts chain leaf s)
      (Watch.inTurn (runner.watchedParts level chain leaf) start) := by
  intro runner start
  rw [← run_parts, ← runner.watchedParts_flows level]
  refine Tracks.inTurn (fun part member => ?_) start
  rcases List.mem_append.mp member with entering | inside
  · obtain ⟨group, -, rfl⟩ := List.mem_map.mp entering
    exact .idle (idle_enter config mode level group)
  · rcases List.mem_append.mp inside with around | body
    · obtain ⟨hook, -, rfl⟩ := List.mem_map.mp around
      exact .runHook hook
    · obtain rfl := List.mem_singleton.mp body
      exact .exec (.initialise level) leaf.body

/-- An invocation can be watched to its end, which is the state that it leaves. -/
theorem exists_uses (s : State ν .flow) :
    let runner : Runner ν := ⟨config, mode, Deeper.within level⟩
    ∃ uses final, runner.Uses level chain leaf s uses final ∧
      ((runner.runOnce chain leaf).run s).state = ⟨final.world, final.recorder, ()⟩ := by
  intro runner
  have parts := tallies_parts config mode level chain leaf s
  obtain ⟨trace, ended, cleanups, unwinds, outcome⟩ := runner.runOnce_unwinds chain leaf s
  obtain ⟨later, finalise⟩ := finalisersUse_of_unwinds unwinds
    (by simpa [Unwinding.start] using parts.finalisers)
  exact ⟨_, ended, ⟨later, rfl, finalise⟩, congrArg Step.state outcome⟩

theorem Uses.leads {s : State ν .flow} {uses : List VariableUse} {final : State ν .leaf}
    (watched : Runner.Uses ⟨config, mode, Deeper.within level⟩ level chain leaf s uses final)
    (id : Nat) : Leads id none uses (final.kept id) := by
  obtain ⟨later, rfl, finalise⟩ := watched
  have parts := tallies_parts config mode level chain leaf s
  exact (parts.leads id).append (finalise.leads id)

end Runner

/-! ## The machine -/

inductive VariableAct.Ends : VariableAct → Prop
  | completes (value : Value) : Ends (.completes value)
  | breaksOff : Ends .breaksOff

/-- The initialiser of the variable neither reads nor sets it, and no initialiser that it triggers
does: whenever it has started, what is done with the variable next is that it ends. -/
def Undisturbed (id : Nat) (uses : List VariableUse) : Prop :=
  ∀ before start after, uses = before ++ start :: after → start.id = id → start.act = .starts →
    ∀ next, after.find? (·.id = id) = some next → next.act.Ends

/-- Initialisers end only after they have started. -/
theorem Leads.opens {id : Nat} {before after : Option Value} {uses : List VariableUse}
    (leads : Leads id before uses after) {next : VariableUse}
    (first : uses.find? (·.id = id) = some next) : ¬ next.act.Ends := by
  induction leads with
  | nil => simp at first
  | elsewhere other => simp [other] at first
  | reads | misses | sets | completes | breaksOff =>
    obtain rfl := by simpa using first
    exact nofun
  | append _ _ ih ihLater =>
    rw [List.find?_append, Option.or_eq_some_iff] at first
    rcases first with here | ⟨-, later⟩
    · exact ih here
    · exact ihLater later

/-- In an initialiser that does nothing with the variable, whatever is done with variables is done
with others. -/
theorem Leads.others {id : Nat} {before after kept : Option Value} {inside rest : List VariableUse}
    (leads : Leads id before inside after)
    (undisturbed : Undisturbed id (⟨id, .starts, kept⟩ :: inside ++ rest)) :
    ∀ use ∈ inside, use.id ≠ id := by
  cases found : inside.find? (·.id = id) with
  | none => simpa using List.find?_eq_none.mp found
  | some next =>
    have whole : (inside ++ rest).find? (·.id = id) = some next := by
      rw [List.find?_append, found, Option.some_or]
    exact absurd (undisturbed [] _ _ rfl rfl rfl next whole) (leads.opens found)

/-- What is kept for a variable stays as long as nothing is done with it. -/
theorem Leads.same {id : Nat} {before after : Option Value} {uses : List VariableUse}
    (leads : Leads id before uses after) (others : ∀ use ∈ uses, use.id ≠ id) : before = after := by
  induction leads with
  | nil | elsewhere => rfl
  | reads | misses | sets | completes | breaksOff => simp at others
  | append _ _ ih ihLater =>
    obtain ⟨first, second⟩ := List.forall_mem_append.mp others
    exact (ih first).trans (ihLater second)

inductive Memory where
  | empty
  | running
  | keeps (value : Value)

def Memory.of : Option Value → Memory
  | none => empty
  | some value => keeps value

inductive Memory.Moves (id : Nat) : Memory → VariableUse → Memory → Prop
  | elsewhere {use : VariableUse} (other : use.id ≠ id) (m : Memory) : Moves id m use m
  | starts : Moves id empty ⟨id, .starts, none⟩ running
  | completes (value : Value) :
      Moves id running ⟨id, .completes value, some value⟩ (keeps value)
  | breaksOff : Moves id running ⟨id, .breaksOff, none⟩ empty
  | misses : Moves id empty ⟨id, .misses, none⟩ empty
  | reads (value : Value) : Moves id (keeps value) ⟨id, .reads value, some value⟩ (keeps value)
  | sets (value : Value) : Moves id empty ⟨id, .sets value, some value⟩ (keeps value)
  | resets (old value : Value) :
      Moves id (keeps old) ⟨id, .sets value, some value⟩ (keeps value)

inductive Memory.Runs (id : Nat) : Memory → List VariableUse → Memory → Prop
  | nil (m : Memory) : Runs id m [] m
  | cons {m next final : Memory} {use : VariableUse} {rest : List VariableUse}
      (moves : Moves id m use next) (runs : Runs id next rest final) : Runs id m (use :: rest) final

namespace Memory

variable {id : Nat} {m final : Memory} {uses first second : List VariableUse}

theorem Runs.append {between : Memory} (runs : Runs id m first between)
    (later : Runs id between second final) : Runs id m (first ++ second) final := by
  induction runs with
  | nil => exact later
  | cons moves _ ih => exact .cons moves (ih later)

theorem Runs.split (runs : Runs id m (first ++ second) final) :
    ∃ between, Runs id m first between ∧ Runs id between second final := by
  induction first generalizing m with
  | nil => exact ⟨m, .nil m, runs⟩
  | cons use rest ih =>
    cases runs with
    | cons moves runs =>
      obtain ⟨between, here, later⟩ := ih runs
      exact ⟨between, .cons moves here, later⟩

theorem Runs.elsewhere (others : ∀ use ∈ uses, use.id ≠ id) (m : Memory) : Runs id m uses m := by
  induction uses with
  | nil => exact .nil m
  | cons use rest ih =>
    obtain ⟨other, later⟩ := List.forall_mem_cons.mp others
    exact .cons (.elsewhere other m) (ih later)

end Memory

/-- If the initialiser of a variable does nothing with it, the uses of the variable are a run of the
machine. -/
theorem Leads.runs {id : Nat} {before after : Option Value} {uses : List VariableUse}
    (leads : Leads id before uses after) (undisturbed : Undisturbed id uses) :
    Memory.Runs id (.of before) uses (.of after) := by
  induction leads with
  | nil kept => exact .nil _
  | elsewhere other kept => exact .cons (.elsewhere other _) (.nil _)
  | reads value => exact .cons (.reads value) (.nil _)
  | misses => exact .cons .misses (.nil _)
  | sets kept value =>
    cases kept with
    | none => exact .cons (.sets value) (.nil _)
    | some old => exact .cons (.resets old value) (.nil _)
  | @completes inside kept leads value ih =>
    have others := leads.others undisturbed
    exact .cons .starts ((Memory.Runs.elsewhere others _).append (.cons (.completes value) (.nil _)))
  | @breaksOff inside kept leads ih =>
    have others := leads.others undisturbed
    obtain rfl := leads.same others
    exact .cons .starts ((Memory.Runs.elsewhere others _).append (.cons .breaksOff (.nil _)))
  | @append _ _ _ first second _ _ ih ihLater =>
    -- What comes next in a part comes next in the whole, so that each part is undisturbed.
    refine (ih fun outer start rest split startId starts next found => ?_).append
      (ihLater fun outer start rest split startId starts next found => ?_)
    · refine undisturbed outer start (rest ++ second) ?_ startId starts next ?_
      · rw [split, List.append_assoc, List.cons_append]
      · rw [List.find?_append, found, Option.some_or]
    · refine undisturbed (first ++ outer) start rest ?_ startId starts next found
      rw [split, List.append_assoc]

/-! ## The laws -/

structure Memoises (id : Nat) (uses : List VariableUse) : Prop where
  keeps : ∀ before first middle last after value, uses = before ++ first :: (middle ++ last :: after) →
    first.id = id → first.act = .reads value ∨ first.act = .sets value →
    (∀ use ∈ middle, use.id = id → ∀ other, use.act ≠ .sets other) →
    last.id = id → (∀ other, last.act ≠ .sets other) → last.act = .reads value
  starts : ∀ use ∈ uses, use.id = id → use.act = .starts → use.kept = none
  once : ∀ before first after value, uses = before ++ first :: after → first.id = id →
    first.act = .completes value → ∀ use ∈ after, use.id = id → ∀ other, use.act ≠ .completes other
  breaksOff : ∀ use ∈ uses, use.id = id → use.act = .breaksOff → use.kept = none

namespace Memory

variable {id : Nat} {m final : Memory} {uses first second : List VariableUse} {value : Value}

/-- Each use in a run is a move of the machine. -/
theorem Runs.moves (runs : Runs id m uses final) {use : VariableUse} (member : use ∈ uses) :
    ∃ before after, Moves id before use after := by
  obtain ⟨first, second, rfl⟩ := List.append_of_mem member
  obtain ⟨between, -, later⟩ := runs.split
  cases later with
  | cons moves _ => exact ⟨_, _, moves⟩

theorem Runs.keeps_of_unset (runs : Runs id (.keeps value) uses final)
    (unset : ∀ use ∈ uses, use.id = id → ∀ other, use.act ≠ .sets other) : final = .keeps value := by
  induction uses with
  | nil => cases runs; rfl
  | cons use rest ih =>
    obtain ⟨here, later⟩ := List.forall_mem_cons.mp unset
    cases runs with
    | cons moves runs =>
      cases moves with
      | elsewhere | reads => exact ih runs later
      | resets _ other => exact absurd rfl (here rfl other)

/-- Once a value is kept, no initialiser completes. -/
theorem Runs.completes_never (runs : Runs id (.keeps value) uses final) :
    ∀ use ∈ uses, use.id = id → ∀ other, use.act ≠ .completes other := by
  induction uses generalizing value with
  | nil => exact List.forall_mem_nil _
  | cons use rest ih =>
    cases runs with
    | cons moves runs =>
      cases moves with
      | elsewhere away => exact List.forall_mem_cons.mpr ⟨fun same => absurd same away, ih runs⟩
      | reads | resets => exact List.forall_mem_cons.mpr ⟨nofun, ih runs⟩

/-- What was read, set or computed is kept. -/
theorem Moves.keeps {next : Memory} {use : VariableUse} (moves : Moves id m use next)
    (here : use.id = id)
    (act : use.act = .reads value ∨ use.act = .sets value ∨ use.act = .completes value) :
    next = .keeps value := by
  cases moves with
  | elsewhere away => exact absurd here away
  | starts | misses | breaksOff => simp at act
  | completes other | reads other | sets other | resets _ other => exact congrArg _ (by simpa using act)

theorem Moves.kept_of_starts {next : Memory} {use : VariableUse} (moves : Moves id m use next)
    (here : use.id = id) (act : use.act = .starts ∨ use.act = .breaksOff) : use.kept = none := by
  cases moves with
  | elsewhere away => exact absurd here away
  | starts | breaksOff | misses => rfl
  | completes | reads | sets | resets => simp at act

theorem Runs.memoises (runs : Runs id .empty uses final) : Memoises id uses := by
  refine ⟨?_, fun use member same act => ?_, ?_, fun use member same act => ?_⟩
  · intro before first middle last after value split firstId act unset lastId lastUnset
    obtain ⟨between, -, later⟩ := (split ▸ runs).split
    cases later with
    | cons moves rest =>
      obtain rfl := moves.keeps firstId (act.imp_right .inl)
      obtain ⟨there, meanwhile, rest⟩ := rest.split
      obtain rfl := meanwhile.keeps_of_unset unset
      cases rest with
      | cons moves _ =>
        cases moves with
        | elsewhere away => exact absurd lastId away
        | reads => rfl
        | resets _ other => exact absurd rfl (lastUnset other)
  · obtain ⟨before, after, moves⟩ := runs.moves member
    exact moves.kept_of_starts same (.inl act)
  · intro before first after value split firstId act
    obtain ⟨between, -, later⟩ := (split ▸ runs).split
    cases later with
    | cons moves rest =>
      obtain rfl := moves.keeps firstId (.inr (.inr act))
      exact rest.completes_never
  · obtain ⟨before, after, moves⟩ := runs.moves member
    exact moves.kept_of_starts same (.inr act)

end Memory

/-! ## Reading -/

/-- What reading a variable returns is what the watch says last. -/
theorem Watch.read_tells (level : Nat) (inside : Initialiser ν → Watch ν .leaf) (v : Variable ν)
    (otherwise : Flow ν .leaf Value) (s : State ν .leaf) {value : Value}
    (returned : ((Flow.readVariable (Deeper.within level) v otherwise).run s).result = .ok value) :
    (read level inside v s).uses.getLast? = some ⟨v.id, .reads value, some value⟩ ∨
      (read level inside v s).uses = [⟨v.id, .misses, none⟩] ∧
        (otherwise.run s).result = .ok value := by
  unfold read
  cases found : s.kept v.id with
  | some kept =>
    rw [Flow.run_readVariable_kept _ v otherwise found] at returned
    cases returned
    exact .inl (by simp [State.use, found])
  | none =>
    rw [Flow.run_readVariable _ v otherwise found] at returned
    cases chosen : ((bindingIn (s.own : LeafState ν).scope v.id).map Binding.init).or v.init with
    | none =>
      rw [chosen] at returned
      exact .inr ⟨by simp [State.use, found], returned⟩
    | some init =>
      rw [chosen] at returned
      unfold Flow.compute at returned
      cases ended : (((Deeper.within level).initialise init).run s).result with
      | error stop =>
        rw [Flow.run_bind_of_error _ ended] at returned
        cases returned
      | ok computed =>
        rw [Flow.run_bind_of_ok _ ended] at returned
        obtain rfl : computed = value := Except.ok.inj returned
        have kept := kept_store_self v.id computed (((Deeper.within level).initialise init).run s).state
        exact .inl (by simp [initialised, ended, State.use, kept, List.getLast?_cons])

/-- What it comes to to read a variable: the value that is returned is the one that is told, and an
unbound variable is reported and has its default value, which is not kept. -/
structure ReadsAsTold (level : Nat) (v : Variable ν) (s : State ν .leaf) : Prop where
  get : ∀ value, ((Flow.get (Deeper.within level) v).run s).result = .ok value →
    (Watch.read level (Initialiser.watch level) v s).uses.getLast? =
      some ⟨v.id, .reads value, some value⟩
  getOrDefault : ∀ value, ((Flow.getOrDefault (Deeper.within level) v).run s).result = .ok value →
    (Watch.read level (Initialiser.watch level) v s).uses.getLast? =
        some ⟨v.id, .reads value, some value⟩ ∨
      (Watch.read level (Initialiser.watch level) v s).uses = [⟨v.id, .misses, none⟩] ∧
        value = v.kind.default
  unbound : s.kept v.id = none → bindingIn (s.own : LeafState ν).scope v.id = none → v.init = none →
    (Flow.getOrDefault (Deeper.within level) v).run s = ⟨.ok v.kind.default,
      { s with recorder := (s.recorder.log (Flow.unboundMessage v.label)).fail }, [], []⟩

theorem readsAsTold (level : Nat) (v : Variable ν) (s : State ν .leaf) : ReadsAsTold level v s := by
  refine ⟨fun value returned => ?_, fun value returned => ?_, fun missing unbound own => ?_⟩
  · refine (Watch.read_tells level _ v _ s returned).resolve_right fun told => ?_
    exact absurd told.2 nofun
  · exact (Watch.read_tells level _ v _ s returned).imp_right fun told =>
      ⟨told.1, (Except.ok.inj told.2).symm⟩
  · unfold Flow.getOrDefault
    rw [Flow.run_readVariable _ v _ missing, unbound, own]
    rfl

/-- Variables are memoised in every invocation of a leaf. The invocation can be watched, from the
hooks to the last finaliser, and what is watched of a variable whose initialiser does not meddle
with the variable itself obeys the laws. -/
theorem Runner.memoises_variables (config : Config) (mode : RunMode) (levels : Nat) (chain : Chain ν)
    (leaf : Leaf ν) (s : State ν .flow) :
    let runner : Runner ν := ⟨config, mode, Deeper.within levels⟩
    (∃ uses final, runner.Uses levels chain leaf s uses final ∧
      ((runner.runOnce chain leaf).run s).state = ⟨final.world, final.recorder, ()⟩) ∧
    (∀ uses final, runner.Uses levels chain leaf s uses final →
      ∀ id, Undisturbed id uses → Memoises id uses) ∧
    ∀ (level : Nat) (v : Variable ν) (s : State ν .leaf), ReadsAsTold level v s := by
  intro runner
  refine ⟨exists_uses config mode levels chain leaf s, fun uses final watched id undisturbed => ?_,
    readsAsTold⟩
  have leads := Uses.leads config mode levels chain leaf watched id
  exact (leads.runs undisturbed).memoises

/-- A leaf that reads a variable twice, sets it, and reads it again. -/
example :
    let x : Variable Unit := ⟨0, "x", .int, some (.mk .done (.constant (.int 3))), none⟩
    let body : Script Unit .leaf :=
      .get "x" fun _ => .get "x" fun _ => .set "x" (.int 4) (.get "x" fun _ => .done)
    (body.watch 1 (Initialiser.watch 1)
        ⟨{ named := [("x", x)] }, .new "leaf", ⟨[], [], [], .ofBytes [], 0⟩⟩).uses =
      [⟨0, .starts, none⟩, ⟨0, .completes (.int 3), some (.int 3)⟩,
        ⟨0, .reads (.int 3), some (.int 3)⟩, ⟨0, .reads (.int 3), some (.int 3)⟩,
        ⟨0, .sets (.int 4), some (.int 4)⟩, ⟨0, .reads (.int 4), some (.int 4)⟩] := by
  rfl

end NestedSpec
