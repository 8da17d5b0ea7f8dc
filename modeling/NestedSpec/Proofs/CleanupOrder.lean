import NestedSpec.Proofs.Likeness
import NestedSpec.Proofs.Sessions

/-!
# Cleanups form one stack

When the body of a flow has ended, its cleanups take turns. All that are registered on the flow, by
its body or by a cleanup that has its turn, are counted in the order in which they are registered.
Each of them has one turn, whatever the others come to, and it is always the newest one that is
left whose turn it is.
-/

namespace NestedSpec

variable {ν : Type}

/-- The turn of a cleanup, numbered by how many were registered on the flow before it; those that
it registers itself come newest first. -/
structure Turn (ν : Type) where
  number : Nat
  duty : Duty ν
  start : State ν .flow
  deeds : List (Deed ν)
  registered : List (Duty ν)

namespace Turn

def trace (turn : Turn ν) : List (Deed ν) :=
  turn.deeds ++ [.ended (turn.duty.flow.outcome turn.start)]

def ended (turn : Turn ν) : Nat × Ended (State ν .flow) :=
  (turn.number, turn.duty.cleanup turn.start)

end Turn

def Duty.numberFrom (next : Nat) : List (Duty ν) → List (Nat × Duty ν)
  | [] => []
  | duty :: older => (next + older.length, duty) :: numberFrom next older

@[simp] theorem Duty.numberFrom_duties (next : Nat) (duties : List (Duty ν)) :
    (Duty.numberFrom next duties).map (·.2) = duties := by
  induction duties with
  | nil => rfl
  | cons duty older ih => simp [Duty.numberFrom, ih]

def Duty.entries (stack : List (Nat × Duty ν)) : List (Nat × Cleanup ν) :=
  stack.map fun entry => (entry.1, entry.2.cleanup)

@[simp] theorem Duty.entries_append (newer older : List (Nat × Duty ν)) :
    Duty.entries (newer ++ older) = Duty.entries newer ++ Duty.entries older :=
  List.map_append

theorem Duty.entries_numberFrom (next : Nat) (duties : List (Duty ν)) :
    Duty.entries (Duty.numberFrom next duties) =
      NestedSpec.numberFrom next (duties.map Duty.cleanup) := by
  induction duties with
  | nil => rfl
  | cons duty older ih =>
    simp only [Duty.entries, Duty.numberFrom, List.map_cons, NestedSpec.numberFrom,
      List.length_map] at ih ⊢
    rw [ih]

theorem getElem?_append_of_some {α : Type} {known : List α} {number : Nat} {value : α}
    (found : known[number]? = some value) (more : List α) :
    (known ++ more)[number]? = some value :=
  (List.getElem?_append_left (List.getElem?_eq_some_iff.mp found).1).trans found

/-- The numbers given to cleanups are their places in the order of registration. -/
theorem Duty.getElem?_numberFrom {known duties : List (Duty ν)} {entry : Nat × Duty ν}
    (member : entry ∈ Duty.numberFrom known.length duties) :
    (known ++ duties.reverse)[entry.1]? = some entry.2 := by
  induction duties with
  | nil => exact absurd member List.not_mem_nil
  | cons duty older ih =>
    rw [List.reverse_cons, ← List.append_assoc]
    rcases List.mem_cons.mp member with rfl | below
    · have place : known.length + older.length = (known ++ older.reverse).length := by simp
      change (known ++ older.reverse ++ [duty])[known.length + older.length]? = _
      rw [place]
      exact List.getElem?_concat_length
    · exact getElem?_append_of_some (ih below) _

/-- The cleanups on a stack take turns, the newest first; `next` is the number for the next one to
be registered. What a cleanup registers lies on top of those that wait, and the next turn starts
when its end has been absorbed. -/
inductive TakesTurns (view : View) : Nat → List (Nat × Duty ν) → State ν .flow → List (Turn ν) →
    State ν .flow → Prop
  | done (next : Nat) (s : State ν .flow) : TakesTurns view next [] s [] s
  | turn {next number : Nat} {duty : Duty ν} {older : List (Nat × Duty ν)} {s final : State ν .flow}
      {deeds : List (Deed ν)} {bodies : List (Flow ν .leaf Unit)} {pushed : List (Duty ν)}
      {turns : List (Turn ν)} (does : Does view duty.flow s deeds bodies pushed)
      (later : TakesTurns view (next + pushed.length) (Duty.numberFrom next pushed ++ older)
        (duty.flow.absorbed s) turns final) :
      TakesTurns view next ((number, duty) :: older) s (⟨number, duty, s, deeds, pushed⟩ :: turns) final

def registry (left : List (Duty ν)) (turns : List (Turn ν)) : List (Duty ν) :=
  left.reverse ++ turns.flatMap fun turn => turn.registered.reverse

structure Orderly (left : List (Duty ν)) (turns : List (Turn ν)) : Prop where
  registered : ∀ before turn after, turns = before ++ turn :: after →
    (registry left before)[turn.number]? = some turn.duty
  newestFirst : ∀ before turn after, turns = before ++ turn :: after →
    ∀ number, turn.number < number → number < (registry left before).length →
      number ∈ before.map (·.number)
  once : (turns.map (·.number)).Perm (List.range (registry left turns).length)

theorem length_registry {left : List (Duty ν)} {turns : List (Turn ν)}
    (pushed : ∀ turn ∈ turns,
      (turn.duty.cleanup turn.start).pushed = turn.registered.map Duty.cleanup) :
    (left.map Duty.cleanup).length + pushedBy (turns.map Turn.ended) =
      (registry left turns).length := by
  induction turns with
  | nil => simp [registry, pushedBy]
  | cons turn rest ih =>
    have here := pushed turn (List.mem_cons_self ..)
    have later := ih fun other member => pushed other (List.mem_cons_of_mem _ member)
    simp only [registry, List.map_cons, pushedBy, Turn.ended, here, List.flatMap_cons,
      List.length_append, List.length_reverse, List.length_map] at later ⊢
    omega

namespace TakesTurns

variable {view : View} {next : Nat} {stack : List (Nat × Duty ν)} {s final : State ν .flow}
  {turns : List (Turn ν)} {left : List (Duty ν)}

/-- Cleanups take turns as the entries of a stack that unwinds. -/
theorem unwinds (takes : TakesTurns view next stack s turns final) :
    Unwinds Flow.absorb ⟨next, Duty.entries stack, s⟩ (turns.map Turn.ended) final := by
  induction takes with
  | done next s => exact .done next s
  | @turn next number duty older s final deeds bodies pushed turns does _ ih =>
    have cleanups : (duty.cleanup s).pushed = pushed.map Duty.cleanup := does.tells.cleanups
    have popped : Unwinding.popped Flow.absorb next (duty.cleanup s) (Duty.entries older) =
        ⟨next + pushed.length, Duty.entries (Duty.numberFrom next pushed ++ older),
          duty.flow.absorbed s⟩ := by
      rw [Duty.entries_append, Duty.entries_numberFrom, ← List.length_map Duty.cleanup, ← cleanups]
      rfl
    exact .pop (popped ▸ ih)

theorem final_eq (takes : TakesTurns view left.length (Duty.numberFrom 0 left) s turns final) :
    final = Flow.runCleanups (left.map Duty.cleanup) s := by
  have run := takes.unwinds
  rw [Duty.entries_numberFrom, ← List.length_map Duty.cleanup] at run
  exact Ended.eq_unwindAll run

/-- What has its turn lay on the stack under its number, or it was registered in an earlier turn. -/
theorem registered (takes : TakesTurns view next stack s turns final) {known : List (Duty ν)}
    (count : known.length = next) (stacked : ∀ entry ∈ stack, known[entry.1]? = some entry.2)
    {before after : List (Turn ν)} {turn : Turn ν} (split : turns = before ++ turn :: after) :
    (known ++ before.flatMap fun turn => turn.registered.reverse)[turn.number]? =
      some turn.duty := by
  induction takes generalizing known before with
  | done => simp at split
  | @turn next number duty older s final deeds bodies pushed turns does _ ih =>
    have top : known[number]? = some duty := stacked _ (List.mem_cons_self ..)
    cases before with
    | nil =>
      obtain ⟨rfl, rfl⟩ := List.cons_eq_cons.mp split
      simpa using top
    | cons first before =>
      obtain ⟨rfl, rest⟩ := List.cons_eq_cons.mp split
      rw [List.flatMap_cons, ← List.append_assoc]
      refine ih (by simp [count]) (fun entry member => ?_) rest
      rcases List.mem_append.mp member with new | old
      · exact Duty.getElem?_numberFrom (count ▸ new)
      · exact getElem?_append_of_some (stacked entry (List.mem_cons_of_mem _ old)) _

theorem pushed (takes : TakesTurns view next stack s turns final) : ∀ turn ∈ turns,
    (turn.duty.cleanup turn.start).pushed = turn.registered.map Duty.cleanup := by
  induction takes with
  | done => exact List.forall_mem_nil _
  | turn does _ ih => exact List.forall_mem_cons.mpr ⟨does.tells.cleanups, ih⟩

theorem orderly (takes : TakesTurns view left.length (Duty.numberFrom 0 left) s turns final) :
    Orderly left turns := by
  have run := takes.unwinds
  rw [Duty.entries_numberFrom, ← List.length_map Duty.cleanup] at run
  have numbers (turns : List (Turn ν)) : (turns.map Turn.ended).map (·.1) = turns.map (·.number) :=
    List.map_map
  refine ⟨fun before turn after split => ?_, fun before turn after split number newer known => ?_, ?_⟩
  · refine takes.registered (List.length_reverse ..) (fun entry member => ?_) split
    have place : ([] ++ left.reverse)[entry.1]? = some entry.2 := Duty.getElem?_numberFrom member
    exact place
  · -- If it still waited, the machine would have taken it first.
    by_contra waits
    have ran : turns.map Turn.ended = before.map Turn.ended ++ turn.ended :: after.map Turn.ended := by
      rw [split, List.map_append, List.map_cons]
    have earlier : ∀ turn ∈ before,
        (turn.duty.cleanup turn.start).pushed = turn.registered.map Duty.cleanup :=
      fun turn member => takes.pushed turn (split ▸ List.mem_append_left _ member)
    rw [← length_registry earlier] at known
    rw [← numbers] at waits
    exact Nat.not_le_of_lt newer (run.newest_first_of_start ran known waits)
  · rw [← length_registry takes.pushed, ← numbers]
    exact run.numbers_range

end TakesTurns

/-! ## What flows do when they have ended -/

theorem Duty.does_remove (view : View) (number : Nat) (s : State ν .flow) :
    Does view (Duty.remove number).flow s [] [] [] := by
  have calm : (Flow.changeWorld fun w => { w with directories := w.directories.set number false } :
      Flow ν .flow Unit).Calm view :=
    Flow.calm_changeWorld (fun _ => rfl) fun _ _ known =>
      ⟨known.named, known.nextVariable, known.entered⟩
  exact .calm calm s

/-- A trace of cleanups that run is one of the turns they take. -/
theorem CleansUp.takesTurns {view : View} {duties : List (Duty ν)} {s : State ν .flow}
    {deeds : List (Deed ν)} : CleansUp view duties s deeds →
    (next : Nat) → (stack : List (Nat × Duty ν)) → stack.map (·.2) = duties →
      ∃ turns final, TakesTurns view next stack s turns final ∧ deeds = turns.flatMap Turn.trace
  | .nil s, next, stack, same => by
    obtain rfl := List.map_eq_nil_iff.mp same
    exact ⟨[], s, .done next s, rfl⟩
  | @CleansUp.run _ _ body s deeds later bodies pushed older does cleans, next, stack, same => by
    -- The recursion comes first: opening the stack rewrites the list that `cleans` is about.
    have ih := cleans.takesTurns
    obtain ⟨⟨number, _⟩, below, rfl, rfl, rfl⟩ := List.map_eq_cons_iff.mp same
    have entries : (Duty.numberFrom next pushed ++ below).map (·.2) = pushed ++ below.map (·.2) := by
      simp
    obtain ⟨turns, final, takes, rfl⟩ := ih (next + pushed.length) _ entries
    exact ⟨_, final, .turn does takes, by simp [Turn.trace, Duty.flow]⟩
  | @CleansUp.remove _ _ number s later older cleans, next, stack, same => by
    have ih := cleans.takesTurns
    obtain ⟨⟨place, _⟩, below, rfl, rfl, rfl⟩ := List.map_eq_cons_iff.mp same
    obtain ⟨turns, final, takes, rfl⟩ := ih next below rfl
    exact ⟨_, final, .turn (Duty.does_remove _ number s) takes, rfl⟩

/-- Cleanups that run take turns, and in order. -/
theorem CleansUp.orderly {view : View} {left : List (Duty ν)} {s : State ν .flow}
    {deeds : List (Deed ν)} (cleans : CleansUp view left s deeds) : ∃ turns,
      TakesTurns view left.length (Duty.numberFrom 0 left) s turns
        (Flow.runCleanups (left.map Duty.cleanup) s) ∧
      Orderly left turns ∧ deeds = turns.flatMap Turn.trace := by
  obtain ⟨turns, final, takes, told⟩ :=
    cleans.takesTurns left.length _ (Duty.numberFrom_duties 0 left)
  obtain rfl := takes.final_eq
  exact ⟨turns, takes, takes.orderly, told⟩

namespace Flow

/-- The body of a flow does something and ends, and only then the cleanups that it left take their
turns, in order. With the last of them the flow has come to its end. -/
def CleansUpInOrder (flow : Flow ν .flow Unit) (start : State ν .flow) (deeds : List (Deed ν)) :
    Prop :=
  ∃ own bodies left turns, Does (.all true) flow start own bodies left ∧
    TakesTurns (.all true) left.length (Duty.numberFrom 0 left) (flow.absorbed start) turns
      (settle (flow.run start)) ∧
    Orderly left turns ∧ deeds = own ++ .ended (flow.outcome start) :: turns.flatMap Turn.trace

theorem cleansUpInOrder {flow : Flow ν .flow Unit} {start : State ν .flow} {deeds : List (Deed ν)} :
    Settles (.all true) flow start deeds → flow.CleansUpInOrder start deeds
  | .mk does cleans => by
    obtain ⟨turns, takes, orderly, rfl⟩ := cleans.orderly
    rw [← does.tells.cleanups] at takes
    exact ⟨_, _, _, turns, does, takes, orderly, rfl⟩

/-- Cleanups form one stack for each flow, for that of a script and for that of a leaf: the flow has
a trace, in every trace it cleans up in order, and nothing is left of the stack for the flow that
started it. On a host, the cleanups wait until it is finished, and then they take their turns. -/
theorem cleanups_form_stack (levels : Nat) :
    (∀ (body : Script ν .flow) (start : State ν .flow),
      let flow := body.exec (Deeper.within levels)
      (∃ deeds, Settles (.all true) flow start deeds) ∧
        ∀ deeds, Settles (.all true) flow start deeds → flow.CleansUpInOrder start deeds) ∧
    (∀ (config : Config) (mode : RunMode) (chain : Chain ν) (leaf : Leaf ν) (start : State ν .flow),
      let flow := Runner.runLeaf ⟨config, mode, Deeper.within levels⟩ chain leaf
      (∃ deeds, Settles (.all true) flow start deeds) ∧
        ∀ deeds, Settles (.all true) flow start deeds → flow.CleansUpInOrder start deeds) ∧
    (∀ {t : Target} (name : String) (flow : Flow ν .flow Unit) (s : State ν t),
      let ended := settle (flow.run ⟨s.world, s.recorder.child name, ()⟩)
      (runChild name flow).run s = ⟨.ok !ended.recorder.failed,
        ⟨ended.world, s.recorder.merge ended.recorder name, s.own⟩, [], []⟩) ∧
    ∀ (world : World ν) (recorder : Recorder) (uses : List (Host.Use ν)),
      let start : State ν .flow := ⟨world, recorder, ()⟩
      let host := uses.foldl Host.use (.ofRecorder world recorder)
      (∃ deeds s left later, Host.Acts start [] uses deeds s left ∧
        CleansUp (.all true) left s later) ∧
      ∀ deeds s left later, Host.Acts start [] uses deeds s left →
        CleansUp (.all true) left s later → host = Host.waiting s left ∧ ∃ turns,
          TakesTurns (.all true) left.length (Duty.numberFrom 0 left) s turns host.finish.state ∧
          Orderly left turns ∧ later = turns.flatMap Turn.trace ∧ host.finish.pending = [] := by
  refine ⟨fun body start => ?_, fun config mode chain leaf start => ?_, fun name flow s => ?_,
    fun world recorder uses => ?_⟩
  · exact ⟨(body.traceable levels).settles start, fun deeds => cleansUpInOrder⟩
  · have traceable := Runner.traceable_runLeaf levels config mode chain leaf
    exact ⟨traceable.settles start, fun deeds => cleansUpInOrder⟩
  · exact Likeness.run_runChild name flow s
  · intro start host
    obtain ⟨deeds, s, left, acts, ready⟩ := Host.exists_acts uses start cleanupsReady_nil
    obtain ⟨later, cleans⟩ := exists_cleansUp true ready s
    refine ⟨⟨deeds, s, left, later, acts, cleans⟩, fun deeds s left later acts cleans => ?_⟩
    have same : host = Host.waiting s left := acts.tells.1
    obtain ⟨turns, takes, orderly, told⟩ := cleans.orderly
    refine ⟨same, turns, ?_, orderly, told, rfl⟩
    rw [same]
    exact takes

end Flow
end NestedSpec
