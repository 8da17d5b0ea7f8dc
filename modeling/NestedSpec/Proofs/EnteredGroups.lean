import NestedSpec.Proofs.Bracketing
import NestedSpec.Proofs.HandbackSpecs
import NestedSpec.Proofs.Visits

/-!
# The groups entered

A runner enters groups; what it runs does not. Scripts, the finalisers and cleanups that they leave
behind and the specs that they run come back with the groups entered as they were, since a run
counts its own and puts the others back.
-/

namespace NestedSpec

variable {ν α β : Type} {t : Target}

def enteredGroups (ν : Type) : Holding ν where
  Part := List Nat
  part w := w.entered
  assign _ _ held := held
  free := True
  part_eq _ same := same
  part_set _ _ _ := rfl
  gives_back _ _ _ := rfl
  unseen _ _ _ _ := rfl

theorem restore_enteredGroups (owed : List (String × Option String))
    (held : (enteredGroups ν).Part) : (enteredGroups ν).restore owed held = held := by
  induction owed with
  | nil => rfl
  | cons entry rest ih => exact ih

/-! ## Nothing is asked of what is free to change the environment -/

theorem State.borrows_free (s : State ν t) : s.Borrows True :=
  ⟨fun entry _ => entry.2.borrows_free, fun binding _ => binding.init.borrows_free⟩

theorem Hook.borrows_free (hook : Hook ν) : hook.Borrows True := by
  cases hook with
  | before body => exact .before body.borrows_free
  | after body => exact .after body.borrows_free
  | around enter exit => exact .around enter.borrows_free exit.borrows_free
  | eager v => exact .eager v.borrows_free

theorem Group.borrows_free (group : Group ν) : group.Borrows True where
  hooks hook _ := hook.borrows_free
  beforeAll hook _ := hook.borrows_free
  afterAll hook _ := hook.borrows_free
  bindings binding _ := binding.init.borrows_free

/-! ## What is left on the stacks -/

structure Idle (step : Step ν t α) : Prop where
  winds : ∀ finaliser ∈ step.finalisers, (enteredGroups ν).Winds finaliser
  undoes : ∃ owed, (enteredGroups ν).Undoes step.cleanups owed

def Flow.Idles (flow : Flow ν t α) : Prop := ∀ s, Idle (flow.run s)

theorem Holding.HandsBack.idles {good : α → Prop} {flow : Flow ν t α}
    (handsBack : (enteredGroups ν).HandsBack good flow) : flow.Idles := by
  intro s
  have returns := handsBack s s.borrows_free
  obtain ⟨owed, undoes, -⟩ := returns.pending
  exact ⟨returns.winds, owed, undoes⟩

/-- Scripts and what they are composed of leave the groups entered alone. -/
theorem Holding.HandsBack.entered_eq {good : α → Prop} {flow : Flow ν t α}
    (handsBack : (enteredGroups ν).HandsBack good flow) (s : State ν t) :
    (flow.run s).state.world.entered = s.world.entered := by
  obtain ⟨owed, -, back⟩ := (handsBack s s.borrows_free).pending
  rwa [restore_enteredGroups] at back

namespace Idle

theorem append {result : Except Stop α} {s : State ν t} {first : Step ν t β} {later : Step ν t α}
    (above : Idle later) (below : Idle first) :
    Idle ⟨result, s, later.finalisers ++ first.finalisers, later.cleanups ++ first.cleanups⟩ := by
  obtain ⟨newer, undoesNewer⟩ := above.undoes
  obtain ⟨older, undoesOlder⟩ := below.undoes
  refine ⟨fun finaliser member => ?_, newer ++ older, undoesNewer.append undoesOlder⟩
  rcases List.mem_append.mp member with new | old
  · exact above.winds finaliser new
  · exact below.winds finaliser old

theorem of_empty {result : Except Stop α} {s : State ν t} : Idle ⟨result, s, [], []⟩ :=
  ⟨List.forall_mem_nil _, [], .nil⟩

theorem entered_settle {step : Step ν .flow Unit} (idle : Idle step) :
    (Flow.settle step).world.entered = step.state.world.entered := by
  obtain ⟨owed, undoes⟩ := idle.undoes
  have restored := undoes.restores (Flow.absorb (.ofExcept step.result) step.state)
    (State.borrows_free _)
  rwa [restore_enteredGroups] at restored

theorem waits {step : Step ν .leaf Unit} (idle : Idle step) :
    (enteredGroups ν).Waits step.state.world (step.state, step.cleanups) := by
  obtain ⟨owed, undoes⟩ := idle.undoes
  exact ⟨step.state.borrows_free, owed, undoes, restore_enteredGroups ..⟩

end Idle

namespace Flow.Idles

theorem bind {first : Flow ν t α} {next : α → Flow ν t β} (idles : first.Idles)
    (later : ∀ value, (next value).Idles) : (first >>= next).Idles := by
  intro s
  have before := idles s
  rcases ended : first.run s with ⟨stop | value, s', finalisers, cleanups⟩
  · rw [run_bind_error _ ended]
    rw [ended] at before
    exact ⟨before.winds, before.undoes⟩
  · rw [run_bind_ok _ ended]
    rw [ended] at before
    exact (later value s').append before

theorem changeWorld (update : World ν → World ν) : (Flow.changeWorld update : Flow ν t Unit).Idles :=
  fun _ => .of_empty

theorem forM (items : List β) {part : β → Flow ν t Unit} (each : ∀ item, (part item).Idles) :
    (items.forM part).Idles :=
  forM_holds (fun _ => .of_empty) (fun first later => first.bind fun _ => later)
    fun item _ => each item

end Flow.Idles

/-! ## Running a spec -/

namespace Runner

variable {runner : Runner ν}

theorem quiet_runPlan (runner : Runner ν) (tree : Item ν) : (runner.runPlan tree).Quiet := by
  cases tree with
  | leaf l => exact Flow.quiet_pure ()
  | group g items => exact runner.quiet_runMembers [g] items

theorem running_enteredGroups : (enteredGroups ν).Running := by
  intro runner tree below _ s _
  let started : State ν .flow := { s with world := { s.world with entered := [] } }
  let planned := ((runner.runPlan (runner.plan tree)).run started).state
  let last : Flow ν .flow Unit := do
    runner.runAfterAll tree.groups
    runner.reportOrder
  have keeps : (enteredGroups ν).Keeps last :=
    (Holding.HandsBack.runAfterAll below fun group _ => group.borrows_free).bind fun _ _ =>
      .reportOrder
  have completes : last.Completes :=
    (runner.completes_runAfterAll tree.groups).bind fun _ s => by
      have ended := runner.reportOrder_eq s
      exact ⟨_, congrArg (·.result) ended⟩
  obtain ⟨value, completed⟩ := completes planned
  have idle := keeps.idles planned
  -- The last change puts back the groups that were entered before.
  have ended : (runner.run tree).run s = ⟨.ok (),
      { (last.run planned).state with
        world := { (last.run planned).state.world with entered := s.world.entered } },
      (last.run planned).finalisers, (last.run planned).cleanups⟩ := by
    have outer : (Flow.ask fun s => s.world.entered : Flow ν .flow (List Nat)).run s =
        ⟨.ok s.world.entered, s, [], []⟩ := rfl
    have fresh : (Flow.changeWorld fun w => { w with entered := [] } : Flow ν .flow Unit).run s =
        ⟨.ok (), started, [], []⟩ := rfl
    have after := Flow.run_bind_of_ok (fun _ => Flow.changeWorld fun w =>
      { w with entered := s.world.entered }) completed
    unfold run
    rw [Flow.run_bind_ok _ outer, Flow.run_bind_ok _ fresh,
      (runner.quiet_runPlan _).run_bind]
    simp only [last, bind_assoc] at after
    simp only [List.append_nil]
    exact after
  rw [ended]
  exact ⟨State.borrows_free _, fun _ _ => trivial, by
    obtain ⟨owed, undoes⟩ := idle.undoes
    exact ⟨owed, undoes, restore_enteredGroups ..⟩, idle.winds⟩

theorem below_enteredGroups (levels : Nat) :
    (enteredGroups ν).Below (Deeper.within levels) :=
  Holding.below_within running_enteredGroups levels

/-! ## Leaves -/

variable (below : (enteredGroups ν).Below runner.deeper)
include below

theorem keeps_exec (script : Script ν t) : (enteredGroups ν).Keeps (script.exec runner.deeper) :=
  .exec below script.borrows_free

theorem keeps_runHook (hook : Hook ν) : (enteredGroups ν).Keeps (runner.runHook hook) :=
  .runHook below hook.borrows_free

theorem idles_enter (group : Group ν) : (runner.enter group).Idles := by
  apply Flow.Idles.bind (fun _ => .of_empty)
  intro entered
  split
  · exact fun _ => .of_empty
  · refine (Flow.Idles.changeWorld _).bind fun _ => Flow.Idles.forM _ fun hook => ?_
    exact (Holding.HandsBack.onFlow (keeps_exec below hook)).idles

theorem idles_parts (chain : Chain ν) (leaf : Leaf ν) :
    (inTurn (runner.parts chain leaf)).Idles := by
  have hooks : (inTurn ((chain.flatMap (·.hooks)).map runner.runHook)).Idles := by
    rw [← forM_eq_inTurn]
    exact Flow.Idles.forM _ fun hook => (keeps_runHook below hook).idles
  have body : (inTurn [leaf.body.exec runner.deeper]).Idles :=
    (keeps_exec below leaf.body).idles.bind fun _ _ => .of_empty
  rw [parts, inTurn_append, inTurn_append, ← forM_eq_inTurn]
  exact (Flow.Idles.forM chain (idles_enter below)).bind fun _ => hooks.bind fun _ => body

/-- The finalisers of an invocation leave the groups entered to its parts. -/
theorem entered_runOnce (chain : Chain ν) (leaf : Leaf ν) (s : State ν .flow) :
    Idle ((runner.runOnce chain leaf).run s) ∧
      ((runner.runOnce chain leaf).run s).state.world.entered =
        (runner.ranParts chain leaf s).state.world.entered := by
  have idle : Idle (runner.ranParts chain leaf s) := by
    rw [← run_parts]
    exact idles_parts below chain leaf _
  obtain ⟨-, owed, undoes, back⟩ := Holding.waits_unwind idle.winds idle.waits
  rw [restore_enteredGroups] at back
  rw [run_runOnce]
  exact ⟨⟨List.forall_mem_nil _, owed, undoes⟩, back⟩

theorem idles_runOnce (chain : Chain ν) (leaf : Leaf ν) : (runner.runOnce chain leaf).Idles :=
  fun s => (entered_runOnce below chain leaf s).1

theorem idles_runLeaf (chain : Chain ν) (leaf : Leaf ν) : (runner.runLeaf chain leaf).Idles := by
  have repeated : ∀ count, (runner.repeatOnce chain leaf count).Idles := by
    intro count
    induction count with
    | zero => exact fun _ => .of_empty
    | succ count ih => exact (idles_runOnce below chain leaf).bind fun _ => ih
  unfold runLeaf runInvocations
  cases runner.skipReason chain with
  | some reason =>
    have skips : (enteredGroups ν).Keeps (Flow.skip reason : Flow ν .flow Unit) := .skip reason
    exact skips.idles
  | none =>
    cases runner.mode with
    | test => exact idles_runOnce below chain leaf
    | benchmark iterations => exact (repeated _).bind fun _ => fun _ => .of_empty

/-- The cleanups of a leaf leave the groups entered to its invocations. -/
theorem entered_endedLeaf (chain : Chain ν) (leaf : Leaf ν) (start : State ν .flow) :
    (runner.endedLeaf chain leaf start).world.entered =
      ((runner.runLeaf chain leaf).run start).state.world.entered :=
  (idles_runLeaf below chain leaf start).entered_settle

/-- Nothing but its invocations enters groups for a leaf. -/
theorem entered_endedLeaf_eq (chain : Chain ν) (leaf : Leaf ν) (start : State ν .flow) :
    (runner.endedLeaf chain leaf start).world.entered =
      (match runner.skipReason chain, runner.mode with
        | some _, _ => start
        | none, .test => ((runner.runOnce chain leaf).run start).state
        | none, .benchmark iterations =>
          ((runner.repeatOnce chain leaf (max 1 iterations)).run start).state).world.entered := by
  rw [entered_endedLeaf below, runLeaf, runInvocations]
  cases runner.skipReason chain with
  | some reason =>
    have skips : (enteredGroups ν).Keeps (Flow.skip reason : Flow ν .flow Unit) := .skip reason
    exact skips.entered_eq start
  | none =>
    cases runner.mode with
    | test => rfl
    | benchmark iterations =>
      rcases ended : (runner.repeatOnce chain leaf (max 1 iterations)).run start with
        ⟨stop | value, s', finalisers, cleanups⟩
      · simp only [Flow.run_bind_error _ ended, ended]
      · simp only [Flow.run_bind_ok _ ended, ended]
        rfl

end Runner
end NestedSpec
