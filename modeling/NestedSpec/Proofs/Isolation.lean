import NestedSpec.Proofs.Failures
import NestedSpec.Proofs.Secluded

/-!
# Leaves are isolated

A leaf that keeps to itself has the same trace in any two runs of tests with the same seed, whatever
other leaves ran before it and however they ended. What the runs have done before reaches it only
through the recorder, which starts anew for every leaf, through the groups entered, which matter to
hooks that run once alone, and through the variables that it uses.
-/

namespace NestedSpec

variable {ν : Type} {t : Target}

namespace Runner

def ownScripts (runner : Runner ν) (chain : Chain ν) (leaf : Leaf ν) : Flow ν .leaf Unit := do
  chain.forM fun group => group.hooks.forM runner.runHook
  leaf.body.exec runner.deeper

def invocation (runner : Runner ν) (chain : Chain ν) (leaf : Leaf ν) : Flow ν .flow Unit :=
  Flow.invoke (runner.leafStart chain leaf) (runner.ownScripts chain leaf)

/-- The scripts of an invocation that starts in this state are told nothing about the outside but
what is in view. -/
def KeepsToItself (runner : Runner ν) (view : View) (chain : Chain ν) (leaf : Leaf ν)
    (start : State ν .flow) : Prop :=
  ∃ deeds, Settles view (runner.invocation chain leaf) start deeds ∧ Deed.anyOutside deeds = false

def enterAll (chain : Chain ν) (w : World ν) : World ν :=
  chain.foldl (fun w group => w.enter group.index) w

variable {runner : Runner ν} {chain : Chain ν}

theorem forM_enter_eq (none : ∀ group ∈ chain, group.beforeAll = []) :
    chain.forM runner.enter = Flow.changeWorld (enterAll chain) := by
  induction chain with
  | nil => rfl
  | cons group rest ih =>
    have first : runner.enter group = Flow.changeWorld (World.enter group.index) :=
      Composed.enter_eq (none group (List.mem_cons_self ..))
    have later := ih fun other member => none other (List.mem_cons_of_mem _ member)
    change (runner.enter group >>= fun _ => rest.forM runner.enter) = _
    rw [first, later]
    rfl

theorem runOnce_eq (none : ∀ group ∈ chain, group.beforeAll = []) (leaf : Leaf ν) :
    runner.runOnce chain leaf =
      Flow.changeWorld (enterAll chain) >>= fun _ => runner.invocation chain leaf := by
  have entering : (do
      chain.forM runner.enter
      runner.ownScripts chain leaf) =
      Flow.changeWorld (enterAll chain) >>= fun _ => runner.ownScripts chain leaf := by
    rw [forM_enter_eq none]
  ext1
  funext s
  change (Flow.invoke (runner.leafStart chain leaf) (do
      chain.forM runner.enter
      runner.ownScripts chain leaf)).run s = _
  rw [entering]
  simp [invocation, Flow.invoke, Flow.changeWorld, Flow.change, bind, Flow.andThen]

theorem journal_enterAll (chain : Chain ν) (w : World ν) :
    (enterAll chain w).journal = w.journal := by
  induction chain generalizing w with
  | nil => rfl
  | cons group rest ih => exact (ih (w.enter group.index)).trans (World.journal_enter ..)

section
variable {view : View}

theorem known_enterAll (chain : Chain ν) {w w' : World ν} (known : w.Known view w') :
    (enterAll chain w).Known view (enterAll chain w') := by
  induction chain generalizing w w' with
  | nil => exact known
  | cons group rest ih => exact ih (known.enter group.index)

theorem calm_enterAll (chain : Chain ν) :
    (Flow.changeWorld (enterAll chain) : Flow ν t Unit).Calm view :=
  Flow.calm_changeWorld (journal_enterAll chain) fun _ _ => known_enterAll chain

variable (blind : view.entered = false)
include blind

theorem enterAll_unseen (chain : Chain ν) (w : World ν) : w.Known view (enterAll chain w) := by
  induction chain generalizing w with
  | nil => exact ⟨fun _ _ => rfl, fun _ => rfl, fun _ => rfl⟩
  | cons group rest ih =>
    have later := ih (w.enter group.index)
    refine ⟨fun name seen => ?_, fun seen => ?_, fun seen => by simp [blind] at seen⟩
    · rw [← World.named_enter group.index w]
      exact later.named name seen
    · rw [← World.nextVariable_enter group.index w]
      exact later.nextVariable seen

/-- Entering groups without hooks that run once changes nothing for a leaf that keeps to itself. -/
theorem settles_runOnce (none : ∀ group ∈ chain, group.beforeAll = []) {leaf : Leaf ν}
    {start : State ν .flow} {deeds : List (Deed ν)}
    (settles : Settles view (runner.invocation chain leaf) start deeds)
    (inside : Deed.anyOutside deeds = false) :
    Settles view (runner.runOnce chain leaf) start deeds := by
  let entered : State ν .flow := { start with world := enterAll chain start.world }
  have near : Near view start entered := ⟨enterAll_unseen blind chain start.world, rfl, rfl⟩
  obtain ⟨settles', -⟩ := settles.also inside near
  rw [runOnce_eq none]
  cases settles' with
  | mk does cleans =>
    have entering : Does view (Flow.changeWorld (enterAll chain)) start [] [] [] :=
      .calm (calm_enterAll chain) start
    have whole : Does view (Flow.changeWorld (enterAll chain) >>= fun _ =>
        runner.invocation chain leaf) start _ _ _ := entering.bindOk rfl does
    rw [List.append_nil, List.append_nil] at whole
    exact .mk whole cleans

end

theorem runLeaf_eq {config : Config} {deeper : Deeper ν} {leaf : Leaf ν}
    (runs : (⟨config, .test, deeper⟩ : Runner ν).skipReason chain = none) :
    (⟨config, .test, deeper⟩ : Runner ν).runLeaf chain leaf =
      (⟨config, .test, deeper⟩ : Runner ν).runOnce chain leaf := by
  rw [runLeaf, runs]
  rfl

/-- The flows on which a leaf may run have the same recorder at the start in both runs, and what is
recorded for the leaf depends on what it has reported alone. -/
theorem Visited.recorded_eq {runner' : Runner ν} {host : List String} {leaf : Leaf ν}
    {start start' : State ν .flow} {recorded recorded' : Recorder}
    (batches : runner.batches chain = runner'.batches chain)
    (visited : runner.Visited host (.leaf chain leaf start recorded))
    (visited' : runner'.Visited host (.leaf chain leaf start' recorded')) :
    start.recorder = start'.recorder ∧
      ((runner.endedLeaf chain leaf start).recorder =
          (runner'.endedLeaf chain leaf start').recorder →
        recorded = recorded') := by
  cases visited with
  | inPlace alone fresh =>
    cases visited' with
    | inPlace alone' fresh' => exact ⟨by rw [fresh, fresh'], id⟩
    | apart w batched fresh' => simp [alone, batched] at batches
  | apart w batched fresh =>
    cases visited' with
    | inPlace alone' fresh' => simp [alone', batched] at batches
    | apart w' batched' fresh' =>
      refine ⟨by rw [fresh, fresh'], fun same => ?_⟩
      have report : runner.reportApart chain leaf start = runner'.reportApart chain leaf start' :=
        congrArg Recorder.report same
      rw [report, RunReport.settles_replay, RunReport.settles_replay]

/-- A leaf without hooks that run once has the same trace in two runs of tests with the same seed,
and the same is noted and recorded for it, if it keeps to itself. The runs may be of different
orders and leave out different leaves, and other leaves may have done anything before it. All flows
share the table in which variables are looked up by name and the number of the next one: as far as
these are in view, they have to be the same when the leaf starts. -/
theorem leaf_isolated (levels : Nat) {config config' : Config} (seed : config.seed = config'.seed)
    (group : Group ν) (items : List (Item ν)) {s s' : State ν .flow}
    (host : s.recorder.path = s'.recorder.path) {trail trail' : List (Visit ν)} {chain : Chain ν}
    {leaf : Leaf ν} {start start' : State ν .flow} {recorded recorded' : Recorder}
    (visit : Visit.Within (planVisits ⟨config, .test, Deeper.within levels⟩ group items s) trail
      (.leaf chain leaf start recorded))
    (visit' : Visit.Within (planVisits ⟨config', .test, Deeper.within levels⟩ group items s') trail'
      (.leaf chain leaf start' recorded'))
    (none : ∀ outer ∈ chain, outer.beforeAll = [])
    (runs : skipReason (⟨config, .test, Deeper.within levels⟩ : Runner ν) chain = .none)
    (runs' : skipReason (⟨config', .test, Deeper.within levels⟩ : Runner ν) chain = .none)
    {view : View} (blind : view.entered = false) (known : start.world.Known view start'.world)
    (keeps : KeepsToItself ⟨config, .test, Deeper.within levels⟩ view chain leaf start) :
    ∃ deeds,
      Settles view (runLeaf ⟨config, .test, Deeper.within levels⟩ chain leaf) start deeds ∧
      Settles view (runLeaf ⟨config', .test, Deeper.within levels⟩ chain leaf) start' deeds ∧
      (endedLeaf ⟨config, .test, Deeper.within levels⟩ chain leaf start).world.journal.toList =
        start.world.journal.toList ++ Deed.notesOf deeds ∧
      (endedLeaf ⟨config', .test, Deeper.within levels⟩ chain leaf start').world.journal.toList =
        start'.world.journal.toList ++ Deed.notesOf deeds ∧
      recorded = recorded' := by
  let runner : Runner ν := ⟨config, .test, Deeper.within levels⟩
  let runner' : Runner ν := ⟨config', .test, Deeper.within levels⟩
  obtain ⟨deeds, settles, inside⟩ := keeps
  have visited := Visited.within (runner.visited_planVisits group items s) visit
  have visited' := Visited.within (runner'.visited_planVisits group items s') visit'
  rw [← host] at visited'
  have batches : runner.batches chain = runner'.batches chain := rfl
  obtain ⟨recorder, same⟩ := Visited.recorded_eq batches visited visited'
  have near : Near view start start' := ⟨known, rfl, recorder⟩
  -- The leaf cannot tell the start of the other run from this one, so the trace is one from there.
  obtain ⟨settles', ended⟩ := settles.also inside near
  have invocations : runner.invocation chain leaf = runner'.invocation chain leaf := by
    simp only [invocation, leafStart, runner, runner', seed]
    rfl
  rw [invocations] at settles'
  have ran := settles_runOnce blind none settles inside
  have ran' := settles_runOnce blind none settles' inside
  rw [← runLeaf_eq runs] at ran
  rw [← runLeaf_eq runs'] at ran'
  have ended : (runner.endedLeaf chain leaf start).recorder =
      (runner'.endedLeaf chain leaf start').recorder :=
    calc (runner.endedLeaf chain leaf start).recorder
      _ = Deed.recordAll start.recorder deeds := ran.shows.recorder
      _ = Deed.recordAll start'.recorder deeds := by rw [recorder]
      _ = (runner'.endedLeaf chain leaf start').recorder := ran'.shows.recorder.symm
  exact ⟨deeds, ran, ran', ran.shows.journal, ran'.shows.journal, same ended⟩

end Runner

theorem Does.callFirst {view : View} (call : Call ν) {next : Flow ν t Unit} (s : State ν t)
    {deeds : List (Deed ν)}
    (goesOn : Does view next ((call.flow : Flow ν t Unit).run s).state deeds [] []) :
    Does view (call.flow >>= fun _ => next) s (.called call :: deeds) [] [] := by
  have completed : ((call.flow : Flow ν t Unit).run s).result = .ok () := by cases call <;> rfl
  have whole : Does view ((call.flow : Flow ν t Unit) >>= fun _ => next) s
      ([.called call] ++ deeds) ([] ++ []) ([] ++ []) :=
    .bindOk (.call call s) completed goesOn
  exact whole

def loggingLeaf : Leaf Unit := ⟨"x", default, .defer (.note () .done) (.log "ran" (.fail .done))⟩

def hookedGroup : Group Unit :=
  { plainGroup with hooks := [.before (.note () .done)], ordering := some .defined }

def slowGroup : Item Unit :=
  .group { index := 1, description := "slow", place := default, tags := ["slow"] }
    [.leaf ⟨"y", default, .stop (.panic (.text "broken"))⟩]

theorem Runner.keepsToItself_loggingLeaf (runner : Runner Unit) (view : View)
    (start : State Unit .flow) :
    runner.KeepsToItself view [hookedGroup] loggingLeaf start := by
  let s : State Unit .leaf :=
    ⟨start.world, start.recorder, runner.leafStart [hookedGroup] loggingLeaf⟩
  have done {t : Target} (s : State Unit t) :
      Does view ((Script.done : Script Unit t).exec runner.deeper) s [] [] [] :=
    .calm (Flow.calm_pure ()) s
  have notes {t : Target} (s : State Unit t) :
      Does view ((Script.note () .done : Script Unit t).exec runner.deeper) s
        [.called (.note ())] [] [] :=
    .callFirst (.note ()) s (done _)
  have hooks : Does view ([hookedGroup].forM fun group => group.hooks.forM runner.runHook) s
      [.called (.note ())] [] [] :=
    .bindOk (.bindOk (notes s) rfl (.calm (Flow.calm_pure ()) _)) rfl (.calm (Flow.calm_pure ()) _)
  have fails (s : State Unit .leaf) :
      Does view ((Script.log "ran" (.fail .done) : Script Unit .leaf).exec runner.deeper) s
        [.called (.log "ran"), .called .fail] [] [] :=
    .callFirst (.log "ran") s (.callFirst .fail _ (done _))
  have body (s : State Unit .leaf) : Does view (loggingLeaf.body.exec runner.deeper) s
      ([.owns (LeafState.pushed s.own)] ++ [.called (.log "ran"), .called .fail])
      ([] ++ [(Script.note () .done).exec runner.deeper]) ([] ++ []) :=
    .bindOk (.pushFinaliser _ s) rfl (fails _)
  exact ⟨_, .mk (.invoke (.bindOk hooks rfl (body _)) (.run (notes _) (.nil _))) (.nil _), rfl⟩

def pickyRunner : Runner Unit :=
  { plainRunner with
    config := { plainRunner.config with ordering := .random, tagExclude := ["slow"] } }

theorem Runner.leaf_isolated_loggingLeaf :
    ∃ start start' recorded deeds,
      Visit.Within (plainRunner.planVisits hookedGroup [slowGroup, .leaf loggingLeaf]
        (freshHost "spec")) [] (.leaf [hookedGroup] loggingLeaf start recorded) ∧
      Visit.Within (pickyRunner.planVisits hookedGroup [slowGroup, .leaf loggingLeaf]
        (freshHost "spec")) [] (.leaf [hookedGroup] loggingLeaf start' recorded) ∧
      Settles ⟨fun _ => False, false, false⟩
        (plainRunner.runLeaf [hookedGroup] loggingLeaf) start deeds ∧
      Settles ⟨fun _ => False, false, false⟩
        (pickyRunner.runLeaf [hookedGroup] loggingLeaf) start' deeds := by
  have seed : plainRunner.config.seed = pickyRunner.config.seed := rfl
  have visit : Visit.Within (plainRunner.planVisits hookedGroup [slowGroup, .leaf loggingLeaf]
      (freshHost "spec")) [] (.leaf [hookedGroup] loggingLeaf _ _) :=
    .here (List.mem_cons_of_mem _ (List.mem_singleton.mpr rfl))
  have visit' : Visit.Within (pickyRunner.planVisits hookedGroup [slowGroup, .leaf loggingLeaf]
      (freshHost "spec")) [] (.leaf [hookedGroup] loggingLeaf _ _) :=
    .here (List.mem_cons_of_mem _ (List.mem_singleton.mpr rfl))
  have known (w w' : World Unit) : w.Known ⟨fun _ => False, false, false⟩ w' :=
    ⟨fun _ unseen => unseen.elim, nofun, nofun⟩
  obtain ⟨deeds, ran, ran', -, -, same⟩ :=
    leaf_isolated 1 seed hookedGroup [slowGroup, .leaf loggingLeaf] rfl visit visit'
      (by simp [hookedGroup, plainGroup]) rfl rfl rfl (known _ _)
      (keepsToItself_loggingLeaf plainRunner _ _)
  exact ⟨_, _, _, deeds, visit, same ▸ visit', ran, ran'⟩

end NestedSpec
