import NestedSpec.Proofs.Apart
import NestedSpec.Proofs.Coverage
import NestedSpec.Proofs.Endings
import NestedSpec.Proofs.Playback

/-!
# Failures reach the host

A failure of a leaf is a failure of every group around it and of the host. What makes a leaf fail
are its pieces, one by one, and what makes the host fail besides are the hooks that run after all
leaves. The pieces that do not count are those that leave as failed, without having marked the flow,
where only a panic is reported.
-/

namespace NestedSpec

variable {ν : Type}

inductive Visit.Within : List (Visit ν) → List (Visit ν) → Visit ν → Prop
  | here {visits : List (Visit ν)} {visit : Visit ν} (member : visit ∈ visits) :
      Within visits [] visit
  | inside {visits : List (Visit ν)} {chain : Chain ν} {group : Group ν} {members : List (Visit ν)}
      {recorded : Recorder} (member : .group chain group members recorded ∈ visits)
      {trail : List (Visit ν)} {visit : Visit ν} (deeper : Within members trail visit) :
      Within visits (.group chain group members recorded :: trail) visit

namespace Runner

/-! ## Leaves and groups -/

namespace Visited

variable {runner : Runner ν} {host : List String}

/-- A leaf fails exactly if one of its pieces marks it, whether it runs in its place or apart. -/
theorem leaf_failed (below : ∀ {ι : Type} (L : Likeness ι), L.RespectsDeeper runner.deeper)
    {chain : Chain ν} {leaf : Leaf ν} {start : State ν .flow} {recorded : Recorder}
    (visited : runner.Visited host (.leaf chain leaf start recorded)) :
    recorded.failed = true ↔
      ∃ ending, runner.EndsIn chain leaf start ending ∧ ending.marks = true := by
  cases visited with
  | inPlace alone fresh =>
    exact failed_endedLeaf (below growth) chain leaf start (by rw [fresh]; rfl)
  | apart w batched fresh =>
    have coherent := coherent_report (Likeness.respects_runLeaf (below apartness) chain leaf) start
      (List.cons_ne_nil _ _) fresh
    have replayed := RunReport.failed_replay coherent.failure
      (⟨w, .ofPath ((Member.leaf chain leaf).path host), ()⟩ : State ν .flow)
    refine (congrArg (· = true) replayed).to_iff.trans ?_
    exact failed_endedLeaf (below growth) chain leaf start (by rw [fresh]; rfl)

theorem group_failed {chain : Chain ν} {group : Group ν} {members : List (Visit ν)}
    {recorded : Recorder} (visited : runner.Visited host (.group chain group members recorded)) :
    recorded.failed = true ↔ ∃ member ∈ members, member.recorded.failed = true := by
  cases visited with
  | group inside => simp [mergeVisits_failed, Recorder.ofPath]

theorem within {visits trail : List (Visit ν)} {visit : Visit ν}
    (visited : ∀ visit ∈ visits, runner.Visited host visit)
    (reached : Visit.Within visits trail visit) :
    runner.Visited host visit := by
  induction reached with
  | here member => exact visited _ member
  | inside member _ ih =>
    cases visited _ member with
    | group inside => exact ih inside

theorem trail_failed {visits trail : List (Visit ν)} {visit : Visit ν}
    (visited : ∀ visit ∈ visits, runner.Visited host visit)
    (reached : Visit.Within visits trail visit)
    (failed : visit.recorded.failed = true) :
    (∀ outer ∈ trail, outer.recorded.failed = true) ∧
      ∃ outermost ∈ visits, outermost.recorded.failed = true := by
  induction reached with
  | here member => exact ⟨by simp, _, member, failed⟩
  | @inside visits chain group members recorded member trail visit deeper ih =>
    have around := visited _ member
    have inside : ∀ visit ∈ members, runner.Visited host visit := by
      cases around with
      | group inside => exact inside
    obtain ⟨outer, below⟩ := ih inside failed
    have own : recorded.failed = true := around.group_failed.mpr below
    exact ⟨List.forall_mem_cons.mpr ⟨own, outer⟩, _, member, own⟩

end Visited

theorem case_mem_entries {visits trail : List (Visit ν)} {visit : Visit ν}
    (reached : Visit.Within visits trail visit) :
    visit.recorded.case ∈ (Visit.entriesAll visits).map (·.case) := by
  induction reached with
  | @here visits visit member =>
    rw [Visit.entriesAll_eq_flatMap, List.map_flatMap]
    refine List.mem_flatMap.mpr ⟨visit, member, ?_⟩
    cases visit <;> simp [Visit.entries, Visit.recorded]
  | @inside visits chain group members recorded member trail visit deeper ih =>
    rw [Visit.entriesAll_eq_flatMap visits, List.map_flatMap]
    refine List.mem_flatMap.mpr ⟨_, member, ?_⟩
    rw [Visit.entries, List.map_append]
    exact List.mem_append_left _ ih

/-! ## The hooks after all leaves -/

def runLast (runner : Runner ν) (hook : Script ν .flow) : Flow ν .flow Unit := do
  let outcome ← Flow.guard (hook.exec runner.deeper)
  if let some message := outcome.panicMessage? then
    Flow.error ("after_all panicked: " ++ message)

def lastHooks (groups : List (Group ν)) (s : State ν .flow) : List (Script ν .flow) :=
  (groups.reverse.filter fun group => s.world.entered.contains group.index).flatMap (·.afterAll)

def lastEndings (runner : Runner ν) : List (Script ν .flow) → State ν .flow → List Ending
  | [], _ => []
  | hook :: rest, s =>
    ((hook.exec runner.deeper).run s).ending .lastHook ::
      lastEndings runner rest ((runner.runLast hook).run s).state

theorem run_runAfterAll (runner : Runner ν) (groups : List (Group ν)) (s : State ν .flow) :
    (runner.runAfterAll groups).run s =
      (inTurn ((lastHooks groups s).map runner.runLast)).run s := by
  have hooks := forM_forM_eq_inTurn
    (groups.reverse.filter fun group => s.world.entered.contains group.index) (·.afterAll)
    runner.runLast
  rw [lastHooks, ← hooks]
  have entered : (Flow.ask fun s => s.world.entered : Flow ν .flow (List Nat)).run s =
      ⟨.ok s.world.entered, s, [], []⟩ := rfl
  rw [runAfterAll, Flow.run_bind_ok _ entered]
  simp only [List.append_nil]
  rfl

theorem run_runLast (runner : Runner ν) (hook : Script ν .flow) (s : State ν .flow) :
    ((runner.runLast hook).run s).result = .ok () ∧
      ((runner.runLast hook).run s).state.recorder.failed =
        (((hook.exec runner.deeper).run s).ending .lastHook).marks := by
  rcases ended : (hook.exec runner.deeper).run s with ⟨result, s', finalisers, cleanups⟩
  have guarded : (Flow.guard (hook.exec runner.deeper)).run s =
      ⟨.ok (.ofExcept result), s', finalisers, cleanups⟩ := by
    simp only [Flow.guard, ended]
  rw [runLast, Flow.run_bind_ok _ guarded]
  rcases result with (exit | payload) | value
  · cases exit <;> simp [Outcome.ofExcept, Outcome.ofStop, Outcome.panicMessage?, Step.ending,
      Ending.marks, Ending.minded, Phase.minds]
  · exact ⟨rfl, by simp [Outcome.ofExcept, Outcome.ofStop, Outcome.panicMessage?, Step.ending,
      Ending.marks, Ending.minded, Flow.error, Flow.changeRecorder, Flow.change, Recorder.fail]⟩
  · simp [Outcome.ofExcept, Outcome.panicMessage?, Step.ending, Ending.marks, Ending.minded]

theorem failed_lastHooks {runner : Runner ν} (below : growth.RespectsDeeper runner.deeper)
    (hooks : List (Script ν .flow)) (s : State ν .flow) :
    ((inTurn (hooks.map runner.runLast)).run s).state.recorder.failed = true ↔
      s.recorder.failed = true ∨ ∃ ending ∈ runner.lastEndings hooks s, ending.marks = true := by
  induction hooks generalizing s with
  | nil => simp [inTurn, lastEndings]
  | cons hook rest ih =>
    obtain ⟨completed, failed⟩ := runner.run_runLast hook s
    have ran : (runner.runLast hook).run s = ⟨.ok (), ((runner.runLast hook).run s).state,
        ((runner.runLast hook).run s).finalisers, ((runner.runLast hook).run s).cleanups⟩ := by
      rw [← completed]
    have grown := Flow.grows (Likeness.respects_exec below hook) s
    rw [List.map_cons, inTurn, Flow.run_bind_ok _ ran, ih, failed]
    simp only [lastEndings, List.exists_mem_cons_iff]
    constructor
    · rintro (first | later)
      · exact .inr (.inl first)
      · exact .inr (.inr later)
    · rintro (before | first | later)
      · exact .inl (by simp [Step.ending, Ending.marks, grown.failed before])
      · exact .inl first
      · exact .inr later

/-! ## A whole run -/

def runLastEndings (runner : Runner ν) (group : Group ν) (items : List (Item ν))
    (s : State ν .flow) : List Ending :=
  runner.lastEndings (lastHooks (Item.group group items).groups (runner.ranMembers group items s))
    (runner.ranMembers group items s)

/-- A run loses no failure but that of a piece which is lost, and only while no other piece marks
the flow. -/
structure KeepsFailures (runner : Runner ν) (group : Group ν) (items : List (Item ν))
    (s final : State ν .flow) : Prop where
  marks : ∀ ending : Ending, ending.fails = true → (ending.marks = true ↔ ending.lost = false)
  leaves : ∀ trail chain leaf start recorded,
    Visit.Within (runner.planVisits group items s) trail (.leaf chain leaf start recorded) →
    (recorded.failed = true ↔
      ∃ ending, runner.EndsIn chain leaf start ending ∧ ending.marks = true)
  groups : ∀ trail chain inner members recorded,
    Visit.Within (runner.planVisits group items s) trail (.group chain inner members recorded) →
    (recorded.failed = true ↔ ∃ member ∈ members, member.recorded.failed = true)
  host : final.recorder.failed = true ↔ s.recorder.failed = true ∨
    (∃ visit ∈ runner.planVisits group items s, visit.recorded.failed = true) ∨
    ∃ ending ∈ runner.runLastEndings group items s, ending.marks = true
  cases : ∀ trail visit, Visit.Within (runner.planVisits group items s) trail visit →
    visit.recorded.case ∈ final.recorder.cases
  kept : ∀ trail chain leaf start recorded ending,
    Visit.Within (runner.planVisits group items s) trail (.leaf chain leaf start recorded) →
    runner.EndsIn chain leaf start ending → ending.fails = true →
    ((recorded.failed = true ∧ (∀ outer ∈ trail, outer.recorded.failed = true) ∧
        final.recorder.failed = true) ↔
      ending.lost = false ∨
        ∃ other, runner.EndsIn chain leaf start other ∧ other.marks = true)
  keptLast : ∀ ending ∈ runner.runLastEndings group items s, ending.fails = true →
    ending.lost = false → final.recorder.failed = true

theorem failed_run {runner : Runner ν} (below : growth.RespectsDeeper runner.deeper)
    (group : Group ν) (items : List (Item ν)) (s : State ν .flow) :
    (runner.ranAfterAll group items s).state.recorder.failed = true ↔
      s.recorder.failed = true ∨
      (∃ visit ∈ runner.planVisits group items s, visit.recorded.failed = true) ∨
      ∃ ending ∈ runner.runLastEndings group items s, ending.marks = true := by
  have hooks := failed_lastHooks below
    (lastHooks (Item.group group items).groups (runner.ranMembers group items s))
    (runner.ranMembers group items s)
  rw [ranAfterAll, run_runAfterAll, hooks, recorder_ranMembers, mergeVisits_failed]
  simp [runLastEndings, or_assoc]

theorem keepsFailures {runner : Runner ν}
    (below : ∀ {ι : Type} (L : Likeness ι), L.RespectsDeeper runner.deeper) (group : Group ν)
    (items : List (Item ν)) {s final : State ν .flow}
    (cases : final.recorder.cases = (runner.ranAfterAll group items s).state.recorder.cases)
    (failed : final.recorder.failed = (runner.ranAfterAll group items s).state.recorder.failed) :
    runner.KeepsFailures group items s final := by
  have covers := runner.covers (below growth) group items cases
  have host := failed_run (below growth) group items s
  rw [← failed] at host
  refine ⟨fun _ => Ending.marks_iff_not_lost, ?_, ?_, host, ?_, ?_, ?_⟩
  · intro trail chain leaf start recorded reached
    exact (Visited.within covers.visited reached).leaf_failed below
  · intro trail chain inner members recorded reached
    exact (Visited.within covers.visited reached).group_failed
  · intro trail visit reached
    obtain ⟨rest, recorded, -⟩ := covers.recorded
    rw [recorded]
    exact List.mem_append_left _ (List.mem_append_right _ (case_mem_entries reached))
  -- A piece that is lost is kept all the same if another piece marks the leaf.
  · intro trail chain leaf start recorded ending reached piece fails
    have leafFailed := (Visited.within covers.visited reached).leaf_failed below
    constructor
    · rintro ⟨own, -, -⟩
      exact .inr (leafFailed.mp own)
    · intro kept
      have own : recorded.failed = true := by
        rcases kept with notLost | marked
        · exact leafFailed.mpr ⟨ending, piece, (Ending.marks_iff_not_lost fails).mpr notLost⟩
        · exact leafFailed.mpr marked
      obtain ⟨outer, outermost⟩ := Visited.trail_failed covers.visited reached own
      exact ⟨own, outer, host.mpr (.inr (.inl outermost))⟩
  · intro ending member fails notLost
    exact host.mpr (.inr (.inr ⟨ending, member, (Ending.marks_iff_not_lost fails).mpr notLost⟩))

end Runner

/-- Finishing a spec loses no failure but that of a piece which is lost. -/
theorem Declaring.finish_keeps_failures (config : Config) (mode : RunMode) (levels : Nat)
    (group : Group ν) (items : List (Item ν)) (nextIndex : Nat) (s : State ν .flow) :
    ∃ final finalisers cleanups,
      ((Declaring.finish (Deeper.within levels) ⟨config, mode, []⟩).run
          ⟨group, items, false, nextIndex⟩).run s =
        ⟨.ok ((), emptied group nextIndex), final, finalisers, cleanups⟩ ∧
      Runner.KeepsFailures ⟨config, mode, Deeper.within levels⟩ group items s final := by
  refine finish_ends fun final ended =>
    Runner.keepsFailures (fun _ => Likeness.respects_deeper levels) group items ?_ ?_
  · rw [ended, Runner.cases_reported]
  · rw [ended, Runner.failed_reported]

def exitingFinaliser : Leaf Unit := ⟨"x", default, .defer (.stop (.exit .fail)) .done⟩

def plainGroup : Group Unit := { index := 0, description := "spec", place := default }

def exitingGroup : Group Unit := { plainGroup with afterAll := [.stop (.exit .fail)] }

def recordedBy (group : Group Unit) (items : List (Item Unit)) : Recorder :=
  (((Declaring.finish plainRunner.deeper ⟨plainRunner.config, plainRunner.mode, []⟩).run
    ⟨group, items, false, 1⟩).run (freshHost "spec")).state.recorder

/-- A finaliser that leaves as failed is lost, and so is a hook after all leaves. -/
theorem exits_are_lost :
    (∃ start recorded ending,
      Visit.Within (plainRunner.planVisits plainGroup
        [.leaf exitingFinaliser] (freshHost "spec")) []
        (.leaf [plainGroup] exitingFinaliser start recorded) ∧
      plainRunner.EndsIn [plainGroup] exitingFinaliser start ending ∧
      ending.fails = true ∧ recorded.failed = false ∧
      recordedBy plainGroup [.leaf exitingFinaliser] =
        ⟨["spec"], false, false, [], [⟨["spec", "x"], false, false⟩]⟩) ∧
    ∃ ending ∈ plainRunner.runLastEndings exitingGroup
        [.leaf ⟨"x", default, .done⟩] (freshHost "spec"),
      ending.fails = true ∧ recordedBy exitingGroup [.leaf ⟨"x", default, .done⟩] =
        ⟨["spec"], false, false, [], [⟨["spec", "x"], false, false⟩]⟩ := by
  constructor
  · exact ⟨_, _, _, .here (List.mem_singleton.mpr rfl), .invocation (List.mem_singleton.mpr rfl)
      (.finaliser (.pop (.done _ _)) (List.mem_singleton.mpr rfl)), rfl, rfl, rfl⟩
  · exact ⟨_, List.mem_singleton.mpr rfl, rfl, rfl⟩

end NestedSpec
