import NestedSpec.Proofs.Failures
import NestedSpec.Proofs.OnceCalls

/-!
# Leaves that are left out

Which leaves are executed is decided by the marks and the tags of the groups around them. A leaf that
is left out runs nothing and changes nothing but its recorder, which tells the reason.
-/

namespace NestedSpec

variable {ν : Type}

namespace Chain

theorem skipReason_eq_none_iff {chain : Chain ν} :
    chain.skipReason = none ↔ ∀ group ∈ chain, group.skip = none :=
  List.findSome?_eq_none_iff

/-- Of the groups that are marked the outermost one gives the reason. -/
theorem skipReason_eq_some_iff {chain : Chain ν} {reason : String} :
    chain.skipReason = some reason ↔ ∃ outer group inner, chain = outer ++ group :: inner ∧
      group.skip = some reason ∧ ∀ around ∈ outer, around.skip = none :=
  List.findSome?_eq_some_iff

theorem skipsBenchmark_iff {chain : Chain ν} :
    chain.skipsBenchmark = true ↔ ∃ group ∈ chain, group.skipBenchmark = true :=
  List.any_eq_true

theorem mem_tags {chain : Chain ν} {tag : String} :
    tag ∈ chain.tags ↔ ∃ group ∈ chain, tag ∈ group.tags := by
  simp [tags, merge]

end Chain

namespace Runner

/-! ## The filters -/

def Measures (runner : Runner ν) (chain : Chain ν) : Prop :=
  runner.mode ≠ .test → ∀ group ∈ chain, group.skipBenchmark = false

def Includes (runner : Runner ν) (chain : Chain ν) : Prop :=
  runner.config.tagInclude = [] ∨
    ∃ group ∈ chain, ∃ tag ∈ group.tags, tag ∈ runner.config.tagInclude

structure Selects (runner : Runner ν) (chain : Chain ν) : Prop where
  unmarked : ∀ group ∈ chain, group.skip = none
  measured : runner.Measures chain
  included : runner.Includes chain
  notExcluded : ∀ group ∈ chain, ∀ tag ∈ group.tags, tag ∉ runner.config.tagExclude

/-- Why the leaves inside some groups are left out. Of several reasons it is the first. -/
inductive LeavesOut (runner : Runner ν) (chain : Chain ν) : String → Prop
  | marked {outer inner : Chain ν} {group : Group ν} {reason : String}
      (split : chain = outer ++ group :: inner) (mark : group.skip = some reason)
      (around : ∀ other ∈ outer, other.skip = none) : LeavesOut runner chain reason
  | unmeasured (unmarked : ∀ group ∈ chain, group.skip = none)
      (not : ¬ runner.Measures chain) : LeavesOut runner chain "skipped in benchmark mode"
  | untagged (unmarked : ∀ group ∈ chain, group.skip = none) (measured : runner.Measures chain)
      (not : ¬ runner.Includes chain) : LeavesOut runner chain ("no tag matches " ++ tagIncludeKey)
  | excluded (unmarked : ∀ group ∈ chain, group.skip = none) (measured : runner.Measures chain)
      (included : runner.Includes chain) {before after : List String} {tag : String}
      (split : chain.tags = before ++ tag :: after) (not : tag ∈ runner.config.tagExclude)
      (first : ∀ other ∈ before, other ∉ runner.config.tagExclude) :
      LeavesOut runner chain ("tag " ++ Text.quote tag ++ " is excluded")

variable {runner : Runner ν} {chain : Chain ν}

theorem measures_iff : runner.Measures chain ↔
    ¬ (runner.mode ≠ .test && chain.skipsBenchmark) = true := by
  unfold Measures
  rw [Bool.and_eq_true, decide_eq_true_eq, Chain.skipsBenchmark_iff]
  simp

theorem includes_iff : runner.Includes chain ↔
    ¬ (!runner.config.tagInclude.isEmpty &&
      !chain.tags.any runner.config.tagInclude.contains) = true := by
  have some : chain.tags.any runner.config.tagInclude.contains = true ↔
      ∃ group ∈ chain, ∃ tag ∈ group.tags, tag ∈ runner.config.tagInclude := by
    simp only [List.any_eq_true, Chain.mem_tags, List.contains_iff_mem]
    constructor
    · rintro ⟨tag, ⟨group, inside, own⟩, asked⟩
      exact ⟨group, inside, tag, own, asked⟩
    · rintro ⟨group, inside, tag, own, asked⟩
      exact ⟨tag, ⟨group, inside, own⟩, asked⟩
  unfold Includes
  rw [← some, ← List.isEmpty_iff]
  cases runner.config.tagInclude.isEmpty <;>
    cases chain.tags.any runner.config.tagInclude.contains <;> simp

/-- Without a mark the first of the other filters decides. -/
theorem skipReason_of_unmarked (unmarked : ∀ group ∈ chain, group.skip = none) :
    runner.skipReason chain =
      if (runner.mode ≠ .test && chain.skipsBenchmark) = true then some "skipped in benchmark mode"
      else if (!runner.config.tagInclude.isEmpty &&
          !chain.tags.any runner.config.tagInclude.contains) = true then
        some ("no tag matches " ++ tagIncludeKey)
      else (chain.tags.find? runner.config.tagExclude.contains).map fun tag =>
        "tag " ++ Text.quote tag ++ " is excluded" := by
  unfold skipReason
  rw [Chain.skipReason_eq_none_iff.mpr unmarked]

theorem LeavesOut.skipReason_eq {reason : String} (leaves : runner.LeavesOut chain reason) :
    runner.skipReason chain = some reason := by
  cases leaves with
  | marked split mark around =>
    unfold skipReason
    rw [Chain.skipReason_eq_some_iff.mpr ⟨_, _, _, split, mark, around⟩]
  | unmeasured unmarked not =>
    rw [skipReason_of_unmarked unmarked, if_pos (not_not.mp (mt measures_iff.mpr not))]
  | untagged unmarked measured not =>
    rw [skipReason_of_unmarked unmarked, if_neg (measures_iff.mp measured),
      if_pos (not_not.mp (mt includes_iff.mpr not))]
  | @excluded unmarked measured included before after tag split not first =>
    have found : chain.tags.find? runner.config.tagExclude.contains = some tag :=
      List.find?_eq_some_iff_append.mpr ⟨by simpa using not, before, after, split,
        fun other member => by simpa using first other member⟩
    rw [skipReason_of_unmarked unmarked, if_neg (measures_iff.mp measured),
      if_neg (includes_iff.mp included), found, Option.map_some]

theorem Selects.skipReason_eq (selects : runner.Selects chain) :
    runner.skipReason chain = none := by
  rw [skipReason_of_unmarked selects.unmarked, if_neg (measures_iff.mp selects.measured),
    if_neg (includes_iff.mp selects.included), Option.map_eq_none_iff, List.find?_eq_none]
  intro tag member
  obtain ⟨group, inside, own⟩ := Chain.mem_tags.mp member
  simpa using selects.notExcluded group inside tag own

/-- What is inside some groups is executed, or there is a reason to leave it out. -/
theorem selects_or_leavesOut (runner : Runner ν) (chain : Chain ν) :
    runner.Selects chain ∨ ∃ reason, runner.LeavesOut chain reason := by
  cases marks : chain.skipReason with
  | some reason =>
    obtain ⟨outer, group, inner, split, mark, around⟩ := Chain.skipReason_eq_some_iff.mp marks
    exact .inr ⟨reason, .marked split mark around⟩
  | none =>
    have unmarked := Chain.skipReason_eq_none_iff.mp marks
    by_cases measured : runner.Measures chain
    · by_cases included : runner.Includes chain
      · cases found : chain.tags.find? runner.config.tagExclude.contains with
        | none =>
          refine .inl ⟨unmarked, measured, included, fun group inside tag own => ?_⟩
          simpa using List.find?_eq_none.mp found tag (Chain.mem_tags.mpr ⟨group, inside, own⟩)
        | some tag =>
          obtain ⟨not, before, after, split, first⟩ := List.find?_eq_some_iff_append.mp found
          refine .inr ⟨_, .excluded unmarked measured included split (by simpa using not) ?_⟩
          exact fun other member => by simpa using first other member
      · exact .inr ⟨_, .untagged unmarked measured included⟩
    · exact .inr ⟨_, .unmeasured unmarked measured⟩

theorem skipReason_eq_some_iff {reason : String} :
    runner.skipReason chain = some reason ↔ runner.LeavesOut chain reason := by
  constructor
  · intro left
    rcases runner.selects_or_leavesOut chain with selects | ⟨other, leaves⟩
    · rw [selects.skipReason_eq] at left
      cases left
    · rw [leaves.skipReason_eq] at left
      exact Option.some.inj left ▸ leaves
  · exact LeavesOut.skipReason_eq

theorem skipReason_eq_none_iff : runner.skipReason chain = none ↔ runner.Selects chain := by
  constructor
  · intro executed
    rcases runner.selects_or_leavesOut chain with selects | ⟨reason, leaves⟩
    · exact selects
    · rw [leaves.skipReason_eq] at executed
      cases executed
  · exact Selects.skipReason_eq

/-! ## Leaves that are executed -/

/-- A benchmark invokes a leaf at least once. -/
theorem exists_invocations (iterations : Nat) : ∃ count, max 1 iterations = count + 1 :=
  Nat.exists_eq_add_one.mpr (by omega)

/-- A leaf that is not left out is invoked, whatever comes after that. -/
theorem runLeaf_of_selects (selects : runner.Selects chain) (leaf : Leaf ν) :
    ∃ rest, runner.runLeaf chain leaf = (do runner.runOnce chain leaf; rest) := by
  unfold runLeaf runInvocations
  rw [selects.skipReason_eq]
  cases runner.mode with
  | test => exact ⟨pure (), (bind_pure _).symm⟩
  | benchmark iterations =>
    obtain ⟨count, more⟩ := exists_invocations iterations
    refine ⟨do
      runner.repeatOnce chain leaf count
      Flow.log (toString (count + 1) ++ " iterations, 0ns per iteration"), ?_⟩
    simp only [more, repeatOnce, bind_assoc]

theorem invocations_ne_nil_iff (leaf : Leaf ν) (start : State ν .flow) :
    runner.invocations chain leaf start ≠ [] ↔ runner.Selects chain := by
  rw [← skipReason_eq_none_iff, invocations]
  cases runner.skipReason chain with
  | some reason => simp
  | none =>
    cases runner.mode with
    | test => simp
    | benchmark iterations =>
      obtain ⟨count, more⟩ := exists_invocations iterations
      simp [more, repeatStarts]

/-! ## Leaves that are left out -/

def leftOutRecorder (path : List String) (reason : String) : Recorder where
  path := path
  failed := false
  skipped := true
  logs := [⟨[], reason⟩]
  cases := []

namespace LeavesOut

variable {reason : String} (leaves : runner.LeavesOut chain reason)
include leaves

theorem runLeaf_eq (leaf : Leaf ν) : runner.runLeaf chain leaf = Flow.skip reason := by
  unfold runLeaf
  rw [leaves.skipReason_eq]

theorem endedLeaf_eq (leaf : Leaf ν) (start : State ν .flow) :
    runner.endedLeaf chain leaf start =
      { start with recorder := (start.recorder.log reason).skip } := by
  unfold endedLeaf
  rw [leaves.runLeaf_eq]
  rfl

theorem calls_eq (leaf : Leaf ν) (start : State ν .flow) :
    runner.calls [(chain, leaf, start)] = [] := by
  simp [calls, invocations, leaves.skipReason_eq]

/-- The same is recorded whether the leaf has its turn in place or apart. -/
theorem recorded_eq {host : List String} {leaf : Leaf ν} {start : State ν .flow}
    {recorded : Recorder} (visited : runner.Visited host (.leaf chain leaf start recorded)) :
    recorded = leftOutRecorder ((Member.leaf chain leaf).path host) reason := by
  cases visited with
  | inPlace alone fresh =>
    rw [leaves.endedLeaf_eq, fresh]
    rfl
  | apart w batched fresh =>
    have report : runner.reportApart chain leaf start =
        ⟨joinNames [joinNames (chain.pathFrom host), leaf.description], false, true,
          [⟨[], reason⟩], []⟩ := by
      rw [reportApart, leaves.endedLeaf_eq, fresh]
      rfl
    rw [report, RunReport.settles_replay]
    rfl

end LeavesOut

/-! ## A whole run -/

/-- A leaf with a case of its own has been visited. -/
theorem within_of_ownMembers {leaf : Leaf ν} : (visits : List (Visit ν)) →
    Member.leaf chain leaf ∈ Visit.ownMembers visits →
      ∃ trail start recorded, Visit.Within visits trail (.leaf chain leaf start recorded)
  | [], among => absurd among List.not_mem_nil
  | first :: rest, among => by
    rw [Visit.ownMembers_cons, List.mem_append] at among
    rcases among with inFirst | inRest
    · cases first with
      | leaf outer own start recorded =>
        rw [Visit.ownMembers_leaf, List.mem_singleton] at inFirst
        obtain ⟨rfl, rfl⟩ := Member.leaf.inj inFirst
        exact ⟨[], start, recorded, .here (List.mem_cons_self ..)⟩
      | group outer group members recorded =>
        rw [Visit.ownMembers_group, List.mem_append] at inFirst
        have inside : Member.leaf chain leaf ∈ Visit.ownMembers members := by
          simpa using inFirst
        obtain ⟨trail, start, own, within⟩ := within_of_ownMembers members inside
        exact ⟨_, start, own, .inside (List.mem_cons_self ..) within⟩
    · obtain ⟨trail, start, recorded, within⟩ := within_of_ownMembers rest inRest
      refine ⟨trail, start, recorded, ?_⟩
      cases within with
      | here member => exact .here (List.mem_cons_of_mem _ member)
      | inside member deeper => exact .inside (List.mem_cons_of_mem _ member) deeper

/-- The leaves that a run executes are those that the filters select, and the others leave nothing
but a case that tells the reason. -/
structure Filters (runner : Runner ν) (group : Group ν) (items : List (Item ν))
    (s final : State ν .flow) : Prop where
  visited : ∀ chain leaf, Member.leaf chain leaf ∈ Item.postOrderAll [group] items →
    ∃ trail start recorded,
      Visit.Within (runner.planVisits group items s) trail (.leaf chain leaf start recorded)
  executes : ∀ chain leaf start, runner.invocations chain leaf start ≠ [] ↔ runner.Selects chain
  invokes : ∀ chain, runner.Selects chain → ∀ leaf, ∃ rest,
    runner.runLeaf chain leaf = (do runner.runOnce chain leaf; rest)
  reasons : ∀ chain, (¬ runner.Selects chain ↔ ∃ reason, runner.LeavesOut chain reason) ∧
    ∀ reason other, runner.LeavesOut chain reason → runner.LeavesOut chain other → reason = other
  skips : ∀ chain reason, runner.LeavesOut chain reason → ∀ leaf,
    runner.runLeaf chain leaf = Flow.skip reason ∧ ∀ start, runner.calls [(chain, leaf, start)] = []
  untouched : ∀ chain reason, runner.LeavesOut chain reason → ∀ leaf start,
    runner.endedLeaf chain leaf start =
      { start with recorder := (start.recorder.log reason).skip }
  recorded : ∀ trail chain leaf start recorded reason,
    Visit.Within (runner.planVisits group items s) trail (.leaf chain leaf start recorded) →
    runner.LeavesOut chain reason →
    recorded = leftOutRecorder ((Member.leaf chain leaf).path s.recorder.path) reason ∧
      recorded.case ∈ final.recorder.cases

theorem filters {runner : Runner ν} (below : growth.RespectsDeeper runner.deeper) (group : Group ν)
    (items : List (Item ν)) {s final : State ν .flow}
    (cases : final.recorder.cases = (runner.ranAfterAll group items s).state.recorder.cases) :
    runner.Filters group items s final := by
  have covers := runner.covers below group items cases
  exact {
    visited := fun chain leaf registered => by
      apply within_of_ownMembers
      rw [covers.order]
      exact covers.registered.mem_iff.mpr registered
    executes := fun _ leaf start => invocations_ne_nil_iff leaf start
    invokes := fun _ selects leaf => runLeaf_of_selects selects leaf
    reasons := fun chain => by
      constructor
      · rw [← skipReason_eq_none_iff, ← ne_eq, Option.ne_none_iff_exists']
        simp only [skipReason_eq_some_iff]
      · intro reason other leaves leavesToo
        exact Option.some.inj (leaves.skipReason_eq.symm.trans leavesToo.skipReason_eq)
    skips := fun _ _ leaves leaf => ⟨leaves.runLeaf_eq leaf, leaves.calls_eq leaf⟩
    untouched := fun _ _ leaves => leaves.endedLeaf_eq
    recorded := fun trail chain leaf start recorded reason reached leaves => by
      obtain ⟨rest, all, -⟩ := covers.recorded
      refine ⟨leaves.recorded_eq (Visited.within covers.visited reached), ?_⟩
      rw [all]
      exact List.mem_append_left _ (List.mem_append_right _ (case_mem_entries reached)) }

end Runner

/-- Whatever tree is run: a leaf is executed exactly if the filters select it. One that is left out
runs no hook, enters no group, and has a case that is skipped and tells the one reason. -/
theorem Declaring.finish_filters (config : Config) (mode : RunMode) (levels : Nat) (group : Group ν)
    (items : List (Item ν)) (nextIndex : Nat) (s : State ν .flow) :
    ∃ final finalisers cleanups,
      ((Declaring.finish (Deeper.within levels) ⟨config, mode, []⟩).run
          ⟨group, items, false, nextIndex⟩).run s =
        ⟨.ok ((), emptied group nextIndex), final, finalisers, cleanups⟩ ∧
      Runner.Filters ⟨config, mode, Deeper.within levels⟩ group items s final := by
  refine finish_ends fun final ended => Runner.filters (Likeness.respects_deeper levels) group items ?_
  rw [ended, Runner.cases_reported]

/-- A mark on the outer group comes before one on the inner group, and before the tags. -/
example : (⟨{ Config.default 0 with tagInclude := ["slow"] }, .test, Deeper.within 1⟩ :
      Runner Unit).skipReason
    [plainGroup, { plainGroup with skip := some "outer" }, { plainGroup with skip := some "inner" }]
      = some "outer" := rfl

end NestedSpec
