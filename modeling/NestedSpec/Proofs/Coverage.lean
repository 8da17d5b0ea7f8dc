import NestedSpec.Proofs.Visits

/-!
# A run covers its plan

Whatever hooks, bodies, finalisers and cleanups do, a run comes to its end, and what it records are
the cases of its visits: one for every member of the plan, in post-order, with the leaves of groups
that run them apart moved behind the groups next to them. In between stand the cases of sub-runs
that were started inside a leaf.
-/

namespace NestedSpec

variable {ν : Type}

/-- A case that a run records: the member in whose sub-run it was recorded, and whether it is the
case of that sub-run itself. -/
structure CaseEntry (ν : Type) where
  member : Member ν
  own : Bool
  case : Case

namespace Visit

mutual
def entries : Visit ν → List (CaseEntry ν)
  | leaf chain l _ recorded =>
    recorded.cases.map (⟨.leaf chain l, false, ·⟩) ++ [⟨.leaf chain l, true, recorded.case⟩]
  | group chain g members recorded =>
    entriesAll members ++ [⟨.group chain g, true, recorded.case⟩]

def entriesAll : List (Visit ν) → List (CaseEntry ν)
  | [] => []
  | first :: rest => entries first ++ entriesAll rest
end

theorem entriesAll_eq_flatMap (visits : List (Visit ν)) :
    entriesAll visits = visits.flatMap entries := by
  induction visits with
  | nil => rfl
  | cons first rest ih => simp [entriesAll, ih]

@[simp] theorem entriesAll_append (first second : List (Visit ν)) :
    entriesAll (first ++ second) = entriesAll first ++ entriesAll second := by
  simp [entriesAll_eq_flatMap]

def ownMembers (visits : List (Visit ν)) : List (Member ν) :=
  ((entriesAll visits).filter (·.own)).map (·.member)

@[simp] theorem ownMembers_nil : ownMembers ([] : List (Visit ν)) = [] := rfl

@[simp] theorem ownMembers_append (first second : List (Visit ν)) :
    ownMembers (first ++ second) = ownMembers first ++ ownMembers second := by
  simp [ownMembers]

theorem ownMembers_cons (visit : Visit ν) (rest : List (Visit ν)) :
    ownMembers (visit :: rest) = ownMembers [visit] ++ ownMembers rest :=
  ownMembers_append [visit] rest

@[simp] theorem ownMembers_leaf (chain : Chain ν) (l : Leaf ν) (start : State ν .flow)
    (recorded : Recorder) : ownMembers [leaf chain l start recorded] = [.leaf chain l] := by
  simp [ownMembers, entriesAll, entries, List.filter_eq_nil_iff]

@[simp] theorem ownMembers_group (chain : Chain ν) (g : Group ν) (members : List (Visit ν))
    (recorded : Recorder) :
    ownMembers [group chain g members recorded] = ownMembers members ++ [.group chain g] := by
  simp [ownMembers, entriesAll, entries]

end Visit

namespace Runner

/-! ## Every visit has its place -/

/-- A visit that is in its place below a host: a leaf ran in place or its report was played back
there, on a recorder that had reported nothing, and a group was recorded by merging its visits. -/
inductive Visited (runner : Runner ν) (host : List String) : Visit ν → Prop
  | inPlace {chain : Chain ν} {leaf : Leaf ν} {start : State ν .flow}
      (alone : runner.batches chain = false)
      (fresh : start.recorder = .ofPath ((Member.leaf chain leaf).path host)) :
      Visited runner host (.leaf chain leaf start (runner.endedLeaf chain leaf start).recorder)
  | apart {chain : Chain ν} {leaf : Leaf ν} {start : State ν .flow} (w : World ν)
      (batched : runner.batches chain = true)
      (fresh : start.recorder = .detached (joinNames (chain.pathFrom host)) leaf.description) :
      Visited runner host (.leaf chain leaf start
        (Flow.settle ((runner.reportApart chain leaf start).replay.run
          ⟨w, .ofPath ((Member.leaf chain leaf).path host), ()⟩)).recorder)
  | group {chain : Chain ν} {group : Group ν} {members : List (Visit ν)}
      (inside : ∀ member ∈ members, Visited runner host member) :
      Visited runner host (.group chain group members
        (mergeVisits (.ofPath ((Member.group chain group).path host)) members))

theorem visited_visitReplays (runner : Runner ν) {host : List String} {chain : Chain ν}
    (batched : runner.batches chain = true) (leaves : List (Leaf ν)) (w : World ν)
    (s : State ν .flow) (here : s.recorder.path = chain.pathFrom host) :
    ∀ visit ∈ runner.visitReplays chain
        (runner.startsApart chain (joinNames (chain.pathFrom host)) leaves w) s,
      runner.Visited host visit := by
  induction leaves generalizing w s with
  | nil => simp [startsApart, visitReplays]
  | cons leaf rest ih =>
    intro visit member
    simp only [startsApart, visitReplays, List.mem_cons] at member
    rcases member with rfl | later
    · have place : s.recorder.child leaf.description =
          .ofPath ((Member.leaf chain leaf).path host) := by
        rw [Recorder.child, here, Member.path]
      rw [place]
      exact .apart s.world batched rfl
    · refine ih _ _ ?_ visit later
      exact here

theorem visited_visitBatch (runner : Runner ν) {host : List String} (chain : Chain ν)
    (items : List (Item ν)) (s : State ν .flow) (here : s.recorder.path = chain.pathFrom host) :
    ∀ visit ∈ runner.visitBatch chain items s, runner.Visited host visit := by
  unfold visitBatch
  split
  · rename_i batched
    have name : s.recorder.name = joinNames (chain.pathFrom host) := by rw [Recorder.name, here]
    obtain ⟨w, apart⟩ := runner.run_runApart chain s.recorder.name (Item.directLeaves items) s
    rw [apart, name]
    exact runner.visited_visitReplays batched _ _ _ here
  · simp

mutual
theorem visited_visitItem (runner : Runner ν) {host : List String} {chain : Chain ν}
    (inside : chain ≠ []) : (item : Item ν) → (s : State ν .flow) →
    s.recorder.path = chain.pathFrom host →
    ∀ visit ∈ runner.visitItem chain item s, runner.Visited host visit
  | .leaf leaf, s, here, visit, member => by
    unfold visitItem at member
    split at member
    · simp at member
    · rename_i alone
      rw [List.mem_singleton.mp member]
      refine .inPlace (Bool.eq_false_iff.mpr alone) ?_
      simp only [Recorder.child, here, Member.path]
  | .group group items, s, here, visit, member => by
    rw [visitItem, List.mem_singleton] at member
    have path : s.recorder.child group.description =
        .ofPath ((Member.group chain group).path host) := by
      rw [Recorder.child, here, Member.path]
    have below : (s.recorder.child group.description).path =
        Chain.pathFrom host (chain ++ [group]) := by
      rw [path, Chain.pathFrom_append host inside]
      rfl
    -- The visits inside leave the path of the recorder as it is, so the batch finds it, too.
    have recorded := runner.recorder_runMembers (chain ++ [group]) items
      ⟨s.world, s.recorder.child group.description, ()⟩
    rw [member, recorded]
    simp only [path]
    refine .group fun visit among => ?_
    rcases List.mem_append.mp among with first | batch
    · exact visited_visitEach runner (by simp) items _ (path ▸ below) visit first
    · refine runner.visited_visitBatch _ items _ ?_ visit batch
      rw [recorder_runEach, mergeVisits_path]
      exact path ▸ below

theorem visited_visitEach (runner : Runner ν) {host : List String} {chain : Chain ν}
    (inside : chain ≠ []) : (items : List (Item ν)) → (s : State ν .flow) →
    s.recorder.path = chain.pathFrom host →
    ∀ visit ∈ runner.visitEach chain items s, runner.Visited host visit
  | [], _, _, _, member => by simp [visitEach] at member
  | first :: rest, s, here, visit, member => by
    rcases List.mem_append.mp member with head | tail
    · exact visited_visitItem runner inside first s here visit head
    · refine visited_visitEach runner inside rest _ ?_ visit tail
      rw [recorder_runItem, mergeVisits_path, here]
end

theorem visited_visitMembers (runner : Runner ν) {host : List String} {chain : Chain ν}
    (inside : chain ≠ []) (items : List (Item ν)) (s : State ν .flow)
    (here : s.recorder.path = chain.pathFrom host) :
    ∀ visit ∈ runner.visitMembers chain items s, runner.Visited host visit := by
  intro visit member
  rcases List.mem_append.mp member with first | batch
  · exact visited_visitEach runner inside items s here visit first
  · refine runner.visited_visitBatch chain items _ ?_ visit batch
    rw [recorder_runEach, mergeVisits_path, here]

namespace Visited

variable {runner : Runner ν} {host : List String} {visit : Visit ν}

theorem entries_cases (visited : runner.Visited host visit) :
    visit.entries.map (·.case) = visit.recorded.cases ++ [visit.recorded.case] := by
  induction visited with
  | inPlace => simp [Visit.entries, Visit.recorded, Function.comp_def]
  | apart => simp [Visit.entries, Visit.recorded, Function.comp_def]
  | @group chain group members inside ih =>
    have same : (Visit.entriesAll members).map (·.case) =
        members.flatMap fun visit => visit.recorded.cases ++ [visit.recorded.case] := by
      rw [Visit.entriesAll_eq_flatMap, List.map_flatMap]
      exact List.flatMap_congr ih
    simp [Visit.entries, Visit.recorded, same, mergeVisits_cases, Recorder.ofPath]

theorem leaf_grows (below : growth.RespectsDeeper runner.deeper) {chain : Chain ν} {leaf : Leaf ν}
    {start : State ν .flow} {recorded : Recorder}
    (visited : runner.Visited host (.leaf chain leaf start recorded)) :
    (Recorder.ofPath ((Member.leaf chain leaf).path host)).Extends recorded := by
  cases visited with
  | inPlace alone fresh =>
    rw [← fresh]
    exact Flow.settle_grows (Likeness.respects_runLeaf below chain leaf) start
  | apart w batched fresh =>
    exact Flow.settle_grows (Likeness.respects_replay _)
      ⟨w, .ofPath ((Member.leaf chain leaf).path host), ()⟩

end Visited

theorem entries_cases_all {runner : Runner ν} {host : List String} {visits : List (Visit ν)}
    (visited : ∀ visit ∈ visits, runner.Visited host visit) :
    (Visit.entriesAll visits).map (·.case) =
      visits.flatMap fun visit => visit.recorded.cases ++ [visit.recorded.case] := by
  rw [Visit.entriesAll_eq_flatMap, List.map_flatMap]
  exact List.flatMap_congr fun visit member => (visited visit member).entries_cases

/-! ## Every case has its place -/

structure Placed (host : List String) (entry : CaseEntry ν) : Prop where
  own : entry.own = true → entry.case.path = entry.member.path host
  inner : entry.own = false → StrictlyBelow (entry.member.path host) entry.case.path ∧
    ∃ chain leaf, entry.member = .leaf chain leaf

theorem placed_entries {runner : Runner ν} (below : growth.RespectsDeeper runner.deeper)
    {host : List String} {visit : Visit ν} (visited : runner.Visited host visit) :
    ∀ entry ∈ visit.entries, Placed host entry := by
  -- Both ways of running a leaf lead to one recorder that grew from a fresh one.
  have leaves : ∀ {chain : Chain ν} {leaf : Leaf ν} {start : State ν .flow} {recorded : Recorder},
      runner.Visited host (.leaf chain leaf start recorded) →
      ∀ entry ∈ (Visit.leaf chain leaf start recorded).entries, Placed host entry := by
    intro chain leaf start recorded visited entry member
    have grown := visited.leaf_grows below
    obtain ⟨newer, cases, under⟩ := grown.cases
    simp only [Visit.entries, List.mem_append, List.mem_map, List.mem_singleton] at member
    rcases member with ⟨c, inner, rfl⟩ | rfl
    · rw [cases] at inner
      exact ⟨nofun, fun _ => ⟨under c inner, chain, leaf, rfl⟩⟩
    · exact ⟨fun _ => grown.path, nofun⟩
  induction visited with
  | inPlace alone fresh => exact leaves (.inPlace alone fresh)
  | apart w batched fresh => exact leaves (.apart w batched fresh)
  | @group chain group members inside ih =>
    intro entry member
    simp only [Visit.entries, Visit.entriesAll_eq_flatMap, List.mem_append, List.mem_flatMap,
      List.mem_singleton] at member
    rcases member with ⟨visit, among, member⟩ | rfl
    · exact ih visit among entry member
    · exact ⟨fun _ => mergeVisits_path _ _, nofun⟩

/-! ## The order of the cases -/

theorem ownMembers_visitReplays (runner : Runner ν) (chain : Chain ν) (host : String)
    (leaves : List (Leaf ν)) (w : World ν) (s : State ν .flow) :
    Visit.ownMembers (runner.visitReplays chain (runner.startsApart chain host leaves w) s) =
      leaves.map (.leaf chain) := by
  induction leaves generalizing w s with
  | nil => rfl
  | cons leaf rest ih =>
    rw [startsApart, visitReplays, Visit.ownMembers_cons, Visit.ownMembers_leaf, ih]
    rfl

theorem postOrderAll_leaves (moves : Chain ν → Bool) (chain : Chain ν) (items : List (Item ν)) :
    Item.postOrderAll chain ((Item.leavesLastAll moves chain items).filter (·.isLeaf)) =
      (Item.directLeaves items).map (.leaf chain) := by
  induction items with
  | nil => rfl
  | cons first rest ih =>
    cases first with
    | leaf leaf =>
      simpa [Item.leavesLastAll, Item.leavesLast, Item.isLeaf, Item.directLeaves,
        Item.postOrderAll, Item.postOrder] using ih
    | group group items =>
      simpa [Item.leavesLastAll, Item.leavesLast, Item.isLeaf, Item.directLeaves] using ih

theorem ownMembers_visitBatch (runner : Runner ν) (chain : Chain ν) (items : List (Item ν))
    (s : State ν .flow) (batched : runner.batches chain = true) :
    Visit.ownMembers (runner.visitBatch chain items s) = Item.postOrderAll chain
      ((Item.leavesLastAll runner.batches chain items).filter (·.isLeaf)) := by
  rw [visitBatch, if_pos batched, ownMembers_visitReplays, postOrderAll_leaves]

theorem ownMembers_both (runner : Runner ν) (chain : Chain ν) (items : List (Item ν))
    (s : State ν .flow)
    (each : Visit.ownMembers (runner.visitEach chain items s) = Item.postOrderAll chain
      ((Item.leavesLastAll runner.batches chain items).filter fun item =>
        !(runner.batches chain && item.isLeaf))) :
    Visit.ownMembers (runner.visitMembers chain items s) =
      Item.postOrderAll chain (Item.membersLeavesLast runner.batches chain items) := by
  rw [visitMembers, Visit.ownMembers_append, each]
  cases batched : runner.batches chain with
  | true =>
    rw [runner.ownMembers_visitBatch chain items _ batched, ← Item.postOrderAll_append]
    simp [Item.membersLeavesLast, Item.groupsFirst, batched]
  | false => simp [visitBatch, Item.membersLeavesLast, batched]

mutual
theorem ownMembers_visitItem (runner : Runner ν) (chain : Chain ν) :
    (item : Item ν) → (s : State ν .flow) →
    Visit.ownMembers (runner.visitItem chain item s) = Item.postOrderAll chain
      ([Item.leavesLast runner.batches chain item].filter fun item =>
        !(runner.batches chain && item.isLeaf))
  | .leaf leaf, s => by
    unfold visitItem
    cases runner.batches chain with
    | true => rfl
    | false => simp [Item.leavesLast, Item.postOrderAll, Item.postOrder]
  | .group group items, s => by
    have members := runner.ownMembers_both (chain ++ [group]) items
      ⟨s.world, s.recorder.child group.description, ()⟩
      (ownMembers_visitEach runner (chain ++ [group]) items _)
    rw [visitItem, Visit.ownMembers_group]
    refine (congrArg (· ++ [Member.group chain group]) members).trans ?_
    simp [Item.leavesLast, Item.isLeaf, Item.postOrderAll, Item.postOrder, Item.membersLeavesLast]

theorem ownMembers_visitEach (runner : Runner ν) (chain : Chain ν) :
    (items : List (Item ν)) → (s : State ν .flow) →
    Visit.ownMembers (runner.visitEach chain items s) = Item.postOrderAll chain
      ((Item.leavesLastAll runner.batches chain items).filter fun item =>
        !(runner.batches chain && item.isLeaf))
  | [], _ => rfl
  | first :: rest, s => by
    rw [visitEach, Visit.ownMembers_append, ownMembers_visitItem runner chain first s,
      ownMembers_visitEach runner chain rest _, ← Item.postOrderAll_append, ← List.filter_append]
    rfl
end

/-- The members of a group are visited in post-order, with leaves moved. -/
theorem ownMembers_visitMembers (runner : Runner ν) (chain : Chain ν) (items : List (Item ν))
    (s : State ν .flow) : Visit.ownMembers (runner.visitMembers chain items s) =
      Item.postOrderAll chain (Item.membersLeavesLast runner.batches chain items) :=
  runner.ownMembers_both chain items s (runner.ownMembers_visitEach chain items s)

/-! ## Coverage -/

def recordOrder (runner : Runner ν) (group : Group ν) (items : List (Item ν)) : List (Member ν) :=
  Item.postOrderAll [group]
    (Item.membersLeavesLast runner.batches [group] (runner.planned group items))

structure Covers (runner : Runner ν) (group : Group ν) (items : List (Item ν))
    (s final : State ν .flow) : Prop where
  order : Visit.ownMembers (runner.planVisits group items s) = runner.recordOrder group items
  registered : (runner.recordOrder group items).Perm (Item.postOrderAll [group] items)
  visited : ∀ visit ∈ runner.planVisits group items s, runner.Visited s.recorder.path visit
  placed : ∀ entry ∈ Visit.entriesAll (runner.planVisits group items s),
    Placed s.recorder.path entry
  recorded : ∃ rest,
    final.recorder.cases = s.recorder.cases ++
      (Visit.entriesAll (runner.planVisits group items s)).map (·.case) ++ rest ∧
    (runner.ranAfterAll group items s).state.recorder.cases =
      (runner.ranMembers group items s).recorder.cases ++ rest ∧
    ∀ c ∈ rest, StrictlyBelow s.recorder.path c.path
  announced : (∀ chain leaf, .leaf chain leaf ∈ Item.postOrderAll [group] items →
      runner.batches chain = false) →
    (Visit.ownMembers (runner.planVisits group items s)).filterMap Member.leafName? =
      (runner.plan (.group group items)).leafPaths []

theorem planned_perm (runner : Runner ν) (group : Group ν) (items : List (Item ν)) :
    (Item.postOrderAll [group] (runner.planned group items)).Perm
      (Item.postOrderAll [group] items) := by
  have arranged := Item.postOrder_arrange runner.orderer [] (.group group items)
  exact (List.perm_append_right_iff [Member.group [] group]).mp arranged

theorem visited_planVisits (runner : Runner ν) (group : Group ν) (items : List (Item ν))
    (s : State ν .flow) :
    ∀ visit ∈ runner.planVisits group items s, runner.Visited s.recorder.path visit :=
  runner.visited_visitMembers (by simp) (runner.planned group items) (started s)
    (by simp [started, Chain.pathFrom])

theorem covers (runner : Runner ν) (below : growth.RespectsDeeper runner.deeper) (group : Group ν)
    (items : List (Item ν)) {s final : State ν .flow}
    (ended : final.recorder.cases = (runner.ranAfterAll group items s).state.recorder.cases) :
    runner.Covers group items s final := by
  have order : Visit.ownMembers (runner.planVisits group items s) =
      runner.recordOrder group items :=
    runner.ownMembers_visitMembers [group] (runner.planned group items) (started s)
  have visited := runner.visited_planVisits group items s
  refine ⟨order, ?_, visited, ?_, ?_, ?_⟩
  · have moved := (Item.postOrderAll_perm [group] (Item.membersLeavesLast_perm runner.batches
      [group] (runner.planned group items))).trans
        (Item.postOrderAll_leavesLastAll runner.batches [group] (runner.planned group items))
    exact moved.trans (runner.planned_perm group items)
  · intro entry member
    rw [Visit.entriesAll_eq_flatMap] at member
    obtain ⟨visit, among, inside⟩ := List.mem_flatMap.mp member
    exact placed_entries below (visited visit among) entry inside
  -- The last hooks only add to the recorder of the host.
  · have grown := Flow.grows (Likeness.respects_runAfterAll below
      (Item.group group items).groups) (runner.ranMembers group items s)
    obtain ⟨rest, cases, under⟩ := grown.cases
    rw [runner.recorder_ranMembers, mergeVisits_path] at under
    refine ⟨rest, ?_, cases, under⟩
    rw [ended, entries_cases_all visited, ← mergeVisits_cases, ← runner.recorder_ranMembers]
    exact cases
  · intro alone
    have unmoved : ∀ chain l, Member.leaf chain l ∈
        Item.postOrderAll [group] (runner.planned group items) → runner.batches chain = false :=
      fun chain l member => alone chain l ((runner.planned_perm group items).mem_iff.mp member)
    have same : runner.recordOrder group items =
        Item.postOrderAll [group] (runner.planned group items) := by
      rw [recordOrder, Item.membersLeavesLast_of_unmoved
        (Item.leavesLastAll_of_unmoved _ unmoved) unmoved]
    rw [order, same]
    exact (Item.leafPathsAll_eq [group] (runner.planned group items)).symm

end Runner

def Declaring.emptied (group : Group ν) (nextIndex : Nat) : Building ν :=
  ⟨{ index := 0, description := group.description, place := group.place }, [], true, nextIndex⟩

theorem Declaring.run_finish (deeper : Deeper ν) (config : Config) (mode : RunMode)
    (group : Group ν) (items : List (Item ν)) (nextIndex : Nat) :
    (Declaring.finish deeper ⟨config, mode, []⟩).run ⟨group, items, false, nextIndex⟩ = (do
      Runner.run ⟨config, mode, deeper⟩ (.group group items)
      pure ((), emptied group nextIndex)) := by
  simp [Declaring.finish, emptied]

/-- Finishing a spec runs its tree, leaves the spec empty and comes to its end. What the last hooks
have left in the recorder is there, with the line about the order. -/
theorem Declaring.finish_ends {config : Config} {mode : RunMode} {levels : Nat} {group : Group ν}
    {items : List (Item ν)} {nextIndex : Nat} {s : State ν .flow} {P : State ν .flow → Prop}
    (holds : ∀ final : State ν .flow,
      let runner : Runner ν := ⟨config, mode, Deeper.within levels⟩
      final.recorder = runner.reported (runner.ranAfterAll group items s).state.recorder →
      P final) :
    ∃ final finalisers cleanups,
      ((finish (Deeper.within levels) ⟨config, mode, []⟩).run
          ⟨group, items, false, nextIndex⟩).run s =
        ⟨.ok ((), emptied group nextIndex), final, finalisers, cleanups⟩ ∧ P final := by
  have ran := Runner.run_eq ⟨config, mode, Deeper.within levels⟩ group items s
  have finished := congrArg (·.run s)
    (run_finish (Deeper.within levels) config mode group items nextIndex)
  exact ⟨_, _, _, finished.trans (Flow.run_bind_ok _ ran), holds _ rfl⟩

/-- Finishing a spec comes to its end, and its run covers the plan. -/
theorem Declaring.finish_covers (config : Config) (mode : RunMode) (levels : Nat) (group : Group ν)
    (items : List (Item ν)) (nextIndex : Nat) (s : State ν .flow) :
    ∃ final finalisers cleanups,
      ((Declaring.finish (Deeper.within levels) ⟨config, mode, []⟩).run
          ⟨group, items, false, nextIndex⟩).run s =
        ⟨.ok ((), emptied group nextIndex), final, finalisers, cleanups⟩ ∧
      Runner.Covers ⟨config, mode, Deeper.within levels⟩ group items s final := by
  refine finish_ends fun final ended => Runner.covers _ (Likeness.respects_deeper levels) group items ?_
  rw [ended, Runner.cases_reported]

end NestedSpec
