import NestedSpec.Proofs.Closing
import NestedSpec.Proofs.Leaving

/-!
# Side effects and parallel leaves

Whether the leaves of a group run apart from it, at the same time as one another, is told by the
calls that were made before the run. Where a side effect has been declared, for the group or for one
around it, leaves never do. Elsewhere the innermost group decides for which anything was asked, and
what was asked last. What asks for parallel leaves is rejected exactly where a side effect has been
declared before.
-/

namespace NestedSpec

variable {ν : Type}

def Chain.SideEffectAround (history : List (Operation ν)) (chain : Chain ν) : Prop :=
  ∃ group ∈ chain, SideEffectIn history group.index

/-- The innermost of these groups for which anything was asked is to have parallel leaves. -/
def Chain.AsksParallel (history : List (Operation ν)) (chain : Chain ν) : Prop :=
  ∃ outer group inner, chain = outer ++ group :: inner ∧
    lastSetting history group.index = some true ∧
      ∀ other ∈ inner, lastSetting history other.index = none

section
variable {history : List (Operation ν)} {chain : Chain ν}
  (settled : ∀ group ∈ chain, group.Settled history)
include settled

theorem Chain.hasSideEffect_iff_around :
    chain.hasSideEffect = true ↔ chain.SideEffectAround history :=
  Chain.hasSideEffect_iff settled

theorem Chain.innermostSetting_iff :
    (chain.reverse.findSome? (·.parallel)).getD false = true ↔ chain.AsksParallel history := by
  have found : (chain.reverse.findSome? (·.parallel)).getD false = true ↔
      chain.reverse.findSome? (·.parallel) = some true := by
    cases chain.reverse.findSome? (·.parallel) <;> simp
  rw [found, List.findSome?_eq_some_iff]
  constructor
  · rintro ⟨inner, group, outer, split, asked, silent⟩
    have whole : chain = outer.reverse ++ group :: inner.reverse := by
      rw [← List.reverse_reverse chain, split]
      simp
    have here : group ∈ chain := by simp [whole]
    refine ⟨outer.reverse, group, inner.reverse, whole, ?_, fun other member => ?_⟩
    · rw [← (settled group here).parallel, asked]
    · have among : other ∈ chain := by
        rw [whole]
        exact List.mem_append_right _ (List.mem_cons_of_mem _ member)
      rw [← (settled other among).parallel, silent other (List.mem_reverse.mp member)]
  · rintro ⟨outer, group, inner, rfl, asked, silent⟩
    refine ⟨inner.reverse, group, outer.reverse, by simp, ?_, fun other member => ?_⟩
    · rw [(settled group (by simp)).parallel, asked]
    · have among : other ∈ inner := List.mem_reverse.mp member
      rw [(settled other (by simp [among])).parallel, silent other among]

theorem Runner.batches_iff (runner : Runner ν) : runner.batches chain = true ↔
    runner.mode = .test ∧ ¬ chain.SideEffectAround history ∧ chain.AsksParallel history := by
  rw [batches, Chain.isParallel, Bool.and_eq_true, decide_eq_true_eq, Bool.and_eq_true,
    Bool.not_eq_true', ← Bool.not_eq_true, Chain.hasSideEffect_iff_around settled,
    Chain.innermostSetting_iff settled]

end

namespace Runner

/-! ## Batches -/

/-- The leaves of a batch stand next to each other in one group. -/
theorem turns_visitBatch_eq (runner : Runner ν) (chain : Chain ν) (items : List (Item ν))
    (s : State ν .flow) : (Visit.startsAll (runner.visitBatch chain items s)).map turnOf =
      if runner.batches chain then (Item.directLeaves items).map (chain, ·) else [] := by
  unfold visitBatch
  split
  · rw [startsAll_visitReplays]
    generalize Item.directLeaves items = leaves, s.world = w
    induction leaves generalizing w with
    | nil => rfl
    | cons leaf rest ih =>
      rw [startsApart, List.map_cons, List.map_cons, List.map_cons]
      exact congrArg _ (ih _)
  · rfl

/-- Beside a batch only groups are visited. -/
theorem groups_visitEach (runner : Runner ν) {chain : Chain ν}
    (batched : runner.batches chain = true) (items : List (Item ν)) (s : State ν .flow) :
    ∀ visit ∈ runner.visitEach chain items s,
      ∃ group members recorded, visit = .group chain group members recorded := by
  induction items generalizing s with
  | nil => exact fun _ member => absurd member List.not_mem_nil
  | cons first rest ih =>
    intro visit member
    rcases List.mem_append.mp member with own | later
    · cases first with
      | leaf leaf =>
        rw [visitItem, if_pos batched] at own
        exact absurd own List.not_mem_nil
      | group group inside =>
        rw [visitItem, List.mem_singleton] at own
        exact ⟨_, _, _, own⟩
    · exact ih _ visit later

structure BatchesAsAsked (runner : Runner ν) (history : List (Operation ν)) (tree : Item ν) :
    Prop where
  numbered : Item.NumberedFrom 0 tree.groups
  places : ∀ op ∈ history, ∀ around index, op.place? = some (around, index) →
    ∃ outer group, Member.group outer group ∈ tree.postOrder [] ∧
      Chain.indices outer = around ∧ group.index = index
  never : ∀ chain leaf, Member.leaf chain leaf ∈ tree.postOrder [] →
    chain.SideEffectAround history → runner.batches chain = false
  asked : ∀ chain leaf, Member.leaf chain leaf ∈ tree.postOrder [] →
    ¬ chain.SideEffectAround history →
      (runner.batches chain = true ↔ runner.mode = .test ∧ chain.AsksParallel history)
  together : ∀ chain items s, (Visit.startsAll (runner.visitBatch chain items s)).map turnOf =
    if runner.batches chain then (Item.directLeaves items).map (chain, ·) else []
  beside : ∀ chain, runner.batches chain = true → ∀ items s,
    ∀ visit ∈ runner.visitEach chain items s,
      ∃ group members recorded, visit = .group chain group members recorded
  visited : ∀ group items, tree = .group group items → ∀ s trail visit,
    Visit.Within (runner.planVisits group items s) trail visit →
      runner.Visited s.recorder.path visit

theorem batchesAsAsked (runner : Runner ν) {history : List (Operation ν)} {tree : Item ν}
    (told : tree.ToldBy history) : runner.BatchesAsAsked history tree := by
  have settled : ∀ chain leaf, Member.leaf chain leaf ∈ tree.postOrder [] →
      ∀ group ∈ chain, group.Settled history := by
    intro chain leaf among group member
    have known := LeafOf.known ⟨told.numbered, among⟩ group member
    exact told.settled group (Item.mem_groups_iff.mpr known)
  exact {
    numbered := told.numbered
    places := told.places
    never := fun chain leaf among effect => by
      rw [← Bool.not_eq_true, runner.batches_iff (settled chain leaf among)]
      exact fun batched => batched.2.1 effect
    asked := fun chain leaf among pure => by
      rw [runner.batches_iff (settled chain leaf among)]
      simp [pure]
    together := runner.turns_visitBatch_eq
    beside := fun _ batched => runner.groups_visitEach batched
    visited := by
      rintro group items rfl s trail visit reached
      exact Visited.within (runner.visited_planVisits group items s) reached }

end Runner

structure Declaring.GuardsParallel (here : Surroundings ν) (b : Building ν) : Prop where
  rejected : (chainTo here b.group).hasSideEffect = true → ∀ s,
    ((applyModifier here .parallel).run b).run s =
      reported () "parallel requested in a spec that has a side effect" b s
  accepted : (chainTo here b.group).hasSideEffect = false → ∀ s,
    ((applyModifier here .parallel).run b).run s =
      ⟨.ok ((), { b with group := b.group.modify .parallel }), s, [], []⟩
  others : ∀ modifier, modifier ≠ .parallel → ∀ s,
    ((applyModifier here modifier).run b).run s =
      ⟨.ok ((), { b with group := b.group.modify modifier }), s, [], []⟩

/-- Whatever is called on a spec and on the specs nested in it, in whatever order: what asks for
parallel leaves is rejected exactly if a side effect was declared around it before. When the leaves
run, none is in a batch that has a side effect declared around it, and of the others those are that
the innermost group with a setting asks for. -/
theorem Registration.side_effects_run_alone (levels : Nat) (config : Config) (mode : RunMode)
    (body : Registration ν) (name : String) (s : State ν .flow) :
    let declaration := body.declaration (Deeper.within levels) ⟨config, mode, []⟩
    (∀ here (b : Building ν), b.finished = false → Declaring.GuardsParallel here b) ∧
      (∃ ops, Operates ⟨config, mode, []⟩ declaration (.start name) s ops) ∧
      ∀ ops, Operates ⟨config, mode, []⟩ declaration (.start name) s ops →
        (∀ ended, ((declaration.run (.start name)).run s).result = .ok ended →
          ∃ before tree after, ops = before ++ .ran tree :: after) ∧
        (∀ before around group after, ops = before ++ .blocked around group :: after →
          ∃ index ∈ around ++ [group], SideEffectIn before index) ∧
        (∀ before around group after, ops = before ++ .modified around group .parallel :: after →
          ¬ ∃ index ∈ around ++ [group], SideEffectIn before index) ∧
        ∀ before tree after, ops = before ++ .ran tree :: after →
          Runner.BatchesAsAsked ⟨config, mode, Deeper.within levels⟩ before tree := by
  intro declaration
  refine ⟨fun here b isOpen => ?_, body.operating levels config mode _ s, fun ops operates => ?_⟩
  · exact ⟨Declaring.run_applyModifier_blocked isOpen,
      fun clear => Declaring.run_applyModifier isOpen fun _ => clear,
      fun modifier other => Declaring.run_applyModifier isOpen fun same => absurd same other⟩
  · obtain ⟨fit, -⟩ := operates.tracked (Records.start config mode name)
    refine ⟨fun _ completed => (operates_run operates completed).1, ?_, ?_, ?_⟩
    · rintro before around group after rfl
      exact fit.at.blocked around group rfl
    · rintro before around group after rfl
      exact fit.at.allowed around group rfl
    · rintro before tree after rfl
      exact Runner.batchesAsAsked _ (fit.at.ran tree rfl)

end NestedSpec
