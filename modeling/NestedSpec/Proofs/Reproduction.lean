import NestedSpec.Proofs.Coverage
import NestedSpec.Proofs.Failures
import NestedSpec.Proofs.FileOrder

/-!
# Getting a shuffle again

The members of a spec are shuffled by a generator that is derived from the seed, so whoever knows
the seed gets the shuffle again. When a run has failed, a line tells the seed if the settings ask
for random order. A spec may ask for it on its own, for itself and for those inside it; of such a
shuffle no line tells.
-/

namespace NestedSpec

variable {ν : Type}

theorem digits_of_toString {n : Nat} {c : Char} (member : c ∈ (toString n).toList) :
    c.isDigit = true :=
  Nat.isDigit_of_mem_toDigits (by decide) (by decide) (Nat.toList_repr ▸ member)

/-- A line with no separator in it is shown only for the flow itself. -/
theorem Recorder.mem_lines {r : Recorder} {message : String} (plain : '/' ∉ message.toList) :
    message ∈ r.lines ↔ ⟨[], message⟩ ∈ r.logs := by
  rw [lines, List.mem_map]
  constructor
  · rintro ⟨⟨_ | ⟨name, rest⟩, text⟩, member, shown⟩
    · exact shown ▸ member
    · refine absurd ?_ plain
      rw [← shown, renderLine]
      simp
  · intro member
    exact ⟨_, member, rfl⟩

/-- What is merged into a flow brings no lines of the flow itself. -/
theorem mem_logs_mergeVisits {r : Recorder} {visits : List (Visit ν)} {message : String} :
    ⟨[], message⟩ ∈ (mergeVisits r visits).logs ↔ ⟨[], message⟩ ∈ r.logs := by
  induction visits generalizing r with
  | nil => rfl
  | cons visit rest ih =>
    refine (ih (r := r.merge visit.recorded visit.name)).trans ?_
    simp [Recorder.merge]

theorem Orderer.order_of_random {α : Type} {orderer : Orderer} (random : orderer.mode = .random)
    (scope : String) (place : α → Location) (items : List α) : orderer.order scope place items =
      (Generator.shuffle items (.ofBytes (deriveSeed orderer.seed scope))).1 := by
  rw [order, random]

/-- A mode in force is the one of the settings or that of a group around the place. -/
theorem Orderer.within_mode (orderer : Orderer) (chain : Chain ν) :
    (orderer.within chain).mode = orderer.mode ∨
      ∃ outer ∈ chain, outer.ordering = some (orderer.within chain).mode := by
  unfold within
  cases said : chain.reverse.findSome? (·.ordering) with
  | none => exact .inl rfl
  | some mode =>
    obtain ⟨outer, around, asked⟩ := List.exists_of_findSome?_eq_some said
    exact .inr ⟨outer, List.mem_reverse.mp around, asked⟩

namespace Runner

structure Shuffles (runner : Runner ν) (tree : Item ν) (chain : Chain ν) (g : Group ν)
    (members : List (Item ν)) : Prop where
  inside : ∃ first, Item.At tree chain first (.group g members)
  several : 2 ≤ members.length
  random : (runner.orderer.within (chain ++ [g])).mode = .random

theorem Shuffles.plan {runner : Runner ν} {tree : Item ν} {chain : Chain ν} {g : Group ν}
    {members : List (Item ν)} (shuffles : runner.Shuffles tree chain g members) :
    let here := chain ++ [g]
    let seed := deriveSeed runner.config.seed here.path
    let arranged := members.map (Item.arrange (runner.orderer.within here) here)
    ∃ first, Item.At (runner.plan tree) chain first
      (.group g (Generator.shuffle arranged (.ofBytes seed)).1) := by
  obtain ⟨first, place⟩ := shuffles.inside
  obtain ⟨first', planned⟩ := place.arranged runner.orderer
  rw [Item.arrange, ← Orderer.within_append, Orderer.order_of_random shuffles.random,
    Orderer.seed_within, Item.arrangeAll_eq_map] at planned
  exact ⟨first', planned⟩

theorem plain_seedLine (runner : Runner ν) : '/' ∉ runner.seedLine.toList := by
  unfold seedLine
  simp only [String.toList_append, List.mem_append, not_or]
  exact ⟨by decide +kernel, fun digit => absurd (digits_of_toString digit) (by decide)⟩

structure TellsSeed (runner : Runner ν) (group : Group ν) (items : List (Item ν))
    (s final : State ν .flow) : Prop where
  reproduced : ∀ {chain g members}, runner.Shuffles (.group group items) chain g members →
    let here := chain ++ [g]
    let seed := deriveSeed runner.config.seed here.path
    let arranged := members.map (Item.arrange (runner.orderer.within here) here)
    ∃ first, Item.At (runner.plan (.group group items)) chain first
      (.group g (Generator.shuffle arranged (.ofBytes seed)).1)
  asked : ∀ {chain g members}, runner.Shuffles (.group group items) chain g members →
    runner.config.ordering = .random ∨ ∃ outer ∈ chain ++ [g], outer.ordering = some .random
  told : runner.seedLine ∈ final.recorder.lines ↔
    ((runner.ranAfterAll group items s).state.recorder.failed = true ∧
        runner.config.ordering = .random) ∨
      runner.seedLine ∈ (runner.ranAfterAll group items s).state.recorder.lines
  unhooked : lastHooks (Item.group group items).groups (runner.ranMembers group items s) = [] →
    (runner.seedLine ∈ (runner.ranAfterAll group items s).state.recorder.lines ↔
      runner.seedLine ∈ s.recorder.lines)

theorem lines_reported (runner : Runner ν) (r : Recorder) :
    runner.seedLine ∈ (runner.reported r).lines ↔
      (r.failed = true ∧ runner.config.ordering = .random) ∨ runner.seedLine ∈ r.lines := by
  unfold reported
  split
  · rename_i asked
    refine iff_of_true ?_ (.inl asked)
    exact (Recorder.mem_lines runner.plain_seedLine).mpr (List.mem_append_right _ (by simp))
  · rename_i unasked
    rw [or_iff_right unasked]

theorem ranAfterAll_of_unhooked (runner : Runner ν) {group : Group ν} {items : List (Item ν)}
    {s : State ν .flow}
    (none : lastHooks (Item.group group items).groups (runner.ranMembers group items s) = []) :
    (runner.ranAfterAll group items s).state = runner.ranMembers group items s := by
  rw [ranAfterAll, run_runAfterAll, none]
  rfl

theorem tellsSeed (runner : Runner ν) (group : Group ν) (items : List (Item ν))
    {s final : State ν .flow} (ended : final.recorder =
      runner.reported (runner.ranAfterAll group items s).state.recorder) :
    runner.TellsSeed group items s final where
  reproduced := fun shuffles => shuffles.plan
  asked := by
    intro chain g members shuffles
    rcases runner.orderer.within_mode (chain ++ [g]) with settings | ⟨outer, around, asked⟩
    · exact .inl (settings.symm.trans shuffles.random)
    · exact .inr ⟨outer, around, asked.trans (congrArg some shuffles.random)⟩
  told := by rw [ended, lines_reported]
  unhooked := by
    intro none
    rw [runner.ranAfterAll_of_unhooked none, recorder_ranMembers,
      Recorder.mem_lines runner.plain_seedLine, mem_logs_mergeVisits,
      Recorder.mem_lines runner.plain_seedLine]

end Runner

/-- Finishing a spec that has failed tells the seed if the settings ask for random order, whatever
the specs inside it ask for. -/
theorem Declaring.finish_tells_seed (config : Config) (mode : RunMode) (levels : Nat)
    (group : Group ν) (items : List (Item ν)) (nextIndex : Nat) (s : State ν .flow) :
    ∃ final finalisers cleanups,
      ((Declaring.finish (Deeper.within levels) ⟨config, mode, []⟩).run
          ⟨group, items, false, nextIndex⟩).run s =
        ⟨.ok ((), emptied group nextIndex), final, finalisers, cleanups⟩ ∧
      Runner.TellsSeed ⟨config, mode, Deeper.within levels⟩ group items s final := by
  exact finish_ends fun _ ended => Runner.tellsSeed _ group items ended

def shuffledGroup : Group Unit := { plainGroup with ordering := some .random }

def failingLeaves : List (Item Unit) :=
  [.leaf ⟨"a", default, .fail .done⟩, .leaf ⟨"b", default, .fail .done⟩]

def inOrder : Runner Unit :=
  ⟨{ Config.default 42 with ordering := .defined }, .test, Deeper.within 1⟩

/-- A shuffle that only a group asks for is not told of when the run has failed. -/
theorem overridden_shuffle_is_untold :
    inOrder.Shuffles (.group shuffledGroup failingLeaves) [] shuffledGroup failingLeaves ∧
      (inOrder.ranAfterAll shuffledGroup failingLeaves (freshHost "spec")).state.recorder.failed =
        true ∧
      (((Declaring.finish inOrder.deeper ⟨inOrder.config, inOrder.mode, []⟩).run
        ⟨shuffledGroup, failingLeaves, false, 1⟩).run (freshHost "spec")).state.recorder.lines =
          [] := by
  refine ⟨⟨⟨0, .root⟩, by decide, rfl⟩, ?_, ?_⟩
  · decide +kernel
  · decide +kernel

end NestedSpec
