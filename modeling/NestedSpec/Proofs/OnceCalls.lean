import Mathlib.Data.List.Nodup
import Mathlib.Data.List.Perm.Subperm
import NestedSpec.Proofs.Endings
import NestedSpec.Proofs.Freezing

/-!
# What an invocation calls

An invocation goes through its parts: it enters the groups around the leaf, which calls the hooks
that run once for those that have not been entered, and then calls the other hooks and the body. The
numbers of the groups entered, in the order in which they were entered, tell which of the hooks that
run once have been called by then.
-/

namespace NestedSpec

variable {ν α : Type} {t : Target}

/-! ## What runs in turn -/

def walk (flow : α → Flow ν t Unit) : List α → State ν t → List (α × State ν t)
  | [], _ => []
  | item :: rest, s =>
    (item, s) :: match ((flow item).run s).result with
      | .ok _ => walk flow rest ((flow item).run s).state
      | .error _ => []

theorem visits_eq_walk (flow : α → Flow ν t Unit) (items : List α) (s : State ν t) :
    visits (items.map flow) s = (walk flow items s).map fun entry => (flow entry.1).run entry.2 := by
  induction items generalizing s with
  | nil => rfl
  | cons item rest ih =>
    cases ended : ((flow item).run s).result with
    | ok value => simp [visits, walk, ended, ih]
    | error stop => simp [visits, walk, ended]

theorem state_inTurn_ok {part : Flow ν t Unit} {rest : List (Flow ν t Unit)} {s : State ν t}
    {value : Unit} (completed : (part.run s).result = .ok value) :
    ((inTurn (part :: rest)).run s).state = ((inTurn rest).run (part.run s).state).state := by
  rw [inTurn, Flow.run_bind_of_ok _ completed]

theorem state_inTurn_error {part : Flow ν t Unit} {rest : List (Flow ν t Unit)} {s : State ν t}
    {stop : Stop} (stopped : (part.run s).result = .error stop) :
    ((inTurn (part :: rest)).run s).state = (part.run s).state := by
  rw [inTurn, Flow.run_bind_of_error _ stopped]

/-- How the first of so many hooks ended: all of them came to their ends, or some of them did and
the one behind those stopped. -/
inductive Cut : Nat → List Bool → Prop
  | all (count : Nat) : Cut count (List.replicate count true)
  | stopped (ran rest : Nat) : Cut (ran + 1 + rest) (List.replicate ran true ++ [false])

theorem Cut.cons {count : Nat} {ends : List Bool} (cut : Cut count ends) :
    Cut (count + 1) (true :: ends) := by
  cases cut with
  | all => exact .all (count + 1)
  | stopped ran rest =>
    have counted : ran + 1 + rest + 1 = (ran + 1) + 1 + rest := by omega
    rw [counted]
    exact .stopped (ran + 1) rest

/-- All of the hooks ran unless one that has others behind it stopped. -/
theorem Cut.all_iff {count : Nat} {ends : List Bool} (cut : Cut count ends) :
    count ≤ ends.length ↔ ∀ place, ends[place]? = some false → place + 1 = count := by
  cases cut with
  | all =>
    apply iff_of_true (by simp)
    intro place stopped
    simp [List.getElem?_replicate] at stopped
  | stopped ran rest =>
    constructor
    · intro enough place stopped
      have inside : place < (List.replicate ran true ++ [false]).length :=
        (List.getElem?_eq_some_iff.mp stopped).1
      have last : ¬ place < ran := by
        intro below
        rw [List.getElem?_append_left (by simpa using below)] at stopped
        simp [List.getElem?_replicate] at stopped
      simp only [List.length_append, List.length_replicate, List.length_singleton] at enough inside
      omega
    · intro last
      have here := last ran (by simp)
      simp only [List.length_append, List.length_replicate, List.length_singleton]
      omega

theorem cut_visits (parts : List (Flow ν t Unit)) (s : State ν t) :
    Cut parts.length ((visits parts s).map (·.result.isOk)) := by
  induction parts generalizing s with
  | nil => exact .all 0
  | cons part rest ih =>
    cases ended : (part.run s).result with
    | ok value => simpa [visits, ended, Except.isOk, Except.toBool] using (ih (part.run s).state).cons
    | error stop =>
      have one := Cut.stopped 0 rest.length
      simpa [visits, ended, Except.isOk, Except.toBool, Nat.add_comm] using one

/-! ## What an invocation of a leaf runs -/

structure OnceCall where
  group : Nat
  place : Nat
  completed : Bool
deriving DecidableEq

def onceCalls (group : Nat) (ends : List Bool) : List OnceCall :=
  ends.mapIdx fun place completed => ⟨group, place, completed⟩

theorem mem_onceCalls {group : Nat} {ends : List Bool} {call : OnceCall} :
    call ∈ onceCalls group ends ↔
      call.group = group ∧ ends[call.place]? = some call.completed := by
  rw [onceCalls, List.mem_mapIdx]
  constructor
  · rintro ⟨place, inside, rfl⟩
    exact ⟨rfl, List.getElem?_eq_getElem inside⟩
  · rintro ⟨rfl, ended⟩
    obtain ⟨inside, same⟩ := List.getElem?_eq_some_iff.mp ended
    exact ⟨call.place, inside, by rw [same]⟩

theorem places_onceCalls (group : Nat) (ends : List Bool) :
    (onceCalls group ends).map (fun call => (call.group, call.place)) =
      (List.range ends.length).map (group, ·) := by
  apply List.ext_getElem <;> simp [onceCalls]

inductive Invoked (ν : Type) where
  | once (call : OnceCall)
  | hook (chain : Chain ν) (hook : Hook ν)
  | body (chain : Chain ν) (leaf : Leaf ν)

namespace Invoked

def once? : Invoked ν → Option OnceCall
  | once call => some call
  | hook _ _ | body _ _ => none

def around? : Invoked ν → Option (Chain ν)
  | once _ => none
  | hook chain _ | body chain _ => some chain

end Invoked

inductive Stage (ν : Type) where
  | enter (group : Group ν)
  | hook (hook : Hook ν)
  | body

def Stage.inside (chain : Chain ν) : List (Stage ν) :=
  (chain.flatMap (·.hooks)).map .hook ++ [.body]

namespace Runner

def stage (runner : Runner ν) (leaf : Leaf ν) : Stage ν → Flow ν .leaf Unit
  | .enter group => runner.enter group
  | .hook hook => runner.runHook hook
  | .body => leaf.body.exec runner.deeper

theorem parts_eq_stages (runner : Runner ν) (chain : Chain ν) (leaf : Leaf ν) :
    runner.parts chain leaf = (chain.map Stage.enter ++ Stage.inside chain).map (runner.stage leaf) := by
  simp [parts, Stage.inside, stage, Function.comp_def]

def entering (group : Group ν) (s : State ν .leaf) : State ν .leaf :=
  { s with world := { s.world with entered := group.index :: s.world.entered } }

def onceSteps (runner : Runner ν) (group : Group ν) (s : State ν .leaf) :
    List (Step ν .leaf Unit) :=
  if s.world.entered.contains group.index then []
  else
    visits (group.beforeAll.map fun hook => Flow.onFlow (hook.exec runner.deeper)) (entering group s)

theorem run_enter (runner : Runner ν) (group : Group ν) (s : State ν .leaf) :
    (runner.enter group).run s =
      .together (if s.world.entered.contains group.index then s else entering group s)
        (runner.onceSteps group s) := by
  have entered : (Flow.ask fun s => s.world.entered : Flow ν .leaf (List Nat)).run s =
      ⟨.ok s.world.entered, s, [], []⟩ := rfl
  unfold enter onceSteps
  rw [Flow.run_bind_ok _ entered]
  split
  · rfl
  · have marked : (Flow.changeWorld fun w => { w with entered := group.index :: w.entered } :
        Flow ν .leaf Unit).run s = ⟨.ok (), entering group s, [], []⟩ := rfl
    rw [Flow.run_bind_ok _ marked, forM_eq_inTurn, run_inTurn]
    simp

def stageCalls (runner : Runner ν) (chain : Chain ν) (leaf : Leaf ν) :
    Stage ν × State ν .leaf → List (Invoked ν)
  | (.enter group, s) =>
    (onceCalls group.index ((runner.onceSteps group s).map (·.result.isOk))).map .once
  | (.hook hook, _) => [.hook chain hook]
  | (.body, _) => [.body chain leaf]

def invocationCalls (runner : Runner ν) (chain : Chain ν) (leaf : Leaf ν) (s : State ν .flow) :
    List (Invoked ν) :=
  (walk (runner.stage leaf) (chain.map Stage.enter ++ Stage.inside chain)
    ⟨s.world, s.recorder, runner.leafStart chain leaf⟩).flatMap (runner.stageCalls chain leaf)

def calls (runner : Runner ν) (runs : List (Chain ν × Leaf ν × State ν .flow)) :
    List (Invoked ν) :=
  runs.flatMap fun run =>
    (runner.invocations run.1 run.2.1 run.2.2).flatMap (runner.invocationCalls run.1 run.2.1)

end Runner

/-! ## Groups have one place -/

namespace Member

def group? : Member ν → Option (Chain ν × Group ν)
  | leaf _ _ => none
  | group chain g => some (chain, g)

end Member

namespace Item

mutual
theorem groups_postOrder (chain : Chain ν) : (item : Item ν) →
    (((postOrder chain item).filterMap Member.group?).map (·.2)).Perm (groups item)
  | leaf _ => .refl _
  | group g items => by
    have inside := groups_postOrderAll (chain ++ [g]) items
    simp only [postOrder, groups, List.filterMap_append, List.map_append, List.filterMap_cons,
      Member.group?, List.filterMap_nil, List.map_cons, List.map_nil]
    exact (List.perm_append_singleton g _).trans (inside.cons g)

theorem groups_postOrderAll (chain : Chain ν) : (items : List (Item ν)) →
    (((postOrderAll chain items).filterMap Member.group?).map (·.2)).Perm (groupsAll items)
  | [] => .refl _
  | first :: rest => by
    simp only [postOrderAll, groupsAll, List.filterMap_append, List.map_append]
    exact (groups_postOrder chain first).append (groups_postOrderAll chain rest)
end

/-- In a tree with numbered groups, a number tells the group and its place. -/
theorem NumberedFrom.place_eq {start : Nat} {tree : Item ν}
    (numbered : NumberedFrom start (groups tree)) {chain chain' : Chain ν} {g g' : Group ν}
    (place : Member.group chain g ∈ postOrder [] tree)
    (place' : Member.group chain' g' ∈ postOrder [] tree) (same : g.index = g'.index) :
    chain = chain' ∧ g = g' := by
  have distinct : (((postOrder [] tree).filterMap Member.group?).map (·.2.index)).Nodup := by
    have perm := (groups_postOrder [] tree).map (·.index)
    rw [List.map_map, numbered] at perm
    exact perm.nodup_iff.mpr List.nodup_range'
  have among : ∀ {chain : Chain ν} {g : Group ν}, Member.group chain g ∈ postOrder [] tree →
      (chain, g) ∈ (postOrder [] tree).filterMap Member.group? :=
    fun place => List.mem_filterMap.mpr ⟨_, place, rfl⟩
  have equal := List.inj_on_of_nodup_map distinct (among place) (among place') same
  exact Prod.mk.inj equal

mutual
/-- The groups around a leaf are members of the tree. -/
theorem around_postOrder (above : Chain ν) : (item : Item ν) → {chain : Chain ν} → {l : Leaf ν} →
    Member.leaf chain l ∈ postOrder above item → ∃ inner, chain = above ++ inner ∧
      ∀ outer g rest, inner = outer ++ g :: rest →
        Member.group (above ++ outer) g ∈ postOrder above item
  | leaf l, chain, l', among => by
    cases List.mem_singleton.mp among
    exact ⟨[], (List.append_nil _).symm, fun outer g rest split => by simp at split⟩
  | group g items, chain, l, among => by
    have among : Member.leaf chain l ∈ postOrderAll (above ++ [g]) items := by
      simpa [postOrder] using among
    obtain ⟨inner, rfl, inside⟩ := around_postOrderAll (above ++ [g]) items among
    refine ⟨g :: inner, by simp, fun outer g' rest split => ?_⟩
    cases outer with
    | nil =>
      obtain ⟨rfl, -⟩ := List.cons.inj split
      simp [postOrder]
    | cons first outer =>
      obtain ⟨rfl, deeper⟩ := List.cons.inj split
      have below := inside outer g' rest deeper
      rw [List.append_assoc] at below
      exact List.mem_append_left _ below

theorem around_postOrderAll (above : Chain ν) : (items : List (Item ν)) → {chain : Chain ν} →
    {l : Leaf ν} → Member.leaf chain l ∈ postOrderAll above items →
      ∃ inner, chain = above ++ inner ∧ ∀ outer g rest, inner = outer ++ g :: rest →
        Member.group (above ++ outer) g ∈ postOrderAll above items
  | first :: rest, chain, l, among => by
    rcases List.mem_append.mp among with inFirst | inRest
    · obtain ⟨inner, same, inside⟩ := around_postOrder above first inFirst
      exact ⟨inner, same, fun outer g others split =>
        List.mem_append_left _ (inside outer g others split)⟩
    · obtain ⟨inner, same, inside⟩ := around_postOrderAll above rest inRest
      exact ⟨inner, same, fun outer g others split =>
        List.mem_append_right _ (inside outer g others split)⟩
end

end Item

/-! ## What has run when a group has been entered -/

def Chain.indices (chain : Chain ν) : List Nat := chain.map (·.index)

/-- The hooks that run once for the groups of a chain have been called: for one group after another,
inwards, and for each in the order of registration up to the first that stopped. -/
def RanBefore (chain : Chain ν) (earlier : List (Invoked ν)) : Prop :=
  ∃ ends : Nat → List Bool, (∀ group ∈ chain, Cut group.beforeAll.length (ends group.index)) ∧
    (earlier.filterMap Invoked.once?).filter (fun call => call.group ∈ chain.indices) =
      chain.flatMap fun group => onceCalls group.index (ends group.index)

def AllRan (chain : Chain ν) (earlier : List (Invoked ν)) : Prop :=
  ∀ group ∈ chain, ∀ place < group.beforeAll.length,
    ∃ call ∈ earlier.filterMap Invoked.once?, call.group = group.index ∧ call.place = place

/-- The calls for one group of the chain tell how its hooks ended. -/
theorem mem_called_iff {chain : Chain ν} {calls : List OnceCall} {ends : Nat → List Bool}
    (called : calls.filter (fun call => call.group ∈ chain.indices) =
      chain.flatMap fun group => onceCalls group.index (ends group.index))
    {group : Group ν} (member : group ∈ chain) {call : OnceCall} (same : call.group = group.index) :
    call ∈ calls ↔ (ends group.index)[call.place]? = some call.completed := by
  have inside : call.group ∈ chain.indices := same ▸ List.mem_map_of_mem member
  have listed : call ∈ calls ↔
      call ∈ chain.flatMap fun group => onceCalls group.index (ends group.index) := by
    rw [← called, List.mem_filter]
    simp [inside]
  rw [listed, List.mem_flatMap]
  constructor
  · rintro ⟨other, -, among⟩
    obtain ⟨number, ended⟩ := mem_onceCalls.mp among
    rwa [← number, same] at ended
  · intro ended
    exact ⟨group, member, mem_onceCalls.mpr ⟨same, ended⟩⟩

/-- All of them have, unless one that has others behind it stopped. -/
theorem RanBefore.allRan_iff {chain : Chain ν} {earlier : List (Invoked ν)}
    (ran : RanBefore chain earlier) : AllRan chain earlier ↔
      ∀ group ∈ chain, ∀ call ∈ earlier.filterMap Invoked.once?, call.group = group.index →
        call.completed = false → call.place + 1 = group.beforeAll.length := by
  obtain ⟨ends, cut, called⟩ := ran
  apply forall₂_congr
  intro group member
  have counted : (∀ place < group.beforeAll.length, ∃ call ∈ earlier.filterMap Invoked.once?,
      call.group = group.index ∧ call.place = place) ↔
        group.beforeAll.length ≤ (ends group.index).length := by
    constructor
    · intro each
      by_contra short
      obtain ⟨call, among, same, place⟩ := each (ends group.index).length (by omega)
      have ended := (mem_called_iff called member same).mp among
      have inside := (List.getElem?_eq_some_iff.mp ended).1
      omega
    · intro enough place below
      have inside : place < (ends group.index).length := by omega
      refine ⟨⟨group.index, place, (ends group.index)[place]⟩, ?_, rfl, rfl⟩
      exact (mem_called_iff called member rfl).mpr (List.getElem?_eq_getElem inside)
  rw [counted, (cut group member).all_iff]
  constructor
  · intro last call among same stopped
    have ended := (mem_called_iff called member same).mp among
    rw [stopped] at ended
    exact last call.place ended
  · intro last place stopped
    have among : ⟨group.index, place, false⟩ ∈ earlier.filterMap Invoked.once? :=
      (mem_called_iff called member rfl).mpr stopped
    exact last _ among rfl rfl

def Prepared (log : List (Invoked ν)) : Prop :=
  ∀ earlier call, earlier ++ [call] <+: log → ∀ chain, call.around? = some chain →
    RanBefore chain earlier

theorem Prepared.nil : Prepared ([] : List (Invoked ν)) := by
  intro earlier call found
  simp at found

theorem Prepared.snoc {log : List (Invoked ν)} {call : Invoked ν} (prepared : Prepared log)
    (next : ∀ chain, call.around? = some chain → RanBefore chain log) :
    Prepared (log ++ [call]) := by
  intro earlier other found chain around
  rcases List.prefix_concat_iff.mp found with same | before
  · obtain ⟨rfl, last⟩ := List.append_inj' same rfl
    obtain rfl := List.singleton_inj.mp last
    exact next chain around
  · exact prepared earlier other before chain around

theorem Prepared.append_once {log : List (Invoked ν)} (prepared : Prepared log)
    (calls : List OnceCall) : Prepared (log ++ calls.map .once) := by
  induction calls generalizing log with
  | nil => simpa using prepared
  | cons call rest ih =>
    have first : Prepared (log ++ [.once call]) := prepared.snoc fun _ around => nomatch around
    simpa using ih first

structure Logged (tree : Item ν) (entered : List Nat) (log : List (Invoked ν)) : Prop where
  distinct : entered.Nodup
  outward : ∀ chain group, Member.group chain group ∈ tree.postOrder [] →
    group.index ∈ entered → (Chain.indices (chain ++ [group])).Sublist entered.reverse
  ran : ∃ ends : Nat → List Bool,
    (∀ chain group, Member.group chain group ∈ tree.postOrder [] → group.index ∈ entered →
      Cut group.beforeAll.length (ends group.index)) ∧
    log.filterMap Invoked.once? = entered.reverse.flatMap fun index => onceCalls index (ends index)
  prepared : Prepared log

theorem filter_mem_eq_of_sublist {α : Type} [DecidableEq α] {part all : List α}
    (sub : part.Sublist all) (distinct : all.Nodup) : all.filter (· ∈ part) = part := by
  have kept : part.filter (· ∈ part) = part := List.filter_eq_self.mpr fun a member => by
    simpa using member
  have below : part.Sublist (all.filter (· ∈ part)) := by
    simpa only [kept] using sub.filter (· ∈ part)
  have within : all.filter (· ∈ part) ⊆ part := fun a member => by
    simpa using (List.mem_filter.mp member).2
  have short := (List.subperm_of_subset (distinct.filter (· ∈ part)) within).length_le
  exact (below.eq_of_length_le short).symm

/-- Filtering blocks by what all members of a block have in common picks blocks. -/
theorem filter_flatMap_of_block {α β : Type} {block : α → List β} {keep : α → Bool}
    {kept : β → Bool} (each : ∀ a, ∀ b ∈ block a, kept b = keep a) (list : List α) :
    (list.flatMap block).filter kept = (list.filter keep).flatMap block := by
  induction list with
  | nil => rfl
  | cons a rest ih =>
    have own : (block a).filter kept = if keep a then block a else [] := by
      cases stays : keep a with
      | true => exact List.filter_eq_self.mpr fun b member => (each a b member).trans stays
      | false => exact List.filter_eq_nil_iff.mpr fun b member => by simp [each a b member, stays]
    calc ((a :: rest).flatMap block).filter kept
        = (block a).filter kept ++ (rest.flatMap block).filter kept := by
          rw [List.flatMap_cons, List.filter_append]
      _ = (if keep a then block a else []) ++ (rest.filter keep).flatMap block := by rw [own, ih]
      _ = ((a :: rest).filter keep).flatMap block := by cases stays : keep a <;> simp [stays]

namespace Logged

variable {tree : Item ν} {entered : List Nat} {log : List (Invoked ν)}

theorem empty (tree : Item ν) : Logged tree [] [] where
  distinct := .nil
  outward _ _ _ member := absurd member List.not_mem_nil
  ran := ⟨fun _ => [], fun _ _ _ member => absurd member List.not_mem_nil, rfl⟩
  prepared := .nil

/-- When all groups of a chain have been entered, their hooks have run. -/
theorem ranBefore (logged : Logged tree entered log) {chain : Chain ν}
    (inside : chain.indices.Sublist entered.reverse)
    (known : ∀ group ∈ chain, ∃ outer, Member.group outer group ∈ tree.postOrder []) :
    RanBefore chain log := by
  obtain ⟨ends, cut, called⟩ := logged.ran
  refine ⟨ends, fun group member => ?_, ?_⟩
  · obtain ⟨outer, place⟩ := known group member
    have among : group.index ∈ entered :=
      List.mem_reverse.mp (inside.subset (List.mem_map_of_mem member))
    exact cut outer group place among
  · have each : ∀ index, ∀ call ∈ onceCalls index (ends index),
        decide (call.group ∈ chain.indices) = decide (index ∈ chain.indices) := by
      intro index call member
      rw [(mem_onceCalls.mp member).1]
    rw [called, filter_flatMap_of_block each,
      filter_mem_eq_of_sublist inside (List.nodup_reverse.mpr logged.distinct), Chain.indices,
      List.flatMap_map]

/-- A hook or a body runs: nothing is entered. -/
theorem call (logged : Logged tree entered log) {call : Invoked ν} (inner : call.once? = none)
    (before : ∀ chain, call.around? = some chain → RanBefore chain log) :
    Logged tree entered (log ++ [call]) := by
  obtain ⟨ends, cut, called⟩ := logged.ran
  refine ⟨logged.distinct, logged.outward, ⟨ends, cut, ?_⟩, logged.prepared.snoc before⟩
  rw [List.filterMap_append, called]
  simp [inner]

/-- A group is entered, and its hooks run. -/
theorem enter (logged : Logged tree entered log) (numbered : Item.NumberedFrom 0 tree.groups)
    {chain : Chain ν} {group : Group ν} (place : Member.group chain group ∈ tree.postOrder [])
    (outer : chain.indices.Sublist entered.reverse) (fresh : group.index ∉ entered)
    {ends : List Bool} (cut : Cut group.beforeAll.length ends) :
    Logged tree (group.index :: entered) (log ++ (onceCalls group.index ends).map .once) := by
  obtain ⟨earlier, cutEarlier, called⟩ := logged.ran
  have alone : ∀ {chain' : Chain ν} {group' : Group ν},
      Member.group chain' group' ∈ tree.postOrder [] → group'.index ∈ group.index :: entered →
        (chain' = chain ∧ group' = group) ∨ (group'.index ≠ group.index ∧ group'.index ∈ entered) := by
    intro chain' group' place' member
    rcases List.mem_cons.mp member with same | before
    · exact .inl (numbered.place_eq place' place same)
    · exact .inr ⟨fun same => fresh (same ▸ before), before⟩
  refine ⟨List.nodup_cons.mpr ⟨fresh, logged.distinct⟩, ?_, ?_, logged.prepared.append_once _⟩
  · intro chain' group' place' member
    rw [List.reverse_cons]
    rcases alone place' member with ⟨rfl, rfl⟩ | ⟨-, before⟩
    · rw [Chain.indices, List.map_append]
      exact outer.append (.refl _)
    · exact (logged.outward chain' group' place' before).trans (List.sublist_append_left ..)
  · refine ⟨Function.update earlier group.index ends, fun chain' group' place' member => ?_, ?_⟩
    · rcases alone place' member with ⟨rfl, rfl⟩ | ⟨other, before⟩
      · rwa [Function.update_self]
      · rw [Function.update_of_ne other]
        exact cutEarlier chain' group' place' before
    · have same : ∀ index ∈ entered.reverse, onceCalls index (earlier index) =
          onceCalls index (Function.update earlier group.index ends index) := by
        intro index member
        have other : index ≠ group.index := fun same => fresh (same ▸ List.mem_reverse.mp member)
        rw [Function.update_of_ne other]
      rw [List.reverse_cons, List.flatMap_append, List.filterMap_append, called,
        List.flatMap_congr same]
      simp [Invoked.once?, List.filterMap_map, Function.comp_def]

/-- No hook that runs once is called twice. -/
theorem once (logged : Logged tree entered log) :
    ((log.filterMap Invoked.once?).map fun call => (call.group, call.place)).Nodup := by
  obtain ⟨ends, -, called⟩ := logged.ran
  rw [called, List.map_flatMap]
  simp only [places_onceCalls]
  refine List.nodup_flatMap.mpr ⟨fun index _ => ?_, ?_⟩
  · exact List.nodup_range.map fun a b same => (Prod.mk.inj same).2
  · refine (List.nodup_reverse.mpr logged.distinct).imp fun {first second} other => ?_
    intro call member member'
    obtain ⟨_, _, rfl⟩ := List.mem_map.mp member
    obtain ⟨_, _, same⟩ := List.mem_map.mp member'
    exact other (Prod.mk.inj same).1.symm

end Logged

end NestedSpec
