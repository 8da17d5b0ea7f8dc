import Mathlib.Data.List.Induction
import NestedSpec.Proofs.FirstBindings
import NestedSpec.Proofs.Tracing

/-!
# The scope of variables

When a tree is frozen, the binding that holds at a place is found by walking outward from there to
the first group in which the variable was bound, and is the last one that was made in that group.
What is bound in other groups is never seen.
-/

namespace NestedSpec

variable {ν α β : Type}

/-! ## Walking outward -/

/-- Walks outward from the innermost group of a chain to the first one in which a variable was
bound, and takes the last binding that was made there. -/
def outward (log : List (Made ν)) (chain : Chain ν) (id : Nat) : Option (Binding ν) :=
  chain.reverse.findSome? fun group => lastMade log group.index id

theorem lastMade_filter (log : List (Made ν)) (keep : Nat → Bool) {group : Nat}
    (kept : keep group = true) (id : Nat) :
    lastMade (log.filter fun made => keep made.group) group id = lastMade log group id := by
  unfold lastMade
  rw [← List.filter_reverse, List.find?_filter]
  congr 2
  funext made
  by_cases here : made.group = group
  · simp [here, kept, Bool.beq_eq_decide_eq]
  · simp [here]

theorem findSome?_congr {first second : α → Option β} {items : List α}
    (same : ∀ item ∈ items, first item = second item) :
    items.findSome? first = items.findSome? second := by
  rw [← List.head?_filterMap, ← List.head?_filterMap, List.filterMap_congr same]

/-- The bindings made outside the groups of a chain make no difference. -/
theorem outward_filter (log : List (Made ν)) (chain : Chain ν) (id : Nat) :
    outward (log.filter fun made => chain.any (·.index == made.group)) chain id =
      outward log chain id := by
  refine findSome?_congr fun group around => ?_
  have kept : chain.any (·.index == group.index) = true :=
    List.any_eq_true.mpr ⟨group, List.mem_reverse.mp around, beq_self_eq_true _⟩
  exact lastMade_filter log (fun index => chain.any (·.index == index)) kept id

theorem Chain.bindingIn_scope (chain : Chain ν) (id : Nat) :
    bindingIn chain.scope id =
      chain.reverse.findSome? fun group => bindingIn group.bindings id := by
  induction chain using List.reverseRecOn with
  | nil => rfl
  | append_singleton chain group ih =>
    rw [scope_append, List.reverse_append, List.reverse_singleton, List.singleton_append,
      List.findSome?_cons, ← ih, bindingIn, List.find?_append]
    unfold bindingIn
    cases group.bindings.find? (·.id == id) <;> rfl

/-! ## Places in a frozen tree -/

namespace Item

mutual
theorem mem_groups_postOrder {chain : Chain ν} : (item : Item ν) → {member : Member ν} →
    member ∈ postOrder chain item → ∀ outer ∈ member.around, outer ∈ chain ∨ outer ∈ groups item
  | leaf l, _, among, outer, around => by
    obtain rfl := List.mem_singleton.mp among
    exact .inl around
  | group g items, member, among, outer, around => by
    have here : outer ∈ chain ++ [g] → outer ∈ chain ∨ outer ∈ groups (group g items) := by
      intro inside
      refine (List.mem_append.mp inside).imp_right fun itself => ?_
      exact List.mem_singleton.mp itself ▸ List.mem_cons_self ..
    rcases List.mem_append.mp among with inside | itself
    · rcases mem_groups_postOrderAll items inside outer around with above | below
      · exact here above
      · exact .inr (List.mem_cons_of_mem _ below)
    · obtain rfl := List.mem_singleton.mp itself
      exact here around

theorem mem_groups_postOrderAll {chain : Chain ν} : (items : List (Item ν)) → {member : Member ν} →
    member ∈ postOrderAll chain items →
      ∀ outer ∈ member.around, outer ∈ chain ∨ outer ∈ groupsAll items
  | [], _, among, _, _ => absurd among List.not_mem_nil
  | first :: rest, member, among, outer, around => by
    rcases List.mem_append.mp among with inFirst | inRest
    · exact (mem_groups_postOrder first inFirst outer around).imp_right (List.mem_append_left _)
    · exact (mem_groups_postOrderAll rest inRest outer around).imp_right (List.mem_append_right _)
end

end Item

/-- Whatever is registered, what holds of all trees that keep the bindings which were made holds of
the tree that is frozen in the end. -/
theorem Registration.freezes {levels : Nat} {config : Config} {mode : RunMode}
    {body : Registration ν} {name : String} {s : State ν .flow}
    {P : List (Made ν) → Item ν → Prop} (holds : ∀ log tree, Keeps log tree → P log tree) :
    let declaration := body.declaration (Deeper.within levels) ⟨config, mode, []⟩
    ∃ log frozen, Registers false declaration (.start name) s log frozen ∧
      (∀ ended, ((declaration.run (.start name)).run s).result = .ok ended →
        ∃ tree, frozen = [tree]) ∧
      ∀ tree ∈ frozen, P log tree := by
  intro declaration
  have declared : Declared (Deeper.within levels) True ⟨config, mode, []⟩ declaration :=
    .declaration body.borrows_free _
  obtain ⟨events, frozen, lets⟩ := declared.letting (letting_deeper levels) (.start name) s
  obtain ⟨ends, keeps⟩ := lets.registers.freezes
  exact ⟨madeBy events, frozen, lets.registers, ends, fun tree member =>
    holds (madeBy events) tree (keeps tree member)⟩

/-- What holds at a place of a frozen tree is found by walking outward. -/
theorem Keeps.bindingIn_scope {log : List (Made ν)} {tree : Item ν} (keeps : Keeps log tree)
    {member : Member ν} (among : member ∈ Item.postOrder [] tree) (id : Nat) :
    bindingIn member.around.scope id = outward log member.around id := by
  rw [Chain.bindingIn_scope]
  refine findSome?_congr fun group around => ?_
  have inside := Item.mem_groups_postOrder tree among group (List.mem_reverse.mp around)
  exact keeps.bindings group (inside.resolve_left List.not_mem_nil) id

/-! ## Reading variables -/

namespace Flow

def compute (deeper : Deeper ν) (id : Nat) (init : Initialiser ν) : Flow ν .leaf Value := do
  let value ← deeper.initialise init
  store id value
  pure value

theorem run_readVariable (deeper : Deeper ν) (v : Variable ν) (otherwise : Flow ν .leaf Value)
    {s : State ν .leaf} (missing : (s.own : LeafState ν).cache.lookup v.id = none) :
    (readVariable deeper v otherwise).run s =
      (match ((bindingIn (s.own : LeafState ν).scope v.id).map Binding.init).or v.init with
        | some init => compute deeper v.id init
        | none => otherwise).run s := by
  have asked : (ask fun s => (s.own : LeafState ν).cache.lookup v.id :
      Flow ν .leaf (Option Value)).run s = ⟨.ok none, s, [], []⟩ :=
    congrArg (fun value => (⟨.ok value, s, [], []⟩ : Step ν .leaf (Option Value))) missing
  have chosen : (initialiser v).run s = ⟨.ok
      (((bindingIn (s.own : LeafState ν).scope v.id).map Binding.init).or v.init), s, [], []⟩ := rfl
  unfold readVariable
  rw [run_bind_ok _ asked, run_bind_ok _ chosen]
  simp only [List.append_nil]
  cases ((bindingIn (s.own : LeafState ν).scope v.id).map Binding.init).or v.init <;> rfl

theorem run_get (deeper : Deeper ν) (v : Variable ν) {s : State ν .leaf}
    (missing : (s.own : LeafState ν).cache.lookup v.id = none) :
    (get deeper v).run s =
      (match ((bindingIn (s.own : LeafState ν).scope v.id).map Binding.init).or v.init with
        | some init => compute deeper v.id init
        | none => fatal (unboundMessage v.label)).run s :=
  run_readVariable deeper v _ missing

end Flow

namespace Runner

/-- The states in which the flows of an invocation of a leaf may be: it starts in one, any flow and
the next finaliser lead from one to another, and the world and the recorder may change meanwhile. -/
inductive Reaches (runner : Runner ν) (chain : Chain ν) (leaf : Leaf ν) : State ν .leaf → Prop
  | start (w : World ν) (r : Recorder) :
      Reaches runner chain leaf ⟨w, r, runner.leafStart chain leaf⟩
  | after {s : State ν .leaf} {α : Type} {sees : Bool} {flow : Flow ν .leaf α}
      (reaches : Reaches runner chain leaf s) (composed : Composed runner.deeper sees flow) :
      Reaches runner chain leaf (flow.run s).state
  | popped {s : State ν .leaf} (reaches : Reaches runner chain leaf s) :
      Reaches runner chain leaf s.popped
  | meanwhile {s : State ν .leaf} (reaches : Reaches runner chain leaf s) (w : World ν)
      (r : Recorder) : Reaches runner chain leaf ⟨w, r, s.own⟩

/-- A leaf keeps its bindings. -/
theorem Reaches.scope {runner : Runner ν} (below : TraceableDeeper runner.deeper) {chain : Chain ν}
    {leaf : Leaf ν} {s : State ν .leaf} (reaches : runner.Reaches chain leaf s) :
    (s.own : LeafState ν).scope = chain.scope := by
  induction reaches with
  | start => rfl
  | @after s _ _ flow _ composed ih =>
    obtain ⟨deeds, bodies, duties, does, -, -⟩ := traceable_iff.mp (composed.traceable below) s
    exact does.tells.shows.scope.trans ih
  | popped _ ih => exact ih
  | meanwhile _ _ _ ih => exact ih

end Runner

structure Reads (log : List (Made ν)) (chain : Chain ν) (deeper : Deeper ν) (v : Variable ν)
    (s : State ν .leaf) : Prop where
  bound : ∀ binding, outward log chain v.id = some binding →
    (Flow.get deeper v).run s = (Flow.compute deeper v.id binding.init).run s
  default : outward log chain v.id = none → ∀ init, v.init = some init →
    (Flow.get deeper v).run s = (Flow.compute deeper v.id init).run s
  unbound : outward log chain v.id = none → v.init = none →
    (Flow.get deeper v).run s = ⟨.error (.exit .fail),
      { s with recorder := (s.recorder.log (Flow.unboundMessage v.label)).fail }, [], []⟩

structure Resolves (deeper : Deeper ν) (log : List (Made ν)) (tree : Item ν) : Prop where
  numbered : Item.NumberedFrom 0 tree.groups
  walk : ∀ member ∈ Item.postOrder [] tree, ∀ id,
    bindingIn member.around.scope id = outward log member.around id
  table : ∀ arena : Arena ν, arena.map Node.bare = tree.nodes none →
    ∀ member ∈ Item.postOrder [] tree, ∀ group, member.around.getLast? = some group → ∀ id,
      arena.freeze.binding group.index id = outward log member.around id
  hidden : ∀ member ∈ Item.postOrder [] tree, ∀ id, bindingIn member.around.scope id =
    outward (log.filter fun made => member.around.any (·.index == made.group)) member.around id
  reads : ∀ (config : Config) (mode : RunMode) (chain : Chain ν) (leaf : Leaf ν),
    let runner : Runner ν := ⟨config, mode, deeper⟩
    .leaf chain leaf ∈ Item.postOrder [] (runner.plan tree) →
      ∀ s, runner.Reaches chain leaf s →
        ∀ v : Variable ν, (s.own : LeafState ν).cache.lookup v.id = none →
          Reads log chain deeper v s

theorem Keeps.resolves {deeper : Deeper ν} (below : TraceableDeeper deeper) {log : List (Made ν)}
    {tree : Item ν} (keeps : Keeps log tree) : Resolves deeper log tree := by
  refine ⟨keeps.numbered, fun member among => keeps.bindingIn_scope among, ?_, ?_, ?_⟩
  · intro arena layout member among group innermost id
    rw [Item.binding_freeze keeps.numbered layout among innermost, keeps.bindingIn_scope among]
  · intro member among id
    rw [keeps.bindingIn_scope among, outward_filter]
  · intro config mode chain leaf runner among s reaches v missing
    have member := (Item.postOrder_arrange runner.orderer [] tree).mem_iff.mp among
    have found : bindingIn (s.own : LeafState ν).scope v.id = outward log chain v.id := by
      rw [reaches.scope below]
      exact keeps.bindingIn_scope member v.id
    have ran := Flow.run_get deeper v missing
    rw [found] at ran
    refine ⟨fun binding bound => ?_, fun unbound init own => ?_, fun unbound own => ?_⟩
    · rw [ran, bound]
      rfl
    · rw [ran, unbound, own]
      rfl
    · rw [ran, unbound, own]
      rfl

/-- Whatever is registered, the tree that is frozen in the end resolves variables by the bindings
that were made: outward from every place, and the last one in a group wins. -/
theorem Registration.resolves_variables (levels : Nat) (config : Config) (mode : RunMode)
    (body : Registration ν) (name : String) (s : State ν .flow) :
    let declaration := body.declaration (Deeper.within levels) ⟨config, mode, []⟩
    ∃ log frozen, Registers false declaration (.start name) s log frozen ∧
      (∀ ended, ((declaration.run (.start name)).run s).result = .ok ended →
        ∃ tree, frozen = [tree]) ∧
      ∀ tree ∈ frozen, Resolves (Deeper.within levels) log tree :=
  freezes fun _ _ keeps => keeps.resolves (traceable_deeper levels)

end NestedSpec
