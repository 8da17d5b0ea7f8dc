import NestedSpec.Proofs.Freezing
import NestedSpec.Proofs.Steps

/-!
# The bindings that a registration makes

A registration binds variables in the group that is being declared at the time, by calls of several
kinds and at any point. Each binding is logged with the number of its group. Whatever is registered,
the groups are numbered in the order in which they were declared, and every group holds for each
variable the last binding that was logged for it there.
-/

namespace NestedSpec

variable {ν α β : Type}

/-! ## Bindings as they were made -/

structure Made (ν : Type) where
  group : Nat
  binding : Binding ν

def lastMade (log : List (Made ν)) (group id : Nat) : Option (Binding ν) :=
  (log.reverse.find? fun made => made.group == group && made.binding.id == id).map (·.binding)

@[simp] theorem lastMade_nil (group id : Nat) : lastMade ([] : List (Made ν)) group id = none := rfl

theorem lastMade_append (first second : List (Made ν)) (group id : Nat) :
    lastMade (first ++ second) group id =
      (lastMade second group id).or (lastMade first group id) := by
  simp [lastMade, List.find?_append, Option.map_or]

theorem lastMade_singleton (group other : Nat) (binding : Binding ν) (id : Nat) :
    lastMade [⟨group, binding⟩] other id =
      if group = other ∧ binding.id = id then some binding else none := by
  unfold lastMade
  by_cases here : group = other ∧ binding.id = id <;> simp [here]

theorem lastMade_elsewhere {log : List (Made ν)} {group : Nat}
    (elsewhere : ∀ made ∈ log, made.group ≠ group) (id : Nat) : lastMade log group id = none := by
  simp only [lastMade, Option.map_eq_none_iff, List.find?_eq_none, List.mem_reverse,
    Bool.and_eq_true, beq_iff_eq, not_and]
  exact fun made member here => absurd here (elsewhere made member)

/-- Binding a variable replaces its binding in the group, and no other one. -/
theorem Group.bindingIn_bind (group : Group ν) (binding : Binding ν) (id : Nat) :
    bindingIn (group.bind binding).bindings id =
      if binding.id = id then some binding else bindingIn group.bindings id := by
  by_cases same : binding.id = id
  · simp [bindingIn, bind, same]
  · have passed : (binding.id == id) = false := by simpa using same
    rw [bindingIn, bind, List.find?_cons, passed, List.find?_filter, if_neg same, bindingIn]
    change List.find? _ _ = List.find? _ _
    congr 1
    funext other
    by_cases wanted : other.id = id
    · simp [wanted, Ne.symm same]
    · simp [wanted]

/-! ## Registrations and the bindings they make -/

/-- A computation that declares a spec, run from there, makes these bindings, in this order, and
freezes these trees. Only the outermost spec can be frozen. -/
inductive Registers :
    Bool → {α : Type} → Declaring ν α → Building ν → State ν .flow → List (Made ν) →
      List (Item ν) → Prop
  | ret {nested : Bool} {α : Type} (value : α) (b : Building ν) (s : State ν .flow) :
      Registers nested (pure value) b s [] []
  | lift {nested : Bool} {α : Type} (flow : Flow ν .flow α) (b : Building ν) (s : State ν .flow) :
      Registers nested (StateT.lift flow) b s [] []
  | read {nested : Bool} (b : Building ν) (s : State ν .flow) :
      Registers nested get b s [] []
  | change {nested : Bool} {update : Group ν → Group ν} (unbinding : Unbinding update)
      (b : Building ν) (s : State ν .flow) :
      Registers nested (Declaring.changeGroup update) b s [] []
  | addLeaf {nested : Bool} (leaf : Leaf ν) (b : Building ν) (s : State ν .flow) :
      Registers nested (Declaring.addItem (.leaf leaf)) b s [] []
  | bindOk {nested : Bool} {α β : Type} {first : Declaring ν α} {next : α → Declaring ν β}
      {b b' : Building ν} {s : State ν .flow} {value : α} {log later : List (Made ν)}
      {frozen more : List (Item ν)}
      (registers : Registers nested first b s log frozen)
      (completed : ((first.run b).run s).result = .ok (value, b'))
      (goesOn : Registers nested (next value) b' ((first.run b).run s).state later more) :
      Registers nested (first >>= next) b s (log ++ later) (frozen ++ more)
  | bindError {nested : Bool} {α β : Type} {first : Declaring ν α} {next : α → Declaring ν β}
      {b : Building ν} {s : State ν .flow} {stop : Stop} {log : List (Made ν)}
      {frozen : List (Item ν)} (registers : Registers nested first b s log frozen)
      (stopped : ((first.run b).run s).result = .error stop) :
      Registers nested (first >>= next) b s log frozen
  | bind {nested : Bool} (binding : Binding ν) {b : Building ν} (isOpen : b.finished = false)
      (s : State ν .flow) :
      Registers nested (Declaring.changeGroup fun group => group.bind binding) b s
        [⟨b.group.index, binding⟩] []
  | describe {nested : Bool} {here : Surroundings ν} {description : String} {place : Location}
      {body : Surroundings ν → Declaring ν Unit} {b : Building ν} {s : State ν .flow}
      {log : List (Made ν)} (isOpen : b.finished = false)
      (inside : Registers true
        (body { here with enclosing := (b.group, b.items) :: here.enclosing })
        (b.inner description place) s log []) :
      Registers nested (Declaring.describe here description place body) b s log []
  | freeze {deeper : Deeper ν} {config : Config} {mode : RunMode} {b : Building ν}
      (isOpen : b.finished = false) (s : State ν .flow) :
      Registers false (Declaring.finish deeper ⟨config, mode, []⟩) b s [] [.group b.group b.items]

structure Extends (b : Building ν) (log : List (Made ν)) (items : List (Item ν)) (b' : Building ν) :
    Prop where
  isOpen : b'.finished = false
  index : b'.group.index = b.group.index
  bindings : ∀ id, bindingIn b'.group.bindings id =
    (lastMade log b.group.index id).or (bindingIn b.group.bindings id)
  places : ∀ made ∈ log, made.group = b.group.index ∨
    b.nextIndex ≤ made.group ∧ made.group < b'.nextIndex
  members : b'.items = b.items ++ items
  nextIndex : b'.nextIndex = b.nextIndex + (Item.groupsAll items).length
  numbered : Item.NumberedFrom b.nextIndex (Item.groupsAll items)
  inside : ∀ group ∈ Item.groupsAll items, ∀ id, bindingIn group.bindings id =
    lastMade log group.index id

theorem Item.NumberedFrom.index_mem {start : Nat} {groups : List (Group ν)}
    (numbered : NumberedFrom start groups) {group : Group ν} (member : group ∈ groups) :
    start ≤ group.index ∧ group.index < start + groups.length := by
  have among : group.index ∈ groups.map (·.index) := List.mem_map_of_mem member
  rw [numbered] at among
  simpa using among

theorem Item.groupsAll_append (first second : List (Item ν)) :
    groupsAll (first ++ second) = groupsAll first ++ groupsAll second := by
  induction first with
  | nil => rfl
  | cons item rest ih => simp [groupsAll, ih]

namespace Extends

variable {b b₁ b' : Building ν} {log later : List (Made ν)} {items more : List (Item ν)}

theorem refl (isOpen : b.finished = false) : Extends b [] [] b where
  isOpen := isOpen
  index := rfl
  bindings _ := rfl
  places _ member := absurd member List.not_mem_nil
  members := (List.append_nil _).symm
  nextIndex := rfl
  numbered := rfl
  inside _ member := absurd member List.not_mem_nil

theorem order (grown : Extends b log items b') (order : b.group.index < b.nextIndex) :
    b'.group.index < b'.nextIndex := by
  have index := grown.index
  have nextIndex := grown.nextIndex
  omega

theorem trans (order : b.group.index < b.nextIndex) (first : Extends b log items b₁)
    (second : Extends b₁ later more b') : Extends b (log ++ later) (items ++ more) b' where
  isOpen := second.isOpen
  index := second.index.trans first.index
  bindings id := by
    rw [second.bindings, first.bindings, first.index, lastMade_append, Option.or_assoc]
  places made member := by
    have grown := first.nextIndex
    have grownLater := second.nextIndex
    rcases List.mem_append.mp member with before | after
    · exact (first.places made before).imp_right fun new => ⟨new.1, by omega⟩
    · rcases second.places made after with here | new
      · exact .inl (here.trans first.index)
      · exact .inr ⟨by omega, new.2⟩
  members := by rw [second.members, first.members, List.append_assoc]
  nextIndex := by
    rw [second.nextIndex, first.nextIndex, Item.groupsAll_append, List.length_append, Nat.add_assoc]
  numbered := by
    rw [Item.groupsAll_append, Item.NumberedFrom.append_iff, ← first.nextIndex]
    exact ⟨first.numbered, second.numbered⟩
  inside group member id := by
    rw [Item.groupsAll_append] at member
    rw [lastMade_append]
    rcases List.mem_append.mp member with before | after
    -- Later bindings are made in the group that is being declared, or in newer groups.
    · have range := first.numbered.index_mem before
      have elsewhere : ∀ made ∈ later, made.group ≠ group.index := by
        intro made among
        have grown := first.nextIndex
        rcases second.places made among with here | new
        · rw [here, first.index]
          omega
        · omega
      rw [lastMade_elsewhere elsewhere, Option.none_or, first.inside group before]
    · have range := second.numbered.index_mem after
      have elsewhere : ∀ made ∈ log, made.group ≠ group.index := by
        intro made among
        have grown := first.nextIndex
        rcases first.places made among with here | new
        · omega
        · omega
      rw [lastMade_elsewhere elsewhere, Option.or_none, second.inside group after]

theorem bind (isOpen : b.finished = false) (binding : Binding ν) :
    Extends b [⟨b.group.index, binding⟩] [] { b with group := b.group.bind binding } where
  isOpen := isOpen
  index := rfl
  bindings id := by
    rw [Group.bindingIn_bind, lastMade_singleton]
    by_cases same : binding.id = id <;> simp [same]
  places made member := .inl (congrArg Made.group (List.mem_singleton.mp member))
  members := (List.append_nil _).symm
  nextIndex := rfl
  numbered := rfl
  inside _ member := absurd member List.not_mem_nil

theorem change (isOpen : b.finished = false) {update : Group ν → Group ν}
    (unbinding : Unbinding update) :
    Extends b [] [] { b with group := update b.group } where
  isOpen := isOpen
  index := unbinding.index b.group
  bindings _ := by rw [unbinding.bindings, lastMade_nil, Option.none_or]
  places _ member := absurd member List.not_mem_nil
  members := (List.append_nil _).symm
  nextIndex := rfl
  numbered := rfl
  inside _ member := absurd member List.not_mem_nil

theorem addLeaf (isOpen : b.finished = false) (leaf : Leaf ν) :
    Extends b [] [.leaf leaf] { b with items := b.items ++ [.leaf leaf] } :=
  { refl isOpen with members := rfl }

/-- A nested spec adds its group, with all that was declared inside. -/
theorem describe (isOpen : b.finished = false) (order : b.group.index < b.nextIndex)
    {description : String} {place : Location}
    (inside : Extends (b.inner description place) log items b₁) :
    Extends b log [.group b₁.group b₁.items]
      { b with items := b.items ++ [.group b₁.group b₁.items], nextIndex := b₁.nextIndex } where
  isOpen := isOpen
  index := rfl
  bindings id := by
    have elsewhere : ∀ made ∈ log, made.group ≠ b.group.index := by
      intro made among
      rcases inside.places made among with here | new
      · rw [here]
        exact Nat.ne_of_gt order
      · have newer : b.nextIndex + 1 ≤ made.group := new.1
        omega
    rw [lastMade_elsewhere elsewhere, Option.none_or]
  places made member := by
    have grown : b₁.nextIndex = b.nextIndex + 1 + (Item.groupsAll items).length := inside.nextIndex
    rcases inside.places made member with here | new
    · have newest : made.group = b.nextIndex := here
      exact .inr ⟨by omega, by change made.group < b₁.nextIndex; omega⟩
    · have newer : b.nextIndex + 1 ≤ made.group := new.1
      exact .inr ⟨by omega, new.2⟩
  members := rfl
  nextIndex := by
    have members : b₁.items = items := inside.members
    have grown : b₁.nextIndex = b.nextIndex + 1 + (Item.groupsAll items).length := inside.nextIndex
    simp [Item.groupsAll, Item.groups, members, grown]
    omega
  numbered := by
    have members : b₁.items = items := inside.members
    have index : b₁.group.index = b.nextIndex := inside.index
    have rest : (Item.groupsAll items).map (·.index) =
      List.range' (b.nextIndex + 1) (Item.groupsAll items).length := inside.numbered
    simp [Item.NumberedFrom, Item.groupsAll, Item.groups, members, index, rest, List.range'_succ]
  inside group member id := by
    have members : b₁.items = items := inside.members
    simp only [Item.groupsAll, Item.groups, members, List.append_nil, List.mem_cons] at member
    rcases member with rfl | below
    · rw [inside.bindings, inside.index]
      exact Option.or_none
    · exact inside.inside group below id

end Extends

namespace Registers

variable {nested : Bool} {action : Declaring ν α} {b : Building ν} {s : State ν .flow}
  {log : List (Made ν)} {frozen : List (Item ν)}

/-- Nothing is bound or frozen after the leaves have run. -/
theorem of_finished (registers : Registers nested action b s log frozen)
    (closed : b.finished = true) : log = [] ∧ frozen = [] ∧
      ∀ value b', ((action.run b).run s).result = .ok (value, b') → b'.finished = true := by
  induction registers with
  | ret | read | change | addLeaf =>
    refine ⟨rfl, rfl, fun _ _ completed => ?_⟩
    cases completed
    exact closed
  | lift flow b s =>
    exact ⟨rfl, rfl, fun _ _ completed => result_lift completed ▸ closed⟩
  | bindOk _ completed _ ih ihLater =>
    obtain ⟨rfl, rfl, still⟩ := ih closed
    obtain ⟨rfl, rfl, later⟩ := ihLater (still _ _ completed)
    exact ⟨rfl, rfl, fun value b' ended => later value b' (result_bind_ok completed ▸ ended)⟩
  | bindError _ stopped ih =>
    obtain ⟨nothing, none, -⟩ := ih closed
    exact ⟨nothing, none, fun value b' ended => absurd ended (result_bind_ne_ok stopped _)⟩
  | bind _ isOpen | describe isOpen | freeze isOpen =>
    rw [isOpen] at closed
    exact absurd closed nofun

theorem of_nested (registers : Registers nested action b s log frozen) (inside : nested = true) :
    frozen = [] := by
  induction registers with
  | ret | lift | read | change | addLeaf | bind | describe => rfl
  | bindOk _ _ _ ih ihLater => rw [ih inside, ihLater inside, List.append_nil]
  | bindError _ _ ih => exact ih inside
  | freeze => exact absurd inside nofun

end Registers

namespace Registers

variable {nested : Bool} {b : Building ν}

theorem reportClash (v : Variable ν) (b : Building ν) (s : State ν .flow) :
    Registers nested (Declaring.reportClash v) b s [] [] := by
  have reported : Registers nested (if b.group.clashes v.id v.label then
      Declaring.misuse ("two different variables labelled " ++ Text.quote v.label ++
        " are bound in the same spec") else pure ()) b s [] [] := by
    split
    · exact .lift _ b s
    · exact .ret () b s
  exact .bindOk (.read b s) rfl reported

/-- Binding a variable before the leaves have run makes one binding, in the group that is being
declared. -/
theorem bindHere (isOpen : b.finished = false) (v : Variable ν) (init : Initialiser ν)
    (s : State ν .flow) : Registers nested (Declaring.bindHere v init) b s
      [⟨b.group.index, ⟨v.id, v.label, init⟩⟩] [] := by
  have bound : Registers nested (do
      Declaring.reportClash v
      Declaring.changeGroup fun g => g.bind ⟨v.id, v.label, init⟩
      pure !(b.group.boundOnce.contains v.id)) b s
        ([] ++ ([⟨b.group.index, ⟨v.id, v.label, init⟩⟩] ++ [])) ([] ++ ([] ++ [])) :=
    .bindOk (reportClash v b s) (Declaring.result_reportClash v b s)
      (.bindOk (.bind _ isOpen _) rfl (.ret _ _ _))
  refine .bindOk (.read b s) rfl ?_
  rw [if_neg (by simp [isOpen])]
  exact bound

theorem bindHere_closed (closed : b.finished = true) (v : Variable ν) (init : Initialiser ν)
    (s : State ν .flow) : Registers nested (Declaring.bindHere v init) b s [] [] := by
  have refused : Registers nested (Declaring.whileOpen "variable binding" (pure ())) b s [] [] := by
    refine .bindOk (.read b s) rfl ?_
    rw [if_pos closed]
    exact .lift _ b s
  have completed := congrArg Step.result
    (Declaring.run_whileOpen_closed closed "variable binding" (pure ()) s)
  refine .bindOk (.read b s) rfl ?_
  rw [if_pos closed]
  exact .bindOk refused completed (.ret false _ _)

end Registers

/-! ## What a registration comes to -/

inductive Arrives (b : Building ν) (log : List (Made ν)) : List (Item ν) → Building ν → Prop
  | stillOpen {items : List (Item ν)} {b' : Building ν} (grown : Extends b log items b') :
      Arrives b log [] b'
  | frozen {items : List (Item ν)} {b₁ b' : Building ν} (grown : Extends b log items b₁)
      (closed : b'.finished = true) : Arrives b log [.group b₁.group b₁.items] b'

/-- What a step comes to extends the spec, and so does all that it freezes on the way. -/
structure Grows (action : Declaring ν α) (b : Building ν) (s : State ν .flow) (log : List (Made ν))
    (frozen : List (Item ν)) : Prop where
  trees : ∀ tree ∈ frozen, ∃ b₁ items, Extends b log items b₁ ∧ tree = .group b₁.group b₁.items
  arrives : ∀ value b', ((action.run b).run s).result = .ok (value, b') → Arrives b log frozen b'

namespace Grows

variable {b b₁ : Building ν} {s : State ν .flow} {log later : List (Made ν)}
  {frozen more : List (Item ν)}

theorem step {action : Declaring ν α} {items : List (Item ν)} (grown : Extends b log items b₁)
    (ends : ∀ value b', ((action.run b).run s).result = .ok (value, b') → b' = b₁) :
    Grows action b s log [] where
  trees _ member := absurd member List.not_mem_nil
  arrives value b' completed := ends value b' completed ▸ .stillOpen grown

/-- What follows a step extends the spec further, unless a tree has been frozen: nothing comes of it
then. -/
theorem bind {nested : Bool} {first : Declaring ν α} {next : α → Declaring ν β} {value : α}
    (order : b.group.index < b.nextIndex) (grows : Grows first b s log frozen)
    (completed : ((first.run b).run s).result = .ok (value, b₁))
    (goesOn : Registers nested (next value) b₁ ((first.run b).run s).state later more)
    (growsLater : b₁.finished = false → b₁.group.index < b₁.nextIndex →
      Grows (next value) b₁ ((first.run b).run s).state later more) :
    Grows (first >>= next) b s (log ++ later) (frozen ++ more) := by
  cases grows.arrives _ _ completed with
  | stillOpen grown =>
    have after := growsLater grown.isOpen (grown.order order)
    rw [List.nil_append]
    refine ⟨fun tree member => ?_, fun value b' ended => ?_⟩
    · obtain ⟨b₂, items, grownLater, same⟩ := after.trees tree member
      exact ⟨b₂, _, grown.trans order grownLater, same⟩
    · rw [result_bind_ok completed] at ended
      cases after.arrives value b' ended with
      | stillOpen grownLater => exact .stillOpen (grown.trans order grownLater)
      | frozen grownLater closed => exact .frozen (grown.trans order grownLater) closed
  | frozen grown closed =>
    obtain ⟨rfl, rfl, still⟩ := goesOn.of_finished closed
    rw [List.append_nil, List.append_nil]
    refine ⟨grows.trees, fun value b' ended => ?_⟩
    rw [result_bind_ok completed] at ended
    exact .frozen grown (still value b' ended)

theorem describe {here : Surroundings ν} {description : String} {place : Location}
    {body : Surroundings ν → Declaring ν Unit} (isOpen : b.finished = false)
    (order : b.group.index < b.nextIndex)
    (inside : Grows (body { here with enclosing := (b.group, b.items) :: here.enclosing })
      (b.inner description place) s log []) :
    Grows (Declaring.describe here description place body) b s log [] := by
  refine ⟨nofun, fun value b' completed => ?_⟩
  obtain ⟨ended, came, rfl⟩ := describe_completes isOpen completed
  cases inside.arrives () ended came with
  | stillOpen grown => exact .stillOpen (grown.describe isOpen order)

end Grows

theorem Registers.grows {nested : Bool} {action : Declaring ν α} {b : Building ν}
    {s : State ν .flow} {log : List (Made ν)} {frozen : List (Item ν)}
    (registers : Registers nested action b s log frozen) (isOpen : b.finished = false)
    (order : b.group.index < b.nextIndex) : Grows action b s log frozen := by
  induction registers with
  | ret | read => exact .step (.refl isOpen) fun _ _ completed => by cases completed; rfl
  | lift => exact .step (.refl isOpen) fun _ _ completed => result_lift completed
  | change unbinding =>
    exact .step (.change isOpen unbinding) fun _ _ completed => by cases completed; rfl
  | addLeaf leaf => exact .step (.addLeaf isOpen leaf) fun _ _ completed => by cases completed; rfl
  | bindOk _ completed goesOn ih ihLater =>
    exact (ih isOpen order).bind order completed goesOn ihLater
  | bindError _ stopped ih =>
    exact ⟨(ih isOpen order).trees, fun _ _ ended => absurd ended (result_bind_ne_ok stopped _)⟩
  | bind binding => exact .step (.bind isOpen binding) fun _ _ completed => by cases completed; rfl
  | describe _ _ ih => exact .describe isOpen order (ih isOpen (Nat.lt_succ_self _))
  | freeze =>
    refine ⟨fun tree member => ?_, fun _ _ completed => ?_⟩
    · exact ⟨_, _, .refl isOpen, List.mem_singleton.mp member⟩
    · exact .frozen (.refl isOpen) (finished_finish completed)

/-! ## Trees that are frozen -/

def Building.start (name : String) : Building ν :=
  ⟨{ index := 0, description := name, place := default }, [], false, 1⟩

structure Keeps (log : List (Made ν)) (tree : Item ν) : Prop where
  numbered : Item.NumberedFrom 0 tree.groups
  bindings : ∀ group ∈ tree.groups, ∀ id, bindingIn group.bindings id = lastMade log group.index id

theorem Extends.keeps {name : String} {log : List (Made ν)} {items : List (Item ν)} {b : Building ν}
    (grown : Extends (.start name) log items b) : Keeps log (.group b.group b.items) := by
  have members : b.items = items := grown.members
  have index : b.group.index = 0 := grown.index
  refine ⟨?_, fun group member id => ?_⟩
  · have rest : (Item.groupsAll items).map (·.index) =
      List.range' 1 (Item.groupsAll items).length := grown.numbered
    simp [Item.NumberedFrom, Item.groups, members, index, rest, List.range'_succ]
  · rw [Item.groups, members, List.mem_cons] at member
    rcases member with rfl | below
    · rw [grown.bindings, grown.index]
      exact Option.or_none
    · exact grown.inside group below id

/-- A declaration that comes to its end has run its leaves. -/
theorem Registration.finished_declaration {deeper : Deeper ν} {config : Config} {mode : RunMode}
    {body : Registration ν} {b : Building ν} {s : State ν .flow} {ended : Unit × Building ν}
    (completed : (((body.declaration deeper ⟨config, mode, []⟩).run b).run s).result = .ok ended) :
    ended.2.finished = true := by
  unfold declaration at completed
  cases applied : (((body.apply deeper ⟨config, mode, []⟩).run b).run s).result with
  | error stop =>
    exact absurd completed (result_bind_ne_ok applied _)
  | ok value =>
    rw [result_bind_ok applied] at completed
    exact finished_finish completed

/-- A declaration that comes to its end has frozen one tree. What is frozen on the way keeps the
bindings that were made. -/
theorem Registers.freezes {deeper : Deeper ν} {config : Config} {mode : RunMode}
    {body : Registration ν} {name : String} {s : State ν .flow} {log : List (Made ν)}
    {frozen : List (Item ν)} (registers : Registers false
      (body.declaration deeper ⟨config, mode, []⟩) (.start name) s log frozen) :
    (∀ ended, (((body.declaration deeper ⟨config, mode, []⟩).run (.start name)).run s).result =
      .ok ended → ∃ tree, frozen = [tree]) ∧ ∀ tree ∈ frozen, Keeps log tree := by
  obtain ⟨trees, arrives⟩ := registers.grows rfl Nat.zero_lt_one
  refine ⟨fun ended completed => ?_, fun tree member => ?_⟩
  · cases arrives ended.1 ended.2 completed with
    | stillOpen grown =>
      exact absurd ((Registration.finished_declaration completed).symm.trans grown.isOpen) nofun
    | frozen grown _ => exact ⟨_, rfl⟩
  · obtain ⟨b, items, grown, rfl⟩ := trees tree member
    exact grown.keeps

end NestedSpec
