import NestedSpec.Proofs.Apart
import NestedSpec.Proofs.Arranging

/-!
# The order of a subtree is its own

What decides how the members of a spec are ordered is the path of the spec, the mode in force there,
the seed, and the shape of what is inside. Two trees that have all of that in common at two of their
specs list the leaves there in the same order, whatever else they hold.

The outermost spec is not named in paths, so its path is empty, and so is the path of a spec in it
without a description. The paths inside the two are different ones.
-/

namespace NestedSpec

variable {ν ν' : Type}

/-- What decides how a member is ordered. -/
inductive Shape where
  | leaf (description : String) (place : Location)
  | group (description : String) (place : Location) (ordering : Option Mode)
      (members : List Shape)

namespace Shape

mutual
def firstPlace : Shape → Location
  | leaf _ place => place
  | group _ place _ members => (firstPlaces members).getD place

def firstPlaces : List Shape → Option Location
  | [] => none
  | first :: rest =>
    some (match firstPlaces rest with
      | none => firstPlace first
      | some later => (firstPlace first).first later)
end

end Shape

namespace Item

mutual
def shape : Item ν → Shape
  | leaf l => .leaf l.description l.place
  | group g items => .group g.description g.place g.ordering (shapes items)

def shapes : List (Item ν) → List Shape
  | [] => []
  | first :: rest => shape first :: shapes rest
end

theorem shapes_eq_map (items : List (Item ν)) : shapes items = items.map shape := by
  induction items with
  | nil => rfl
  | cons first rest ih => simp only [shapes, ih, List.map_cons]

mutual
theorem firstPlace_shape : (item : Item ν) → item.shape.firstPlace = item.firstPlace
  | leaf _ => rfl
  | group g items => by
    simp only [shape, Shape.firstPlace, firstPlace, firstPlaces_shapes items]

theorem firstPlaces_shapes : (items : List (Item ν)) →
    Shape.firstPlaces (shapes items) = firstPlaces items
  | [] => rfl
  | first :: rest => by
    have here := firstPlace_shape first
    have later := firstPlaces_shapes rest
    cases inner : firstPlaces rest with
    | none =>
      rw [inner] at later
      simp only [shapes, Shape.firstPlaces, firstPlaces, later, inner, here]
    | some place =>
      rw [inner] at later
      simp only [shapes, Shape.firstPlaces, firstPlaces, later, inner, here]
end

def blockKey (block : Item ν × List Nat) : Shape × List Nat := (block.1.shape, block.2)

theorem map_order_blocks (orderer : Orderer) (scope : String) (blocks : List (Item ν × List Nat)) :
    (orderer.order scope (fun block => block.1.firstPlace) blocks).map blockKey =
      orderer.order scope (fun key => key.1.firstPlace) (blocks.map blockKey) := by
  have places : (fun block : Item ν × List Nat => block.1.firstPlace) =
      fun block => (blockKey block).1.firstPlace :=
    funext fun block => (firstPlace_shape block.1).symm
  rw [places, Orderer.map_order orderer scope blockKey fun key => key.1.firstPlace]

end Item

structure Chain.SamePath (here : Chain ν) (here' : Chain ν') : Prop where
  path : here.path = here'.path
  outermost : here.drop 1 = [] ↔ here'.drop 1 = []

theorem Chain.path_append {here : Chain ν} (inside : here ≠ []) (group : Group ν) :
    path (here ++ [group]) =
      if here.drop 1 = [] then group.description else here.path ++ "/" ++ group.description := by
  obtain ⟨outermost, rest, rfl⟩ := List.exists_cons_of_ne_nil inside
  unfold path
  by_cases alone : rest = []
  · subst alone
    rfl
  · have names : rest.map (·.description) ≠ [] := by simpa using alone
    have joined := joinNames_append_singleton names group.description
    simpa [alone] using joined

theorem Chain.SamePath.append {here : Chain ν} {here' : Chain ν'} (same : here.SamePath here')
    (inside : here ≠ []) (inside' : here' ≠ []) {group : Group ν} {group' : Group ν'}
    (description : group.description = group'.description) :
    (here ++ [group]).SamePath (here' ++ [group']) where
  path := by
    rw [path_append inside, path_append inside', description, same.path]
    simp only [same.outermost]
  outermost := by
    obtain ⟨first, rest, rfl⟩ := List.exists_cons_of_ne_nil inside
    obtain ⟨first', rest', rfl⟩ := List.exists_cons_of_ne_nil inside'
    simp

namespace Item

structure PlannedAlike (orderer : Orderer) (here : Chain ν) (here' : Chain ν') (item : Item ν)
    (item' : Item ν') : Prop where
  order : planOrder orderer here item = planOrder orderer here' item'
  shape : (arrange orderer here item).shape = (arrange orderer here' item').shape

theorem PlannedAlike.length {orderer : Orderer} {here : Chain ν} {here' : Chain ν'} {item : Item ν}
    {item' : Item ν'} (alike : PlannedAlike orderer here here' item item') :
    (leaves here item).length = (leaves here' item').length := by
  have listed := (planOrder_perm orderer here item).length_eq
  have listed' := (planOrder_perm orderer here' item').length_eq
  rw [alike.order, listed'] at listed
  simpa using listed.symm

theorem orderedAlike (orderer : Orderer) {here : Chain ν} {here' : Chain ν'}
    (same : here.SamePath here') {items : List (Item ν)} {items' : List (Item ν')}
    (blocks : (planBlocks orderer here 0 items).map blockKey =
      (planBlocks orderer here' 0 items').map blockKey) :
    (orderer.order here.path (fun block => block.1.firstPlace)
        (planBlocks orderer here 0 items)).map blockKey =
      (orderer.order here'.path (fun block => block.1.firstPlace)
        (planBlocks orderer here' 0 items')).map blockKey := by
  rw [map_order_blocks, map_order_blocks, blocks, same.path]

mutual
theorem plannedAlike (orderer : Orderer) {here : Chain ν} {here' : Chain ν'}
    (same : here.SamePath here') (inside : here ≠ []) (inside' : here' ≠ []) :
    (item : Item ν) → (item' : Item ν') → item.shape = item'.shape →
      PlannedAlike orderer here here' item item'
  | leaf _, leaf _, alike => ⟨rfl, alike⟩
  | group g items, group g' items', alike => by
    obtain ⟨description, place, ordering, members⟩ := Shape.group.inj alike
    let inner := (g.ordering.map orderer.withMode).getD orderer
    have below := same.append inside inside' description
    have keys := orderedAlike inner below
      (blocksAlike inner below (by simp) (by simp) 0 items items' members)
    have innerSame : (g'.ordering.map orderer.withMode).getD orderer = inner := by rw [← ordering]
    constructor
    · simp only [planOrder, innerSame]
      have numbers := congrArg (List.flatMap Prod.snd) keys
      simpa only [List.flatMap_map, blockKey] using numbers
    · have shapes := congrArg (List.map Prod.fst) keys
      rw [arrange_group, arrange_group]
      simp only [shape, innerSame, description, place, ordering, shapes_eq_map]
      simpa only [List.map_map, Function.comp_def, blockKey] using
        congrArg (Shape.group g'.description g'.place g'.ordering) shapes

theorem blocksAlike (orderer : Orderer) {here : Chain ν} {here' : Chain ν'}
    (same : here.SamePath here') (inside : here ≠ []) (inside' : here' ≠ []) (first : Nat) :
    (items : List (Item ν)) → (items' : List (Item ν')) → shapes items = shapes items' →
      (planBlocks orderer here first items).map blockKey =
        (planBlocks orderer here' first items').map blockKey
  | [], [], _ => rfl
  | item :: rest, item' :: rest', alike => by
    obtain ⟨head, tail⟩ := List.cons_eq_cons.mp alike
    have planned := plannedAlike orderer same inside inside' item item' head
    have later := blocksAlike orderer same inside inside' (first + (leaves here item).length)
      rest rest' tail
    simp only [planBlocks, List.map_cons, blockKey, planned.order, planned.shape]
    rw [later, planned.length]
end

def insideOrder (inner : Orderer) (here : Chain ν) (items : List (Item ν)) : List Nat :=
  (inner.order here.path (fun block => block.1.firstPlace)
    (planBlocks inner here 0 items)).flatMap (·.2)

theorem planOrder_within (orderer : Orderer) (chain : Chain ν) (g : Group ν)
    (items : List (Item ν)) : planOrder (orderer.within chain) chain (group g items) =
      insideOrder (orderer.within (chain ++ [g])) (chain ++ [g]) items := by
  rw [Orderer.within_append]
  rfl

theorem insideOrder_eq (inner : Orderer) {here : Chain ν} {here' : Chain ν'}
    (same : here.SamePath here') (inside : here ≠ []) (inside' : here' ≠ [])
    {items : List (Item ν)} {items' : List (Item ν')} (alike : shapes items = shapes items') :
    insideOrder inner here items = insideOrder inner here' items' := by
  have blocks := blocksAlike inner same inside inside' 0 items items' alike
  have numbers := congrArg (List.flatMap Prod.snd) (orderedAlike inner same blocks)
  simpa only [insideOrder, List.flatMap_map, blockKey] using numbers

end Item

namespace Runner

def Lists (runner : Runner ν) (tree : Item ν) (first : Nat) (numbers : List Nat) : Prop :=
  ∃ all before after, runner.Arranges tree all ∧ all = before ++ numbers.map (first + ·) ++ after

theorem lists_inside (runner : Runner ν) {tree : Item ν} {chain : Chain ν} {first : Nat}
    {g : Group ν} {items : List (Item ν)} (place : Item.At tree chain first (.group g items)) :
    runner.Lists tree first
      (Item.insideOrder (runner.orderer.within (chain ++ [g])) (chain ++ [g]) items) := by
  obtain ⟨before, after, split⟩ := place.planOrder_eq runner.orderer
  rw [Item.planOrder_within] at split
  exact ⟨_, before, after, runner.arranges tree, split⟩

/-- Two specs with the same path, both outermost or both nested, with the same mode in force and
with the same shape inside: their leaves are listed in the same order, whatever else the two trees
hold. -/
theorem order_is_local {runner : Runner ν} {runner' : Runner ν'}
    (seed : runner.config.seed = runner'.config.seed) {tree : Item ν} {tree' : Item ν'}
    {chain : Chain ν} {chain' : Chain ν'} {first first' : Nat} {g : Group ν} {g' : Group ν'}
    {items : List (Item ν)} {items' : List (Item ν')}
    (place : Item.At tree chain first (.group g items))
    (place' : Item.At tree' chain' first' (.group g' items'))
    (path : Chain.path (chain ++ [g]) = Chain.path (chain' ++ [g']))
    (outermost : chain = [] ↔ chain' = [])
    (mode : (runner.orderer.within (chain ++ [g])).mode =
      (runner'.orderer.within (chain' ++ [g'])).mode)
    (shape : Item.shapes items = Item.shapes items') :
    ∃ numbers, numbers.Perm (List.range (Item.leaves chain (.group g items)).length) ∧
      runner.Lists tree first numbers ∧ runner'.Lists tree' first' numbers := by
  have inner : runner.orderer.within (chain ++ [g]) = runner'.orderer.within (chain' ++ [g']) := by
    have seeds : (runner.orderer.within (chain ++ [g])).seed =
        (runner'.orderer.within (chain' ++ [g'])).seed := by
      rw [Orderer.seed_within, Orderer.seed_within]
      exact seed
    exact Orderer.mk.injEq .. ▸ ⟨mode, seeds⟩
  have same : (chain ++ [g]).SamePath (chain' ++ [g']) := by
    refine ⟨path, ?_⟩
    cases chain <;> cases chain' <;> simp_all
  have perm := Item.planOrder_perm (runner.orderer.within chain) chain (.group g items)
  rw [Item.planOrder_within] at perm
  have numbers := Item.insideOrder_eq (runner.orderer.within (chain ++ [g])) same
    (by simp) (by simp) shape
  refine ⟨_, perm, runner.lists_inside place, ?_⟩
  rw [numbers, inner]
  exact runner'.lists_inside place'

def shuffling (seed : UInt64) : Runner Unit :=
  ⟨{ Config.default seed with ordering := .random }, .test, Deeper.within 1⟩

def emptyLeaf (description : String) : Item Unit := .leaf ⟨description, default, .done⟩

def spec (index : Nat) (description : String) (items : List (Item Unit)) : Item Unit :=
  .group { index, description, place := default } items

def pair (index : Nat) : Item Unit := spec index "x" [emptyLeaf "a", emptyLeaf "b"]

theorem order_is_local_pair :
    ∃ numbers, numbers.Perm (List.range 2) ∧
      (shuffling 1).Lists (spec 0 "spec" [pair 1]) 0 numbers ∧
      (shuffling 1).Lists (spec 0 "other" [emptyLeaf "c", pair 1]) 1 numbers :=
  order_is_local rfl (.member (@Item.At.root _ (spec 0 "spec" ([] ++ pair 1 :: []))))
    (.member (@Item.At.root _ (spec 0 "other" ([emptyLeaf "c"] ++ pair 1 :: [])))) rfl
    (by simp) rfl rfl

theorem Lists.descriptions {runner : Runner ν} {tree : Item ν} {numbers : List Nat}
    (lists : runner.Lists tree 0 numbers)
    (whole : numbers.length = (Item.leaves [] tree).length) :
    (Item.leaves [] (runner.plan tree)).map (fun place => some place.2.description) =
      numbers.map (((Item.leaves [] tree).map (·.2.description))[·]?) := by
  obtain ⟨all, before, after, arranges, split⟩ := lists
  have sizes := arranges.once.length_eq
  simp only [split, List.length_append, List.length_map, List.length_range] at sizes
  obtain rfl : before = [] := List.eq_nil_of_length_eq_zero (by omega)
  obtain rfl : after = [] := List.eq_nil_of_length_eq_zero (by omega)
  obtain rfl : all = numbers := by simpa using split
  have seen := congrArg (List.map (Option.map (·.2.description))) arranges.lists
  simpa [Function.comp_def] using seen

/-- The outermost spec and a nested one without a description have the same path, but their leaves
may be listed in different orders. -/
theorem unnamed_is_not_outermost :
    let nested := spec 1 "" [pair 2]
    let here := spec 0 "spec" [pair 1]
    let there := spec 0 "spec" [nested]
    (∃ g g' items items', Item.At here [] 0 (.group g items) ∧
      Item.At there [g] 0 (.group g' items') ∧ Item.shapes items = Item.shapes items' ∧
      Chain.path [g] = Chain.path [g, g'] ∧
      ((shuffling 1).orderer.within [g]).mode = ((shuffling 1).orderer.within [g, g']).mode) ∧
    ¬ ∃ numbers, numbers.Perm (List.range 2) ∧ (shuffling 1).Lists here 0 numbers ∧
      (shuffling 1).Lists there 0 numbers := by
  intro nested here there
  constructor
  · exact ⟨_, _, _, _, .root, .member (@Item.At.root _ (spec 0 "spec" ([] ++ nested :: []))),
      rfl, rfl, rfl⟩
  · rintro ⟨numbers, perm, lists, lists'⟩
    have whole : numbers.length = 2 := perm.length_eq
    have order := lists.descriptions whole
    have order' := lists'.descriptions whole
    have differ : (Item.leaves [] ((shuffling 1).plan here)).map
          (fun place => some place.2.description) ≠
        (Item.leaves [] ((shuffling 1).plan there)).map
          (fun place => some place.2.description) := by decide +kernel
    exact differ (order.trans order'.symm)

end Runner
end NestedSpec
