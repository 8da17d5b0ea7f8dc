import Mathlib.Data.List.Basic
import Mathlib.Data.List.Flatten
import NestedSpec.Runner
import NestedSpec.Proofs.Members

/-!
# Plans arrange leaves

The leaves of a tree are numbered in the order in which they were registered, which is the pre-order
of the tree. What a plan makes of them is told by the numbers alone: a group puts the numbers of its
members one block after another, in the order of the places of the members.
-/

namespace NestedSpec

variable {ν α β : Type}

/-! ## Ordering does not look at what is ordered -/

namespace Generator

theorem map_swapIfInBounds (f : α → β) (items : Array α) (i j : Nat) :
    (items.swapIfInBounds i j).map f = (items.map f).swapIfInBounds i j := by
  unfold Array.swapIfInBounds
  by_cases first : i < items.size
  · by_cases second : j < items.size
    · have swapped : (items.swap i j).map f = (items.map f).swap i j (by simpa) (by simpa) := by
        ext k
        · simp
        · simp only [Array.getElem_map, Array.getElem_swap]
          split_ifs <;> rfl
      simp [first, second, swapped]
    · simp [first, second]
  · simp [first]

theorem shuffleFirst_of_drawn (count : Nat) (items : Array α) {g g' : Generator} {place : Nat}
    (drawn : g.below32 (count + 2) = (place, g')) :
    shuffleFirst (count + 2) items g =
      shuffleFirst (count + 1) (items.swapIfInBounds (count + 1) place) g' := by
  have step : shuffleFirst (count + 2) items g =
      shuffleFirst (count + 1) (items.swapIfInBounds (count + 1) (g.below32 (count + 2)).1)
        (g.below32 (count + 2)).2 := rfl
  rw [step, drawn]

/-- Items are exchanged by where they stand, so they may be mapped before or after a shuffle. -/
theorem map_shuffleFirst (f : α → β) (count : Nat) (items : Array α) (g : Generator) :
    shuffleFirst count (items.map f) g =
      ((shuffleFirst count items g).1.map f, (shuffleFirst count items g).2) := by
  induction count, items, g using shuffleFirst.induct with
  | case1 => rfl
  | case2 => rfl
  | case3 count items g place g' drawn ih =>
    rw [shuffleFirst_of_drawn count _ drawn, shuffleFirst_of_drawn count _ drawn,
      ← map_swapIfInBounds]
    exact ih

theorem map_shuffle (f : α → β) (items : List α) (g : Generator) :
    (shuffle (items.map f) g).1 = (shuffle items g).1.map f := by
  have mapped := congrArg Prod.fst (map_shuffleFirst f items.length items.toArray g)
  simp only [shuffle, List.length_map, ← List.map_toArray, mapped, Array.toList_map]

end Generator

/-- Only the places of items and how many there are decide how they are ordered. -/
theorem Orderer.map_order (orderer : Orderer) (scope : String) (f : α → β) (place : β → Location)
    (items : List α) :
    (orderer.order scope (fun item => place (f item)) items).map f =
      orderer.order scope place (items.map f) := by
  unfold order
  split
  · rfl
  · exact List.map_mergeSort fun _ _ _ _ => rfl
  · exact (Generator.map_shuffle f items _).symm

namespace Item

/-! ## Numbers of leaves -/

mutual
def planOrder (orderer : Orderer) (chain : Chain ν) : Item ν → List Nat
  | leaf _ => [0]
  | group g items =>
    let inner := (g.ordering.map orderer.withMode).getD orderer
    let here := chain ++ [g]
    (inner.order here.path (fun block => block.1.firstPlace)
      (planBlocks inner here 0 items)).flatMap (·.2)

def planBlocks (orderer : Orderer) (chain : Chain ν) (first : Nat) :
    List (Item ν) → List (Item ν × List Nat)
  | [] => []
  | item :: rest =>
    (arrange orderer chain item, (planOrder orderer chain item).map (first + ·)) ::
      planBlocks orderer chain (first + (leaves chain item).length) rest
end

theorem planBlocks_items (orderer : Orderer) (chain : Chain ν) (first : Nat)
    (items : List (Item ν)) :
    (planBlocks orderer chain first items).map (·.1) = arrangeAll orderer chain items := by
  induction items generalizing first with
  | nil => rfl
  | cons item rest ih => simp only [planBlocks, arrangeAll, List.map_cons, ih]

theorem planBlocks_append (orderer : Orderer) (chain : Chain ν) (first : Nat)
    (items more : List (Item ν)) :
    planBlocks orderer chain first (items ++ more) = planBlocks orderer chain first items ++
      planBlocks orderer chain (first + (leavesAll chain items).length) more := by
  induction items generalizing first with
  | nil => rfl
  | cons item rest ih =>
    simp only [planBlocks, leavesAll, List.cons_append, ih, List.length_append, Nat.add_assoc]

/-- The plan of a group lists its blocks of leaves as it orders its members. -/
theorem arrange_group (orderer : Orderer) (chain : Chain ν) (g : Group ν) (items : List (Item ν)) :
    arrange orderer chain (group g items) =
      let inner := (g.ordering.map orderer.withMode).getD orderer
      let here := chain ++ [g]
      group g ((inner.order here.path (fun block => block.1.firstPlace)
        (planBlocks inner here 0 items)).map (·.1)) := by
  simp only [arrange, Orderer.map_order, planBlocks_items]

mutual
/-- The plan of a member lists each of its leaves once. -/
theorem planOrder_perm (orderer : Orderer) (chain : Chain ν) : (item : Item ν) →
    (planOrder orderer chain item).Perm (List.range (leaves chain item).length)
  | leaf _ => .refl _
  | group g items => by
    let inner := (g.ordering.map orderer.withMode).getD orderer
    have ordered := Orderer.order_perm inner (Chain.path (chain ++ [g]))
      (fun block => block.1.firstPlace) (planBlocks inner (chain ++ [g]) 0 items)
    have blocks := planBlocks_perm inner (chain ++ [g]) 0 items
    rw [List.range_eq_range']
    exact (ordered.flatMap_right _).trans blocks

theorem planBlocks_perm (orderer : Orderer) (chain : Chain ν) (first : Nat) :
    (items : List (Item ν)) → ((planBlocks orderer chain first items).flatMap (·.2)).Perm
      (List.range' first (leavesAll chain items).length)
  | [] => .refl _
  | item :: rest => by
    have own := (planOrder_perm orderer chain item).map (first + ·)
    have later := planBlocks_perm orderer chain (first + (leaves chain item).length) rest
    rw [← List.range'_eq_map_range] at own
    simp only [planBlocks, leavesAll, List.flatMap_cons, List.length_append,
      ← List.range'_append_1]
    exact own.append later
end

mutual
/-- The numbers tell which leaves a plan lists. -/
theorem leaves_arrange (orderer : Orderer) (chain : Chain ν) : (item : Item ν) →
    (leaves chain (arrange orderer chain item)).map some =
      (planOrder orderer chain item).map ((leaves chain item)[·]?)
  | leaf _ => rfl
  | group g items => by
    let inner := (g.ordering.map orderer.withMode).getD orderer
    let here := chain ++ [g]
    let blocks := inner.order here.path (fun block => block.1.firstPlace)
      (planBlocks inner here 0 items)
    have each : ∀ block ∈ blocks, (leaves here block.1).map some =
        block.2.map ((leavesAll here items)[·]?) := by
      intro block member
      have registered := (Orderer.order_perm ..).mem_iff.mp member
      exact leaves_planBlocks inner here [] items block registered
    rw [arrange_group]
    simp only [leaves, planOrder, leavesAll_eq_flatMap _ (List.map _ _), List.flatMap_map,
      List.map_flatMap]
    exact List.flatMap_congr each

theorem leaves_planBlocks (orderer : Orderer) (chain : Chain ν) (before : List (Chain ν × Leaf ν)) :
    (items : List (Item ν)) → ∀ block ∈ planBlocks orderer chain before.length items,
      (leaves chain block.1).map some = block.2.map ((before ++ leavesAll chain items)[·]?)
  | item :: rest, block, member => by
    rcases List.mem_cons.mp member with rfl | later
    · have own := leaves_arrange orderer chain item
      rw [own, List.map_map]
      apply List.map_congr_left
      intro number listed
      have below : number < (leaves chain item).length :=
        List.mem_range.mp ((planOrder_perm orderer chain item).mem_iff.mp listed)
      simp only [leavesAll, Function.comp_apply, List.getElem?_append_right (Nat.le_add_right _ _),
        Nat.add_sub_cancel_left, List.getElem?_append_left below]
    · rw [← List.length_append] at later
      have others := leaves_planBlocks orderer chain (before ++ leaves chain item) rest block later
      rwa [List.append_assoc] at others
end

/-! ## Nested specs -/

inductive At (tree : Item ν) : Chain ν → Nat → Item ν → Prop
  | root : At tree [] 0 tree
  | member {chain : Chain ν} {first : Nat} {g : Group ν} {before after : List (Item ν)}
      {item : Item ν} (inside : At tree chain first (group g (before ++ item :: after))) :
      At tree (chain ++ [g]) (first + (leavesAll (chain ++ [g]) before).length) item

end Item

/-- The orderer in force inside the groups of a chain: the innermost group that says anything about
the mode decides. -/
def Orderer.within (orderer : Orderer) (chain : Chain ν) : Orderer :=
  ((chain.reverse.findSome? (·.ordering)).map orderer.withMode).getD orderer

theorem Orderer.within_append (orderer : Orderer) (chain : Chain ν) (group : Group ν) :
    orderer.within (chain ++ [group]) =
      (group.ordering.map (orderer.within chain).withMode).getD (orderer.within chain) := by
  unfold within
  rw [List.reverse_append, List.reverse_singleton, List.singleton_append, List.findSome?_cons]
  cases group.ordering with
  | none => rfl
  | some mode =>
    cases chain.reverse.findSome? (·.ordering) <;> rfl

theorem Orderer.seed_within (orderer : Orderer) (chain : Chain ν) :
    (orderer.within chain).seed = orderer.seed := by
  unfold within
  cases chain.reverse.findSome? (·.ordering) <;> rfl

namespace Item

/-- A plan lists the leaves of a member of a group next to each other. -/
theorem planOrder_member (orderer : Orderer) (chain : Chain ν) (g : Group ν)
    (before after : List (Item ν)) (item : Item ν) :
    let inner := (g.ordering.map orderer.withMode).getD orderer
    let here := chain ++ [g]
    ∃ earlier later, planOrder orderer chain (group g (before ++ item :: after)) =
      earlier ++ (planOrder inner here item).map ((leavesAll here before).length + ·) ++ later := by
  intro inner here
  let blocks := planBlocks inner here 0 (before ++ item :: after)
  let block := (arrange inner here item,
    (planOrder inner here item).map ((leavesAll here before).length + ·))
  have among : block ∈ blocks := by
    have split := planBlocks_append inner here 0 before (item :: after)
    rw [Nat.zero_add] at split
    simp only [blocks, split, planBlocks]
    exact List.mem_append_right _ (List.mem_cons_self ..)
  have ordered := (Orderer.order_perm inner here.path (fun block => block.1.firstPlace)
    blocks).mem_iff.mpr among
  obtain ⟨earlier, later, split⟩ := List.append_of_mem ordered
  refine ⟨earlier.flatMap (·.2), later.flatMap (·.2), ?_⟩
  change (inner.order here.path (fun block => block.1.firstPlace) blocks).flatMap (·.2) = _
  rw [split, List.flatMap_append, List.flatMap_cons, List.append_assoc]

/-- A plan lists the leaves of a nested spec next to each other, as the spec itself orders them. -/
theorem At.planOrder_eq (orderer : Orderer) {tree item : Item ν} {chain : Chain ν} {first : Nat}
    (place : At tree chain first item) : ∃ before after,
      planOrder orderer [] tree =
        before ++ (planOrder (orderer.within chain) chain item).map (first + ·) ++ after := by
  induction place with
  | root => exact ⟨[], [], by simp [Orderer.within]⟩
  | @member chain first g before after item inside ih =>
    obtain ⟨outside, behind, split⟩ := ih
    obtain ⟨earlier, later, inner⟩ :=
      planOrder_member (orderer.within chain) chain g before after item
    refine ⟨outside ++ earlier.map (first + ·), later.map (first + ·) ++ behind, ?_⟩
    rw [split, inner, ← Orderer.within_append]
    simp only [List.map_append, List.map_map, List.append_assoc, Function.comp_def, Nat.add_assoc]

/-! ## Order of registration -/

mutual
def modes (mode : Mode) : Item ν → List Mode
  | leaf _ => []
  | group g items => g.ordering.getD mode :: modesAll (g.ordering.getD mode) items

def modesAll (mode : Mode) : List (Item ν) → List Mode
  | [] => []
  | first :: rest => modes mode first ++ modesAll mode rest
end

theorem mode_inner (orderer : Orderer) (g : Group ν) :
    ((g.ordering.map orderer.withMode).getD orderer).mode = g.ordering.getD orderer.mode := by
  cases g.ordering <;> rfl

mutual
theorem planOrder_defined (orderer : Orderer) (chain : Chain ν) : (item : Item ν) →
    (∀ mode ∈ modes orderer.mode item, mode = .defined) →
      planOrder orderer chain item = List.range (leaves chain item).length
  | leaf _, _ => rfl
  | group g items, defined => by
    let inner := (g.ordering.map orderer.withMode).getD orderer
    have here : inner.mode = .defined := by
      rw [mode_inner]
      exact defined _ (List.mem_cons_self ..)
    have inside : ∀ mode ∈ modesAll inner.mode items, mode = .defined := by
      intro mode member
      rw [mode_inner] at member
      exact defined mode (List.mem_cons_of_mem _ member)
    have blocks := planBlocks_defined inner (chain ++ [g]) 0 items inside
    simp only [planOrder, leaves, List.range_eq_range', ← blocks]
    simp only [Orderer.order, inner, here]

theorem planBlocks_defined (orderer : Orderer) (chain : Chain ν) (first : Nat) :
    (items : List (Item ν)) → (∀ mode ∈ modesAll orderer.mode items, mode = .defined) →
      (planBlocks orderer chain first items).flatMap (·.2) =
        List.range' first (leavesAll chain items).length
  | [], _ => rfl
  | item :: rest, defined => by
    have own := planOrder_defined orderer chain item fun mode member =>
      defined mode (List.mem_append_left _ member)
    have later := planBlocks_defined orderer chain (first + (leaves chain item).length) rest
      fun mode member => defined mode (List.mem_append_right _ member)
    simp only [planBlocks, leavesAll, List.flatMap_cons, own, later, List.length_append,
      ← List.range'_eq_map_range, List.range'_append_1]
end

end Item

/-! ## A plan arranges its tree -/

namespace Runner

/-- The plan of a tree lists the leaves with these numbers, in this order. -/
structure Arranges (runner : Runner ν) (tree : Item ν) (numbers : List Nat) : Prop where
  lists : (Item.leaves [] (runner.plan tree)).map some =
    numbers.map ((Item.leaves [] tree)[·]?)
  announced : (runner.plan tree).leafPaths [] =
    (Item.leaves [] (runner.plan tree)).map fun place => place.1.leafPath place.2.description
  once : numbers.Perm (List.range (Item.leaves [] tree).length)
  together : ∀ {chain first nested}, Item.At tree chain first nested →
    ∃ before inside after, numbers = before ++ inside ++ after ∧
      inside.Perm (List.range' first (Item.leaves chain nested).length) ∧
      ((∀ mode ∈ nested.modes (runner.orderer.within chain).mode, mode = .defined) →
        inside = List.range' first (Item.leaves chain nested).length)

theorem arranges (runner : Runner ν) (tree : Item ν) :
    runner.Arranges tree (tree.planOrder runner.orderer []) where
  lists := Item.leaves_arrange runner.orderer [] tree
  announced := Item.leafPaths_eq_leaves [] (runner.plan tree)
  once := Item.planOrder_perm runner.orderer [] tree
  together := by
    intro chain first nested place
    obtain ⟨before, after, split⟩ := place.planOrder_eq runner.orderer
    refine ⟨before, _, after, split, ?_, fun defined => ?_⟩
    · rw [List.range'_eq_map_range]
      exact (Item.planOrder_perm _ chain nested).map (first + ·)
    · rw [Item.planOrder_defined _ chain nested defined, List.range'_eq_map_range]

end Runner
end NestedSpec
