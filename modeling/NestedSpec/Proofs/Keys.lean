import NestedSpec.Proofs.Spelling

/-!
# Keys of a collection

A key is drawn by its place among the keys in order. Keys without repetitions can be put in order in
one way only, so the order in which they come makes no difference, neither to the key nor to what is
drawn later.
-/

namespace NestedSpec.Random

variable {α : Type} {atMost : α → α → Bool} {keys others : List α} {k : α}

structure IsOrder (atMost : α → α → Bool) : Prop where
  total : ∀ a b, (atMost a b || atMost b a) = true
  trans : ∀ a b c, atMost a b = true → atMost b c = true → atMost a c = true
  antisymm : ∀ a b, atMost a b = true → atMost b a = true → a = b

theorem IsOrder.ofLinear [LE α] [DecidableLE α] [Std.IsLinearOrder α] :
    IsOrder fun a b : α => decide (a ≤ b) where
  total a b := by simpa using Std.le_total
  trans a b c := by simpa using Std.le_trans
  antisymm a b := by simpa using Std.le_antisymm

variable [DecidableEq α]

def arranged (atMost : α → α → Bool) (keys : List α) : List α :=
  keys.eraseDups.mergeSort atMost

def rank (atMost : α → α → Bool) (keys : List α) (k : α) : Nat :=
  keys.eraseDups.countP fun other => !atMost k other

theorem nodup_eraseDups (keys : List α) : keys.eraseDups.Nodup := by
  match keys with
  | [] => exact .nil
  | first :: rest =>
    rw [List.eraseDups_cons]
    refine List.nodup_cons.mpr ⟨fun again => ?_, nodup_eraseDups _⟩
    simp [List.mem_eraseDups] at again
termination_by keys.length
decreasing_by exact Nat.lt_succ_of_le (List.length_filter_le ..)

theorem arranged_perm (atMost : α → α → Bool) (keys : List α) :
    (arranged atMost keys).Perm keys.eraseDups :=
  List.mergeSort_perm ..

theorem mem_arranged : k ∈ arranged atMost keys ↔ k ∈ keys :=
  (arranged_perm atMost keys).mem_iff.trans List.mem_eraseDups

/-- In order, each key comes before all behind it. -/
theorem arranged_ascends (order : IsOrder atMost) (keys : List α) :
    (arranged atMost keys).Pairwise fun a b => atMost a b = true ∧ atMost b a = false := by
  have sorted := List.pairwise_mergeSort order.trans order.total keys.eraseDups
  have apart : (arranged atMost keys).Nodup :=
    (arranged_perm atMost keys).nodup_iff.mpr (nodup_eraseDups keys)
  refine sorted.imp₂ (fun a b first other => ⟨first, ?_⟩) apart
  exact Bool.eq_false_iff.mpr fun second => other (order.antisymm a b first second)

theorem arranged_eq (order : IsOrder atMost) (same : ∀ k, k ∈ others ↔ k ∈ keys) :
    arranged atMost others = arranged atMost keys := by
  have perm : (arranged atMost others).Perm (arranged atMost keys) := by
    refine (arranged_perm ..).trans (.trans ?_ (arranged_perm ..).symm)
    refine (List.perm_ext_iff_of_nodup (nodup_eraseDups _) (nodup_eraseDups _)).mpr fun k => ?_
    rw [List.mem_eraseDups, List.mem_eraseDups, same]
  refine perm.eq_of_pairwise (fun a b _ _ => order.antisymm a b) ?_ ?_
  · exact (arranged_ascends order others).imp And.left
  · exact (arranged_ascends order keys).imp And.left

theorem rank_arranged (order : IsOrder atMost) {place : Nat}
    (found : (arranged atMost keys)[place]? = some k) : rank atMost keys k = place := by
  obtain ⟨inside, here⟩ := List.getElem?_eq_some_iff.mp found
  have parts := List.take_append_drop place (arranged atMost keys)
  rw [List.drop_eq_getElem_cons inside, here] at parts
  have ascends := arranged_ascends order keys
  rw [← parts, List.pairwise_append, List.pairwise_cons] at ascends
  obtain ⟨-, ⟨later, -⟩, before⟩ := ascends
  -- Those in front of the place come before `k`; `k` itself and those behind do not.
  have self : atMost k k = true := by simpa using order.total k k
  have all : ((arranged atMost keys).take place).countP (fun other => !atMost k other) = place := by
    rw [List.countP_eq_length.mpr, List.length_take_of_le (Nat.le_of_lt inside)]
    exact fun other member => by simp [(before other member k List.mem_cons_self).2]
  have none : ((arranged atMost keys).drop (place + 1)).countP (fun other => !atMost k other) = 0 :=
    List.countP_eq_zero.mpr fun other member => by simp [(later other member).1]
  rw [rank, ← (arranged_perm atMost keys).countP_eq, ← parts, List.countP_append, List.countP_cons,
    all, none, self]
  rfl

theorem length_arranged (atMost : α → α → Bool) (keys : List α) :
    (arranged atMost keys).length = keys.eraseDups.length :=
  (arranged_perm atMost keys).length_eq

theorem arranged_ne_nil (filled : keys ≠ []) : arranged atMost keys ≠ [] := by
  obtain ⟨k, member⟩ := List.exists_mem_of_ne_nil keys filled
  exact List.ne_nil_of_mem (mem_arranged.mpr member)

theorem key_eq (filled : keys ≠ []) (r : Random) : key atMost keys r =
    ((arranged atMost keys)[(r.generator.below64 keys.eraseDups.length).1]?,
      { r with generator := (r.generator.below64 keys.eraseDups.length).2 }) := by
  rw [← length_arranged atMost keys]
  exact element_eq (arranged_ne_nil filled) r

/-- There is one key at each place. -/
theorem exists_rank (order : IsOrder atMost) {place : Nat}
    (below : place < keys.eraseDups.length) :
    ∃ k ∈ keys, (arranged atMost keys)[place]? = some k ∧ rank atMost keys k = place := by
  rw [← length_arranged atMost keys] at below
  have found := List.getElem?_eq_getElem below
  exact ⟨_, mem_arranged.mp (List.getElem_mem below), found, rank_arranged order found⟩

theorem length_eraseDups_pos (filled : keys ≠ []) : 0 < keys.eraseDups.length := by
  obtain ⟨k, member⟩ := List.exists_mem_of_ne_nil keys filled
  exact List.length_pos_of_mem (List.mem_eraseDups.mpr member)

/-- The key is the one with as many keys before it as were drawn below their number, and without
keys nothing is drawn. Neither depends on the order in which the keys come, nor on repetitions. -/
theorem key_ignores_order (order : IsOrder atMost) (keys : List α) (r : Random) :
    (∀ others, (∀ k, k ∈ others ↔ k ∈ keys) → key atMost others r = key atMost keys r) ∧
    ((key atMost keys r).1 = none ↔ keys = []) ∧
    (keys = [] → key atMost keys r = (none, r)) ∧
    (keys ≠ [] → ∃ k ∈ keys, (key atMost keys r).1 = some k ∧
      rank atMost keys k = (r.generator.below64 keys.eraseDups.length).1) ∧
    (keys ≠ [] → ∀ (count place : Nat) (g' : Generator),
      Generator.Takes Generator.next64 64 keys.eraseDups.length count r.generator place g' →
        ∃ k ∈ keys, rank atMost keys k = place ∧ (count ≤ Generator.refusals →
          key atMost keys r = (some k, { r with generator := g' }))) := by
  have empty : keys = [] → key atMost keys r = (none, r) := by
    rintro rfl
    rw [key, List.eraseDups_nil, List.mergeSort_nil]
    rfl
  have picks (filled : keys ≠ []) : ∃ k ∈ keys, (key atMost keys r).1 = some k ∧
      rank atMost keys k = (r.generator.below64 keys.eraseDups.length).1 := by
    have below : (r.generator.below64 keys.eraseDups.length).1 < keys.eraseDups.length :=
      Generator.belowWithin_lt Generator.next64_lt (length_eraseDups_pos filled)
    obtain ⟨k, member, found, rank⟩ := exists_rank order below
    exact ⟨k, member, (congrArg Prod.fst (key_eq filled r)).trans found, rank⟩
  refine ⟨fun others same => ?_, ⟨fun none => ?_, fun none => by rw [empty none]⟩, empty, picks,
    fun filled count place g' takes => ?_⟩
  · exact congrFun (congrArg element (arranged_eq order same)) r
  · by_contra filled
    obtain ⟨k, -, picked, -⟩ := picks filled
    rw [none] at picked
    cases picked
  · have below := takes.value_lt Generator.next64_lt (length_eraseDups_pos filled)
    obtain ⟨k, member, found, rank⟩ := exists_rank order below
    refine ⟨k, member, rank, fun within => ?_⟩
    have drawn : r.generator.below64 keys.eraseDups.length = (place, g') :=
      takes.belowWithin_eq within
    rw [key_eq filled, drawn, found]

theorem key_ignores_order_threeNames :
    IsOrder (fun a b : String => decide (a ≤ b)) ∧
    (∀ k, k ∈ ["c", "b", "a"] ↔ k ∈ ["b", "a", "c"]) ∧
    key (fun a b : String => a ≤ b) ["c", "b", "a"] (ofSeed 7) =
      key (fun a b : String => a ≤ b) ["b", "a", "c"] (ofSeed 7) ∧
    ∃ k ∈ ["b", "a", "c"],
      (key (fun a b : String => a ≤ b) ["b", "a", "c"] (ofSeed 7)).1 = some k := by
  have perm : ["c", "b", "a"].Perm ["b", "a", "c"] := by decide
  obtain ⟨alike, -, -, picks, -⟩ := key_ignores_order IsOrder.ofLinear ["b", "a", "c"] (ofSeed 7)
  obtain ⟨k, member, picked, -⟩ := picks (List.cons_ne_nil _ _)
  exact ⟨.ofLinear, fun _ => perm.mem_iff, alike _ fun _ => perm.mem_iff, k, member, picked⟩

end NestedSpec.Random
