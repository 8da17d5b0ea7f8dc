import NestedSpec.Proofs.Boundaries
import NestedSpec.Proofs.Sampling

/-!
# Texts over an alphabet

A text of some length is so many letters of the alphabet joined, and any two letters stand side by
side in some text. So a text is made of so many clusters of the alphabet, whatever is drawn, exactly
if each two letters stay apart.
-/

namespace NestedSpec.Random

open Text

variable {α : Type} {items : List α} {alphabet text : String} {length : Nat} {r : Random}

/-! ## Choices -/

theorem element_eq (filled : items ≠ []) (r : Random) :
    element items r = (items[(r.generator.below64 items.length).1]?,
      { r with generator := (r.generator.below64 items.length).2 }) := by
  cases items with
  | nil => exact absurd rfl filled
  | cons first rest => rfl

theorem element_mem (filled : items ≠ []) (r : Random) :
    ∃ item ∈ items, (element items r).1 = some item := by
  have below : (r.generator.below64 items.length).1 < items.length :=
    Generator.belowWithin_lt Generator.next64_lt (List.length_pos_of_ne_nil filled)
  rw [element_eq filled]
  exact ⟨_, List.getElem_mem below, List.getElem?_eq_getElem below⟩

theorem many_element (filled : items ≠ []) (count : Nat) (r : Random) :
    ∃ chosen : List α, chosen.length = count ∧ (∀ item ∈ chosen, item ∈ items) ∧
      (many (element items) count r).1 = chosen.map some := by
  induction count generalizing r with
  | zero => exact ⟨[], rfl, nofun, rfl⟩
  | succ count ih =>
    obtain ⟨item, member, drawn⟩ := element_mem filled r
    obtain ⟨chosen, length, members, later⟩ := ih (element items r).2
    refine ⟨item :: chosen, congrArg (· + 1) length, List.forall_mem_cons.mpr ⟨member, members⟩, ?_⟩
    exact congrArg₂ List.cons drawn later

/-- Any two items are chosen one after the other from some state. -/
theorem exists_many_two (few : items.length ≤ 2 ^ 64) {first second : α} (member : first ∈ items)
    (memberToo : second ∈ items) :
    ∃ r, (many (element items) 2 r).1 = [some first, some second] := by
  have filled := List.ne_nil_of_mem member
  obtain ⟨i, inside, rfl⟩ := List.getElem_of_mem member
  obtain ⟨j, insideToo, rfl⟩ := List.getElem_of_mem memberToo
  obtain ⟨g, g', g'', one, two⟩ := Generator.exists_below64 inside insideToo few
  refine ⟨⟨g, false⟩, ?_⟩
  change [(element items ⟨g, false⟩).1, (element items (element items ⟨g, false⟩).2).1] = _
  rw [element_eq filled ⟨g, false⟩, one, element_eq filled, two, List.getElem?_eq_getElem inside,
    List.getElem?_eq_getElem insideToo]

/-! ## Letters -/

def lettersOver (alphabet : String) (length : Nat) (r : Random) : List String :=
  (many (element (clusters alphabet)) length r).1.filterMap id

def Spells (alphabet : String) (length : Nat) (text : String) : Prop :=
  (clusters text).length = length ∧ ∀ letter ∈ clusters text, letter ∈ clusters alphabet

instance : Decidable (Spells alphabet length text) :=
  inferInstanceAs (Decidable (_ ∧ _))

theorem clusters_ne_nil (filled : alphabet ≠ "") : clusters alphabet ≠ [] := by
  intro none
  apply filled
  have empty := clusters_eq_iff.mp none
  rw [← String.toList_eq_nil_iff, ← flatten_clusterChars alphabet.toList, empty]
  rfl

theorem textOver_eq (filled : alphabet ≠ "") (length : Nat) (r : Random) :
    (textOver alphabet length r).1 = String.join (lettersOver alphabet length r) := by
  unfold textOver
  split
  · next none => exact absurd none (clusters_ne_nil filled)
  · rfl

theorem lettersOver_eq (filled : alphabet ≠ "") (length : Nat) (r : Random) :
    (lettersOver alphabet length r).length = length ∧
      ∀ letter ∈ lettersOver alphabet length r, letter ∈ clusters alphabet := by
  obtain ⟨chosen, count, members, drawn⟩ := many_element (clusters_ne_nil filled) length r
  have letters : lettersOver alphabet length r = chosen := by
    rw [lettersOver, drawn, List.filterMap_map]
    exact List.filterMap_some
  rw [letters]
  exact ⟨count, members⟩

theorem exists_lettersOver_two (few : (clusters alphabet).length ≤ 2 ^ 64) {first second : String}
    (member : first ∈ clusters alphabet) (memberToo : second ∈ clusters alphabet) :
    ∃ r, lettersOver alphabet 2 r = [first, second] := by
  obtain ⟨r, drawn⟩ := exists_many_two few member memberToo
  exact ⟨r, by rw [lettersOver, drawn]; rfl⟩

theorem clusters_textOver (filled : alphabet ≠ "") (length : Nat) (r : Random) :
    clusters (textOver alphabet length r).1 = lettersOver alphabet length r ↔
      (lettersOver alphabet length r).IsChain StayApart := by
  rw [textOver_eq filled]
  exact clusters_join (lettersOver_eq filled length r).2

/-! ## Texts as promised -/

/-- A text is so many letters of the alphabet joined, and it is cut into these letters exactly if
each two neighbours stay apart. Every text that is drawn has so many clusters, all of the alphabet,
exactly if each two letters of the alphabet, also one and itself, stay apart. -/
theorem textOver_spells (alphabet : String) (filled : alphabet ≠ "") :
    (∀ length r, (lettersOver alphabet length r).length = length ∧
      (∀ letter ∈ lettersOver alphabet length r, letter ∈ clusters alphabet) ∧
      (textOver alphabet length r).1 = String.join (lettersOver alphabet length r) ∧
      (clusters (textOver alphabet length r).1 = lettersOver alphabet length r ↔
        (lettersOver alphabet length r).IsChain StayApart)) ∧
    ((clusters alphabet).length ≤ 2 ^ 64 →
      ((∀ length r, Spells alphabet length (textOver alphabet length r).1) ↔
        ∀ first ∈ clusters alphabet, ∀ second ∈ clusters alphabet, StayApart first second)) := by
  refine ⟨fun length r => ?_, fun few => ⟨fun spells => ?_, fun apart length r => ?_⟩⟩
  · obtain ⟨count, members⟩ := lettersOver_eq filled length r
    exact ⟨count, members, textOver_eq filled length r, clusters_textOver filled length r⟩
  · apply stayApart_of_pairs
    intro first member second memberToo
    obtain ⟨r, drawn⟩ := exists_lettersOver_two few member memberToo
    have spelled := spells 2 r
    have joined : String.join [first, second] = first ++ second := by
      rw [String.join_cons, String.join_cons, String.join_nil, String.append_empty]
    rwa [textOver_eq filled, drawn, joined] at spelled
  · obtain ⟨count, members⟩ := lettersOver_eq filled length r
    have chain : (lettersOver alphabet length r).IsChain StayApart :=
      (List.pairwise_of_forall_mem_list fun first member second memberToo =>
        apart first (members first member) second (members second memberToo)).isChain
    rw [Spells, (clusters_textOver filled length r).mpr chain]
    exact ⟨count, members⟩

theorem textOver_spells_three : "a\u0301e" ≠ "" ∧
    Spells "a\u0301e" 3 (textOver "a\u0301e" 3 (ofSeed 7)).1 :=
  have filled : "a\u0301e" ≠ "" := by decide
  ⟨filled, ((textOver_spells "a\u0301e" filled).2 (by decide +kernel)).mpr (by decide +kernel) 3 _⟩

/-- A mark and a sign that joins what follows are two letters, but a text of two of them may be a
single cluster. -/
theorem marks_run_together : clusters "\u0301\u0600" = ["\u0301", "\u0600"] ∧
    (textOver "\u0301\u0600" 2 (ofSeed 0)).1 = "\u0600\u0600" ∧
    clusters "\u0600\u0600" = ["\u0600\u0600"] ∧
    ¬ Spells "\u0301\u0600" 2 (textOver "\u0301\u0600" 2 (ofSeed 0)).1 := by
  decide +kernel

/-! ## Letters and digits -/

theorem mem_of_mem_clusters {letter : String} (member : letter ∈ clusters alphabet) {c : Char}
    (within : c ∈ letter.toList) : c ∈ alphabet.toList := by
  rw [clusters, List.mem_map] at member
  obtain ⟨chars, member, rfl⟩ := member
  rw [String.toList_ofList] at within
  rw [← flatten_clusterChars alphabet.toList]
  exact List.mem_flatten.mpr ⟨chars, member, within⟩

theorem alphanumeric_filled : alphanumeric ≠ "" := by decide

theorem length_of_alphanumeric : ∀ letter ∈ clusters alphanumeric, letter.length = 1 := by
  decide +kernel

theorem textOfLength_length (length : Nat) (r : Random) :
    (textOfLength length r).1.length = length := by
  obtain ⟨count, members⟩ := lettersOver_eq alphanumeric_filled length r
  have ones : (lettersOver alphanumeric length r).map String.length = List.replicate length 1 := by
    rw [List.eq_replicate_iff, List.length_map]
    exact ⟨count, List.forall_mem_map.mpr fun letter member =>
      length_of_alphanumeric letter (members letter member)⟩
  rw [textOfLength, textOver_eq alphanumeric_filled, String.length_join, ones, List.sum_replicate_nat]
  exact Nat.mul_one length

theorem mem_textOfLength {c : Char} (member : c ∈ (textOfLength length r).1.toList) :
    c ∈ alphanumeric.toList := by
  rw [textOfLength, textOver_eq alphanumeric_filled, String.toList_join, List.mem_flatMap] at member
  obtain ⟨letter, member, within⟩ := member
  exact mem_of_mem_clusters ((lettersOver_eq alphanumeric_filled length r).2 letter member) within

end NestedSpec.Random
