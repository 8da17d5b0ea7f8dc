import Mathlib.Algebra.Group.Int.Defs
import NestedSpec.Proofs.Spelling

/-!
# Integers in ranges

A draw between two bounds of 64 bits is made with words that wrap around: the number of integers
between the bounds is a word, that is zero if all integers are wanted, and the place that is drawn
is added to the lower bound. None of this leaves the range, and what is drawn is what the draw with
integers gives.
-/

namespace NestedSpec.Random

/-! ## Ranges in words -/

/-- How many integers there are from one to another, as a word. Of all the integers there are too
many, so they count as none. -/
def wordSpan (low high : Int64) : UInt64 := (high - low).toUInt64 + 1

def wordZone (span : UInt64) : UInt64 := (span <<< (63 - span.log2)) - 1

def upperHalf (first second : UInt64) : UInt64 :=
  .ofNat (first.toNat * second.toNat / UInt64.size)

/-- The draw of an integer between two bounds in words, which wrap around. So many words are
refused, and the one after them is taken. -/
inductive DrawsWord (low high : Int64) : Nat → Generator → Int64 → Generator → Prop
  | whole {g : Generator} (all : wordSpan low high = 0) :
      DrawsWord low high 0 g g.next.1.toInt64 g.next.2
  | accepted {g : Generator} (some : wordSpan low high ≠ 0)
      (fits : g.next.1 * wordSpan low high ≤ wordZone (wordSpan low high)) :
      DrawsWord low high 0 g (low + (upperHalf g.next.1 (wordSpan low high)).toInt64) g.next.2
  | refused {g g' : Generator} {count : Nat} {value : Int64} (some : wordSpan low high ≠ 0)
      (late : wordZone (wordSpan low high) < g.next.1 * wordSpan low high)
      (later : DrawsWord low high count g.next.2 value g') :
      DrawsWord low high (count + 1) g value g'

/-! ## The words as integers -/

def between (low high : Int) : Nat := (high - low).toNat + 1

theorem bmod_emod_word (x : Int) : x.bmod (2 ^ 64) % 2 ^ 64 = x % 2 ^ 64 :=
  Int.bmod_emod

theorem toNat_toUInt64 (x : Int64) : (x.toUInt64.toNat : Int) = x.toInt % 2 ^ 64 := by
  have small := x.toBitVec.isLt
  rw [show x.toInt = x.toBitVec.toInt from rfl, BitVec.toInt_eq_toNat_bmod, bmod_emod_word]
  change (x.toBitVec.toNat : Int) = _
  omega

theorem toInt_toInt64 (x : UInt64) : x.toInt64.toInt = (x.toNat : Int).bmod (2 ^ 64) :=
  BitVec.toInt_eq_toNat_bmod _

variable {low high : Int64}

theorem toNat_wordSpan (ordered : low ≤ high) :
    (wordSpan low high).toNat = between low.toInt high.toInt % 2 ^ 64 := by
  have order : low.toInt ≤ high.toInt := Int64.le_iff_toInt_le.mp ordered
  have bottom := low.le_toInt
  have top := high.toInt_lt
  have apart := toNat_toUInt64 (high - low)
  rw [Int64.toInt_sub, bmod_emod_word] at apart
  rw [wordSpan, UInt64.toNat_add, between]
  change ((high - low).toUInt64.toNat + 1) % 2 ^ 64 = _
  omega

theorem toNat_wordZone {span : UInt64} (some : span ≠ 0) :
    (wordZone span).toNat = Generator.zone 64 span.toNat := by
  have positive : span.toNat ≠ 0 := fun none => some (UInt64.toNat_inj.mp none)
  have below : span.toNat.log2 < 64 := (Nat.log2_lt positive).mpr span.toNat_lt
  have places : (63 - span.log2).toNat = 63 - span.toNat.log2 := by
    rw [UInt64.toNat_sub]
    change (2 ^ 64 - span.toNat.log2 + 63) % 2 ^ 64 = _
    omega
  have scaled : span.toNat <<< (63 - span.toNat.log2) < 2 ^ 64 := by
    rw [Nat.shiftLeft_eq]
    calc
      _ < 2 ^ (span.toNat.log2 + 1) * 2 ^ (63 - span.toNat.log2) :=
        Nat.mul_lt_mul_of_pos_right Nat.lt_log2_self (Nat.two_pow_pos _)
      _ = 2 ^ 64 := by rw [← Nat.pow_add]; congr 1; omega
  have reached : 0 < span.toNat <<< (63 - span.toNat.log2) := by
    rw [Nat.shiftLeft_eq]
    exact Nat.mul_pos (Nat.pos_of_ne_zero positive) (Nat.two_pow_pos _)
  have shifted : (span <<< (63 - span.log2)).toNat = span.toNat <<< (63 - span.toNat.log2) := by
    rw [UInt64.toNat_shiftLeft, places, Nat.mod_eq_of_lt (show 63 - span.toNat.log2 < 64 by omega),
      Nat.mod_eq_of_lt scaled]
  rw [wordZone, UInt64.toNat_sub, shifted]
  change (2 ^ 64 - 1 + span.toNat <<< (63 - span.toNat.log2)) % 2 ^ 64 =
    span.toNat <<< (63 - span.toNat.log2) - 1
  generalize span.toNat <<< (63 - span.toNat.log2) = top at scaled reached
  omega

theorem toNat_upperHalf (first second : UInt64) :
    (upperHalf first second).toNat = (first.toNat * second.toNat) >>> 64 := by
  have small : first.toNat * second.toNat / UInt64.size < UInt64.size :=
    Nat.div_lt_of_lt_mul (Nat.mul_lt_mul'' first.toNat_lt second.toNat_lt)
  rw [upperHalf, UInt64.toNat_ofNat_of_lt' small, Nat.shiftRight_eq_div_pow]

/-- Words draw what numbers draw. -/
theorem DrawsWord.takes {count : Nat} {g g' : Generator} {value : Int64} (ordered : low ≤ high)
    (some : wordSpan low high ≠ 0) (draws : DrawsWord low high count g value g') :
    ∃ place, Generator.Takes Generator.next64 64 (between low.toInt high.toInt) count g place g' ∧
      value.toInt = low.toInt + place := by
  have order : low.toInt ≤ high.toInt := Int64.le_iff_toInt_le.mp ordered
  have bottom := low.le_toInt
  have top := high.toInt_lt
  have positive : (wordSpan low high).toNat ≠ 0 := fun none => some (UInt64.toNat_inj.mp none)
  have span : (wordSpan low high).toNat = between low.toInt high.toInt := by
    have modulo := toNat_wordSpan ordered
    have most : between low.toInt high.toInt ≤ 2 ^ 64 := by rw [between]; omega
    omega
  have lower (g : Generator) : (g.next.1 * wordSpan low high).toNat =
      g.next64.1 * between low.toInt high.toInt % 1 <<< 64 := by
    rw [UInt64.toNat_mul, span]
    rfl
  have zone := toNat_wordZone some
  rw [span] at zone
  induction draws with
  | whole all => exact absurd all some
  | @accepted g _ fits =>
    rw [UInt64.le_iff_toNat_le, lower, zone] at fits
    refine ⟨_, .accepted fits, ?_⟩
    have drawn : (upperHalf g.next.1 (wordSpan low high)).toNat =
        (g.next64.1 * between low.toInt high.toInt) >>> 64 := by
      rw [toNat_upperHalf, span]
      rfl
    have filled : 0 < between low.toInt high.toInt := Nat.succ_pos _
    have less := Generator.mul_shiftRight_lt (Generator.next64_lt g) filled
    -- The place is less than the span, so adding it to `low` does not wrap around.
    rw [Int64.toInt_add, toInt_toInt64, Int.add_bmod_bmod, drawn]
    rw [between] at less ⊢
    generalize (g.next64.1 * ((high.toInt - low.toInt).toNat + 1)) >>> 64 = place at less
    exact Int.bmod_eq_of_le (by omega) (by omega)
  | refused _ late _ ih =>
    obtain ⟨place, takes, same⟩ := ih
    rw [UInt64.lt_iff_toNat_lt, lower, zone] at late
    exact ⟨place, .refused late takes, same⟩

/-! ## Bounds of the draws -/

theorem intFrom_eq_lift {low : Int} {count : Nat} (some : count ≠ UInt64.size) (r : Random) :
    intFrom low count r = (low + (r.generator.below64 count).1,
      { r with generator := (r.generator.below64 count).2 }) := by
  rw [intFrom, if_neg some]
  rfl

theorem intFrom_range {count : Nat} (positive : 0 < count) (few : count < UInt64.size) (low : Int)
    (r : Random) : low ≤ (intFrom low count r).1 ∧ (intFrom low count r).1 < low + count := by
  have below : (r.generator.below64 count).1 < count :=
    Generator.belowWithin_lt Generator.next64_lt positive
  rw [intFrom_eq_lift (Nat.ne_of_lt few)]
  dsimp only
  omega

/-- All integers of 64 bits are wanted: each word is one of them. -/
theorem intFrom_size (low : Int) (r : Random) :
    intFrom low UInt64.size r =
      (r.generator.next.1.toInt64.toInt, { r with generator := r.generator.next.2 }) := by
  rw [intFrom, if_pos rfl]
  change ((Int64.ofInt r.generator.next.1.toNat).toInt, _) = _
  rw [Int64.toInt_ofInt, toInt_toInt64]
  rfl

theorem intBetween_comm (a b : Int) : intBetween a b = intBetween b a := by
  rw [intBetween, intBetween, Int.min_comm, Int.max_comm]

theorem intBetween_ordered (order : low.toInt ≤ high.toInt) :
    intBetween low.toInt high.toInt = intFrom low.toInt (between low.toInt high.toInt) := by
  rw [intBetween, Int.min_eq_left order, Int.max_eq_right order, between]

theorem intBetween_range (order : low.toInt ≤ high.toInt) (r : Random) :
    low.toInt ≤ (intBetween low.toInt high.toInt r).1 ∧
      (intBetween low.toInt high.toInt r).1 ≤ high.toInt := by
  have bottom := low.le_toInt
  have top := high.toInt_lt
  have count : between low.toInt high.toInt = (high.toInt - low.toInt).toNat + 1 := rfl
  have size : UInt64.size = 2 ^ 64 := rfl
  rw [intBetween_ordered order]
  by_cases all : between low.toInt high.toInt = UInt64.size
  · rw [all, intFrom_size]
    have least := r.generator.next.1.toInt64.le_toInt
    have most := r.generator.next.1.toInt64.toInt_lt
    dsimp only
    omega
  · have positive : 0 < between low.toInt high.toInt := Nat.succ_pos _
    have few : between low.toInt high.toInt < UInt64.size := by omega
    have range := intFrom_range positive few low.toInt r
    omega

/-- The draw of words is the draw of integers. -/
theorem DrawsWord.intBetween_eq {r : Random} {count : Nat} {g' : Generator} {value : Int64}
    (ordered : low ≤ high) (draws : DrawsWord low high count r.generator value g')
    (within : count ≤ Generator.refusals) :
    intBetween low.toInt high.toInt r = (value.toInt, { r with generator := g' }) := by
  have order : low.toInt ≤ high.toInt := Int64.le_iff_toInt_le.mp ordered
  have bottom := low.le_toInt
  have top := high.toInt_lt
  have size : UInt64.size = 2 ^ 64 := rfl
  have number : between low.toInt high.toInt = (high.toInt - low.toInt).toNat + 1 := rfl
  have span := toNat_wordSpan ordered
  rw [intBetween_ordered order]
  by_cases all : wordSpan low high = 0
  · have whole : between low.toInt high.toInt = UInt64.size := by
      rw [all, UInt64.toNat_zero] at span
      omega
    rw [whole, intFrom_size]
    cases draws with
    | whole => rfl
    | accepted some => exact absurd all some
    | refused some => exact absurd all some
  · have some : between low.toInt high.toInt ≠ UInt64.size := by
      intro whole
      rw [whole, size] at span
      exact all (UInt64.toNat_inj.mp span)
    obtain ⟨place, takes, same⟩ := draws.takes ordered all
    have drawn : r.generator.below64 (between low.toInt high.toInt) = (place, g') :=
      takes.belowWithin_eq within
    rw [intFrom_eq_lift some, drawn, same]

theorem DrawsWord.range {count : Nat} {g g' : Generator} {value : Int64} (ordered : low ≤ high)
    (draws : DrawsWord low high count g value g') : low ≤ value ∧ value ≤ high := by
  have order : low.toInt ≤ high.toInt := Int64.le_iff_toInt_le.mp ordered
  have bottom := low.le_toInt
  have top := high.toInt_lt
  rw [Int64.le_iff_toInt_le, Int64.le_iff_toInt_le]
  by_cases all : wordSpan low high = 0
  · have span := toNat_wordSpan ordered
    have number : between low.toInt high.toInt = (high.toInt - low.toInt).toNat + 1 := rfl
    rw [all, UInt64.toNat_zero] at span
    have least := value.le_toInt
    have most := value.toInt_lt
    omega
  · obtain ⟨place, takes, same⟩ := draws.takes ordered all
    have below := takes.value_lt Generator.next64_lt (Nat.succ_pos _)
    have number : between low.toInt high.toInt = (high.toInt - low.toInt).toNat + 1 := rfl
    omega

/-! ## The draws stay in range -/

def inOrder (a b : Int64) : Int64 × Int64 :=
  if a ≤ b then (a, b) else (b, a)

theorem inOrder_le (a b : Int64) : (inOrder a b).1 ≤ (inOrder a b).2 := by
  rw [inOrder]
  split
  · next order => exact order
  · next order => exact Int64.le_of_lt (Int64.not_le.mp order)

theorem toInt_inOrder (a b : Int64) : (inOrder a b).1.toInt = min a.toInt b.toInt ∧
    (inOrder a b).2.toInt = max a.toInt b.toInt := by
  rw [inOrder]
  split
  · next order =>
    rw [Int64.le_iff_toInt_le] at order
    exact ⟨(Int.min_eq_left order).symm, (Int.max_eq_right order).symm⟩
  · next order =>
    rw [Int64.le_iff_toInt_le, Int.not_le] at order
    exact ⟨(Int.min_eq_right (Int.le_of_lt order)).symm, (Int.max_eq_left (Int.le_of_lt order)).symm⟩

theorem intBetween_inOrder (a b : Int64) :
    intBetween a.toInt b.toInt = intBetween (inOrder a b).1.toInt (inOrder a b).2.toInt := by
  rw [inOrder]
  split
  · rfl
  · exact intBetween_comm ..

theorem intBetween_mem (a b : Int64) (r : Random) :
    min a.toInt b.toInt ≤ (intBetween a.toInt b.toInt r).1 ∧
      (intBetween a.toInt b.toInt r).1 ≤ max a.toInt b.toInt := by
  obtain ⟨low, high⟩ := toInt_inOrder a b
  rw [intBetween_inOrder, ← low, ← high]
  exact intBetween_range (Int64.le_iff_toInt_le.mp (inOrder_le a b)) r

theorem toInt_pred {n : Int64} (positive : 0 < n) : (n - 1).toInt = n.toInt - 1 := by
  have least : (0 : Int64).toInt < n.toInt := Int64.lt_iff_toInt_lt.mp positive
  have zero : (0 : Int64).toInt = 0 := rfl
  have one : (1 : Int64).toInt = 1 := rfl
  have top := n.toInt_lt
  rw [Int64.toInt_sub, one]
  exact Int.bmod_eq_of_le (by omega) (by omega)

theorem intBelow_eq {n : Int64} (positive : 0 < n) (r : Random) :
    intBelow n.toInt r = (.ok (intBetween (0 : Int64).toInt (n - 1).toInt r).1,
      (intBetween (0 : Int64).toInt (n - 1).toInt r).2) := by
  have least : (0 : Int64).toInt < n.toInt := Int64.lt_iff_toInt_lt.mp positive
  have zero : (0 : Int64).toInt = 0 := rfl
  have order : (0 : Int64).toInt ≤ (n - 1).toInt := by
    rw [toInt_pred positive]
    omega
  have count : n.toInt.toNat = between (0 : Int64).toInt (n - 1).toInt := by
    rw [between, toInt_pred positive]
    omega
  rw [intBelow, if_pos (by omega), intBetween_ordered order, count]
  rfl

theorem intBelow_range {n : Int64} (positive : 0 < n) (r : Random) :
    ∃ value later, intBetween (0 : Int64).toInt (n - 1).toInt r = (value, later) ∧
      intBelow n.toInt r = (.ok value, later) ∧ 0 ≤ value ∧ value < n.toInt := by
  have order : (0 : Int64).toInt ≤ (n - 1).toInt := by
    have least : (0 : Int64).toInt < n.toInt := Int64.lt_iff_toInt_lt.mp positive
    rw [toInt_pred positive]
    omega
  obtain ⟨least, most⟩ := intBetween_range order r
  have less : (intBetween (0 : Int64).toInt (n - 1).toInt r).1 < n.toInt :=
    Int.lt_of_le_sub_one (toInt_pred positive ▸ most)
  exact ⟨_, _, rfl, intBelow_eq positive r, least, less⟩

theorem intBelow_refused {n : Int64} (none : n ≤ 0) (r : Random) : intBelow n.toInt r =
    (.error ("int_n requires a positive upper bound, got " ++ toString n.toInt), r) := by
  have least : n.toInt ≤ 0 := Int64.le_iff_toInt_le.mp none
  rw [intBelow, if_neg (Int.not_lt.mpr least)]

theorem length_anyText (r : Random) : 4 ≤ (anyText r).1.length ∧ (anyText r).1.length ≤ 42 := by
  obtain ⟨least, most⟩ := intBetween_mem 4 42 r
  change 4 ≤ (textOfLength (intBetween 4 42 r).1.toNat (intBetween 4 42 r).2).1.length ∧
    (textOfLength (intBetween 4 42 r).1.toNat (intBetween 4 42 r).2).1.length ≤ 42
  rw [textOfLength_length]
  change 4 ≤ (intBetween 4 42 r).1 at least
  change (intBetween 4 42 r).1 ≤ 42 at most
  omega

/-- Whatever the state, the integers that are drawn are in their ranges, and so is what the draw
with words gives after any number of refused words; a bound that is not positive is complained of
and nothing is drawn. A text has from 4 to 42 letters and digits. -/
theorem draws_stay_in_range (r : Random) :
    (int r = intBetween (0 : Int64).toInt (Int64.maxValue - 1).toInt r ∧
      0 ≤ (int r).1 ∧ (int r).1 < Int64.maxValue.toInt) ∧
    (∀ n : Int64,
      (0 < n → ∃ value later, intBetween (0 : Int64).toInt (n - 1).toInt r = (value, later) ∧
        intBelow n.toInt r = (.ok value, later) ∧ 0 ≤ value ∧ value < n.toInt) ∧
      (n ≤ 0 → intBelow n.toInt r =
        (.error ("int_n requires a positive upper bound, got " ++ toString n.toInt), r))) ∧
    (∀ a b : Int64, min a.toInt b.toInt ≤ (intBetween a.toInt b.toInt r).1 ∧
      (intBetween a.toInt b.toInt r).1 ≤ max a.toInt b.toInt) ∧
    (∀ (a b : Int64) (count : Nat) (value : Int64) (g' : Generator),
      DrawsWord (inOrder a b).1 (inOrder a b).2 count r.generator value g' →
        min a.toInt b.toInt ≤ value.toInt ∧ value.toInt ≤ max a.toInt b.toInt ∧
        (count ≤ Generator.refusals →
          intBetween a.toInt b.toInt r = (value.toInt, { r with generator := g' }))) ∧
    (4 ≤ (anyText r).1.length ∧ (anyText r).1.length ≤ 42 ∧
      ∀ c ∈ (anyText r).1.toList, c ∈ alphanumeric.toList) := by
  refine ⟨⟨rfl, ?_⟩, fun n => ⟨fun positive => ?_, fun none => ?_⟩, fun a b => ?_, ?_, ?_⟩
  · have order : (0 : Int64).toInt ≤ (Int64.maxValue - 1).toInt := by decide
    obtain ⟨least, most⟩ := intBetween_range order r
    exact ⟨least, Int.lt_of_le_of_lt most (by decide)⟩
  · exact intBelow_range positive r
  · exact intBelow_refused none r
  · exact intBetween_mem a b r
  · intro a b count value g' draws
    obtain ⟨low, high⟩ := toInt_inOrder a b
    obtain ⟨least, most⟩ := draws.range (inOrder_le a b)
    rw [← low, ← high, intBetween_inOrder]
    exact ⟨Int64.le_iff_toInt_le.mp least, Int64.le_iff_toInt_le.mp most,
      draws.intBetween_eq (inOrder_le a b)⟩
  · exact ⟨(length_anyText r).1, (length_anyText r).2, fun _ => mem_textOfLength⟩

end NestedSpec.Random
