import Mathlib.Algebra.Group.Nat.Defs
import NestedSpec.Random

/-!
# Numbers below a bound

A number below a bound is the upper half of the product of the bound and a word, and words are
refused until one fits. Whatever words come, the number is below the bound; every number below it
is drawn from some state of the generator, since there is a state for every two words.
-/

namespace NestedSpec.Generator

variable {word : Generator → Nat × Generator} {width bound count tries value place : Nat}
  {g g' : Generator}

/-- The draw of a number below a bound without a limit to its tries: so many words are refused, and
the one after them is taken. -/
inductive Takes (word : Generator → Nat × Generator) (width bound : Nat) :
    Nat → Generator → Nat → Generator → Prop
  | accepted {g : Generator} (fits : (word g).1 * bound % 1 <<< width ≤ zone width bound) :
      Takes word width bound 0 g (((word g).1 * bound) >>> width) (word g).2
  | refused {g g' : Generator} {count value : Nat}
      (late : zone width bound < (word g).1 * bound % 1 <<< width)
      (later : Takes word width bound count (word g).2 value g') :
      Takes word width bound (count + 1) g value g'

/-! ## What is drawn is below the bound -/

theorem mul_shiftRight_lt (small : value < 2 ^ width) (positive : 0 < bound) :
    (value * bound) >>> width < bound := by
  rw [Nat.shiftRight_eq_div_pow, Nat.div_lt_iff_lt_mul (Nat.two_pow_pos width), Nat.mul_comm bound]
  exact Nat.mul_lt_mul_of_pos_right small positive

theorem next64_lt (g : Generator) : g.next64.1 < 2 ^ 64 :=
  g.next.1.toNat_lt

theorem next128_lt (g : Generator) : g.next128.1 < 2 ^ 128 := by
  have low : g.next64.1 < UInt64.size := next64_lt g
  have high : g.next64.2.next64.1 < UInt64.size := next64_lt g.next64.2
  change g.next64.2.next64.1 * UInt64.size + g.next64.1 < 2 ^ 128
  calc
    _ < (g.next64.2.next64.1 + 1) * UInt64.size := by rw [Nat.succ_mul]; omega
    _ ≤ UInt64.size * UInt64.size := Nat.mul_le_mul_right _ high
    _ = 2 ^ 128 := rfl

theorem Takes.value_lt (takes : Takes word width bound count g value g')
    (small : ∀ g, (word g).1 < 2 ^ width) (positive : 0 < bound) : value < bound := by
  induction takes with
  | accepted => exact mul_shiftRight_lt (small _) positive
  | refused _ _ ih => exact ih

theorem belowWithin_lt (small : ∀ g, (word g).1 < 2 ^ width) (positive : 0 < bound) :
    (belowWithin word width bound tries g).1 < bound := by
  induction tries generalizing g with
  | zero => exact mul_shiftRight_lt (small g) positive
  | succ tries ih =>
    rw [belowWithin]
    dsimp only
    split
    · exact mul_shiftRight_lt (small g) positive
    · exact ih

/-- The limit to the tries makes no difference to a draw that ends within it. -/
theorem Takes.belowWithin_eq (takes : Takes word width bound count g value g')
    (within : count ≤ tries) : belowWithin word width bound tries g = (value, g') := by
  induction takes generalizing tries with
  | accepted fits =>
    cases tries with
    | zero => rfl
    | succ tries =>
      rw [belowWithin]
      exact if_pos fits
  | refused late _ ih =>
    cases tries with
    | zero => exact absurd within (Nat.not_succ_le_zero _)
    | succ tries =>
      rw [belowWithin]
      exact (if_neg (Nat.not_le.mpr late)).trans (ih (Nat.le_of_succ_le_succ within))

/-! ## Every number below a bound is drawn for some word -/

theorem le_zone (width : Nat) (positive : 0 < bound) : bound - 1 ≤ zone width bound := by
  rw [zone, Nat.shiftLeft_eq]
  have scaled : bound * 1 ≤ bound * 2 ^ (width - 1 - Nat.log2 bound) :=
    Nat.mul_le_mul_left _ (Nat.two_pow_pos _)
  omega

def wordFor (width bound place : Nat) : Nat :=
  (place * 2 ^ width + (bound - 1)) / bound

theorem wordFor_mul (width : Nat) (positive : 0 < bound) (place : Nat) :
    ∃ rest < bound, wordFor width bound place * bound = place * 2 ^ width + rest := by
  have whole := Nat.div_add_mod (place * 2 ^ width + (bound - 1)) bound
  have rest := Nat.mod_lt (place * 2 ^ width + (bound - 1)) positive
  refine ⟨bound - 1 - (place * 2 ^ width + (bound - 1)) % bound, by omega, ?_⟩
  rw [wordFor, Nat.mul_comm]
  omega

theorem wordFor_lt (below : place < bound) (fits : bound ≤ 2 ^ width) :
    wordFor width bound place < 2 ^ width := by
  have positive : 0 < bound := Nat.zero_lt_of_lt below
  obtain ⟨rest, small, product⟩ := wordFor_mul width positive place
  have less : wordFor width bound place * bound < 2 ^ width * bound := by
    calc
      _ = place * 2 ^ width + rest := product
      _ < (place + 1) * 2 ^ width := by rw [Nat.succ_mul]; omega
      _ ≤ bound * 2 ^ width := Nat.mul_le_mul_right _ below
      _ = 2 ^ width * bound := Nat.mul_comm ..
  exact Nat.lt_of_mul_lt_mul_right less

theorem takes_of_wordFor (below : place < bound) (fits : bound ≤ 2 ^ width)
    (drawn : (word g).1 = wordFor width bound place) :
    Takes word width bound 0 g place (word g).2 := by
  have positive : 0 < bound := Nat.zero_lt_of_lt below
  obtain ⟨rest, small, product⟩ := wordFor_mul width positive place
  have room : rest < 2 ^ width := Nat.lt_of_lt_of_le small fits
  have lower : (word g).1 * bound % 1 <<< width = rest := by
    rw [drawn, product, Nat.one_shiftLeft, Nat.add_comm, Nat.add_mul_mod_self_right,
      Nat.mod_eq_of_lt room]
  have upper : ((word g).1 * bound) >>> width = place := by
    rw [drawn, product, Nat.shiftRight_eq_div_pow, Nat.add_comm,
      Nat.add_mul_div_right _ _ (Nat.two_pow_pos width), Nat.div_eq_of_lt room, Nat.zero_add]
  have inZone : rest ≤ zone width bound :=
    Nat.le_trans (by omega) (le_zone width positive)
  have takes : Takes word width bound 0 g (((word g).1 * bound) >>> width) (word g).2 :=
    .accepted (lower ▸ inZone)
  rwa [upper] at takes

/-! ## Every two words come from some state -/

theorem rotateLeft_rotateLeft (x : UInt64) : rotateLeft (rotateLeft x 57) 7 = x := by
  apply UInt64.eq_of_toBitVec_eq
  apply BitVec.eq_of_getLsbD_eq
  intro i inside
  have beyond : x.toBitVec.getLsbD (7 + (57 + i)) = false := BitVec.getLsbD_of_ge _ _ (by omega)
  by_cases low : i < 7
  · simp [rotateLeft, inside, low, beyond, show 57 + i < 64 by omega]
  · simp [rotateLeft, inside, low, beyond, show i - 7 < 57 by omega,
      show 7 + (i - 7) = i by omega, show ¬ 57 + i < 64 by omega]

def secondFor (word : UInt64) : UInt64 :=
  rotateLeft (word * 0x8e38e38e38e38e39) 57 * 0xcccccccccccccccd

/-- The factors are the inverses of those by which a word is made. -/
theorem word_secondFor (word : UInt64) : rotateLeft (secondFor word * 5) 7 * 9 = word := by
  have five : (0xcccccccccccccccd * 5 : UInt64) = 1 := by decide
  have nine : (0x8e38e38e38e38e39 * 9 : UInt64) = 1 := by decide
  rw [secondFor, UInt64.mul_assoc, five, UInt64.mul_one, rotateLeft_rotateLeft, UInt64.mul_assoc,
    nine, UInt64.mul_one]

theorem exists_next_next (first second : UInt64) :
    ∃ g : Generator, g.next.1 = first ∧ g.next.2.next.1 = second := by
  refine ⟨⟨0, secondFor first, secondFor first ^^^ secondFor second, 1⟩, word_secondFor first, ?_⟩
  have turned : secondFor first ^^^ (secondFor first ^^^ secondFor second ^^^ 0) =
      secondFor second := by
    rw [UInt64.xor_zero, ← UInt64.xor_assoc, UInt64.xor_self, UInt64.zero_xor]
  change rotateLeft
    ((secondFor first ^^^ (secondFor first ^^^ secondFor second ^^^ 0)) * 5) 7 * 9 = second
  rw [turned, word_secondFor]

/-- Any two numbers below a bound are drawn one after the other from some state. -/
theorem exists_below64 {second : Nat} (below : place < bound) (belowToo : second < bound)
    (fits : bound ≤ 2 ^ 64) : ∃ g g' g'' : Generator,
      g.below64 bound = (place, g') ∧ g'.below64 bound = (second, g'') := by
  obtain ⟨g, one, two⟩ := exists_next_next (.ofNat (wordFor 64 bound place))
    (.ofNat (wordFor 64 bound second))
  have first : g.next64.1 = wordFor 64 bound place := by
    change g.next.1.toNat = _
    rw [one, UInt64.toNat_ofNat_of_lt' (wordFor_lt below fits)]
  have later : g.next64.2.next64.1 = wordFor 64 bound second := by
    change g.next.2.next.1.toNat = _
    rw [two, UInt64.toNat_ofNat_of_lt' (wordFor_lt belowToo fits)]
  exact ⟨g, g.next64.2, g.next64.2.next64.2,
    (takes_of_wordFor below fits first).belowWithin_eq (Nat.zero_le _),
    (takes_of_wordFor belowToo fits later).belowWithin_eq (Nat.zero_le _)⟩

theorem exists_below128 (below : place < bound) (fits : bound ≤ 2 ^ 128) :
    ∃ g g' : Generator, g.below128 bound = (place, g') := by
  have room := wordFor_lt below fits
  obtain ⟨g, low, high⟩ := exists_next_next (.ofNat (wordFor 128 bound place % 2 ^ 64))
    (.ofNat (wordFor 128 bound place / 2 ^ 64))
  have lower : (UInt64.ofNat (wordFor 128 bound place % 2 ^ 64)).toNat =
      wordFor 128 bound place % 2 ^ 64 :=
    UInt64.toNat_ofNat_of_lt' (Nat.mod_lt _ (Nat.two_pow_pos 64))
  have upper : (UInt64.ofNat (wordFor 128 bound place / 2 ^ 64)).toNat =
      wordFor 128 bound place / 2 ^ 64 :=
    UInt64.toNat_ofNat_of_lt' (Nat.div_lt_of_lt_mul room)
  have drawn : g.next128.1 = wordFor 128 bound place := by
    change g.next.2.next.1.toNat * 2 ^ 64 + g.next.1.toNat = _
    rw [low, high, lower, upper]
    exact Nat.div_add_mod' ..
  exact ⟨g, g.next128.2, (takes_of_wordFor below fits drawn).belowWithin_eq (Nat.zero_le _)⟩

end NestedSpec.Generator
