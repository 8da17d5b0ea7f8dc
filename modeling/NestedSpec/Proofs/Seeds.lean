import NestedSpec.Config
import NestedSpec.Proofs.Integers

/-!
# Texts of seeds

A seed is read by two readers of integers, one without a sign and one with a sign, which have limits
of their own. Together they read every integer that fits into 64 bits in one of the two ways, and
nothing else.
-/

namespace NestedSpec

open Text

def IsNumeral (digits : List Char) : Prop := digits ≠ [] ∧ ∀ c ∈ digits, c.isDigit = true

inductive Spells : List Char → Int → Prop
  | plain {digits : List Char} (numeral : IsNumeral digits) :
    Spells digits (Nat.ofDigitChars 10 digits 0)
  | plus {digits : List Char} (numeral : IsNumeral digits) :
    Spells ('+' :: digits) (Nat.ofDigitChars 10 digits 0)
  | minus {digits : List Char} (numeral : IsNumeral digits) :
    Spells ('-' :: digits) (-(Nat.ofDigitChars 10 digits 0 : Nat))

theorem digitValue?_eq (c : Char) :
    digitValue? c = if c.isDigit = true then some (c.toNat - '0'.toNat) else none := by
  simp only [digitValue?, Char.isDigit, Char.le_def, Bool.and_eq_true, decide_eq_true_eq, ge_iff_le]

theorem le_ofDigitChars (digits : List Char) (start : Nat) :
    start ≤ Nat.ofDigitChars 10 digits start := by
  induction digits generalizing start with
  | nil => simp
  | cons c rest ih =>
    rw [Nat.ofDigitChars_cons]
    have := ih (10 * start + (c.toNat - '0'.toNat))
    omega

theorem readDigits_eq_ok_iff {limit start value : Nat} {overflow : IntegerError}
    {digits : List Char} (fits : start ≤ limit) :
    readDigits limit overflow start digits = .ok value ↔
      (∀ c ∈ digits, c.isDigit = true) ∧ Nat.ofDigitChars 10 digits start = value ∧
        value ≤ limit := by
  induction digits generalizing start with
  | nil =>
    simp only [readDigits, Except.ok.injEq, Nat.ofDigitChars_nil, List.not_mem_nil, false_imp_iff,
      implies_true, true_and]
    exact ⟨fun same => ⟨same, same ▸ fits⟩, fun same => same.1⟩
  | cons c rest ih =>
    rw [readDigits, digitValue?_eq, Nat.ofDigitChars_cons, List.forall_mem_cons]
    split
    case h_1 unread =>
      have digit : ¬ c.isDigit = true := by
        intro digit
        simp [digit] at unread
      simp [digit]
    case h_2 digit read =>
      obtain ⟨isDigit, rfl⟩ : c.isDigit = true ∧ c.toNat - '0'.toNat = digit := by
        simpa using read
      dsimp only
      split
      case isTrue beyond =>
        have grows := le_ofDigitChars rest (10 * start + (c.toNat - '0'.toNat))
        simp only [reduceCtorEq, false_iff]
        rintro ⟨-, rfl, bound⟩
        omega
      case isFalse within =>
        simpa only [isDigit, true_and] using ih (Nat.not_lt.mp within)

theorem readNumeral_eq_ok_iff {limit value : Nat} {overflow : IntegerError} {digits : List Char}
    (filled : digits ≠ []) :
    readDigits limit overflow 0 digits = .ok value ↔
      IsNumeral digits ∧ Nat.ofDigitChars 10 digits 0 = value ∧ value ≤ limit := by
  rw [readDigits_eq_ok_iff (Nat.zero_le limit), IsNumeral, and_iff_right filled]

namespace Spells

variable {digits : List Char} {n : Int}

theorem plus_iff :
    Spells ('+' :: digits) n ↔ IsNumeral digits ∧ (Nat.ofDigitChars 10 digits 0 : Int) = n := by
  constructor
  · intro spells
    cases spells with
    | plain numeral => exact absurd (numeral.2 '+' List.mem_cons_self) (by decide)
    | plus numeral => exact ⟨numeral, rfl⟩
  · rintro ⟨numeral, rfl⟩
    exact plus numeral

theorem minus_iff :
    Spells ('-' :: digits) n ↔ IsNumeral digits ∧ -(Nat.ofDigitChars 10 digits 0 : Int) = n := by
  constructor
  · intro spells
    cases spells with
    | plain numeral => exact absurd (numeral.2 '-' List.mem_cons_self) (by decide)
    | minus numeral => exact ⟨numeral, rfl⟩
  · rintro ⟨numeral, rfl⟩
    exact minus numeral

theorem unsigned_iff (noPlus : digits.head? ≠ some '+') (noMinus : digits.head? ≠ some '-') :
    Spells digits n ↔ IsNumeral digits ∧ (Nat.ofDigitChars 10 digits 0 : Int) = n := by
  constructor
  · intro spells
    cases spells with
    | plain numeral => exact ⟨numeral, rfl⟩
    | plus numeral => exact absurd rfl noPlus
    | minus numeral => exact absurd rfl noMinus
  · rintro ⟨numeral, rfl⟩
    exact plain numeral

theorem not_nil : ¬ Spells [] n := by
  intro spells
  cases spells with
  | plain numeral => exact numeral.1 rfl

/-- A text is that of one integer at most. -/
theorem unique {chars : List Char} {m : Int} (first : Spells chars n) (second : Spells chars m) :
    n = m := by
  cases first with
  | plain numeral =>
    have notSign (c : Char) (sign : c.isDigit = false) : chars.head? ≠ some c := by
      intro starts
      have := numeral.2 c (List.mem_of_mem_head? starts)
      simp [sign] at this
    exact ((unsigned_iff (notSign '+' rfl) (notSign '-' rfl)).mp second).2
  | plus numeral => exact (plus_iff.mp second).2
  | minus numeral => exact (minus_iff.mp second).2

theorem toString_nat (n : Nat) : Spells (toString n).toList n := by
  have numeral : IsNumeral (Nat.toDigits 10 n) :=
    ⟨Nat.toDigits_ne_nil,
      fun c member => Nat.isDigit_of_mem_toDigits (by decide) (by decide) member⟩
  have spells := plain numeral
  rwa [Nat.ofDigitChars_toDigits (by decide) (by decide), ← Nat.toList_repr] at spells

theorem toString_int (n : Int) : Spells (toString n).toList n := by
  cases n with
  | ofNat n => exact toString_nat n
  | negSucc n =>
    have numeral : IsNumeral (Nat.toDigits 10 n.succ) :=
      ⟨Nat.toDigits_ne_nil,
        fun c member => Nat.isDigit_of_mem_toDigits (by decide) (by decide) member⟩
    have spells := minus numeral
    rw [Nat.ofDigitChars_toDigits (by decide) (by decide), ← Nat.toList_repr] at spells
    have shown : (toString (Int.negSucc n)).toList = '-' :: n.succ.repr.toList := by
      rw [Int.toString_eq_repr, Int.repr, String.toList_append]
      rfl
    rw [shown]
    exact spells

end Spells

theorem head?_ne_some {chars : List Char} {c : Char} (other : ∀ rest, chars = c :: rest → False) :
    chars.head? ≠ some c := by
  cases chars with
  | nil => simp
  | cons first rest =>
    rintro ⟨rfl⟩
    exact other rest rfl

theorem IsNumeral.head?_ne {digits : List Char} (numeral : IsNumeral digits) {c : Char}
    (mark : c.isDigit = false) : digits.head? ≠ some c := by
  intro starts
  rw [numeral.2 c (List.mem_of_mem_head? starts)] at mark
  cases mark

theorem readUnsigned_eq_ok_iff {chars : List Char} {value : Nat} :
    readUnsigned chars = .ok value ↔
      Spells chars value ∧ value < 2 ^ 64 ∧ chars.head? ≠ some '-' := by
  have bound : value ≤ UInt64.size - 1 ↔ value < 2 ^ 64 := Nat.le_sub_one_iff_lt (by decide)
  unfold readUnsigned
  split
  case h_1 => simp [Spells.not_nil]
  case h_2 => simp [Spells.plus_iff, IsNumeral]
  case h_3 => simp
  case h_4 digits several =>
    rw [readNumeral_eq_ok_iff several, bound, Spells.plus_iff, Int.natCast_inj, and_assoc]
    simp
  case h_5 several _ _ noPlus =>
    rw [readNumeral_eq_ok_iff several, bound]
    constructor
    · rintro ⟨numeral, rfl, small⟩
      exact ⟨.plain numeral, small, numeral.head?_ne rfl⟩
    · rintro ⟨spells, small, noMinus⟩
      rw [Spells.unsigned_iff (head?_ne_some noPlus) noMinus, Int.natCast_inj] at spells
      exact ⟨spells.1, spells.2, small⟩

theorem map_readNumeral_eq_ok_iff {limit : Nat} {overflow : IntegerError} {digits : List Char}
    {f : Nat → Int} {n : Int} (filled : digits ≠ []) :
    (readDigits limit overflow 0 digits).map f = .ok n ↔
      IsNumeral digits ∧ f (Nat.ofDigitChars 10 digits 0) = n ∧
        Nat.ofDigitChars 10 digits 0 ≤ limit := by
  have mapped : (readDigits limit overflow 0 digits).map f = .ok n ↔
      ∃ value, readDigits limit overflow 0 digits = .ok value ∧ f value = n := by
    cases readDigits limit overflow 0 digits <;> simp [Except.map]
  rw [mapped]
  constructor
  · rintro ⟨value, read, rfl⟩
    obtain ⟨numeral, rfl, small⟩ := (readNumeral_eq_ok_iff filled).mp read
    exact ⟨numeral, rfl, small⟩
  · rintro ⟨numeral, rfl, small⟩
    exact ⟨_, (readNumeral_eq_ok_iff filled).mpr ⟨numeral, rfl, small⟩, rfl⟩

theorem readSigned_eq_ok_iff {chars : List Char} {n : Int} :
    readSigned chars = .ok n ↔ Spells chars n ∧ -2 ^ 63 ≤ n ∧ n < 2 ^ 63 := by
  have half : UInt64.size / 2 = 2 ^ 63 := by decide
  have upTo (value : Nat) : (Int.ofNat value = n ∧ value ≤ 2 ^ 63 - 1) ↔
      (value : Int) = n ∧ -2 ^ 63 ≤ n ∧ n < 2 ^ 63 := by
    rw [Int.ofNat_eq_natCast]
    omega
  have downTo (value : Nat) : (-(value : Int) = n ∧ value ≤ 2 ^ 63) ↔
      -(value : Int) = n ∧ -2 ^ 63 ≤ n ∧ n < 2 ^ 63 := by
    omega
  unfold readSigned
  rw [half]
  split
  case h_1 => simp [Spells.not_nil]
  case h_2 => simp [Spells.plus_iff, IsNumeral]
  case h_3 => simp [Spells.minus_iff, IsNumeral]
  case h_4 digits several =>
    rw [map_readNumeral_eq_ok_iff several, Spells.plus_iff, upTo, and_assoc]
  case h_5 digits several =>
    have negated : (Except.map (fun n => -n) do
        let value ← readDigits (2 ^ 63) .tooSmall 0 digits
        pure (value : Int)) =
        (readDigits (2 ^ 63) .tooSmall 0 digits).map fun value : Nat => -(value : Int) := by
      cases readDigits (2 ^ 63) .tooSmall 0 digits <;> rfl
    rw [negated, map_readNumeral_eq_ok_iff several, Spells.minus_iff, downTo, and_assoc]
  case h_6 several _ _ noPlus noMinus =>
    rw [map_readNumeral_eq_ok_iff several, upTo,
      Spells.unsigned_iff (head?_ne_some noPlus) (head?_ne_some noMinus), and_assoc]

namespace Spells

variable {chars : List Char} {n : Int}

theorem ne_nil (spells : Spells chars n) : chars ≠ [] := by
  rintro rfl
  exact not_nil spells

theorem nonpos (spells : Spells chars n) (starts : chars.head? = some '-') : n ≤ 0 := by
  cases spells with
  | plain numeral => exact absurd starts (numeral.head?_ne rfl)
  | plus numeral => cases starts
  | minus numeral => omega

theorem not_blank (spells : Spells chars n) : ∀ c ∈ chars, isBlank c = false := by
  have digit (c : Char) (isDigit : c.isDigit = true) : isBlank c = false := by
    simp only [Char.isDigit, Bool.and_eq_true, decide_eq_true_eq, ge_iff_le,
      UInt32.le_iff_toNat_le] at isDigit
    have low : 48 ≤ c.toNat := isDigit.1
    have high : c.toNat ≤ 57 := isDigit.2
    simp [isBlank]
    omega
  cases spells with
  | plain numeral => exact fun c member => digit c (numeral.2 c member)
  | plus numeral =>
    exact List.forall_mem_cons.mpr ⟨rfl, fun c member => digit c (numeral.2 c member)⟩
  | minus numeral =>
    exact List.forall_mem_cons.mpr ⟨rfl, fun c member => digit c (numeral.2 c member)⟩

end Spells

def SpellsPadded (raw : String) (n : Int) : Prop :=
  ∃ front core back, raw.toList = front ++ core ++ back ∧ (∀ c ∈ front, isBlank c = true) ∧
    (∀ c ∈ back, isBlank c = true) ∧ Spells core n

theorem spellsPadded_iff {raw : String} {n : Int} :
    SpellsPadded raw n ↔ Spells (trimBlank raw.toList) n := by
  constructor
  · rintro ⟨front, core, back, parts, blankFront, blankBack, spells⟩
    have first : ∀ c ∈ core.head?, isBlank c = false := fun c starts =>
      spells.not_blank c (List.mem_of_mem_head? starts)
    have last : ∀ c ∈ core.getLast?, isBlank c = false := fun c ends =>
      spells.not_blank c (List.mem_of_mem_getLast? ends)
    rwa [parts, trimBlank_padded blankFront blankBack first last spells.ne_nil]
  · intro spells
    obtain ⟨front, back, parts, blankFront, blankBack⟩ := exists_padded raw.toList
    exact ⟨front, _, back, parts, blankFront, blankBack, spells⟩

theorem SpellsPadded.of_spells {text : String} {n : Int} (spells : Spells text.toList n) :
    SpellsPadded text n :=
  ⟨[], text.toList, [], by simp, by simp, by simp, spells⟩

theorem toNat_ofInt (n : Int) : ((UInt64.ofInt n).toNat : Int) = n % 2 ^ 64 := by
  have low : 0 ≤ n % 2 ^ 64 := Int.emod_nonneg n (by decide)
  have high : n % 2 ^ 64 < 2 ^ 64 := Int.emod_lt_of_pos n (by decide)
  rw [UInt64.ofInt, UInt64.toNat_ofNat']
  omega

theorem eq_ofInt_iff {seed : UInt64} {n : Int} :
    seed = .ofInt n ↔ (seed.toNat : Int) = n % 2 ^ 64 := by
  rw [← toNat_ofInt, Int.natCast_inj, UInt64.toNat_inj]

/-- A seed that is read is the one integer of 64 bits, unsigned or signed, that the text is. -/
theorem parseSeed_eq_ok_iff {raw : String} {seed : UInt64} :
    parseSeed raw = .ok seed ↔
      ∃ n, SpellsPadded raw n ∧ -2 ^ 63 ≤ n ∧ n < 2 ^ 64 ∧ (seed.toNat : Int) = n % 2 ^ 64 := by
  simp only [spellsPadded_iff, ← eq_ofInt_iff]
  rw [parseSeed]
  generalize trimBlank raw.toList = chars
  cases unsigned : readUnsigned chars with
  | ok value =>
    obtain ⟨spells, small, -⟩ := readUnsigned_eq_ok_iff.mp unsigned
    simp only [Except.ok.injEq]
    constructor
    · rintro rfl
      refine ⟨value, spells, by omega, by omega, ?_⟩
      rw [eq_ofInt_iff, UInt64.toNat_ofNat']
      rfl
    · rintro ⟨n, spells', -, -, rfl⟩
      obtain rfl := spells.unique spells'
      rw [eq_ofInt_iff, UInt64.toNat_ofNat']
      rfl
  | error reason =>
    -- A number beyond the signed limit has no minus, so the unsigned reader would have taken it.
    have small {n : Int} (spells : Spells chars n) (fits : n < 2 ^ 64) : n < 2 ^ 63 := by
      by_contra large
      obtain ⟨value, rfl⟩ := Int.eq_ofNat_of_zero_le (show 0 ≤ n by omega)
      have noMinus : chars.head? ≠ some '-' := fun starts => by
        have := spells.nonpos starts
        omega
      have read := readUnsigned_eq_ok_iff.mpr ⟨spells, by omega, noMinus⟩
      simp [unsigned] at read
    cases signed : readSigned chars with
    | ok value =>
      obtain ⟨spells, low, high⟩ := readSigned_eq_ok_iff.mp signed
      simp only [Except.ok.injEq]
      constructor
      · rintro rfl
        exact ⟨value, spells, low, by omega, rfl⟩
      · rintro ⟨n, spells', -, -, rfl⟩
        rw [spells.unique spells']
    | error reason =>
      simp only [reduceCtorEq, false_iff]
      rintro ⟨n, spells, low, high, -⟩
      have read := readSigned_eq_ok_iff.mpr ⟨spells, low, small spells high⟩
      simp [signed] at read

theorem parseSeed_error {raw : String} {error : ConfigError}
    (failed : parseSeed raw = .error error) : ∃ reason, error = .invalidSeed raw reason := by
  rw [parseSeed] at failed
  split at failed
  · cases failed
  · split at failed
    · cases failed
    · cases failed
      exact ⟨_, rfl⟩

/-- The seeds that are read are the integers of 64 bits, unsigned or signed, with white space around
them. What is read is their bits, all other texts are refused, and a number that is printed reads
back. -/
theorem parseSeed_reads_integers (raw : String) :
    (∀ seed, parseSeed raw = .ok seed ↔
      ∃ n, SpellsPadded raw n ∧ -2 ^ 63 ≤ n ∧ n < 2 ^ 64 ∧ (seed.toNat : Int) = n % 2 ^ 64) ∧
    ((∃ reason, parseSeed raw = .error (.invalidSeed raw reason)) ↔
      ∀ n, SpellsPadded raw n → n < -2 ^ 63 ∨ 2 ^ 64 ≤ n) ∧
    (∀ seed : UInt64, parseSeed (toString seed.toNat) = .ok seed) ∧
    ∀ seed : Int64, parseSeed (toString seed.toInt) = .ok seed.toUInt64 := by
  refine ⟨fun seed => parseSeed_eq_ok_iff, ?_, fun seed => ?_, fun seed => ?_⟩
  · constructor
    · rintro ⟨reason, failed⟩ n spells
      by_contra fits
      have read := parseSeed_eq_ok_iff.mpr ⟨n, spells, by omega, by omega, toNat_ofInt n⟩
      simp [failed] at read
    · intro outside
      cases read : parseSeed raw with
      | ok seed =>
        obtain ⟨n, spells, low, high, -⟩ := parseSeed_eq_ok_iff.mp read
        have := outside n spells
        omega
      | error error =>
        obtain ⟨reason, rfl⟩ := parseSeed_error read
        exact ⟨reason, rfl⟩
  · have bound := seed.toNat_lt
    exact parseSeed_eq_ok_iff.mpr
      ⟨seed.toNat, .of_spells (Spells.toString_nat _), by omega, by omega, by omega⟩
  · have low := seed.le_toInt
    have high := seed.toInt_lt
    exact parseSeed_eq_ok_iff.mpr
      ⟨seed.toInt, .of_spells (Spells.toString_int _), by omega, by omega,
        Random.toNat_toUInt64 seed⟩

example : parseSeed "\t-9223372036854775808 " = .ok 0x8000000000000000 := by cbv

end NestedSpec
