import NestedSpec.Digest

/-!
# The generator of random words

Words of 64 bits from the generator xoshiro256**, seeded by a number through SplitMix64 or by
thirty-two bytes, numbers below a bound, and shuffles. A number below a bound is the upper half of
the product of the bound and a word; words whose lower half lies past the last whole multiple of
the bound are refused and drawn again.
-/

namespace NestedSpec

structure Generator where
  s0 : UInt64
  s1 : UInt64
  s2 : UInt64
  s3 : UInt64
deriving Repr, DecidableEq

namespace Generator

def rotateLeft (word amount : UInt64) : UInt64 :=
  (word <<< amount) ||| (word >>> (64 - amount))

/-- The word that SplitMix64 gives for a state. -/
def mix (state : UInt64) : UInt64 :=
  let z := (state ^^^ (state >>> 30)) * 0xbf58476d1ce4e5b9
  let z := (z ^^^ (z >>> 27)) * 0x94d049bb133111eb
  z ^^^ (z >>> 31)

/-- The distance of two states of SplitMix64. -/
def golden : UInt64 := 0x9e3779b97f4a7c15

def ofSeed (seed : UInt64) : Generator :=
  ⟨mix (seed + golden), mix (seed + 2 * golden), mix (seed + 3 * golden), mix (seed + 4 * golden)⟩

/-- The word that eight bytes stand for, least significant first. -/
def littleEndian (bytes : List UInt8) : UInt64 :=
  bytes.foldr (fun byte word => (word <<< 8) ||| byte.toUInt64) 0

/-- The generator for thirty-two bytes; only zeros are no state, so they stand for the seed 0. -/
def ofBytes (bytes : List UInt8) : Generator :=
  if bytes.all (· == 0) then ofSeed 0
  else
    let word (i : Nat) : UInt64 := littleEndian ((bytes.drop (8 * i)).take 8)
    ⟨word 0, word 1, word 2, word 3⟩

def next (g : Generator) : UInt64 × Generator :=
  let result := rotateLeft (g.s1 * 5) 7 * 9
  let s2 := g.s2 ^^^ g.s0
  let s3 := g.s3 ^^^ g.s1
  (result, ⟨g.s0 ^^^ s3, g.s1 ^^^ s2, s2 ^^^ (g.s1 <<< 17), rotateLeft s3 45⟩)

/-- A word of 32 bits, the upper half of the next word. -/
def next32 (g : Generator) : Nat × Generator :=
  let (word, g) := g.next
  (word.toNat / UInt32.size, g)

def next64 (g : Generator) : Nat × Generator :=
  let (word, g) := g.next
  (word.toNat, g)

/-- A word of 128 bits; the lower half is drawn first. -/
def next128 (g : Generator) : Nat × Generator :=
  let (low, g) := g.next64
  let (high, g) := g.next64
  (high * UInt64.size + low, g)

/-- The largest lower half that is not refused: the last place before a whole multiple of the
bound, scaled up to the width. -/
def zone (width bound : Nat) : Nat :=
  bound <<< (width - 1 - Nat.log2 bound) - 1

/-- A number below a positive bound by multiplication and refusal. Fewer than half of the words are
refused; after `tries` refusals in a row the next word is taken as it is. -/
def belowWithin (word : Generator → Nat × Generator) (width bound : Nat) :
    Nat → Generator → Nat × Generator
  | 0, g =>
    let (v, g) := word g
    ((v * bound) >>> width, g)
  | tries + 1, g =>
    let (v, g) := word g
    if v * bound % 1 <<< width ≤ zone width bound then ((v * bound) >>> width, g)
    else belowWithin word width bound tries g

/-- How many words may be refused in a row. -/
def refusals : Nat := 4096

def below32 (bound : Nat) (g : Generator) : Nat × Generator :=
  belowWithin next32 32 bound refusals g

def below64 (bound : Nat) (g : Generator) : Nat × Generator :=
  belowWithin next64 64 bound refusals g

def below128 (bound : Nat) (g : Generator) : Nat × Generator :=
  belowWithin next128 128 bound refusals g

/-- Exchanges the last of the first `count` items with one of them, then goes on with one fewer. -/
def shuffleFirst {α : Type} : Nat → Array α → Generator → Array α × Generator
  | 0, items, g => (items, g)
  | 1, items, g => (items, g)
  | count + 2, items, g =>
    let (place, g) := g.below32 (count + 2)
    shuffleFirst (count + 1) (items.swapIfInBounds (count + 1) place) g

def shuffle {α : Type} (items : List α) (g : Generator) : List α × Generator :=
  let (shuffled, g) := shuffleFirst items.length items.toArray g
  (shuffled.toList, g)

theorem swapIfInBounds_perm {α : Type} (items : Array α) (i j : Nat) :
    (items.swapIfInBounds i j).toList.Perm items.toList := by
  unfold Array.swapIfInBounds
  split
  · split
    · exact (Array.swap_perm _ _).toList
    · exact List.Perm.refl _
  · exact List.Perm.refl _

theorem shuffleFirst_perm {α : Type} (count : Nat) (items : Array α) (g : Generator) :
    (shuffleFirst count items g).1.toList.Perm items.toList := by
  fun_induction shuffleFirst count items g with
  | case1 => exact List.Perm.refl _
  | case2 => exact List.Perm.refl _
  | case3 count items g place g' drawn ih =>
    exact ih.trans (swapIfInBounds_perm items (count + 1) place)

/-- A shuffle loses nothing and adds nothing. -/
theorem shuffle_perm {α : Type} (items : List α) (g : Generator) :
    (shuffle items g).1.Perm items := by
  simpa [shuffle] using shuffleFirst_perm items.length items.toArray g

end Generator

/-- The seed of the stream with a label: the digest of the run's seed and the label. -/
def deriveSeed (seed : UInt64) (label : String) : List UInt8 :=
  Digest.sha256
    ((List.range 8).map (fun i => UInt8.ofNat (seed.toNat >>> (8 * i))) ++ label.toUTF8.toList)

end NestedSpec
