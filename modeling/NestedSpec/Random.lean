import NestedSpec.Generator
import NestedSpec.Text.Cluster

/-!
# Random values

Values drawn from one generator: integers in ranges, fractions of one, texts over an alphabet of
grapheme clusters, elements, keys and instants. A source of the system draws the same kinds of
values but is never restarted, and nothing is promised about which values come.
-/

namespace NestedSpec

structure Random where
  generator : Generator
  /-- The source is the system's own. -/
  system : Bool
deriving Repr, DecidableEq

/-- An instant in nanoseconds since the beginning of 1970, as seen at an offset from UTC. -/
structure Moment where
  nanoseconds : Int
  /-- The offset in seconds. -/
  offset : Int
deriving Repr, DecidableEq

namespace Moment

def second : Int := 1000000000

def calendarStart : Int := -377705116800 * second

def calendarEnd : Int := 253402300800 * second

def inCalendar (nanoseconds : Int) : Bool :=
  calendarStart ≤ nanoseconds && nanoseconds < calendarEnd

end Moment

namespace Random

/-- A state transformer that draws a value. -/
abbrev Draw (α : Type) := Random → α × Random

def ofSeed (seed : UInt64) : Random := ⟨.ofSeed seed, false⟩

def ofBytes (bytes : List UInt8) : Random := ⟨.ofBytes bytes, false⟩

def ofSystem : Random := ⟨.ofSeed 0, true⟩

def lift {α : Type} (draw : Generator → α × Generator) : Draw α := fun r =>
  let (value, generator) := draw r.generator
  (value, { r with generator })

def reseed (seed : UInt64) (r : Random) : Random :=
  if r.system then r else ofSeed seed

def text (r : Random) : String :=
  "Random \x7b source: \"" ++ (if r.system then "crypto" else "seeded") ++ "\" \x7d"

/-- An integer from `low` on, out of `count` many. If the count is `2 ^ 64`, all 64-bit integers are
wanted, and a word is one in two's complement. -/
def intFrom (low : Int) (count : Nat) : Draw Int := fun r =>
  if count = UInt64.size then
    let (word, r) := lift Generator.next64 r
    ((Int64.ofInt word).toInt, r)
  else
    let (place, r) := lift (Generator.below64 count) r
    (low + place, r)

/-- A non-negative integer below the largest of 64 bits. -/
def int : Draw Int := intFrom 0 (UInt64.size / 2 - 1)

/-- An integer from 0 to below `bound`, or the complaint about a bound that is not positive. -/
def intBelow (bound : Int) : Draw (Except String Int) := fun r =>
  if 0 < bound then
    let (value, r) := intFrom 0 bound.toNat r
    (.ok value, r)
  else (.error ("int_n requires a positive upper bound, got " ++ toString bound), r)

/-- An integer between two bounds, in either order and both included. -/
def intBetween (a b : Int) : Draw Int :=
  intFrom (min a b) ((max a b - min a b).toNat + 1)

/-- A numerator of 24 bits: the draw stands for that many parts of `2 ^ 24`. -/
def fraction24 : Draw Nat := fun r =>
  let (word, r) := lift Generator.next32 r
  (word >>> 8, r)

/-- A numerator of 53 bits: the draw stands for that many parts of `2 ^ 53`. -/
def fraction53 : Draw Nat := fun r =>
  let (word, r) := lift Generator.next64 r
  (word >>> 11, r)

/-- The bits of the binary floating-point number `numerator / 2 ^ places`, for a format with
`places - 1` stored places and that bias of the exponent. -/
def fractionBits (places bias numerator : Nat) : Nat :=
  if numerator = 0 then 0
  else
    let top := Nat.log2 numerator
    (top + bias - places) <<< (places - 1) + (numerator - 1 <<< top) <<< (places - 1 - top)

def float32Bits : Draw Nat := fun r =>
  let (numerator, r) := fraction24 r
  (fractionBits 24 127 numerator, r)

def float64Bits : Draw Nat := fun r =>
  let (numerator, r) := fraction53 r
  (fractionBits 53 1023 numerator, r)

def bool : Draw Bool := fun r =>
  let (word, r) := lift Generator.next64 r
  (word < UInt64.size / 2, r)

/-- One of some items; nothing is drawn if there is none. -/
def element {α : Type} (items : List α) : Draw (Option α) := fun r =>
  match items with
  | [] => (none, r)
  | _ =>
    let (place, r) := lift (Generator.below64 items.length) r
    (items[place]?, r)

def many {α : Type} (draw : Draw α) : Nat → Draw (List α)
  | 0, r => ([], r)
  | count + 1, r =>
    let (first, r) := draw r
    let (rest, r) := many draw count r
    (first :: rest, r)

def textOver (alphabet : String) (length : Nat) : Draw String := fun r =>
  match Text.clusters alphabet with
  | [] => ("", r)
  | letters =>
    let (chosen, r) := many (element letters) length r
    (String.join (chosen.filterMap id), r)

def alphanumeric : String := "abcdefghijklmnopqrstuvwxyzABCDEFGHIJKLMNOPQRSTUVWXYZ0123456789"

def textOfLength (length : Nat) : Draw String := textOver alphanumeric length

def anyText : Draw String := fun r =>
  let (length, r) := intBetween 4 42 r
  textOfLength length.toNat r

/-- A key of a collection; the keys are put in order first, so the order they come in and their
repetitions do not matter. -/
def key {α : Type} [DecidableEq α] (atMost : α → α → Bool) (keys : List α) : Draw (Option α) :=
  element (keys.eraseDups.mergeSort atMost)

/-- An instant from `start` to before `stop`, at the offset of `start`; `start` itself if there is
none. An instant that the calendar does not have at that offset is a complaint. -/
def momentBetween (start stop : Moment) : Draw (Except String Moment) := fun r =>
  let span := stop.nanoseconds - start.nanoseconds
  if span ≤ 0 then (.ok start, r)
  else
    let (later, r) := lift (Generator.below128 span.toNat) r
    let instant := start.nanoseconds + later
    if !Moment.inCalendar instant then (.ok start, r)
    else if !Moment.inCalendar (instant + start.offset * Moment.second) then
      (.error "local datetime out of valid range", r)
    else (.ok ⟨instant, start.offset⟩, r)

def day : Int := 86400 * Moment.second

def moment (now : Int) : Draw (Except String Moment) := fun r =>
  let (before, r) := intFrom 0 42 r
  let (after, r) := intFrom 0 42 r
  momentBetween ⟨now - before * day, 0⟩ ⟨now + after * day + Moment.second, 0⟩ r

end Random
end NestedSpec
