import NestedSpec.Proofs.Sampling

/-!
# Instants between two instants

An instant is drawn from the range and then seen at the offset of its start. An instant that the
calendar does not have gives the start back, but one that it has only without the offset is
complained of; there is one exactly if the range, seen at an offset to the east, goes beyond the
end of the calendar.
-/

namespace NestedSpec

namespace Moment

structure Valid (moment : Moment) : Prop where
  seen : inCalendar (moment.nanoseconds + moment.offset * second) = true
  west : -(26 * 3600) < moment.offset
  east : moment.offset < 26 * 3600

instance (moment : Moment) : Decidable moment.Valid :=
  decidable_of_iff (inCalendar (moment.nanoseconds + moment.offset * second) = true ∧
      -(26 * 3600) < moment.offset ∧ moment.offset < 26 * 3600)
    ⟨fun ⟨seen, west, east⟩ => ⟨seen, west, east⟩, fun ⟨seen, west, east⟩ => ⟨seen, west, east⟩⟩

def Within (start stop moment : Moment) : Prop :=
  moment.offset = start.offset ∧ moment.Valid ∧
    if start.nanoseconds < stop.nanoseconds then
      start.nanoseconds ≤ moment.nanoseconds ∧ moment.nanoseconds < stop.nanoseconds
    else moment = start

/-- The range, seen at the offset of its start, goes beyond the end of the calendar. -/
def Overruns (start stop : Moment) : Prop :=
  start.nanoseconds < stop.nanoseconds ∧ 0 < start.offset ∧
    calendarEnd < stop.nanoseconds + start.offset * second

instance (start stop : Moment) : Decidable (Overruns start stop) :=
  inferInstanceAs (Decidable (_ ∧ _))

theorem inCalendar_iff {nanoseconds : Int} :
    inCalendar nanoseconds = true ↔ calendarStart ≤ nanoseconds ∧ nanoseconds < calendarEnd := by
  rw [inCalendar, Bool.and_eq_true, decide_eq_true_iff, decide_eq_true_iff]

end Moment

namespace Random

open Moment

variable {start stop : Moment} {later : Nat}

def settle (start : Moment) (later : Nat) : Except String Moment :=
  if !inCalendar (start.nanoseconds + later) then .ok start
  else if !inCalendar (start.nanoseconds + later + start.offset * second) then
    .error "local datetime out of valid range"
  else .ok ⟨start.nanoseconds + later, start.offset⟩

def span (start stop : Moment) : Nat := (stop.nanoseconds - start.nanoseconds).toNat

theorem settle_eq (start : Moment) (draw : Generator → Nat × Generator) (r : Random) :
    (match lift draw r with
      | (later, r) =>
        let instant := start.nanoseconds + later
        if !inCalendar instant then (.ok start, r)
        else if !inCalendar (instant + start.offset * second) then
          (.error "local datetime out of valid range", r)
        else (.ok ⟨instant, start.offset⟩, r)) =
      (settle start (draw r.generator).1, { r with generator := (draw r.generator).2 }) := by
  rw [lift, settle]
  dsimp only
  split
  · rfl
  · split <;> rfl

theorem momentBetween_eq (some : start.nanoseconds < stop.nanoseconds) (r : Random) :
    momentBetween start stop r = (settle start (r.generator.below128 (span start stop)).1,
      { r with generator := (r.generator.below128 (span start stop)).2 }) := by
  unfold momentBetween
  extract_lets range
  have filled : ¬ range ≤ 0 := by omega
  have count : span start stop = range.toNat := rfl
  rw [if_neg filled, count]
  -- With the draw in sight, terms would be compared by running its thousands of tries.
  generalize Generator.below128 range.toNat = draw
  exact settle_eq start draw r

theorem momentBetween_empty (none : stop.nanoseconds ≤ start.nanoseconds) (r : Random) :
    momentBetween start stop r = (.ok start, r) := by
  have empty : stop.nanoseconds - start.nanoseconds ≤ 0 := by omega
  unfold momentBetween
  exact if_pos empty

/-! ## What comes out -/

def Settled (start stop : Moment) (result : Except String Moment) : Prop :=
  (∃ moment, result = .ok moment ∧ Within start stop moment) ∨
    (result = .error "local datetime out of valid range" ∧ Overruns start stop)

theorem lt_of_lt_span (inside : later < span start stop) :
    start.nanoseconds + later < stop.nanoseconds := by
  rw [span] at inside
  omega

theorem settled_settle (valid : start.Valid) (inside : later < span start stop) :
    Settled start stop (settle start later) := by
  have before := lt_of_lt_span inside
  have some : start.nanoseconds < stop.nanoseconds := by omega
  by_cases known : inCalendar (start.nanoseconds + later) = true
  · by_cases seen : inCalendar (start.nanoseconds + later + start.offset * second) = true
    · refine .inl ⟨⟨start.nanoseconds + later, start.offset⟩, ?_, rfl,
        ⟨seen, valid.west, valid.east⟩, ?_⟩
      · rw [settle, known, seen]
        rfl
      · rw [if_pos some]
        exact ⟨Int.le_add_of_nonneg_right (Int.natCast_nonneg later), before⟩
    · refine .inr ⟨?_, some, ?_⟩
      · rw [settle, known, eq_false_of_ne_true seen]
        rfl
      · -- The start is seen in the calendar, so only its end can be behind.
        have first := inCalendar_iff.mp valid.seen
        rw [inCalendar_iff] at known seen
        simp only [second] at *
        omega
  · refine .inl ⟨start, ?_, rfl, valid, ?_⟩
    · rw [settle, eq_false_of_ne_true known]
      rfl
    · rw [if_pos some]
      exact ⟨Int.le_refl _, some⟩

theorem settled_momentBetween (valid : start.Valid) (r : Random) :
    Settled start stop (momentBetween start stop r).1 := by
  by_cases some : start.nanoseconds < stop.nanoseconds
  · have filled : 0 < span start stop := by
      rw [span]
      omega
    rw [momentBetween_eq some]
    exact settled_settle valid (Generator.belowWithin_lt Generator.next128_lt filled)
  · rw [momentBetween_empty (Int.not_lt.mp some)]
    exact .inl ⟨start, rfl, rfl, valid, by rw [if_neg some]⟩

theorem span_le (valid : start.Valid) (validToo : stop.Valid) : span start stop ≤ 2 ^ 128 := by
  have first := inCalendar_iff.mp valid.seen
  have last := inCalendar_iff.mp validToo.seen
  have east := valid.east
  have west := validToo.west
  rw [span]
  simp only [second, calendarStart, calendarEnd] at *
  omega

/-- A range that overruns the calendar has an instant that is complained of: the first that is seen
behind the end of the calendar. -/
theorem exists_complaint (valid : start.Valid) (validToo : stop.Valid)
    (overruns : Overruns start stop) :
    ∃ r, (momentBetween start stop r).1 = .error "local datetime out of valid range" := by
  obtain ⟨some, east, behind⟩ := overruns
  have first := inCalendar_iff.mp valid.seen
  have limit := valid.east
  obtain ⟨later, place⟩ : ∃ later : Nat,
      start.nanoseconds + later = calendarEnd - start.offset * second :=
    ⟨(calendarEnd - start.offset * second - start.nanoseconds).toNat, by omega⟩
  have inside : later < span start stop := by
    rw [span]
    omega
  have known : inCalendar (start.nanoseconds + later) = true := by
    rw [inCalendar_iff, place]
    simp only [second, calendarStart, calendarEnd] at *
    omega
  have unseen : inCalendar (start.nanoseconds + later + start.offset * second) = false := by
    apply eq_false_of_ne_true
    rw [inCalendar_iff, place]
    omega
  obtain ⟨g, g', drawn⟩ := Generator.exists_below128 inside (span_le valid validToo)
  refine ⟨⟨g, false⟩, ?_⟩
  rw [momentBetween_eq some, drawn, settle, known, unseen]
  rfl

/-- An instant is drawn from the range, at the offset of its start, and the start if there is none.
Some state gives a complaint exactly if the range overruns the calendar. -/
theorem momentBetween_settles (start stop : Moment) (valid : start.Valid)
    (validToo : stop.Valid) :
    (∀ r, Settled start stop (momentBetween start stop r).1) ∧
    (stop.nanoseconds ≤ start.nanoseconds → ∀ r, momentBetween start stop r = (.ok start, r)) ∧
    (start.nanoseconds < stop.nanoseconds → ∀ (r : Random) (count later : Nat) (g' : Generator),
      Generator.Takes Generator.next128 128 (span start stop) count r.generator later g' →
        Settled start stop (settle start later) ∧
        (count ≤ Generator.refusals →
          momentBetween start stop r = (settle start later, { r with generator := g' }))) ∧
    ((∀ r, ∃ moment, (momentBetween start stop r).1 = .ok moment ∧ Within start stop moment) ↔
      ¬ Overruns start stop) := by
  refine ⟨settled_momentBetween valid, momentBetween_empty, ?_, ?_, ?_⟩
  · intro some r count later g' takes
    have filled : 0 < span start stop := by
      rw [span]
      omega
    refine ⟨settled_settle valid (takes.value_lt Generator.next128_lt filled), fun within => ?_⟩
    have drawn : r.generator.below128 (span start stop) = (later, g') :=
      takes.belowWithin_eq within
    rw [momentBetween_eq some, drawn]
  · intro total overruns
    obtain ⟨r, complaint⟩ := exists_complaint valid validToo overruns
    obtain ⟨moment, drawn, -⟩ := total r
    rw [complaint] at drawn
    exact absurd drawn nofun
  · intro fits r
    exact (settled_momentBetween valid r).resolve_right fun ⟨_, overruns⟩ => fits overruns

theorem momentBetween_settles_second :
    (⟨0, 3600⟩ : Moment).Valid ∧ (⟨second, -7200⟩ : Moment).Valid ∧
      ∃ moment, (momentBetween ⟨0, 3600⟩ ⟨second, -7200⟩ (ofSeed 7)).1 = .ok moment ∧
        Within ⟨0, 3600⟩ ⟨second, -7200⟩ moment :=
  have valid : (⟨0, 3600⟩ : Moment).Valid := by decide
  have validToo : (⟨second, -7200⟩ : Moment).Valid := by decide
  have fits : ¬ Overruns ⟨0, 3600⟩ ⟨second, -7200⟩ := by decide
  ⟨valid, validToo, (momentBetween_settles _ _ valid validToo).2.2.2.mpr fits (ofSeed 7)⟩

/-- Of the last hour of the calendar, seen one hour to the east, only the first instant can be
given, but others are drawn. -/
theorem last_hour_is_complained_of :
    (⟨253402297200 * second - 1, 3600⟩ : Moment).Valid ∧
    (⟨253402300800 * second - 1, 0⟩ : Moment).Valid ∧
    ¬ ∃ moment, (momentBetween ⟨253402297200 * second - 1, 3600⟩ ⟨253402300800 * second - 1, 0⟩
      (ofSeed 0)).1 = .ok moment := by
  refine ⟨by decide, by decide, ?_⟩
  have refused : (momentBetween ⟨253402297200 * second - 1, 3600⟩
      ⟨253402300800 * second - 1, 0⟩ (ofSeed 0)).1.toBool = false := by
    decide +kernel
  rintro ⟨moment, drawn⟩
  rw [drawn] at refused
  exact absurd refused nofun

end Random
end NestedSpec
