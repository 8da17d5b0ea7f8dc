import Mathlib.Data.List.Basic
import NestedSpec.Waiting

/-!
# Stacks unwind newest first

The stack is unwound by a machine that takes the newest entry off, runs it, and puts what it pushed
on top. The entries are numbered in the order in which they are pushed, so that the numbers taken
off tell which entry ran when. The recursion of `Ended.unwindAll` does what the machine does.
-/

namespace NestedSpec

variable {σ : Type}

structure Unwinding (σ : Type) where
  next : Nat
  stack : List (Nat × Waiting σ)
  state : σ

def numberFrom (next : Nat) : List (Waiting σ) → List (Nat × Waiting σ)
  | [] => []
  | entry :: older => (next + older.length, entry) :: numberFrom next older

@[simp] theorem numberFrom_entries (next : Nat) (entries : List (Waiting σ)) :
    (numberFrom next entries).map (·.2) = entries := by
  induction entries with
  | nil => rfl
  | cons entry older ih => simp [numberFrom, ih]

theorem numberFrom_perm (next : Nat) (entries : List (Waiting σ)) :
    ((numberFrom next entries).map (·.1)).Perm (List.range' next entries.length) := by
  induction entries with
  | nil => exact .refl _
  | cons entry older ih =>
    simp only [numberFrom, List.map_cons, List.length_cons, List.range'_concat, Nat.one_mul]
    exact (ih.cons _).trans (List.perm_append_singleton _ _).symm

theorem mem_numberFrom {next number : Nat} {entries : List (Waiting σ)} :
    number ∈ (numberFrom next entries).map (·.1) ↔
      next ≤ number ∧ number < next + entries.length := by
  rw [(numberFrom_perm next entries).mem_iff, List.mem_range'_1]

theorem numberFrom_descending (next : Nat) (entries : List (Waiting σ)) :
    ((numberFrom next entries).map (·.1)).Pairwise (· > ·) := by
  induction entries with
  | nil => exact .nil
  | cons entry older ih =>
    refine List.Pairwise.cons ?_ ih
    intro number waiting
    exact (mem_numberFrom.mp waiting).2

namespace Unwinding

def start (entries : List (Waiting σ)) (s : σ) : Unwinding σ :=
  ⟨entries.length, numberFrom 0 entries, s⟩

/-- What is left when the newest entry came to `ended`: its end is accounted for, and the entries
that it pushed lie on top of the older ones. -/
def popped (account : Outcome → σ → σ) (next : Nat) (ended : Ended σ)
    (older : List (Nat × Waiting σ)) : Unwinding σ :=
  ⟨next + ended.pushed.length, numberFrom next ended.pushed ++ older, ended.accounted account⟩

structure Ordered (u : Unwinding σ) : Prop where
  given : ∀ number ∈ u.stack.map (·.1), number < u.next
  descending : (u.stack.map (·.1)).Pairwise (· > ·)

theorem start_ordered (entries : List (Waiting σ)) (s : σ) : (start entries s).Ordered where
  given number waiting := by simpa [start] using (mem_numberFrom.mp waiting).2
  descending := numberFrom_descending 0 entries

theorem popped_ordered (account : Outcome → σ → σ) {next number : Nat} {entry : Waiting σ}
    {older : List (Nat × Waiting σ)} {s : σ} (ended : Ended σ)
    (ordered : Ordered ⟨next, (number, entry) :: older, s⟩) :
    (popped account next ended older).Ordered := by
  have olderGiven : ∀ other ∈ older.map (·.1), other < next := fun other waiting =>
    ordered.given other (List.mem_cons_of_mem _ waiting)
  constructor
  · intro other waiting
    simp only [popped, List.map_append, List.mem_append] at waiting ⊢
    rcases waiting with new | old
    · exact (mem_numberFrom.mp new).2
    · exact Nat.lt_add_right _ (olderGiven other old)
  · simp only [popped, List.map_append]
    refine List.pairwise_append.mpr ⟨numberFrom_descending _ _, ordered.descending.of_cons, ?_⟩
    intro new pushed old waiting
    exact Nat.lt_of_lt_of_le (olderGiven old waiting) (mem_numberFrom.mp pushed).1

end Unwinding

/-- The stack unwinds to its end: the trace holds the number of every entry that ran and what it
came to, in the order in which they ran. -/
inductive Unwinds (account : Outcome → σ → σ) :
    Unwinding σ → List (Nat × Ended σ) → σ → Prop
  | done (next : Nat) (s : σ) : Unwinds account ⟨next, [], s⟩ [] s
  | pop {next number : Nat} {entry : Waiting σ} {older : List (Nat × Waiting σ)} {s final : σ}
      {trace : List (Nat × Ended σ)}
      (later : Unwinds account (Unwinding.popped account next (entry s) older) trace final) :
      Unwinds account ⟨next, (number, entry) :: older, s⟩ ((number, entry s) :: trace) final

def pushedBy : List (Nat × Ended σ) → Nat
  | [] => 0
  | ran :: later => ran.2.pushed.length + pushedBy later

namespace Unwinds

variable {account : Outcome → σ → σ} {u : Unwinding σ} {trace : List (Nat × Ended σ)} {final : σ}

theorem deterministic (run : Unwinds account u trace final) {trace' : List (Nat × Ended σ)}
    {final' : σ} (other : Unwinds account u trace' final') : trace = trace' ∧ final = final' := by
  induction run generalizing trace' final' with
  | done => cases other; exact ⟨rfl, rfl⟩
  | pop later ih =>
    cases other with
    | pop rest =>
      obtain ⟨rfl, rfl⟩ := ih rest
      exact ⟨rfl, rfl⟩

/-- The state at the end is the one at the start if nothing ran, and else what the entry that ran
last left once its end was accounted for. -/
theorem final_eq (run : Unwinds account u trace final) :
    final = u.state ∨ ∃ ran ∈ trace, final = ran.2.accounted account := by
  induction run with
  | done => exact .inl rfl
  | pop later ih =>
    refine .inr ?_
    rcases ih with start | ⟨ran, member, last⟩
    · exact ⟨_, List.mem_cons_self .., start⟩
    · exact ⟨ran, List.mem_cons_of_mem _ member, last⟩

/-- Every entry runs exactly once: those that lay on the stack and those that were pushed since. -/
theorem numbers_perm (run : Unwinds account u trace final) :
    (trace.map (·.1)).Perm (u.stack.map (·.1) ++ List.range' u.next (pushedBy trace)) := by
  induction run with
  | done => exact .refl _
  | @pop next number entry older s final trace later ih =>
    have split : List.range' next (pushedBy ((number, entry s) :: trace)) =
        List.range' next (entry s).pushed.length ++
          List.range' (next + (entry s).pushed.length) (pushedBy trace) := by
      simp [pushedBy, List.range'_append_1]
    simp only [List.map_cons, List.cons_append, split]
    refine List.Perm.cons number (ih.trans ?_)
    simp only [Unwinding.popped, List.map_append]
    refine ((numberFrom_perm _ _).append_right _).append_right _ |>.trans ?_
    rw [← List.append_assoc]
    exact List.perm_append_comm.append_right _

/-- Whenever an entry runs, no newer one waits: not one from the stack, and not one that was pushed
since. -/
theorem newest_first (run : Unwinds account u trace final) (ordered : u.Ordered)
    {before after : List (Nat × Ended σ)} {ran : Nat × Ended σ}
    (split : trace = before ++ ran :: after) {number : Nat}
    (known : number ∈ u.stack.map (·.1) ++ List.range' u.next (pushedBy before))
    (waits : number ∉ before.map (·.1)) : number ≤ ran.1 := by
  -- Either `ran` is on top now, or the number still waits once the newest entry has been popped.
  induction run generalizing before with
  | done => simp at split
  | @pop next newest entry older s final trace later ih =>
    cases before with
    | nil =>
      obtain ⟨rfl, rfl⟩ : (newest, entry s) = ran ∧ trace = after := by simpa using split
      simp only [pushedBy, List.range'_zero, List.append_nil,
        List.map_cons, List.mem_cons] at known
      rcases known with same | old
      · exact Nat.le_of_eq same
      · exact Nat.le_of_lt (List.rel_of_pairwise_cons ordered.descending old)
    | cons first before =>
      obtain ⟨rfl, rest⟩ : (newest, entry s) = first ∧ trace = before ++ ran :: after := by
        simpa using split
      simp only [List.map_cons, List.mem_cons, not_or] at waits
      refine ih (Unwinding.popped_ordered account (entry s) ordered) rest ?_ waits.2
      simp only [pushedBy, List.map_cons, List.mem_append, List.mem_cons,
        List.mem_range'_1, Unwinding.popped, List.map_append, mem_numberFrom] at known ⊢
      rcases known with (same | old) | new
      · exact absurd same waits.1
      · exact .inl (.inr old)
      · omega

theorem numbers_range {entries : List (Waiting σ)} {s : σ}
    (run : Unwinds account (.start entries s) trace final) :
    (trace.map (·.1)).Perm (List.range (entries.length + pushedBy trace)) := by
  have all : List.range (entries.length + pushedBy trace) =
      List.range' 0 entries.length ++ List.range' entries.length (pushedBy trace) := by
    rw [List.range_eq_range', ← List.range'_append_1, Nat.zero_add]
  rw [all]
  exact run.numbers_perm.trans ((numberFrom_perm 0 entries).append_right _)

/-- From the start, an entry runs only when every entry pushed after it has run. -/
theorem newest_first_of_start {entries : List (Waiting σ)} {s : σ}
    (run : Unwinds account (.start entries s) trace final) {before after : List (Nat × Ended σ)}
    {ran : Nat × Ended σ} (split : trace = before ++ ran :: after) {number : Nat}
    (known : number < entries.length + pushedBy before)
    (waits : number ∉ before.map (·.1)) : number ≤ ran.1 := by
  refine run.newest_first (Unwinding.start_ordered entries s) split ?_ waits
  simp only [Unwinding.start, List.mem_append, mem_numberFrom, List.mem_range'_1]
  omega

end Unwinds

namespace Ended

mutual
theorem unwinds_pushed (account : Outcome → σ → σ) (final : σ) :
    (ended : Ended σ) → (next : Nat) → (older : List (Nat × Waiting σ)) →
    (∀ next, ∃ trace, Unwinds account ⟨next, older, unwind account ended⟩ trace final) →
    ∃ trace, Unwinds account (Unwinding.popped account next ended older) trace final
  | .mk result state pushed, next, older, rest =>
    unwinds_stack account final pushed (numberFrom next pushed) (numberFrom_entries next pushed)
      (next + pushed.length) older (account (.ofExcept result) state) rest

theorem unwinds_stack (account : Outcome → σ → σ) (final : σ) :
    (entries : List (Waiting σ)) → (numbered : List (Nat × Waiting σ)) →
    numbered.map (·.2) = entries → (next : Nat) → (older : List (Nat × Waiting σ)) → (s : σ) →
    (∀ next, ∃ trace, Unwinds account ⟨next, older, unwindAll account entries s⟩ trace final) →
    ∃ trace, Unwinds account ⟨next, numbered ++ older, s⟩ trace final
  | [], [], _, next, _, _, rest => rest next
  | entry :: entries, (number, waiting) :: numbered, same, next, older, s, rest => by
    obtain ⟨head, tail⟩ := List.cons_eq_cons.mp same
    obtain rfl : entry = waiting := head.symm
    have below : ∀ next, ∃ trace,
        Unwinds account ⟨next, numbered ++ older, unwind account (entry s)⟩ trace final :=
      fun next => unwinds_stack account final entries numbered tail next older _ rest
    obtain ⟨trace, run⟩ :=
      unwinds_pushed account final (entry s) next (numbered ++ older) below
    exact ⟨_, .pop run⟩
end

theorem unwindAll_unwinds (account : Outcome → σ → σ) (entries : List (Waiting σ)) (s : σ) :
    ∃ trace, Unwinds account (.start entries s) trace (unwindAll account entries s) := by
  have run := unwinds_stack account (unwindAll account entries s) entries (numberFrom 0 entries)
    (numberFrom_entries 0 entries) entries.length [] s fun next => ⟨[], .done next _⟩
  simpa [Unwinding.start] using run

/-- However the machine runs, it comes to what the recursion computes. -/
theorem eq_unwindAll {account : Outcome → σ → σ} {entries : List (Waiting σ)} {s final : σ}
    {trace : List (Nat × Ended σ)} (run : Unwinds account (.start entries s) trace final) :
    final = unwindAll account entries s := by
  obtain ⟨trace', run'⟩ := unwindAll_unwinds account entries s
  exact (run.deterministic run').2

end Ended
end NestedSpec
