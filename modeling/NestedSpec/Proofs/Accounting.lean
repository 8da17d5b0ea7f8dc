import Mathlib.Data.List.Forall2
import NestedSpec.Proofs.Likeness
import NestedSpec.Proofs.Tracing

/-!
# What marks a sub-run

The marks in the case of a sub-run are read off its trace. It is marked as failed if it was called
to fail, if its body or one of its cleanups ended in failure, or if a sub-run of its own is marked
as failed, and for no other reason. It is marked as skipped if it was called to skip, or if its body
or one of its cleanups ended in skipping. No mark is ever taken back.
-/

namespace NestedSpec

variable {ν : Type} {t : Target}

inductive Outcome.Failing : Outcome → Prop
  | exited : Failing (.exited .fail)
  | panicked (payload : Payload) : Failing (.panicked payload)

theorem Recorder.failed_absorb_iff (r : Recorder) (outcome : Outcome) :
    (r.absorb outcome).failed = true ↔ r.failed = true ∨ outcome.Failing := by
  rcases outcome with _ | ⟨_ | _⟩ | payload
  · exact ⟨.inl, fun marks => marks.resolve_right nofun⟩
  · exact iff_of_true rfl (.inr .exited)
  · exact ⟨.inl, fun marks => marks.resolve_right nofun⟩
  · exact iff_of_true rfl (.inr (.panicked payload))

theorem Recorder.skipped_absorb_iff (r : Recorder) (outcome : Outcome) :
    (r.absorb outcome).skipped = true ↔ r.skipped = true ∨ outcome = .exited .skip := by
  rcases outcome with _ | ⟨_ | _⟩ | payload
  · exact ⟨.inl, fun marks => marks.resolve_right nofun⟩
  · exact ⟨.inl, fun marks => marks.resolve_right nofun⟩
  · exact iff_of_true rfl (.inr rfl)
  · exact ⟨.inl, fun marks => marks.resolve_right nofun⟩

namespace Deed

inductive MarksFailed : Deed ν → Prop
  | called : MarksFailed (.called .fail)
  | ended {outcome : Outcome} (failing : outcome.Failing) : MarksFailed (.ended outcome)
  | ran {name : String} {deed : Deed ν} {inside : List (Deed ν)} (member : deed ∈ inside)
      (marks : MarksFailed deed) : MarksFailed (.ran name inside)

inductive MarksSkipped : Deed ν → Prop
  | called : MarksSkipped (.called .skip)
  | ended : MarksSkipped (.ended (.exited .skip))

def Fails (deeds : List (Deed ν)) : Prop := ∃ deed ∈ deeds, MarksFailed deed

def Skips (deeds : List (Deed ν)) : Prop := ∃ deed ∈ deeds, MarksSkipped deed

mutual
theorem failed_record (r : Recorder) : (deed : Deed ν) →
    ((deed.record r).failed = true ↔ r.failed = true ∨ deed.MarksFailed)
  | called call => by
    cases call with
    | fail => exact iff_of_true rfl (.inr .called)
    | note | log | skip => exact ⟨.inl, fun marks => marks.resolve_right nofun⟩
  | ended outcome => by
    refine (r.failed_absorb_iff outcome).trans (or_congr_right ⟨.ended, fun marks => ?_⟩)
    cases marks with
    | ended failing => exact failing
  | ran name inside => by
    have below := failed_recordAll (r.child name) inside
    have fresh : (r.child name).failed = false := rfl
    simp only [record, Recorder.merge, Bool.or_eq_true, below, fresh]
    refine or_congr_right ⟨fun fails => ?_, ?_⟩
    · obtain ⟨deed, member, marks⟩ := fails.resolve_left Bool.false_ne_true
      exact .ran member marks
    · rintro (_ | _ | ⟨member, marks⟩)
      exact .inr ⟨_, member, marks⟩
  | owns _ | outside | madeDirectory | apart _ =>
    ⟨.inl, fun marks => marks.resolve_right nofun⟩

theorem failed_recordAll (r : Recorder) : (deeds : List (Deed ν)) →
    ((recordAll r deeds).failed = true ↔ r.failed = true ∨ Fails deeds)
  | [] => ⟨.inl, fun marks => marks.resolve_right (by rintro ⟨_, member, _⟩; simp at member)⟩
  | first :: rest => by
    rw [recordAll, failed_recordAll (first.record r) rest, failed_record r first, or_assoc]
    simp only [Fails, List.exists_mem_cons_iff]
end

theorem skipped_record (r : Recorder) : (deed : Deed ν) →
    ((deed.record r).skipped = true ↔ r.skipped = true ∨ deed.MarksSkipped)
  | called call => by
    cases call with
    | skip => exact iff_of_true rfl (.inr .called)
    | note | log | fail => exact ⟨.inl, fun marks => marks.resolve_right nofun⟩
  | ended outcome => by
    refine (r.skipped_absorb_iff outcome).trans (or_congr_right ⟨?_, ?_⟩)
    · rintro rfl
      exact .ended
    · rintro ⟨⟩
      rfl
  | ran _ _ | owns _ | outside | madeDirectory | apart _ =>
    ⟨.inl, fun marks => marks.resolve_right nofun⟩

theorem skipped_recordAll (r : Recorder) (deeds : List (Deed ν)) :
    (recordAll r deeds).skipped = true ↔ r.skipped = true ∨ Skips deeds := by
  induction deeds generalizing r with
  | nil => exact ⟨.inl, fun marks => marks.resolve_right (by rintro ⟨_, member, _⟩; simp at member)⟩
  | cons first rest ih =>
    rw [recordAll, ih, skipped_record r first, or_assoc]
    simp only [Skips, List.exists_mem_cons_iff]

mutual
/-- The sub-runs in a trace of the flow at `path`, with their paths and their traces, those inside
a sub-run before it. -/
def finished (path : List String) : Deed ν → List (List String × List (Deed ν))
  | ran name inside => finishedIn (path ++ [name]) inside ++ [(path ++ [name], inside)]
  | called _ | owns _ | outside | madeDirectory | ended _ | apart _ => []

def finishedIn (path : List String) : List (Deed ν) → List (List String × List (Deed ν))
  | [] => []
  | first :: rest => finished path first ++ finishedIn path rest
end

structure Accounts (c : Case) (ran : List String × List (Deed ν)) : Prop where
  path : c.path = ran.1
  failed : c.failed = true ↔ Fails ran.2
  skipped : c.skipped = true ↔ Skips ran.2

theorem record_path (r : Recorder) (deed : Deed ν) : (deed.record r).path = r.path := by
  rcases deed with ⟨_ | _ | _ | _⟩ | _ | _ | _ | ⟨_ | ⟨_ | _⟩ | _⟩ | _ | _ <;> rfl

theorem recordAll_path (r : Recorder) (deeds : List (Deed ν)) :
    (recordAll r deeds).path = r.path := by
  induction deeds generalizing r with
  | nil => rfl
  | cons deed rest ih => exact (ih _).trans (record_path r deed)

def AccountsFor (r later : Recorder) (ran : List (List String × List (Deed ν))) : Prop :=
  ∃ newer, later.cases = r.cases ++ newer ∧ List.Forall₂ Accounts newer ran

mutual
theorem cases_record (r : Recorder) : (deed : Deed ν) →
    AccountsFor r (deed.record r) (finished r.path deed)
  | ran name inside => by
    obtain ⟨newer, cases, accounts⟩ := cases_recordAll (r.child name) inside
    let child := recordAll (r.child name) inside
    have own : Accounts ⟨child.path, child.failed, child.skipped⟩ (r.path ++ [name], inside) := by
      refine ⟨recordAll_path _ _, ?_, ?_⟩
      · exact (failed_recordAll _ _).trans (or_iff_right Bool.false_ne_true)
      · exact (skipped_recordAll _ _).trans (or_iff_right Bool.false_ne_true)
    refine ⟨newer ++ [⟨child.path, child.failed, child.skipped⟩], ?_, ?_⟩
    · simp only [record, Recorder.merge, cases, child]
      simp [Recorder.child, Recorder.ofPath]
    · exact List.rel_append accounts (.cons own .nil)
  | called call => by
    refine ⟨[], ?_, .nil⟩
    cases call <;> exact (List.append_nil _).symm
  | ended outcome => by
    refine ⟨[], ?_, .nil⟩
    rcases outcome with _ | ⟨_ | _⟩ | _ <;> exact (List.append_nil _).symm
  | owns _ | outside | madeDirectory | apart _ => ⟨[], (List.append_nil _).symm, .nil⟩

theorem cases_recordAll (r : Recorder) : (deeds : List (Deed ν)) →
    AccountsFor r (recordAll r deeds) (finishedIn r.path deeds)
  | [] => ⟨[], (List.append_nil _).symm, .nil⟩
  | first :: rest => by
    obtain ⟨newer, cases, accounts⟩ := cases_record r first
    obtain ⟨newest, casesLater, accountsLater⟩ := cases_recordAll (first.record r) rest
    refine ⟨newer ++ newest, ?_, ?_⟩
    · rw [recordAll, casesLater, cases, List.append_assoc]
    · rw [record_path] at accountsLater
      exact List.rel_append accounts accountsLater
end

/-- A mark stays once it is made. -/
theorem marks_stay (r : Recorder) (before after : List (Deed ν)) :
    ((recordAll r before).failed = true → (recordAll r (before ++ after)).failed = true) ∧
      ((recordAll r before).skipped = true → (recordAll r (before ++ after)).skipped = true) := by
  rw [recordAll_append]
  exact ⟨fun marked => (failed_recordAll _ after).mpr (.inl marked),
    fun marked => (skipped_recordAll _ after).mpr (.inl marked)⟩

end Deed

namespace Flow

open Deed

/-- A sub-run has a trace, and each of its traces accounts for what is recorded: for its own marks,
for the answer to the flow that started it, for the marks of that flow, and for the cases of the
sub-runs in it at every depth. No mark is taken back on the way. -/
theorem runChild_accounts (levels : Nat) (name : String) (body : Script ν .flow) (s : State ν t) :
    let flow : Flow ν .flow Unit := body.exec (Deeper.within levels)
    let start : State ν .flow := ⟨s.world, s.recorder.child name, ()⟩
    let step := (Flow.runChild name flow).run s
    let ended := (Flow.settle (flow.run start)).recorder
    (∃ deeds, Settles (.all true) flow start deeds) ∧
    ∀ deeds, Settles (.all true) flow start deeds →
      (ended.failed = true ↔ Fails deeds) ∧ (ended.skipped = true ↔ Skips deeds) ∧
      (∃ passed, step.result = .ok passed ∧ (passed = true ↔ ¬ Fails deeds)) ∧
      (step.state.recorder.failed = true ↔ s.recorder.failed = true ∨ Fails deeds) ∧
      step.state.recorder.skipped = s.recorder.skipped ∧
      (∃ newer, step.state.recorder.cases = s.recorder.cases ++ newer ∧
        List.Forall₂ Accounts newer (finished s.recorder.path (.ran name deeds))) ∧
      ∀ before after, deeds = before ++ after →
        ((recordAll start.recorder before).failed = true → ended.failed = true) ∧
        ((recordAll start.recorder before).skipped = true → ended.skipped = true) := by
  intro flow start step ended
  have traceable : Traceable true flow := (Composed.exec body).traceable (traceable_deeper levels)
  refine ⟨traceable.settles start, fun deeds settles => ?_⟩
  have shown : ended = recordAll start.recorder deeds := settles.shows.recorder
  have failed : ended.failed = true ↔ Fails deeds := by
    rw [shown, failed_recordAll]
    exact or_iff_right Bool.false_ne_true
  have skipped : ended.skipped = true ↔ Skips deeds := by
    rw [shown, skipped_recordAll]
    exact or_iff_right Bool.false_ne_true
  have merged : step.state.recorder = s.recorder.merge ended name :=
    congrArg (·.state.recorder) (Likeness.run_runChild name flow s)
  refine ⟨failed, skipped, ⟨!ended.failed, rfl, ?_⟩, ?_, ?_, ?_, ?_⟩
  · rw [← failed, Bool.not_eq_true', Bool.not_eq_true]
  · rw [merged, ← failed]
    simp [Recorder.merge]
  · rw [merged]
    rfl
  · obtain ⟨newer, cases, accounts⟩ := cases_record s.recorder (.ran name deeds)
    refine ⟨newer, ?_, accounts⟩
    rw [← cases, merged, shown]
    rfl
  · rintro before after rfl
    rw [shown]
    exact marks_stay start.recorder before after

end Flow
end NestedSpec
