import NestedSpec.Proofs.Environment
import NestedSpec.Proofs.Tracing

/-!
# Traces of hosts

What is done with a host has a trace as a flow has one: scripts run on the host, and the cleanups
that wait on it run when it is finished. The trace says which cleanups wait, too, the newest first.
-/

namespace NestedSpec

variable {ν : Type}

/-- Whatever a script does, there is a trace of it. -/
theorem Script.traceable (levels : Nat) {t : Target} (body : Script ν t) :
    Traceable true (body.exec (Deeper.within levels)) :=
  (Composed.exec body).traceable (traceable_deeper levels)

/-- Whatever a leaf does, there is a trace of it. -/
theorem Runner.traceable_runLeaf (levels : Nat) (config : Config) (mode : RunMode) (chain : Chain ν)
    (leaf : Leaf ν) :
    Traceable true (Runner.runLeaf ⟨config, mode, Deeper.within levels⟩ chain leaf) := by
  let runner : Runner ν := ⟨config, mode, Deeper.within levels⟩
  have composed : Composed runner.deeper true (runner.runLeaf chain leaf) := .runLeaf chain leaf
  exact composed.traceable (traceable_deeper levels)

namespace Host

def waiting (s : State ν .flow) (duties : List (Duty ν)) : Host ν :=
  ⟨s, duties.map Duty.cleanup⟩

inductive Acts : State ν .flow → List (Duty ν) → List (Use ν) → List (Deed ν) →
    State ν .flow → List (Duty ν) → Prop
  | nil (s : State ν .flow) (duties : List (Duty ν)) : Acts s duties [] [] s duties
  | perform {s final : State ν .flow} {duties pushed left : List (Duty ν)} {script : Script ν .flow}
      {deeds later : List (Deed ν)} {bodies : List (Flow ν .leaf Unit)} {rest : List (Use ν)}
      (does : Does (.all true) script.perform s deeds bodies pushed)
      (acts : Acts (script.perform.run s).state (pushed ++ duties) rest later final left) :
      Acts s duties (.perform script :: rest) (deeds ++ later) final left
  | execute {s final : State ν .flow} {duties pushed left : List (Duty ν)} {script : Script ν .flow}
      {deeds later : List (Deed ν)} {bodies : List (Flow ν .leaf Unit)} {rest : List (Use ν)}
      (does : Does (.all true) script.perform s deeds bodies pushed)
      (acts : Acts (script.perform.absorbed s) (pushed ++ duties) rest later final left) :
      Acts s duties (.execute script :: rest)
        (deeds ++ .ended (script.perform.outcome s) :: later) final left
  | finish {s final : State ν .flow} {duties left : List (Duty ν)} {deeds later : List (Deed ν)}
      {rest : List (Use ν)} (cleans : CleansUp (.all true) duties s deeds)
      (acts : Acts (Flow.runCleanups (duties.map Duty.cleanup) s) [] rest later final left) :
      Acts s duties (.finish :: rest) (deeds ++ later) final left

variable {s final : State ν .flow} {duties pushed left : List (Duty ν)} {script : Script ν .flow}
  {uses : List (Use ν)} {deeds : List (Deed ν)} {bodies : List (Flow ν .leaf Unit)}

theorem use_perform_waiting (does : Does (.all true) script.perform s deeds bodies pushed) :
    (waiting s duties).use (.perform script) =
      waiting (script.perform.run s).state (pushed ++ duties) := by
  have cleanups := does.tells.cleanups
  simp only [waiting, Host.use, Host.perform, cleanups, List.map_append]

theorem use_execute_waiting (does : Does (.all true) script.perform s deeds bodies pushed) :
    (waiting s duties).use (.execute script) =
      waiting (script.perform.absorbed s) (pushed ++ duties) := by
  have cleanups := does.tells.cleanups
  simp only [waiting, Host.use, Host.execute, Host.perform, cleanups, List.map_append]
  rfl

/-- The trace says what is left of the host, and what its recorder shows. -/
theorem Acts.tells (acts : Acts s duties uses deeds final left) :
    uses.foldl Host.use (waiting s duties) = waiting final left ∧ Shows s final deeds := by
  induction acts with
  | nil s => exact ⟨rfl, .refl s⟩
  | perform does _ ih =>
    rw [List.foldl_cons, use_perform_waiting does]
    exact ⟨ih.1, does.tells.shows.trans ih.2⟩
  | @execute s _ _ _ _ script deeds later _ _ does _ ih =>
    rw [List.foldl_cons, use_execute_waiting does]
    have absorbed := does.tells.shows.trans (.absorb (script.perform.outcome s) _)
    have whole := absorbed.trans ih.2
    rw [List.append_assoc] at whole
    exact ⟨ih.1, whole⟩
  | finish cleans _ ih => exact ⟨ih.1, cleans.shows.trans ih.2⟩

/-- Whatever is done with a host, there is a trace. -/
theorem exists_acts (uses : List (Use ν)) (s : State ν .flow) {duties : List (Duty ν)}
    (ready : CleanupsReady duties) :
    ∃ deeds final left, Acts s duties uses deeds final left ∧ CleanupsReady left := by
  induction uses generalizing s duties with
  | nil => exact ⟨[], s, duties, .nil s duties, ready⟩
  | cons use rest ih =>
    cases use with
    | perform script =>
      obtain ⟨deeds, bodies, pushed, does, -, readyPushed⟩ := traceable_iff.mp (script.traceable callDepth) s
      obtain ⟨later, final, left, acts, readyLeft⟩ :=
        ih (script.perform.run s).state (ready.append readyPushed)
      exact ⟨_, final, left, .perform does acts, readyLeft⟩
    | execute script =>
      obtain ⟨deeds, bodies, pushed, does, -, readyPushed⟩ := traceable_iff.mp (script.traceable callDepth) s
      obtain ⟨later, final, left, acts, readyLeft⟩ :=
        ih (script.perform.absorbed s) (ready.append readyPushed)
      exact ⟨_, final, left, .execute does acts, readyLeft⟩
    | finish =>
      obtain ⟨deeds, cleans⟩ := exists_cleansUp true ready s
      obtain ⟨later, final, left, acts, readyLeft⟩ := ih _ cleanupsReady_nil
      exact ⟨_, final, left, .finish cleans acts, readyLeft⟩

end Host
end NestedSpec
