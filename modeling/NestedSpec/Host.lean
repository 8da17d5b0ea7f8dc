import NestedSpec.Session

/-!
# Hosts

A host is a recorder of its own with the cleanups that wait on it. Flows run on it, it is finished
by running its cleanups, and what it has reported can be printed or played back on another host.
-/

namespace NestedSpec

variable {ν : Type}

/-- A recorder with its waiting cleanups, newest first, in a world. -/
structure Host (ν : Type) where
  state : State ν .flow
  pending : List (Cleanup ν) := []

namespace Host

/-- A host that has reported nothing. -/
def ofRecorder (world : World ν) (recorder : Recorder) : Host ν :=
  ⟨⟨world, recorder, ()⟩, []⟩

def nameFor (thread : Option String) : String :=
  thread.getD "testcase"

/-- Runs a flow on the host; its cleanups go on top of those that wait. -/
def perform {α : Type} (host : Host ν) (body : Flow ν .flow α) : Except Stop α × Host ν :=
  let step := body.run host.state
  (step.result, ⟨step.state, step.cleanups ++ host.pending⟩)

/-- Runs a flow on the host and takes into account how it ended. -/
def execute (host : Host ν) (body : Flow ν .flow Unit) : Host ν :=
  let (result, host) := host.perform body
  { host with
    state := { host.state with recorder := host.state.recorder.absorb (.ofExcept result) } }

/-- Runs the waiting cleanups. -/
def finish (host : Host ν) : Host ν :=
  ⟨Flow.runCleanups host.pending host.state, []⟩

/-- Gives up the host without running its cleanups; only its directories go. -/
def abandon (host : Host ν) : World ν :=
  { host.state.world with directories := host.state.world.directories.map fun _ => false }

def summary (host : Host ν) (config : Config) : String × Host ν :=
  let host := host.finish
  (host.state.recorder.summary config, host)

def conclude (host : Host ν) (config : Config) : Outcome × String × World ν :=
  let (summary, host) := host.summary config
  let recorder := host.state.recorder
  (if recorder.failed then .panicked (.text (recorder.name ++ " failed")) else .completed,
    if summary = "" then "" else summary ++ "\n", host.state.world)

def intoReport (host : Host ν) : RunReport × World ν :=
  let host := host.finish
  (host.state.recorder.report, host.state.world)

/-- Runs a spec on a host for the current thread and concludes it. A panic while the spec is being
declared passes through, and nothing is printed. -/
def runSpec (world : World ν) (thread : Option String) (config : Config)
    (body : Registration ν) : Outcome × String × World ν :=
  let host := ofRecorder world (.new (nameFor thread))
  match host.perform (body.perform .test config) with
  | (.error stop, host) => (.ofStop stop, "", host.abandon)
  | (.ok _, host) => host.conclude config

end Host
end NestedSpec
