import NestedSpec.Assertion
import NestedSpec.Host

/-!
# The contract of flows

What every kind of flow promises, as a suite. A check runs a script on a flow under test, its
subject, with a journal of what the script saw there, and asserts about the sightings. A subject is
a recorder with faults; a fault changes what scripts, their sub-runs and their cleanups meet, so it
is a function on scripts.
-/

namespace NestedSpec.Contract

structure Faults where
  neverSkipped : Bool := false
  neverFailed : Bool := false
  noDirectories : Bool := false
  runsPass : Bool := false
  dropsCleanups : Bool := false
  eagerCleanups : Bool := false
  emptyName : Bool := false
  skipFails : Bool := false
  ignoresRuns : Bool := false
deriving Repr, DecidableEq

inductive Sighting where
  | step (number : Int)
  | passed (answer : Bool)
  | failed (answer : Bool)
  | marks (skipped failed : Bool)
  | name (text : String)
  | directory (made : Bool)
  | existing (answers : List Bool)
deriving Repr, DecidableEq

abbrev Probe := Script Sighting .flow

def withFaults (faults : Faults) : {t : Target} → Script Sighting t → Script Sighting t
  | _, .done => .done
  | _, .stop reason => .stop reason
  | _, .note entry next => .note entry (withFaults faults next)
  | _, .log message next => .log message (withFaults faults next)
  | _, .fail next => .fail (withFaults faults next)
  | _, .failNow => .failNow
  | _, .skipNow => if faults.skipFails then .failNow else .skipNow
  | _, .name next =>
    if faults.emptyName then withFaults faults (next "")
    else .name fun title => withFaults faults (next title)
  | _, .failed next =>
    if faults.neverFailed then withFaults faults (next false)
    else .failed fun mark => withFaults faults (next mark)
  | _, .skipped next =>
    if faults.neverSkipped then withFaults faults (next false)
    else .skipped fun mark => withFaults faults (next mark)
  | .flow, .cleanup body next =>
    if faults.eagerCleanups then (withFaults faults body).andThen (withFaults faults next)
    else if faults.dropsCleanups then withFaults faults next
    else .cleanup (withFaults faults body) (withFaults faults next)
  | .leaf, .cleanup body next => .cleanup (withFaults faults body) (withFaults faults next)
  | _, .tempDir next =>
    if faults.noDirectories then withFaults faults (next none)
    else .tempDir fun number => withFaults faults (next number)
  | _, .directories next => .directories fun existing => withFaults faults (next existing)
  | _, .run title body next =>
    if faults.ignoresRuns then withFaults faults (next true)
    else
      .run title (withFaults faults body) fun passed =>
        withFaults faults (next (faults.runsPass || passed))
  | _, .guard body next =>
    .guard (withFaults faults body) fun outcome => withFaults faults (next outcome)
  | _, .environment key next => .environment key fun value => withFaults faults (next value)
  | _, .setEnvironment key value next => .setEnvironment key value (withFaults faults next)
  | _, .spec config body next => .spec config body (withFaults faults next)
  | _, .defer body next => .defer (withFaults faults body) (withFaults faults next)
  | _, .tags next => .tags fun names => withFaults faults (next names)
  | _, .counts next => .counts fun cached deferred => withFaults faults (next cached deferred)
  | _, .random next => .random fun source => withFaults faults (next source)
  | _, .setRandom source next => .setRandom source (withFaults faults next)
  | _, .get key next => .get key fun value => withFaults faults (next value)
  | _, .getOrDefault key next => .getOrDefault key fun value => withFaults faults (next value)
  | _, .set key value next => .set key value (withFaults faults next)

def sightings (name : String) (faults : Faults) (probe : Probe) : List Sighting :=
  let host := Host.ofRecorder {} (.new name)
  (host.perform (withFaults faults probe).perform).2.state.world.journal.toList

/-- What is asserted about some sightings, one assertion after another; a check may also be given up
for a reason. -/
inductive Verdict where
  | all (assertions : List Check)
  | notSupported (reason : String)

/-- A promise that flows make. -/
structure Promise where
  description : String
  probe : Probe
  verdict : List Sighting → Verdict

def passedIn (seen : List Sighting) : Bool :=
  (seen.findSome? fun
    | .passed answer => some answer
    | _ => none).getD false

def failedIn (seen : List Sighting) : Bool :=
  (seen.reverse.findSome? fun
    | .failed answer => some answer
    | _ => none).getD false

def stepsIn (seen : List Sighting) : List Int :=
  seen.filterMap fun
    | .step number => some number
    | _ => none

def marksIn (seen : List Sighting) : Option (Bool × Bool) :=
  seen.reverse.findSome? fun
    | .marks skipped failed => some (skipped, failed)
    | _ => none

def namesIn (seen : List Sighting) : List String :=
  seen.filterMap fun
    | .name text => some text
    | _ => none

def subRun (name : String) (body : Probe) (next : Probe := .done) : Probe :=
  .run name body fun passed => .note (.passed passed) next

def failedNow (next : Probe := .done) : Probe :=
  .failed fun mark => .note (.failed mark) next

def stepsAre (expected : List Int) (seen : List Sighting) : Verdict :=
  .all [.equal (.list (expected.map Datum.int)) (.list ((stepsIn seen).map Datum.int))]

def marksDatum (marks : Option (Bool × Bool)) : Datum :=
  match marks with
  | none => Datum.none
  | some (skipped, failed) => Datum.some (.tuple "" [.bool skipped, .bool failed])

def promises : List Promise := [
  { description := "fail marks the flow failed and keeps going"
    probe := subRun "fail" (.fail (.note (.step 1) .done)) failedNow
    verdict := fun seen =>
      .all [.isTrue (!(stepsIn seen).isEmpty), .isFalse (passedIn seen), .isTrue (failedIn seen)] },
  { description := "fail_now exits the flow"
    probe := subRun "fail_now" (.note (.step 1) .failNow)
    verdict := fun seen =>
      .all [.equal (.int 1) (.int (stepsIn seen).length), .isFalse (passedIn seen)] },
  { description := "run reports a passing body"
    probe := subRun "pass" (.log "ok" .done) failedNow
    verdict := fun seen => .all [.isTrue (passedIn seen), .isFalse (failedIn seen)] },
  { description := "skip is not a failure"
    probe :=
      subRun "skip"
        (.cleanup
          (.skipped fun skipped => .failed fun failed => .note (.marks skipped failed) .done)
          (Script.skipWith "not today"))
        failedNow
    verdict := fun seen =>
      .all [.isTrue (passedIn seen), .isFalse (failedIn seen),
        .equal (marksDatum (some (true, false))) (marksDatum (marksIn seen))] },
  { description := "error marks the flow failed"
    probe := subRun "error" (Script.error "boom" .done) failedNow
    verdict := fun seen => .all [.isTrue (failedIn seen)] },
  { description := "cleanups run last in first out"
    probe :=
      subRun "cleanup"
        (.cleanup (.note (.step 2) .done) (.cleanup (.note (.step 4) .done) .done))
    verdict := stepsAre [4, 2] },
  { description := "cleanups still run after fail_now"
    probe := subRun "cleanup" (.cleanup (.note (.step 1) .done) .failNow)
    verdict := stepsAre [1] },
  { description := "a cleanup registered by a cleanup still runs"
    probe :=
      subRun "nested cleanup"
        (.cleanup (.note (.step 1) (.cleanup (.note (.step 2) .done) .done)) .done)
    verdict := stepsAre [1, 2] },
  { description := "temp_dir is removed when the flow ends"
    probe :=
      subRun "temp dir" (.tempDir fun number => .note (.directory number.isSome) .done)
        (.directories fun existing => .note (.existing existing) .done)
    verdict := fun seen =>
      if seen.contains (.directory true) then
        .all [.isFalse (seen.any fun
          | .existing answers => answers.contains true
          | _ => false)]
      else .notSupported "adapter has no temp dir support" },
  { description := "name is not empty"
    probe :=
      .name fun own => .note (.name own)
        (subRun "child" (.name fun inner => .note (.name inner) .done))
    verdict := fun seen =>
      .all [.isFalse ((namesIn seen).headD "" == ""),
        .isTrue (((namesIn seen)[1]?.getD "").endsWith "child")] }]

variable {ν : Type}

def Verdict.script : Verdict → Script ν .leaf
  | .all assertions => assertions.foldr (fun check next => .assert .must check next) .done
  | .notSupported reason => .skipWith reason

def suiteName : String := "TB contract"

def registration (place : Location) (subject : String) (faults : Faults) : Registration ν :=
  promises.foldr (fun promise next =>
    .leaf promise.description place
      (promise.verdict (sightings subject faults promise.probe)).script next) .done

end NestedSpec.Contract
