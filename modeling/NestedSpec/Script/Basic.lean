import NestedSpec.Script

/-!
# Composed requests

The requests that scripts make are few; what user code usually calls is composed of them.
-/

namespace NestedSpec.Script

variable {ν : Type} {t : Target}

def error (message : String) (next : Script ν t) : Script ν t :=
  .log message (.fail next)

def fatal (message : String) : Script ν t :=
  .log message .failNow

def skipWith (message : String) : Script ν t :=
  .log message .skipNow

/-- Gives a variable of the environment a value for the rest of the flow, or removes it; it is as
before when the flow has ended. -/
def putEnvironment (key : String) (value : Option String) (next : Script ν t) : Script ν t :=
  .environment key fun previous =>
    .setEnvironment key value (.cleanup (.setEnvironment key previous .done) next)

def resume (outcome : Outcome) (next : Script ν t) : Script ν t :=
  match outcome.stop? with
  | none => next
  | some reason => .stop reason

def describeLeaf (next : String → Script ν .leaf) : Script ν .leaf :=
  .name fun title => .tags fun tags => .counts fun cached deferred =>
    next ("T \x7b name: " ++ Text.quote title ++
      ", tags: [" ++ ", ".intercalate (tags.map Text.quote) ++
      "], cached: " ++ toString cached ++ ", deferred: " ++ toString deferred ++ " \x7d")

def draw {α : Type} (drawing : NestedSpec.Random → α × NestedSpec.Random)
    (next : α → Script ν .leaf) : Script ν .leaf :=
  .random fun source =>
    let (value, source) := drawing source
    .setRandom source (next value)

def evaluate (next : Value → Script ν .leaf) : Expression → Script ν .leaf
  | .constant value => next value
  | .read key rest => .get key fun value => evaluate next (rest value)

/-- Goes on with another script where a script comes to its end. -/
def andThen : {t : Target} → Script ν t → Script ν t → Script ν t
  | _, .done, last => last
  | _, .stop reason, _ => .stop reason
  | _, .note entry next, last => .note entry (next.andThen last)
  | _, .log message next, last => .log message (next.andThen last)
  | _, .fail next, last => .fail (next.andThen last)
  | _, .failNow, _ => .failNow
  | _, .skipNow, _ => .skipNow
  | _, .name next, last => .name fun title => (next title).andThen last
  | _, .failed next, last => .failed fun mark => (next mark).andThen last
  | _, .skipped next, last => .skipped fun mark => (next mark).andThen last
  | _, .cleanup body next, last => .cleanup body (next.andThen last)
  | _, .tempDir next, last => .tempDir fun number => (next number).andThen last
  | _, .directories next, last => .directories fun existing => (next existing).andThen last
  | _, .run title body next, last => .run title body fun passed => (next passed).andThen last
  | _, .guard body next, last => .guard body fun outcome => (next outcome).andThen last
  | _, .environment key next, last => .environment key fun value => (next value).andThen last
  | _, .setEnvironment key value next, last => .setEnvironment key value (next.andThen last)
  | _, .spec config body next, last => .spec config body (next.andThen last)
  | _, .defer body next, last => .defer body (next.andThen last)
  | _, .tags next, last => .tags fun names => (next names).andThen last
  | _, .counts next, last => .counts fun cached deferred => (next cached deferred).andThen last
  | _, .random next, last => .random fun source => (next source).andThen last
  | _, .setRandom source next, last => .setRandom source (next.andThen last)
  | _, .get key next, last => .get key fun value => (next value).andThen last
  | _, .getOrDefault key next, last => .getOrDefault key fun value => (next value).andThen last
  | _, .set key value next, last => .set key value (next.andThen last)

end NestedSpec.Script

namespace NestedSpec.Registration

variable {ν : Type}

def describeWhen (name : String) (place : Location) (body next : Registration ν) :
    Registration ν :=
  .describe ("when " ++ name) place body next

def describeAnd (name : String) (place : Location) (body next : Registration ν) :
    Registration ν :=
  .describe ("and " ++ name) place body next

def suite (name : String) (place : Location) (body next : Registration ν) : Registration ν :=
  .describe name place body next

/-- Binds an initialiser and reads the variable before every leaf. -/
def letEager (name : String) (init : Initialiser ν) (next : Registration ν) : Registration ν :=
  .letInit name init (.eager name next)

def letVar (name label : String) (kind : ValueKind) (init : Initialiser ν)
    (next : Registration ν) : Registration ν :=
  .declare name label kind (.letInit name init next)

end NestedSpec.Registration
