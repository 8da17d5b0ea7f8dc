import NestedSpec.Text.Quoted
import NestedSpec.Text.Blank
import NestedSpec.Text.Lines
import NestedSpec.Report

/-!
# Configuration

The settings of a run, read from named texts such as the variables of a process. A blank text
counts as missing. A text that cannot be read leaves its setting at the default and is reported.
-/

namespace NestedSpec

inductive Mode where
  /-- As registered. -/
  | defined
  /-- By place in the source. -/
  | file
  | random
deriving Repr, DecidableEq

structure Config where
  ordering : Mode
  /-- The seed of shuffles and of the values that leaves draw. -/
  seed : UInt64
  term : Option String
  /-- Report the whole tree, not only failures. -/
  verbose : Bool
  tagInclude : List String
  tagExclude : List String
deriving Repr, DecidableEq

def orderingKey : String := "TESTCASE_ORDERING_MOD"
def seedKey : String := "TESTCASE_SEED"
def tagIncludeKey : String := "TESTCASE_TAG_INCLUDE"
def tagExcludeKey : String := "TESTCASE_TAG_EXCLUDE"
def verboseKey : String := "TESTCASE_VERBOSE"
def termKey : String := "TERM"

inductive IntegerError where
  | empty
  | invalidDigit
  | tooLarge
  | tooSmall
deriving Repr, DecidableEq

inductive ConfigError where
  | invalidOrdering (value : String)
  | invalidSeed (value : String) (reason : IntegerError)
  | invalidFlag (key value : String)
deriving Repr, DecidableEq

def IntegerError.message : IntegerError → String
  | .empty => "cannot parse integer from empty string"
  | .invalidDigit => "invalid digit found in string"
  | .tooLarge => "number too large to fit in target type"
  | .tooSmall => "number too small to fit in target type"

namespace ConfigError

def message : ConfigError → String
  | .invalidOrdering value =>
    "invalid " ++ orderingKey ++ " value " ++ Text.quote value ++
      ", expected one of: defined, file, random"
  | .invalidSeed value reason =>
    "invalid " ++ seedKey ++ " value " ++ Text.quote value ++ ": " ++ reason.message
  | .invalidFlag key value => "invalid boolean " ++ Text.quote value ++ " for " ++ key

def code : ConfigError → String
  | .invalidOrdering _ => "testcase::config::ordering"
  | .invalidSeed _ _ => "testcase::config::seed"
  | .invalidFlag _ _ => "testcase::config::flag"

def help : ConfigError → Option String
  | .invalidSeed _ _ => some "the seed must be a 64-bit integer"
  | _ => none

end ConfigError

namespace Mode

def name : Mode → String
  | .defined => "defined"
  | .file => "file"
  | .random => "random"

def ofName? (name : String) : Option Mode :=
  [defined, file, random].find? fun mode => mode.name == name

/-- The mode that a text names; white space around it and the case of letters do not matter. -/
def parse (text : String) : Except ConfigError Mode :=
  match ofName? (Text.toAsciiLower (Text.trim text)) with
  | some mode => .ok mode
  | none => .error (.invalidOrdering text)

@[simp] theorem ofName?_name (mode : Mode) : ofName? mode.name = some mode := by
  cases mode <;> decide

end Mode

def digitValue? (c : Char) : Option Nat :=
  if '0' ≤ c ∧ c ≤ '9' then some (c.toNat - '0'.toNat) else none

def readDigits (limit : Nat) (overflow : IntegerError) :
    Nat → List Char → Except IntegerError Nat
  | value, [] => .ok value
  | value, c :: rest =>
    match digitValue? c with
    | none => .error .invalidDigit
    | some digit =>
      let next := 10 * value + digit
      if limit < next then .error overflow else readDigits limit overflow next rest

def readUnsigned : List Char → Except IntegerError Nat
  | [] => .error .empty
  | ['+'] | ['-'] => .error .invalidDigit
  | '+' :: digits => readDigits (UInt64.size - 1) .tooLarge 0 digits
  | digits => readDigits (UInt64.size - 1) .tooLarge 0 digits

def readSigned : List Char → Except IntegerError Int
  | [] => .error .empty
  | ['+'] | ['-'] => .error .invalidDigit
  | '+' :: digits => (readDigits (UInt64.size / 2 - 1) .tooLarge 0 digits).map Int.ofNat
  | '-' :: digits => (readDigits (UInt64.size / 2) .tooSmall 0 digits).map fun n => -(n : Int)
  | digits => (readDigits (UInt64.size / 2 - 1) .tooLarge 0 digits).map Int.ofNat

/-- A seed is a number of 64 bits; a negative one stands for its two's complement. -/
def parseSeed (raw : String) : Except ConfigError UInt64 :=
  let chars := Text.trimBlank raw.toList
  match readUnsigned chars with
  | .ok value => .ok (UInt64.ofNat value)
  | .error _ =>
    match readSigned chars with
    | .ok value => .ok (UInt64.ofInt value)
    | .error reason => .error (.invalidSeed raw reason)

/-- A flag is one of four words for yes and four words for no. -/
def parseFlag (key raw : String) : Except ConfigError Bool :=
  let word := Text.toAsciiLower (Text.trim raw)
  if ["1", "true", "yes", "on"].contains word then .ok true
  else if ["0", "false", "no", "off"].contains word then .ok false
  else .error (.invalidFlag key raw)

/-- The tags of a list with commas, without white space around them and without blank ones. -/
def splitTags (raw : String) : List String :=
  ((Text.splitAtChar ',' raw).map Text.trim).filter (· ≠ "")

namespace Config

/-- The settings when nothing is set; `fresh` is a seed that was drawn for this run. -/
def default (fresh : UInt64) : Config where
  ordering := .random
  seed := fresh
  term := none
  verbose := false
  tagInclude := []
  tagExclude := []

def present (lookup : String → Option String) (key : String) : Option String :=
  (lookup key).filter fun value => !Text.isAllBlank value

/-- Reads one setting; an unreadable text is reported and leaves the default. -/
def setting {α : Type} (raw : Option String) (read : String → Except ConfigError α) (start : α) :
    α × List ConfigError :=
  match raw with
  | none => (start, [])
  | some text =>
    match read text with
    | .ok value => (value, [])
    | .error error => (start, [error])

def resolve (fresh : UInt64) (lookup : String → Option String) : Config × List ConfigError :=
  let start := default fresh
  let (ordering, orderingErrors) :=
    setting (present lookup orderingKey) Mode.parse start.ordering
  let (seed, seedErrors) := setting (present lookup seedKey) parseSeed start.seed
  let (verbose, verboseErrors) :=
    setting (present lookup verboseKey) (parseFlag verboseKey) start.verbose
  let tags (key : String) : List String := ((present lookup key).map splitTags).getD []
  let config : Config :=
    { ordering, seed, verbose
      term := lookup termKey
      tagInclude := tags tagIncludeKey
      tagExclude := tags tagExcludeKey }
  (config, orderingErrors ++ seedErrors ++ verboseErrors)

def fromLookup (fresh : UInt64) (lookup : String → Option String) : Except ConfigError Config :=
  match resolve fresh lookup with
  | (config, []) => .ok config
  | (_, error :: _) => .error error

def reportStyle (config : Config) : ReportStyle where
  verbose := config.verbose
  colour := Terminal.showsColour config.term

end Config
end NestedSpec
