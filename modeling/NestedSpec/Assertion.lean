import NestedSpec.Datum
import NestedSpec.LineDiff
import NestedSpec.Script.Basic

/-!
# Assertions

What an assertion checks and what it says when the check fails. An assertion that must hold ends the
flow, one that should hold only marks it.
-/

namespace NestedSpec

inductive Check where
  | equal (expected actual : Datum)
  | notEqual (unexpected actual : Datum)
  | isTrue (condition : Bool)
  | isFalse (condition : Bool)
  | contains (haystack needle : String)
  | isSome (value : Option Datum)
  | isNone (value : Option Datum)
  | isOk (value : Except Datum Datum)
  | isErr (value : Except Datum Datum)

/-- What a failed assertion does to the flow. -/
inductive Severity where
  | must
  | should
deriving Repr, DecidableEq

def Severity.text : Severity → String
  | must => "Must"
  | should => "Should"

def occursIn (needle : List Char) : List Char → Bool
  | [] => needle.isEmpty
  | c :: rest => needle.isPrefixOf (c :: rest) || occursIn needle rest

def Check.complaint? : Check → Option String
  | equal expected actual =>
    if expected.same actual then none
    else
      some ("values are not equal (-expected +actual):\n" ++
        LineDiff.render expected.spread actual.spread)
  | notEqual unexpected actual =>
    if unexpected.same actual then some ("expected a value other than " ++ actual.inline) else none
  | isTrue condition => if condition then none else some "expected true, got false"
  | isFalse condition => if condition then some "expected false, got true" else none
  | contains haystack needle =>
    if occursIn needle.toList haystack.toList then none
    else some (Text.quote haystack ++ " does not contain " ++ Text.quote needle)
  | isSome value => if value.isSome then none else some "expected Some(..), got None"
  | isNone value => value.map fun v => "expected None, got Some(" ++ v.inline ++ ")"
  | isOk value =>
    match value with
    | .ok _ => none
    | .error e => some ("expected Ok(..), got Err(" ++ e.inline ++ ")")
  | isErr value =>
    match value with
    | .ok v => some ("expected Err(..), got Ok(" ++ v.inline ++ ")")
    | .error _ => none

/-- Asserts something and goes on, if the assertion lets the flow go on. -/
def Script.assert {ν : Type} {t : Target} (severity : Severity) (check : Check)
    (next : Script ν t) : Script ν t :=
  match check.complaint? with
  | none => next
  | some message =>
    match severity with
    | .must => Script.fatal message
    | .should => Script.error message next

end NestedSpec
