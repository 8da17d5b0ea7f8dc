import NestedSpec.Config

/-!
# Blank settings

A setting whose text is blank counts as missing, so it keeps its default and is not complained of.
The terminal is the exception: its text is taken as it is.
-/

namespace NestedSpec.Config

def settingKeys : List String :=
  [orderingKey, seedKey, verboseKey, termKey, tagIncludeKey, tagExcludeKey]

def isBlankAt (lookup : String → Option String) (key : String) : Bool :=
  (lookup key).any Text.isAllBlank

def withoutBlanks (lookup : String → Option String) (key : String) : Option String :=
  if settingKeys.contains key && isBlankAt lookup key then none else lookup key

variable {lookup : String → Option String} {key : String} {fresh : UInt64}

theorem present_eq (lookup : String → Option String) (key : String) :
    present lookup key = if isBlankAt lookup key then none else lookup key := by
  cases found : lookup key with
  | none => simp [present, isBlankAt, found]
  | some text =>
    by_cases blank : Text.isAllBlank text = true <;> simp [present, isBlankAt, found, blank]

theorem withoutBlanks_eq_present (member : key ∈ settingKeys) :
    withoutBlanks lookup key = present lookup key := by
  rw [withoutBlanks, present_eq, List.contains_eq_mem, decide_eq_true member, Bool.true_and]

theorem present_withoutBlanks (member : key ∈ settingKeys) :
    present (withoutBlanks lookup) key = present lookup key := by
  simp only [present, withoutBlanks_eq_present member, Option.filter_filter, Bool.and_self]

structure KeepsDefaults (fresh : UInt64) (lookup : String → Option String) (config : Config) :
    Prop where
  ordering : withoutBlanks lookup orderingKey = none → config.ordering = (default fresh).ordering
  seed : withoutBlanks lookup seedKey = none → config.seed = (default fresh).seed
  verbose : withoutBlanks lookup verboseKey = none → config.verbose = (default fresh).verbose
  tagInclude :
    withoutBlanks lookup tagIncludeKey = none → config.tagInclude = (default fresh).tagInclude
  tagExclude :
    withoutBlanks lookup tagExcludeKey = none → config.tagExclude = (default fresh).tagExclude

theorem keepsDefaults_resolve (fresh : UInt64) (lookup : String → Option String) :
    KeepsDefaults fresh lookup (resolve fresh lookup).1 := by
  constructor <;> intro missing <;> rw [withoutBlanks_eq_present (by decide)] at missing <;>
    simp [resolve, setting, missing, default]

theorem resolve_withoutBlanks (fresh : UInt64) (lookup : String → Option String) :
    resolve fresh (withoutBlanks lookup) =
      ({ (resolve fresh lookup).1 with term := present lookup termKey },
        (resolve fresh lookup).2) := by
  have same (key : String) (member : key ∈ settingKeys) :
      present (withoutBlanks lookup) key = present lookup key := present_withoutBlanks member
  simp only [resolve]
  rw [same orderingKey (by decide), same seedKey (by decide), same verboseKey (by decide),
    same tagIncludeKey (by decide), same tagExcludeKey (by decide),
    withoutBlanks_eq_present (by decide)]

theorem fromLookup_eq_ok_iff {config : Config} :
    fromLookup fresh lookup = .ok config ↔ resolve fresh lookup = (config, []) := by
  rw [fromLookup]
  cases resolve fresh lookup with
  | mk found errors => cases errors <;> simp

theorem fromLookup_eq_error_iff {error : ConfigError} :
    fromLookup fresh lookup = .error error ↔ (resolve fresh lookup).2.head? = some error := by
  rw [fromLookup]
  cases resolve fresh lookup with
  | mk found errors => cases errors <;> simp

/-- Settings and complaints are those of the lookup without the blank texts, but for the terminal,
whose text is taken even if it is blank. Asked for the settings alone, the first complaint is given
in their place. -/
theorem resolve_ignores_blanks (fresh : UInt64) (lookup : String → Option String) :
    resolve fresh lookup =
      ({ (resolve fresh (withoutBlanks lookup)).1 with term := lookup termKey },
        (resolve fresh (withoutBlanks lookup)).2) ∧
    (resolve fresh lookup = resolve fresh (withoutBlanks lookup) ↔
      isBlankAt lookup termKey = false) ∧
    KeepsDefaults fresh lookup (resolve fresh lookup).1 ∧
    (∀ config, fromLookup fresh lookup = .ok config ↔ resolve fresh lookup = (config, [])) ∧
    ∀ error, fromLookup fresh lookup = .error error ↔
      (resolve fresh lookup).2.head? = some error := by
  have cleaned := resolve_withoutBlanks fresh lookup
  have term : (resolve fresh lookup).1.term = lookup termKey := rfl
  refine ⟨?_, ?_, keepsDefaults_resolve fresh lookup, fun config => fromLookup_eq_ok_iff,
    fun error => fromLookup_eq_error_iff⟩
  · rw [cleaned, ← term]
  · rw [cleaned]
    constructor
    · intro same
      have kept : lookup termKey = present lookup termKey :=
        term.symm.trans (congrArg (fun resolved => resolved.1.term) same)
      cases blank : isBlankAt lookup termKey with
      | false => rfl
      | true =>
        rw [present_eq, if_pos blank] at kept
        simp [isBlankAt, kept] at blank
    · intro given
      rw [present_eq, if_neg (by simp [given]), ← term]

/-- With a blank terminal the settings are not those of the lookup without it. -/
theorem blank_terminal_is_kept :
    let lookup := fun key => if key = termKey then some " " else none
    (resolve 0 lookup).1.term = some " " ∧ (resolve 0 (withoutBlanks lookup)).1.term = none := by
  decide

end NestedSpec.Config
