import NestedSpec.Text.ClusterClass

/-!
# Extended grapheme clusters

The segmentation of a text into what a reader takes for single characters, by the rules GB1 to
GB999 of the Unicode text segmentation standard. The scan keeps the part of the past that the
rules look at: the last class, whether a pictograph with only extenders precedes, how a run of
regional indicators stands, and whether a consonant with a linker precedes.
-/

namespace NestedSpec.Text

/-- What the rules need to know of the characters before a place. -/
structure ClusterPast where
  last : ClusterClass
  /-- A pictograph followed by extenders alone precedes. -/
  pictograph : Bool
  /-- A pictograph, extenders and one joiner precede. -/
  pictographJoined : Bool
  /-- An odd number of regional indicators precedes. -/
  oddRegional : Bool
  /-- A conjunct consonant precedes, with nothing but extenders and linkers after it. -/
  consonant : Bool
  /-- A linker stands after that consonant. -/
  linked : Bool

def ClusterPast.step (past : Option ClusterPast) (c : Char) : ClusterPast :=
  let cls := clusterClass c
  let before (f : ClusterPast → Bool) : Bool := (past.map f).getD false
  let linker := isConjunctLinker c
  let kept := linker || isConjunctExtend c
  { last := cls
    pictograph := cls == .pictograph || (cls == .extend && before ClusterPast.pictograph)
    pictographJoined := cls == .joiner && before ClusterPast.pictograph
    oddRegional := cls == .regional && !before ClusterPast.oddRegional
    consonant := isConjunctConsonant c || (kept && before ClusterPast.consonant)
    linked := !isConjunctConsonant c && kept && before ClusterPast.consonant &&
      (linker || before ClusterPast.linked) }

def breaksBefore (past : ClusterPast) (c : Char) : Bool :=
  match past.last, clusterClass c with
  | .carriageReturn, .lineFeed => false
  | .carriageReturn, _ | .lineFeed, _ | .control, _ => true
  | _, .carriageReturn | _, .lineFeed | _, .control => true
  | .leading, .leading | .leading, .vowel | .leading, .leadingVowel
  | .leading, .leadingVowelTrailing => false
  | .leadingVowel, .vowel | .leadingVowel, .trailing | .vowel, .vowel | .vowel, .trailing => false
  | .leadingVowelTrailing, .trailing | .trailing, .trailing => false
  | _, .extend | _, .joiner | _, .spacingMark => false
  | .prepend, _ => false
  | _, .pictograph => !past.pictographJoined
  | .regional, .regional => !past.oddRegional
  | _, _ => !(isConjunctConsonant c && past.consonant && past.linked)

/-- The clusters of the characters that follow `past`; the cluster in progress is kept reversed. -/
def clustersFrom (past : ClusterPast) (current : List Char) : List Char → List (List Char)
  | [] => [current.reverse]
  | c :: rest =>
    let next := ClusterPast.step (some past) c
    if breaksBefore past c then current.reverse :: clustersFrom next [c] rest
    else clustersFrom next (c :: current) rest

def clusterChars : List Char → List (List Char)
  | [] => []
  | c :: rest => clustersFrom (ClusterPast.step none c) [c] rest

def clusters (text : String) : List String :=
  (clusterChars text.toList).map String.ofList

theorem flatten_clustersFrom (past : ClusterPast) (current chars : List Char) :
    (clustersFrom past current chars).flatten = current.reverse ++ chars := by
  induction chars generalizing past current with
  | nil => simp [clustersFrom]
  | cons c rest ih =>
    unfold clustersFrom
    dsimp only
    split <;> simp [ih]

theorem flatten_clusterChars (chars : List Char) : (clusterChars chars).flatten = chars := by
  cases chars with
  | nil => rfl
  | cons c rest => simp [clusterChars, flatten_clustersFrom]

end NestedSpec.Text
