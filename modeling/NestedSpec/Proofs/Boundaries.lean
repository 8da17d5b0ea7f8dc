import NestedSpec.Text.Cluster
import Mathlib.Data.List.Chain

/-!
# Where clusters meet

Behind a boundary the scan goes on as at the start of a text, so each cluster is one by itself, and
clusters put side by side stay what they are exactly if each two neighbours do. Of two clusters
that do not, the second is taken up whole, but for a run of regional indicators whose pairs shift:
then what is left over begins with a regional indicator again, and is shorter.
-/

namespace NestedSpec.Text

/-! ## Tables of classes -/

theorem Ranges.mem_of_bisect {ranges : Ranges} {code steps low high : Nat}
    (found : bisect ranges code steps low high = true) :
    ∃ range ∈ ranges.toList, range.1 ≤ code ∧ code ≤ range.2 := by
  fun_induction bisect ranges code steps low high with
  | case1 => exact absurd found nofun
  | case2 => exact absurd found nofun
  | case3 _ _ _ _ _ _ _ _ _ ih => exact ih found
  | case4 _ _ _ _ _ _ _ _ _ _ ih => exact ih found
  | case5 steps low high _ middle first last there above below =>
    exact ⟨(first, last), Array.mem_toList_iff.mpr (Array.mem_of_getElem? there), by omega, by omega⟩
  | case6 => exact absurd found nofun

/-- The code point of a character in a table stands in one of the ranges. -/
theorem Ranges.mem_of_holds {ranges : Ranges} {c : Char} (found : ranges.holds c = true) :
    ∃ range ∈ ranges.toList, range.1 ≤ c.toNat ∧ c.toNat ≤ range.2 :=
  mem_of_bisect found

deriving instance ReflBEq, LawfulBEq for ClusterClass

def ClusterClass.standsAlone : ClusterClass → Bool
  | carriageReturn | lineFeed | control => true
  | _ => false

def ClusterClass.attaches : ClusterClass → Bool
  | extend | joiner | spacingMark => true
  | _ => false

theorem standsAlone_else {p : Prop} [Decidable p] {first second : ClusterClass}
    (never : first.standsAlone = false) (alone : (if p then first else second).standsAlone = true) :
    second.standsAlone = true := by
  by_cases holds : p
  · rw [if_pos holds, never] at alone
    exact absurd alone nofun
  · rwa [if_neg holds] at alone

theorem codes_of_standsAlone {c : Char} (alone : (clusterClass c).standsAlone = true) :
    c.toNat = 0xD ∨ c.toNat = 0xA ∨ clusterControlRanges.holds c = true := by
  by_cases carriage : c.toNat = 0xD
  · exact .inl carriage
  by_cases line : c.toNat = 0xA
  · exact .inr (.inl line)
  by_cases control : clusterControlRanges.holds c = true
  · exact .inr (.inr control)
  unfold clusterClass at alone
  dsimp only at alone
  rw [if_neg (by simpa using carriage), if_neg (by simpa using line)] at alone
  replace alone := standsAlone_else rfl alone
  rw [if_neg control] at alone
  -- The nine branches from here on are those of classes that do not stand alone.
  iterate 9 replace alone := standsAlone_else (by first | (split <;> rfl) | rfl) alone
  exact absurd alone nofun

theorem consonants_apart : ∀ range ∈ conjunctConsonantRanges.toList, 0xD < range.1 ∧
    ∀ other ∈ clusterControlRanges.toList, range.2 < other.1 ∨ other.2 < range.1 := by
  decide +kernel

theorem consonant_joins {c : Char} (consonant : isConjunctConsonant c = true) :
    (clusterClass c).standsAlone = false := by
  obtain ⟨range, member, low, high⟩ := Ranges.mem_of_holds consonant
  obtain ⟨above, apart⟩ := consonants_apart range member
  apply eq_false_of_ne_true
  intro alone
  rcases codes_of_standsAlone alone with code | code | control
  · omega
  · omega
  · obtain ⟨other, among, first, last⟩ := Ranges.mem_of_holds control
    have := apart other among
    omega

theorem linkers_attach : ∀ range ∈ conjunctLinkerRanges.toList,
    range.1 = range.2 ∧ (clusterClass (Char.ofNat range.1)).attaches = true := by
  decide +kernel

theorem attaches_of_linker {c : Char} (linker : isConjunctLinker c = true) :
    (clusterClass c).attaches = true := by
  obtain ⟨range, member, low, high⟩ := Ranges.mem_of_holds linker
  obtain ⟨single, attaches⟩ := linkers_attach range member
  rwa [show range.1 = c.toNat by omega, Char.ofNat_toNat] at attaches

theorem attaches_of_extend {c : Char} (between : isConjunctExtend c = true) :
    (clusterClass c).attaches = true := by
  unfold isConjunctExtend at between
  split at between
  · next extend => rw [extend]; rfl
  · next joiner => rw [joiner]; rfl
  · contradiction

/-! ## Behind a boundary -/

namespace ClusterPast

variable {past other : ClusterPast} {c : Char} {chars current : List Char}

/-- What a past says of the characters before its last one can still join: it is forgotten at a
character that stands alone. -/
structure Coherent (past : ClusterPast) : Prop where
  pictograph : past.pictograph = true → past.last.standsAlone = false
  regional : past.oddRegional = true → past.last = .regional
  consonant : past.consonant = true → past.last.standsAlone = false

theorem coherent_step (past : Option ClusterPast) (c : Char) : (step past c).Coherent where
  pictograph drawn := by
    have picture : clusterClass c = .pictograph ∨ clusterClass c = .extend := by
      simp only [step, Bool.or_eq_true, Bool.and_eq_true, beq_iff_eq] at drawn
      exact drawn.imp_right And.left
    rcases picture with cls | cls <;> (change (clusterClass c).standsAlone = false; rw [cls]; rfl)
  regional odd := by
    simp only [step, Bool.and_eq_true, beq_iff_eq] at odd
    exact odd.1
  consonant precedes := by
    have attaching {cls : ClusterClass} (attaches : cls.attaches = true) :
        cls.standsAlone = false := by
      cases cls <;> first | rfl | exact absurd attaches nofun
    simp only [step, Bool.or_eq_true, Bool.and_eq_true] at precedes
    rcases precedes with consonant | ⟨linker | between, -⟩
    · exact consonant_joins consonant
    · exact attaching (attaches_of_linker linker)
    · exact attaching (attaches_of_extend between)

theorem standsAlone_of_breaks (attaches : (clusterClass c).attaches = true)
    (breaks : breaksBefore past c = true) : past.last.standsAlone = true := by
  unfold breaksBefore at breaks
  split at breaks <;> grind [ClusterClass.standsAlone, ClusterClass.attaches]

theorem breaks_of_regional (last : past.last = .regional) (cls : clusterClass c = .regional) :
    breaksBefore past c = !past.oddRegional := by
  rw [breaksBefore, last, cls]

/-- Behind a boundary, nothing of what was before it is kept. -/
theorem step_of_breaks (coherent : past.Coherent) (breaks : breaksBefore past c = true) :
    step (some past) c = step none c := by
  -- A character that attaches itself has a boundary before it only where nothing waits for it.
  have forgotten (attaches : (clusterClass c).attaches = true) :
      past.pictograph = false ∧ past.consonant = false := by
    have alone := standsAlone_of_breaks attaches breaks
    constructor
    · exact eq_false_of_ne_true fun kept => absurd alone (by simp [coherent.pictograph kept])
    · exact eq_false_of_ne_true fun kept => absurd alone (by simp [coherent.consonant kept])
  have paired (cls : clusterClass c = .regional) : past.oddRegional = false := by
    apply eq_false_of_ne_true
    intro odd
    rw [breaks_of_regional (coherent.regional odd) cls, odd] at breaks
    exact absurd breaks nofun
  have without {first second : Bool} (no : first = true → second = false) :
      (first && second) = false := by
    cases first with
    | false => rfl
    | true => exact no rfl
  have extended : (clusterClass c == .extend && past.pictograph) = false :=
    without fun cls => (forgotten (by rw [eq_of_beq cls]; rfl)).1
  have joined : (clusterClass c == .joiner && past.pictograph) = false :=
    without fun cls => (forgotten (by rw [eq_of_beq cls]; rfl)).1
  have regional : (clusterClass c == .regional && !past.oddRegional) =
      (clusterClass c == .regional) := by
    by_cases cls : clusterClass c = .regional
    · rw [paired cls, Bool.not_false, Bool.and_true]
    · rw [beq_eq_false_iff_ne.mpr cls, Bool.false_and]
  have linked : ((isConjunctLinker c || isConjunctExtend c) && past.consonant) = false := by
    apply without
    intro kept
    rw [Bool.or_eq_true] at kept
    exact (forgotten (kept.elim attaches_of_linker attaches_of_extend)).2
  simp only [step, Option.map_some, Option.map_none, Option.getD_some, Option.getD_none, extended,
    joined, regional, linked, Bool.and_assoc, Bool.and_false, Bool.false_and, Bool.not_false,
    Bool.and_true]

/-! ## Runs without a boundary -/

def scan (past : ClusterPast) (chars : List Char) : ClusterPast :=
  chars.foldl (fun past c => step (some past) c) past

def Joins (past : ClusterPast) : List Char → Prop
  | [] => True
  | c :: rest => breaksBefore past c = false ∧ Joins (step (some past) c) rest

theorem coherent_scan (coherent : past.Coherent) (chars : List Char) :
    (past.scan chars).Coherent := by
  induction chars generalizing past with
  | nil => exact coherent
  | cons c rest ih => exact ih (coherent_step ..)

theorem Joins.not_breaks {rest : List Char} (joins : past.Joins (chars ++ c :: rest)) :
    breaksBefore (past.scan chars) c = false := by
  induction chars generalizing past with
  | nil => exact joins.1
  | cons d chars ih => exact ih joins.2

theorem clustersFrom_of_joins (joins : past.Joins chars) (current rest : List Char) :
    clustersFrom past current (chars ++ rest) =
      clustersFrom (past.scan chars) (chars.reverse ++ current) rest := by
  induction chars generalizing past current with
  | nil => rfl
  | cons c chars ih =>
    rw [List.cons_append, clustersFrom, joins.1, if_neg Bool.false_ne_true, ih joins.2,
      List.reverse_cons, List.append_assoc]
    rfl

/-- The cluster in progress goes on as long as there is no boundary, and what is behind the
boundary is cut like a text of its own. -/
theorem exists_first (coherent : past.Coherent) (current chars : List Char) :
    ∃ more rest, chars = more ++ rest ∧ past.Joins more ∧
      clustersFrom past current chars = (current.reverse ++ more) :: clusterChars rest ∧
      ∀ c ∈ rest.head?, breaksBefore (past.scan more) c = true := by
  induction chars generalizing past current with
  | nil =>
    refine ⟨[], [], rfl, trivial, ?_, nofun⟩
    rw [List.append_nil]
    rfl
  | cons c chars ih =>
    by_cases breaks : breaksBefore past c = true
    · refine ⟨[], c :: chars, rfl, trivial, ?_, ?_⟩
      · rw [clustersFrom, if_pos breaks, step_of_breaks coherent breaks, List.append_nil]
        rfl
      · intro d first
        cases first
        exact breaks
    · obtain ⟨more, rest, split, joins, cut, boundary⟩ := ih (coherent_step ..) (c :: current)
      refine ⟨c :: more, rest, congrArg (c :: ·) split, ⟨eq_false_of_ne_true breaks, joins⟩, ?_,
        boundary⟩
      rw [clustersFrom, if_neg breaks, cut, List.reverse_cons, List.append_assoc]
      rfl

end ClusterPast

/-! ## Clusters side by side -/

open ClusterPast

def Whole (chars : List Char) : Prop := clusterChars chars = [chars]

def Parted (first second : List Char) : Prop := clusterChars (first ++ second) = [first, second]

variable {c d : Char} {more others first second piece rest : List Char} {pieces : List (List Char)}

theorem coherent_start (c : Char) (more : List Char) : ((step none c).scan more).Coherent :=
  coherent_scan (coherent_step ..) more

theorem whole_of_joins (joins : (step none c).Joins more) : Whole (c :: more) := by
  have cut := clustersFrom_of_joins joins [c] []
  rw [List.append_nil] at cut
  rw [Whole, clusterChars, cut, clustersFrom, List.reverse_append, List.reverse_reverse]
  rfl

theorem joins_of_whole (whole : Whole (c :: more)) : (step none c).Joins more := by
  obtain ⟨joined, rest, split, joins, cut, -⟩ := exists_first (coherent_step none c) [c] more
  rw [Whole, clusterChars, cut] at whole
  have same : joined = more := List.append_cancel_left (List.cons.inj whole).1
  exact same ▸ joins

theorem exists_cons_of_whole (whole : Whole piece) : ∃ c more, piece = c :: more := by
  cases piece with
  | nil => exact absurd whole nofun
  | cons c more => exact ⟨c, more, rfl⟩

/-- A cluster of a text is a cluster by itself. -/
theorem whole_of_mem {chars : List Char} (member : piece ∈ clusterChars chars) : Whole piece := by
  generalize cut : clusterChars chars = pieces at member
  induction pieces generalizing chars with
  | nil => exact absurd member List.not_mem_nil
  | cons first pieces ih =>
    cases chars with
    | nil => exact absurd cut nofun
    | cons c chars =>
      obtain ⟨more, rest, -, joins, parts, -⟩ := exists_first (coherent_step none c) [c] chars
      rw [clusterChars, parts] at cut
      obtain ⟨rfl, later⟩ := List.cons.inj cut
      rcases List.mem_cons.mp member with rfl | behind
      · exact whole_of_joins joins
      · exact ih later behind

theorem clusterChars_append (joins : (step none c).Joins more) (rest : List Char) :
    clusterChars (c :: more ++ rest) =
      clustersFrom ((step none c).scan more) (c :: more).reverse rest := by
  change clustersFrom (step none c) [c] (more ++ rest) = _
  rw [clustersFrom_of_joins joins, List.reverse_cons]

theorem clusterChars_of_breaks (joins : (step none c).Joins more)
    (breaks : breaksBefore ((step none c).scan more) d = true) (rest : List Char) :
    clusterChars (c :: more ++ d :: rest) = (c :: more) :: clusterChars (d :: rest) := by
  rw [clusterChars_append joins, clustersFrom, if_pos breaks,
    step_of_breaks (coherent_start c more) breaks, List.reverse_reverse]
  rfl

theorem breaks_of_clusterChars (joins : (step none c).Joins more)
    (kept : clusterChars (c :: more ++ d :: rest) = (c :: more) :: pieces) :
    breaksBefore ((step none c).scan more) d = true := by
  by_cases breaks : breaksBefore ((step none c).scan more) d = true
  · exact breaks
  · obtain ⟨taken, left, -, -, cut, -⟩ := exists_first
      (coherent_step (some ((step none c).scan more)) d) (d :: (c :: more).reverse) rest
    rw [clusterChars_append joins, clustersFrom, if_neg breaks, cut] at kept
    have longer := congrArg List.length (List.cons.inj kept).1
    simp only [List.length_append, List.length_reverse, List.length_cons] at longer
    omega

theorem parted_iff (whole : Whole (c :: more)) (wholeToo : Whole (d :: others)) :
    Parted (c :: more) (d :: others) ↔ breaksBefore ((step none c).scan more) d = true := by
  have joins := joins_of_whole whole
  constructor
  · intro parted
    exact breaks_of_clusterChars joins parted
  · intro breaks
    rw [Parted, clusterChars_of_breaks joins breaks, wholeToo]

/-- Clusters put side by side stay what they are exactly if each two neighbours do. -/
theorem clusterChars_flatten (whole : ∀ piece ∈ pieces, Whole piece) :
    clusterChars pieces.flatten = pieces ↔ pieces.IsChain Parted := by
  induction pieces with
  | nil => exact iff_of_true rfl .nil
  | cons first pieces ih =>
    have ⟨wholeFirst, wholeRest⟩ := List.forall_mem_cons.mp whole
    cases pieces with
    | nil =>
      rw [List.flatten_singleton]
      exact iff_of_true wholeFirst (.singleton first)
    | cons second pieces =>
      obtain ⟨c, more, rfl⟩ := exists_cons_of_whole wholeFirst
      obtain ⟨d, others, rfl⟩ := exists_cons_of_whole (wholeRest _ List.mem_cons_self)
      have joins := joins_of_whole wholeFirst
      have seam := parted_iff wholeFirst (wholeRest _ List.mem_cons_self)
      rw [List.isChain_cons_cons, ← ih wholeRest, seam, List.flatten_cons]
      change clusterChars (c :: more ++ d :: (others ++ pieces.flatten)) = _ ↔
        _ ∧ clusterChars (d :: (others ++ pieces.flatten)) = _
      constructor
      · intro kept
        have breaks := breaks_of_clusterChars joins kept
        rw [clusterChars_of_breaks joins breaks] at kept
        exact ⟨breaks, (List.cons.inj kept).2⟩
      · intro ⟨breaks, kept⟩
        rw [clusterChars_of_breaks joins breaks, kept]

/-! ## What more of the past makes of a cluster -/

structure ClusterPast.Knows (past other : ClusterPast) : Prop where
  last : past.last = other.last
  pictograph : other.pictograph = true → past.pictograph = true
  joined : other.pictographJoined = true → past.pictographJoined = true
  consonant : other.consonant = true → past.consonant = true
  linked : other.linked = true → past.linked = true

namespace ClusterPast

variable {past other : ClusterPast} {chars : List Char}

theorem Knows.ofNone (past : ClusterPast) (c : Char) : Knows (step (some past) c) (step none c) := by
  constructor <;> simp_all [step]

theorem Knows.step (knows : Knows past other) (c : Char) :
    Knows (step (some past) c) (step (some other) c) := by
  obtain ⟨-, pictograph, -, consonant, linked⟩ := knows
  constructor <;> simp only [ClusterPast.step, Option.map_some, Option.getD_some] <;> grind

theorem Knows.scan (knows : Knows past other) (chars : List Char) :
    Knows (past.scan chars) (other.scan chars) := by
  induction chars generalizing past other with
  | nil => exact knows
  | cons c rest ih => exact ih (knows.step c)

theorem oddRegional_step (even : past.oddRegional = false) (c : Char) :
    (step (some past) c).oddRegional = (step none c).oddRegional := by
  simp only [step, Option.map_some, Option.getD_some, Option.map_none, Option.getD_none, even]

theorem oddRegional_scan (same : past.oddRegional = other.oddRegional) (chars : List Char) :
    (past.scan chars).oddRegional = (other.scan chars).oddRegional := by
  induction chars generalizing past other with
  | nil => exact same
  | cons c rest ih =>
    apply ih
    simp only [step, Option.map_some, Option.getD_some, same]

/-- A boundary that more knowledge brings is one between regional indicators. -/
theorem Knows.breaks (knows : Knows past other) (breaks : breaksBefore past c = true)
    (joins : breaksBefore other c = false) :
    clusterClass c = .regional ∧ past.oddRegional ≠ other.oddRegional := by
  obtain ⟨last, -, joined, consonant, linked⟩ := knows
  unfold breaksBefore at breaks joins
  rw [last] at breaks
  split at breaks <;> grind

end ClusterPast

/-- Two clusters that are not parted make one, but for a run of regional indicators: what is left
of the second begins with one then. -/
theorem exists_rest (whole : Whole (c :: more)) (wholeToo : Whole (d :: others))
    (joined : breaksBefore ((step none c).scan more) d = false) :
    ∃ taken rest, others = taken ++ rest ∧
      clusterChars (c :: more ++ d :: others) = (c :: more ++ d :: taken) :: clusterChars rest ∧
      ∀ e ∈ rest.head?, clusterClass e = .regional ∧ ¬ Parted (c :: more) rest := by
  have joins := joins_of_whole wholeToo
  have known := Knows.ofNone ((step none c).scan more) d
  obtain ⟨taken, rest, split, -, cut, boundary⟩ := exists_first
    (coherent_step (some ((step none c).scan more)) d) (d :: (c :: more).reverse) others
  refine ⟨taken, rest, split, ?_, ?_⟩
  · rw [clusterChars_append (joins_of_whole whole), clustersFrom, joined, if_neg Bool.false_ne_true,
      cut, List.reverse_cons, List.reverse_reverse, List.append_assoc]
    rfl
  · intro e first
    obtain ⟨tail, rfl⟩ := List.head?_eq_some_iff.mp first
    have unbroken := (split ▸ joins).not_breaks
    obtain ⟨cls, differs⟩ := (known.scan taken).breaks (boundary e first) unbroken
    have odd : ((step none c).scan more).oddRegional = true := by
      apply eq_true_of_ne_false
      intro even
      exact differs (oddRegional_scan (oddRegional_step even d) taken)
    refine ⟨cls, fun parted => ?_⟩
    have breaks := breaks_of_clusterChars (joins_of_whole whole) parted
    rw [breaks_of_regional ((coherent_start c more).regional odd) cls, odd] at breaks
    exact Bool.false_ne_true breaks

/-- If each two of some clusters give two of them side by side, then they give themselves. -/
theorem parted_of_pairs {letter : List Char → Prop} (whole : ∀ piece, letter piece → Whole piece)
    (pairs : ∀ first second, letter first → letter second →
      ∃ one other, letter one ∧ letter other ∧ clusterChars (first ++ second) = [one, other])
    (isLetter : letter first) (isLetterToo : letter second) : Parted first second := by
  obtain ⟨c, more, rfl⟩ := exists_cons_of_whole (whole _ isLetter)
  -- A second cluster that is not parted would leave a shorter one of its kind.
  induction length : second.length using Nat.strong_induction_on generalizing second with
  | _ length ih =>
    obtain ⟨d, others, rfl⟩ := exists_cons_of_whole (whole _ isLetterToo)
    rw [parted_iff (whole _ isLetter) (whole _ isLetterToo)]
    apply eq_true_of_ne_false
    intro joined
    obtain ⟨taken, rest, rfl, cut, left⟩ :=
      exists_rest (whole _ isLetter) (whole _ isLetterToo) joined
    obtain ⟨one, other, -, isLetterOther, two⟩ := pairs _ _ isLetter isLetterToo
    rw [cut] at two
    have last : clusterChars rest = [other] := (List.cons.inj two).2
    have same : rest = other := by
      rw [← flatten_clusterChars rest, last, List.flatten_singleton]
    obtain ⟨e, tail, rfl⟩ := exists_cons_of_whole (whole _ isLetterOther)
    subst same
    apply (left e rfl).2
    apply ih _ _ isLetterOther rfl
    rw [← length, List.length_cons, List.length_cons, List.length_append, List.length_cons]
    omega

/-! ## Texts -/

def StayApart (first second : String) : Prop := clusters (first ++ second) = [first, second]

instance (first second : String) : Decidable (StayApart first second) :=
  inferInstanceAs (Decidable (clusters (first ++ second) = [first, second]))

theorem clusters_eq_iff {text : String} {pieces : List String} :
    clusters text = pieces ↔ clusterChars text.toList = pieces.map String.toList := by
  constructor
  · rintro rfl
    rw [clusters, List.map_map]
    exact (List.map_id' _).symm.trans (List.map_congr_left fun _ _ => String.toList_ofList.symm)
  · intro cut
    rw [clusters, cut, List.map_map]
    exact (List.map_congr_left fun _ _ => String.ofList_toList).trans (List.map_id' _)

theorem whole_of_mem_clusters {text piece : String} (member : piece ∈ clusters text) :
    Whole piece.toList := by
  rw [clusters, List.mem_map] at member
  obtain ⟨chars, member, rfl⟩ := member
  rw [String.toList_ofList]
  exact whole_of_mem member

theorem stayApart_iff {first second : String} :
    StayApart first second ↔ Parted first.toList second.toList := by
  rw [StayApart, clusters_eq_iff, String.toList_append]
  rfl

/-- Clusters of a text joined anew are the clusters of what they make exactly if each two
neighbours stay apart. -/
theorem clusters_join {text : String} {pieces : List String}
    (members : ∀ piece ∈ pieces, piece ∈ clusters text) :
    clusters (String.join pieces) = pieces ↔ pieces.IsChain StayApart := by
  have whole : ∀ chars ∈ pieces.map String.toList, Whole chars :=
    List.forall_mem_map.mpr fun piece member => whole_of_mem_clusters (members piece member)
  rw [clusters_eq_iff, String.toList_join, List.flatMap_def, clusterChars_flatten whole,
    List.isChain_map]
  exact (List.IsChain.iff fun _ _ => stayApart_iff).symm

/-- If each two clusters of a text make two of them side by side, each two stay apart. -/
theorem stayApart_of_pairs {text : String}
    (pairs : ∀ first ∈ clusters text, ∀ second ∈ clusters text,
      (clusters (first ++ second)).length = 2 ∧
        ∀ piece ∈ clusters (first ++ second), piece ∈ clusters text) :
    ∀ first ∈ clusters text, ∀ second ∈ clusters text, StayApart first second := by
  have whole : ∀ chars, String.ofList chars ∈ clusters text → Whole chars := by
    intro chars member
    rw [← String.toList_ofList (l := chars)]
    exact whole_of_mem_clusters member
  have cut : ∀ first second, String.ofList first ∈ clusters text →
      String.ofList second ∈ clusters text → ∃ one other, String.ofList one ∈ clusters text ∧
        String.ofList other ∈ clusters text ∧ clusterChars (first ++ second) = [one, other] := by
    intro first second member memberToo
    obtain ⟨two, members⟩ := pairs _ member _ memberToo
    obtain ⟨one, other, cut⟩ := List.length_eq_two.mp two
    rw [cut, List.forall_mem_cons, List.forall_mem_singleton] at members
    rw [clusters_eq_iff, String.toList_append, String.toList_ofList, String.toList_ofList] at cut
    rw [← String.ofList_toList (s := one), ← String.ofList_toList (s := other)] at members
    exact ⟨one.toList, other.toList, members.1, members.2, cut⟩
  intro first member second memberToo
  rw [stayApart_iff]
  rw [← String.ofList_toList (s := first)] at member
  rw [← String.ofList_toList (s := second)] at memberToo
  exact parted_of_pairs whole cut member memberToo

end NestedSpec.Text
