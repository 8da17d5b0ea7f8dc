import Mathlib.Data.List.DropRight
import NestedSpec.Proofs.Differences
import NestedSpec.Proofs.Settings

/-!
# Lists of tags

A list of tags is read entry by entry: white space around an entry and blank entries make no
difference. So the tags that are read, joined again, are read as they are, and a text is read as
some tags exactly if it is a list of them.
-/

namespace NestedSpec

namespace Text

def IsTrim (text : String) : Prop :=
  (∀ c ∈ text.toList.head?, isBlank c = false) ∧ ∀ c ∈ text.toList.getLast?, isBlank c = false

theorem isAllBlank_iff {text : String} :
    isAllBlank text = true ↔ ∀ c ∈ text.toList, isBlank c = true :=
  List.all_eq_true

theorem exists_padding (text : String) : ∃ front back, isAllBlank front = true ∧
    isAllBlank back = true ∧ text = front ++ trim text ++ back := by
  obtain ⟨front, back, parts, blankFront, blankBack⟩ := exists_padded text.toList
  refine ⟨String.ofList front, String.ofList back, ?_, ?_, ?_⟩
  · rwa [isAllBlank_iff, String.toList_ofList]
  · rwa [isAllBlank_iff, String.toList_ofList]
  · rw [← String.toList_inj, String.toList_append, String.toList_append, trim,
      String.toList_ofList, String.toList_ofList, String.toList_ofList, ← parts]

theorem trim_padded {front core back : String} (blankFront : isAllBlank front = true)
    (blankBack : isAllBlank back = true) (filled : core ≠ "") (edges : IsTrim core) :
    trim (front ++ core ++ back) = core := by
  rw [trim, String.toList_append, String.toList_append,
    trimBlank_padded (isAllBlank_iff.mp blankFront) (isAllBlank_iff.mp blankBack) edges.1 edges.2
      (fun none => filled (String.toList_eq_nil_iff.mp none)), String.ofList_toList]

theorem isTrim_trim (text : String) : IsTrim (trim text) := by
  have cut : (trim text).toList = (text.toList.dropWhile isBlank).rdropWhile isBlank :=
    String.toList_ofList
  rw [IsTrim, cut]
  constructor
  · intro c starts
    obtain ⟨rest, parts⟩ := List.rdropWhile_prefix isBlank (text.toList.dropWhile isBlank)
    have first := List.head?_dropWhile_not isBlank text.toList
    rw [← parts, List.head?_append, Option.mem_def.mp starts] at first
    exact first
  · intro c ends
    have filled := List.ne_nil_of_mem (List.mem_of_getLast? ends)
    have last := List.rdropWhile_last_not isBlank _ filled
    rw [List.getLast?_eq_some_getLast filled, Option.mem_some_iff] at ends
    exact Bool.eq_false_iff.mpr (ends ▸ last)

theorem trim_eq_empty {text : String} (blank : isAllBlank text = true) : trim text = "" := by
  have none : text.toList.dropWhile isBlank = [] :=
    List.dropWhile_eq_nil_iff.mpr (isAllBlank_iff.mp blank)
  rw [trim, trimBlank, none]
  rfl

end Text

open Text

structure IsTag (tag : String) : Prop where
  filled : tag ≠ ""
  whole : ',' ∉ tag.toList
  trim : IsTrim tag

/-- The entries of a list of tags: the tags in order, each with white space around it, and blank
entries anywhere. -/
inductive Listed : List String → List String → Prop
  | nil : Listed [] []
  | blank {entry : String} {tags entries : List String} (empty : isAllBlank entry = true)
      (later : Listed tags entries) : Listed tags (entry :: entries)
  | tag {front tag back : String} {tags entries : List String} (isTag : IsTag tag)
      (blankFront : isAllBlank front = true) (blankBack : isAllBlank back = true)
      (later : Listed tags entries) : Listed (tag :: tags) ((front ++ tag ++ back) :: entries)

namespace Listed

variable {tags entries : List String}

theorem self (isTags : ∀ tag ∈ tags, IsTag tag) : Listed tags tags := by
  induction tags with
  | nil => exact .nil
  | cons tag tags ih =>
    obtain ⟨isTag, isTags⟩ := List.forall_mem_cons.mp isTags
    have bare : "" ++ tag ++ "" = tag := by rw [String.empty_append, String.append_empty]
    have listed : Listed (tag :: tags) (("" ++ tag ++ "") :: tags) := .tag isTag rfl rfl (ih isTags)
    rwa [bare] at listed

theorem isTag (listed : Listed tags entries) : ∀ tag ∈ tags, IsTag tag := by
  induction listed with
  | nil => exact nofun
  | blank _ _ ih => exact ih
  | tag isTag _ _ _ ih => exact List.forall_mem_cons.mpr ⟨isTag, ih⟩

theorem trims (listed : Listed tags entries) : (entries.map trim).filter (· ≠ "") = tags := by
  induction listed with
  | nil => rfl
  | blank empty _ ih => simpa [trim_eq_empty empty] using ih
  | tag isTag blankFront blankBack _ ih =>
    simpa [trim_padded blankFront blankBack isTag.filled isTag.trim, isTag.filled] using ih

theorem not_mem_of_blank {text : String} (blank : isAllBlank text = true) : ',' ∉ text.toList := by
  intro member
  have comma := isAllBlank_iff.mp blank ',' member
  exact absurd comma (by decide)

theorem whole (listed : Listed tags entries) : ∀ entry ∈ entries, ',' ∉ entry.toList := by
  induction listed with
  | nil => exact nofun
  | blank empty _ ih => exact List.forall_mem_cons.mpr ⟨not_mem_of_blank empty, ih⟩
  | tag isTag blankFront blankBack _ ih =>
    refine List.forall_mem_cons.mpr ⟨?_, ih⟩
    simp [not_mem_of_blank blankFront, not_mem_of_blank blankBack, isTag.whole]

/-- Entries without commas are those of the tags that are left when they are trimmed. -/
theorem of_whole (whole : ∀ entry ∈ entries, ',' ∉ entry.toList) :
    Listed ((entries.map trim).filter (· ≠ "")) entries := by
  induction entries with
  | nil => exact .nil
  | cons entry entries ih =>
    obtain ⟨here, later⟩ := List.forall_mem_cons.mp whole
    obtain ⟨front, back, blankFront, blankBack, parts⟩ := exists_padding entry
    rw [List.map_cons, List.filter_cons]
    split
    case isTrue filled =>
      have inner : ',' ∉ (trim entry).toList := by
        intro member
        rw [parts] at here
        simp [member] at here
      have isTag : IsTag (trim entry) := ⟨by simpa using filled, inner, isTrim_trim entry⟩
      have listed := Listed.tag isTag blankFront blankBack (ih later)
      rwa [← parts] at listed
    case isFalse empty =>
      have none : trim entry = "" := by simpa using empty
      rw [none, String.append_empty] at parts
      have blank : isAllBlank entry = true := by
        rw [parts, isAllBlank_iff, String.toList_append]
        exact List.forall_mem_append.mpr
          ⟨isAllBlank_iff.mp blankFront, isAllBlank_iff.mp blankBack⟩
      exact .blank blank (ih later)

end Listed

theorem listed_splitTags (raw : String) : Listed (splitTags raw) (splitAtChar ',' raw) :=
  .of_whole fun _ member comma => (of_mem_splitAtChar member comma).2 rfl

theorem splitTags_intercalate {tags entries : List String} (listed : Listed tags entries) :
    splitTags (",".intercalate entries) = tags := by
  cases entries with
  | nil =>
    cases listed
    decide
  | cons entry entries =>
    rw [splitTags, splitAtChar_intercalate rfl listed.whole (List.cons_ne_nil _ _)]
    exact listed.trims

theorem splitTags_eq_iff {raw : String} {tags : List String} :
    splitTags raw = tags ↔ ∃ entries, Listed tags entries ∧ ",".intercalate entries = raw := by
  constructor
  · rintro rfl
    exact ⟨_, listed_splitTags raw, intercalate_splitAtChar rfl raw⟩
  · rintro ⟨entries, listed, rfl⟩
    exact splitTags_intercalate listed

/-- A blank text is a list without tags, so it makes no difference that it counts as missing. -/
theorem tags_present (lookup : String → Option String) (key : String) :
    ((Config.present lookup key).map splitTags).getD [] = ((lookup key).map splitTags).getD [] := by
  rw [Config.present_eq]
  split
  case isTrue blank =>
    obtain ⟨raw, found, blank⟩ := (Option.any_eq_true _ _).mp blank
    have none : splitTags raw = [] :=
      splitTags_eq_iff.mpr ⟨[raw], .blank blank .nil, String.intercalate_singleton⟩
    rw [found, Option.map_some, none]
    rfl
  case isFalse => rfl

/-- What is read from a text is a list of tags that is read as it is when it is joined with commas,
and some tags are read exactly from the texts that list them, with white space around each and blank
entries anywhere. The settings hold the tags of their texts. -/
theorem splitTags_reads_lists (raw : String) :
    (∀ tag ∈ splitTags raw, IsTag tag) ∧
    splitTags (",".intercalate (splitTags raw)) = splitTags raw ∧
    (∀ tags, splitTags raw = tags ↔
      ∃ entries, Listed tags entries ∧ ",".intercalate entries = raw) ∧
    (∀ (fresh : UInt64) (lookup : String → Option String),
      (Config.resolve fresh lookup).1.tagInclude =
          ((lookup tagIncludeKey).map splitTags).getD [] ∧
        (Config.resolve fresh lookup).1.tagExclude =
          ((lookup tagExcludeKey).map splitTags).getD []) := by
  have isTags := (listed_splitTags raw).isTag
  exact ⟨isTags, splitTags_intercalate (.self isTags), fun _ => splitTags_eq_iff,
    fun fresh lookup => ⟨tags_present lookup tagIncludeKey, tags_present lookup tagExcludeKey⟩⟩

example : splitTags " db,, very slow ,\t" = ["db", "very slow"] := by decide +kernel

end NestedSpec
