import Mathlib.Data.List.Nodup
import NestedSpec.Proofs.Apart
import NestedSpec.Proofs.Arranging
import NestedSpec.Proofs.Entering

/-!
# Streams of random numbers

Every spec with members has a stream of random numbers that shuffles them, and every leaf has one to
draw from. A stream is derived from the seed and a label: the names below the outermost spec, joined
by separators. Labels do not tell a separator between two names from one inside a name, and an
unnamed spec directly in the outermost one leaves no trace in them. Apart from that, places with
different names have different labels.
-/

namespace NestedSpec

variable {ν : Type}

/-! ## Joined names -/

def nameParts (name : String) : List (List Char) :=
  name.toList.splitOn '/'

theorem nameParts_injective : Function.Injective nameParts := by
  intro name other same
  have joined := congrArg (List.intercalate ['/']) same
  unfold nameParts at joined
  rwa [List.intercalate_splitOn, List.intercalate_splitOn, String.toList_inj] at joined

theorem nameParts_joinNames {names : List String} (inside : names ≠ []) :
    nameParts (joinNames names) = names.flatMap nameParts := by
  induction names with
  | nil => exact absurd rfl inside
  | cons name rest ih =>
    cases rest with
    | nil => simp [joinNames]
    | cons next rest =>
      have later := List.cons_ne_nil next rest
      have joined : (joinNames (name :: next :: rest)).toList =
          name.toList ++ '/' :: (joinNames (next :: rest)).toList := by
        simp [joinNames, String.intercalate_cons_of_ne_nil later]
      rw [List.flatMap_cons, ← ih later, nameParts, joined, List.splitOn_append_cons_self]
      rfl

/-- Names without separators in them can be read off when they are joined. -/
theorem joinNames_injOn {names others : List String} (inside : names ≠ []) (inside' : others ≠ [])
    (plain : ∀ name ∈ names, '/' ∉ name.toList) (plain' : ∀ name ∈ others, '/' ∉ name.toList)
    (same : joinNames names = joinNames others) : names = others := by
  have parts {names : List String} (plain : ∀ name ∈ names, '/' ∉ name.toList) :
      names.flatMap nameParts = names.map String.toList := by
    rw [← List.flatMap_pure_eq_map]
    exact List.flatMap_congr fun name member => List.splitOn_eq_singleton (plain name member)
  have joined := congrArg nameParts same
  rw [nameParts_joinNames inside, nameParts_joinNames inside', parts plain, parts plain'] at joined
  exact List.map_injective_iff.mpr (fun _ _ => String.toList_inj.mp) joined

theorem joinNames_eq_empty {names : List String} :
    joinNames names = "" ↔ names = [] ∨ names = [""] := by
  cases names with
  | nil => simp [joinNames]
  | cons name rest =>
    cases rest with
    | nil => simp [joinNames]
    | cons next rest =>
      simp [joinNames, String.intercalate_cons_of_ne_nil (List.cons_ne_nil next rest)]

/-! ## Places with a stream -/

/-- A place with a stream: a spec with members, given by the names of the specs from the one inside
the outermost to itself, or a leaf, given by those of the specs around it and its own. -/
inductive StreamPlace where
  | spec (names : List String)
  | leaf (outer : List String) (name : String)

namespace StreamPlace

def names : StreamPlace → List String
  | spec names => names
  | leaf outer name => outer ++ [name]

/-- The names that a label is made of: those of the place, but for the outermost spec, which counts
as unnamed, and for the leaves of an unnamed spec directly in it, which count as its own. -/
def labelNames : StreamPlace → List String
  | spec names => if names = [] then [""] else names
  | leaf outer name => if outer = [""] then [name] else outer ++ [name]

def label (place : StreamPlace) : String := joinNames place.labelNames

theorem labelNames_ne_nil (place : StreamPlace) : place.labelNames ≠ [] := by
  cases place <;> simp only [labelNames] <;> split <;> simp_all

theorem nameParts_label (place : StreamPlace) :
    nameParts place.label = place.labelNames.flatMap nameParts :=
  nameParts_joinNames place.labelNames_ne_nil

theorem mem_labelNames {place : StreamPlace} {name : String} (member : name ∈ place.labelNames) :
    name = "" ∨ name ∈ place.names := by
  cases place with
  | spec names =>
    simp only [labelNames] at member
    split at member
    · exact .inl (List.mem_singleton.mp member)
    · exact .inr member
  | leaf outer last =>
    simp only [labelNames] at member
    split at member
    · exact .inr (List.mem_append_right _ member)
    · exact .inr member

theorem labelNames_of_named {place : StreamPlace} {name : String} {rest : List String}
    (split : place.names = name :: rest) (named : name ≠ "") : place.labelNames = place.names := by
  cases place with
  | spec names =>
    have inside : names = name :: rest := split
    exact if_neg (inside ▸ List.cons_ne_nil name rest)
  | leaf outer last =>
    refine if_neg fun unnamed => named ?_
    rw [names, unnamed] at split
    exact (List.cons.inj split).1.symm

end StreamPlace

namespace Chain

def names (chain : Chain ν) : List String :=
  (chain.drop 1).map (·.description)

theorem names_append {chain : Chain ν} (inside : chain ≠ []) (g : Group ν) :
    names (chain ++ [g]) = names chain ++ [g.description] := by
  obtain ⟨outermost, rest, rfl⟩ := List.exists_cons_of_ne_nil inside
  simp [names]

theorem path_eq_label (chain : Chain ν) : path chain = (StreamPlace.spec chain.names).label := by
  unfold StreamPlace.label
  simp only [StreamPlace.labelNames]
  split
  · rename_i outermost
    exact joinNames_eq_empty.mpr (.inl outermost)
  · rfl

theorem leafPath_eq_label (chain : Chain ν) (name : String) :
    leafPath chain name = (StreamPlace.leaf chain.names name).label := by
  have scope : path chain = joinNames chain.names := rfl
  unfold leafPath StreamPlace.label StreamPlace.labelNames
  simp only [scope, joinNames_eq_empty]
  by_cases outermost : chain.names = []
  · simp [outermost, joinNames]
  · by_cases unnamed : chain.names = [""]
    · simp [unnamed, joinNames]
    · simp [outermost, unnamed, joinNames_append_singleton outermost]

end Chain

namespace Item

def description : Item ν → String
  | leaf l => l.description
  | group g _ => g.description

mutual
def SiblingsDiffer : Item ν → Prop
  | leaf _ => True
  | group _ items => (items.map description).Nodup ∧ SiblingsDifferAll items

def SiblingsDifferAll : List (Item ν) → Prop
  | [] => True
  | first :: rest => SiblingsDiffer first ∧ SiblingsDifferAll rest
end

mutual
def labels (chain : Chain ν) : Item ν → List String
  | leaf l => [chain.leafPath l.description]
  | group g items =>
    let here := chain ++ [g]
    (if items.isEmpty then [] else [here.path]) ++ labelsAll here items

def labelsAll (chain : Chain ν) : List (Item ν) → List String
  | [] => []
  | first :: rest => labels chain first ++ labelsAll chain rest
end

mutual
def streamPlaces (chain : Chain ν) : Item ν → List StreamPlace
  | leaf l => [.leaf chain.names l.description]
  | group g items =>
    let here := chain ++ [g]
    (if items.isEmpty then [] else [.spec here.names]) ++ streamPlacesAll here items

def streamPlacesAll (chain : Chain ν) : List (Item ν) → List StreamPlace
  | [] => []
  | first :: rest => streamPlaces chain first ++ streamPlacesAll chain rest
end

mutual
theorem labels_eq (chain : Chain ν) : (item : Item ν) →
    labels chain item = (streamPlaces chain item).map StreamPlace.label
  | leaf l => by
    rw [labels, streamPlaces, chain.leafPath_eq_label]
    rfl
  | group g items => by
    rw [labels, streamPlaces, List.map_append, labelsAll_eq _ items, Chain.path_eq_label]
    split <;> rfl

theorem labelsAll_eq (chain : Chain ν) : (items : List (Item ν)) →
    labelsAll chain items = (streamPlacesAll chain items).map StreamPlace.label
  | [] => rfl
  | first :: rest => by
    rw [labelsAll, streamPlacesAll, List.map_append, labels_eq chain first, labelsAll_eq chain rest]
end

theorem labelsAll_append (chain : Chain ν) (items more : List (Item ν)) :
    labelsAll chain (items ++ more) = labelsAll chain items ++ labelsAll chain more := by
  induction items with
  | nil => rfl
  | cons first rest ih => rw [List.cons_append, labelsAll, labelsAll, ih, List.append_assoc]

theorem labels_group {chain : Chain ν} {g : Group ν} {items : List (Item ν)} (held : items ≠ []) :
    labels chain (group g items) = (chain ++ [g]).path :: labelsAll (chain ++ [g]) items := by
  rw [labels, if_neg (List.isEmpty_iff.not.mpr held)]
  rfl

/-- The labels of a member of a tree are among those of the tree. -/
theorem At.labels_subset {tree item : Item ν} {chain : Chain ν} {first : Nat}
    (place : At tree chain first item) : labels chain item ⊆ labels [] tree := by
  induction place with
  | root => exact List.Subset.refl _
  | @member chain first g before after item inside ih =>
    intro label member
    refine ih ?_
    rw [labels, labelsAll_append, labelsAll]
    simp [member]

inductive Labelled (tree : Item ν) : String → Prop
  | spec {chain : Chain ν} {first : Nat} {g : Group ν} {items : List (Item ν)}
      (place : At tree chain first (group g items)) (held : items ≠ []) :
      Labelled tree (Chain.path (chain ++ [g]))
  | leaf {chain : Chain ν} {first : Nat} {l : Leaf ν} (place : At tree chain first (leaf l)) :
      Labelled tree (chain.leafPath l.description)

mutual
theorem labelled_of_mem {tree : Item ν} : (item : Item ν) → {chain : Chain ν} → {first : Nat} →
    At tree chain first item → ∀ label ∈ labels chain item, Labelled tree label
  | leaf l, chain, first, place, label, member => by
    rw [List.mem_singleton.mp member]
    exact .leaf place
  | group g items, chain, first, place, label, member => by
    rcases List.mem_append.mp member with own | inner
    · split at own
      · exact absurd own List.not_mem_nil
      · rename_i held
        rw [List.mem_singleton.mp own]
        exact .spec place (List.isEmpty_iff.not.mp held)
    · exact labelled_of_mem_all items [] place label inner

theorem labelled_of_mem_all {tree : Item ν} : (items before : List (Item ν)) →
    {chain : Chain ν} → {first : Nat} → {g : Group ν} →
    At tree chain first (group g (before ++ items)) →
      ∀ label ∈ labelsAll (chain ++ [g]) items, Labelled tree label
  | next :: rest, before, chain, first, g, place, label, member => by
    rcases List.mem_append.mp member with here | later
    · exact labelled_of_mem next (.member place) label here
    · have onwards : before ++ next :: rest = before ++ [next] ++ rest := by simp
      exact labelled_of_mem_all rest (before ++ [next]) (onwards ▸ place) label later
end

theorem mem_labels_iff {tree : Item ν} {label : String} :
    label ∈ labels [] tree ↔ Labelled tree label := by
  constructor
  · exact labelled_of_mem tree .root label
  · rintro (⟨place, held⟩ | place)
    · refine place.labels_subset ?_
      rw [labels_group held]
      exact List.mem_cons_self ..
    · exact place.labels_subset (List.mem_singleton_self _)

mutual
/-- The names of a place begin with those of the member that it is in. -/
theorem names_streamPlaces {chain : Chain ν} (inside : chain ≠ []) : (item : Item ν) →
    ∀ place ∈ streamPlaces chain item, chain.names ++ [item.description] <+: place.names
  | leaf l, place, member => by
    rw [List.mem_singleton.mp member]
    exact List.prefix_refl _
  | group g items, place, member => by
    have here : chain.names ++ [g.description] = Chain.names (chain ++ [g]) :=
      (chain.names_append inside g).symm
    rw [description, here]
    rcases List.mem_append.mp member with own | inner
    · split at own
      · exact absurd own List.not_mem_nil
      · rw [List.mem_singleton.mp own]
        exact List.prefix_refl _
    · obtain ⟨_, -, -, begins⟩ := names_streamPlacesAll (by simp) items place inner
      exact (List.prefix_append ..).trans begins

theorem names_streamPlacesAll {chain : Chain ν} (inside : chain ≠ []) : (items : List (Item ν)) →
    ∀ place ∈ streamPlacesAll chain items,
      ∃ item ∈ items, place ∈ streamPlaces chain item ∧
        chain.names ++ [item.description] <+: place.names
  | first :: rest, place, member => by
    rcases List.mem_append.mp member with here | later
    · exact ⟨first, List.mem_cons_self .., here, names_streamPlaces inside first place here⟩
    · obtain ⟨item, among, within, begins⟩ := names_streamPlacesAll inside rest place later
      exact ⟨item, List.mem_cons_of_mem _ among, within, begins⟩
end

mutual
/-- If siblings have different names, so have all places with a stream. -/
theorem nodup_names (chain : Chain ν) : (item : Item ν) → item.SiblingsDiffer →
    ((streamPlaces chain item).map StreamPlace.names).Nodup
  | leaf l, _ => List.nodup_singleton _
  | group g items, differ => by
    have here : chain ++ [g] ≠ [] := by simp
    have inner := nodup_namesAll here items differ.1 differ.2
    rw [streamPlaces, List.map_append]
    refine List.nodup_append.mpr ⟨?_, inner, ?_⟩
    · split <;> simp
    -- The places inside a spec have one more name at least.
    · intro own listed names listed' same
      obtain ⟨place, member, rfl⟩ := List.mem_map.mp listed'
      obtain ⟨item, -, -, begins⟩ := names_streamPlacesAll here items place member
      have longer := begins.length_le
      split at listed
      · exact absurd listed List.not_mem_nil
      · rw [← same, List.mem_singleton.mp listed, List.length_append] at longer
        exact absurd longer (Nat.not_succ_le_self _)

theorem nodup_namesAll {chain : Chain ν} (inside : chain ≠ []) : (items : List (Item ν)) →
    (items.map description).Nodup → SiblingsDifferAll items →
    ((streamPlacesAll chain items).map StreamPlace.names).Nodup
  | [], _, _ => List.nodup_nil
  | first :: rest, apart, differ => by
    obtain ⟨new, apartLater⟩ := List.nodup_cons.mp apart
    rw [streamPlacesAll, List.map_append]
    refine List.nodup_append.mpr ⟨nodup_names chain first differ.1,
      nodup_namesAll inside rest apartLater differ.2, ?_⟩
    intro names listed names' listed' same
    obtain ⟨place, member, rfl⟩ := List.mem_map.mp listed
    obtain ⟨place', member', rfl⟩ := List.mem_map.mp listed'
    have begins := names_streamPlaces inside first place member
    obtain ⟨item, among, -, begins'⟩ := names_streamPlacesAll inside rest place' member'
    rw [← same] at begins'
    have level := (List.prefix_of_prefix_length_le begins begins' (by simp)).eq_of_length (by simp)
    rw [List.singleton_inj.mp (List.append_cancel_left level)] at new
    exact new (List.mem_map_of_mem among)
end

/-- Labels are different exactly if the parts of their names are. -/
theorem nodup_labels_iff (chain : Chain ν) (item : Item ν) : (labels chain item).Nodup ↔
    ((streamPlaces chain item).map fun place => place.labelNames.flatMap nameParts).Nodup := by
  have parts : (labels chain item).map nameParts =
      (streamPlaces chain item).map fun place => place.labelNames.flatMap nameParts := by
    rw [labels_eq, List.map_map]
    exact List.map_congr_left fun place _ => place.nameParts_label
  rw [← parts, List.nodup_map_iff nameParts_injective]

/-- What is unnamed and directly in the outermost spec has the label of the outermost spec. -/
theorem label_of_unnamed {root : Group ν} {item : Item ν} (unnamed : item.description = "")
    (held : ∀ g, item ≠ .group g []) : Chain.path [root] ∈ labels [root] item := by
  have empty : Chain.path [root] = "" := rfl
  cases item with
  | leaf l =>
    rw [labels, Chain.leafPath, if_pos empty, empty]
    exact List.mem_singleton.mpr unnamed.symm
  | group g items =>
    have here : Chain.path [root, g] = "" := joinNames_eq_empty.mpr (.inr (congrArg ([·]) unnamed))
    rw [labels_group fun none => held g (none ▸ rfl), empty, ← here]
    exact List.mem_cons_self ..

/-- If nothing unnamed is directly in the outermost spec, the names of all places but that spec
begin with a name. -/
theorem streamPlaces_named {root : Group ν} {items : List (Item ν)}
    (named : ∀ item ∈ items, item.description = "" → ∃ g, item = .group g [])
    {place : StreamPlace} (member : place ∈ streamPlaces [] (.group root items)) :
    place = .spec [] ∨ ∃ name rest, place.names = name :: rest ∧ name ≠ "" := by
  rcases List.mem_append.mp member with own | inner
  · split at own
    · exact absurd own List.not_mem_nil
    · exact .inl (List.mem_singleton.mp own)
  · obtain ⟨item, among, within, begins⟩ := names_streamPlacesAll (by simp) items place inner
    obtain ⟨rest, split⟩ := begins
    refine .inr ⟨item.description, rest, split.symm, fun unnamed => ?_⟩
    obtain ⟨g, rfl⟩ := named item among unnamed
    exact absurd within List.not_mem_nil

/-- The names of a place can then be read off those of its label. -/
theorem labelNames_injOn {root : Group ν} {items : List (Item ν)}
    (named : ∀ item ∈ items, item.description = "" → ∃ g, item = .group g [])
    {place place' : StreamPlace} (member : place ∈ streamPlaces [] (.group root items))
    (member' : place' ∈ streamPlaces [] (.group root items))
    (same : place.labelNames = place'.labelNames) : place.names = place'.names := by
  have outermost : (StreamPlace.spec []).labelNames = [""] := rfl
  rcases streamPlaces_named named member with rfl | ⟨name, rest, split, there⟩ <;>
    rcases streamPlaces_named named member' with rfl | ⟨name', rest', split', there'⟩
  · rfl
  · rw [StreamPlace.labelNames_of_named split' there', split', outermost] at same
    exact absurd (List.cons.inj same).1.symm there'
  · rw [StreamPlace.labelNames_of_named split there, split, outermost] at same
    exact absurd (List.cons.inj same).1 there
  · rwa [StreamPlace.labelNames_of_named split there,
      StreamPlace.labelNames_of_named split' there'] at same

structure LabelsStreams (root : Group ν) (items : List (Item ν)) : Prop where
  labelled : ∀ label, label ∈ labels [] (.group root items) ↔ Labelled (.group root items) label
  names : SiblingsDiffer (.group root items) →
    ((streamPlaces [] (.group root items)).map StreamPlace.names).Nodup
  parts : (labels [] (.group root items)).Nodup ↔ ((streamPlaces [] (.group root items)).map
    fun place => place.labelNames.flatMap nameParts).Nodup
  plain : SiblingsDiffer (.group root items) →
    (∀ place ∈ streamPlaces [] (.group root items), ∀ name ∈ place.names, '/' ∉ name.toList) →
    ((labels [] (.group root items)).Nodup ↔
      ∀ item ∈ items, item.description = "" → ∃ g, item = .group g [])

theorem labels_streams (root : Group ν) (items : List (Item ν)) : LabelsStreams root items where
  labelled := fun _ => mem_labels_iff
  names := nodup_names [] (.group root items)
  parts := nodup_labels_iff [] (.group root items)
  plain := by
    intro differ plain
    constructor
    · intro apart item among unnamed
      by_contra held
      rw [labels_group (List.ne_nil_of_mem among)] at apart
      obtain ⟨before, after, rfl⟩ := List.append_of_mem among
      refine (List.nodup_cons.mp apart).1 ?_
      rw [labelsAll_append, labelsAll]
      exact List.mem_append_right _ (List.mem_append_left _
        (label_of_unnamed unnamed (not_exists.mp held)))
    · intro named
      have plainLabel {place : StreamPlace}
          (member : place ∈ streamPlaces [] (.group root items)) :
          ∀ name ∈ place.labelNames, '/' ∉ name.toList := by
        intro name listed
        rcases StreamPlace.mem_labelNames listed with rfl | own
        · exact List.not_mem_nil
        · exact plain place member name own
      rw [labels_eq]
      refine List.pairwise_map.mpr ((List.pairwise_map.mp (nodup_names [] _ differ)).imp_of_mem ?_)
      intro place place' member member' apart same
      exact apart (labelNames_injOn named member member'
        (joinNames_injOn place.labelNames_ne_nil place'.labelNames_ne_nil (plainLabel member)
          (plainLabel member') same))

end Item

def groupNamed (name : String) : Group Unit := { plainGroup with index := 1, description := name }

/-- A separator in a name makes a leaf draw the same numbers as another leaf. -/
theorem separator_in_name_joins_streams :
    let tree : Item Unit := .group plainGroup
      [.leaf (idleLeaf "a/b"), .group (groupNamed "a") [.leaf (idleLeaf "b")]]
    tree.SiblingsDiffer ∧ tree.labels [] = ["", "a/b", "a", "a/b"] ∧
      ∀ runner : Runner Unit, (runner.leafStart [plainGroup] (idleLeaf "a/b")).random =
        (runner.leafStart [plainGroup, groupNamed "a"] (idleLeaf "b")).random := by
  refine ⟨?_, by decide +kernel, fun runner => ?_⟩
  · exact ⟨by decide, trivial, ⟨by decide, trivial, trivial⟩, trivial⟩
  · have label : Chain.leafPath [plainGroup] "a/b" =
        Chain.leafPath [plainGroup, groupNamed "a"] "b" := by decide +kernel
    exact congrArg (fun label => Random.ofBytes (deriveSeed runner.config.seed label)) label

end NestedSpec
