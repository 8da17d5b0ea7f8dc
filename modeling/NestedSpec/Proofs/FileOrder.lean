import Mathlib.Data.Prod.Lex
import Mathlib.Data.String.Basic
import Mathlib.Data.List.Lex
import Mathlib.Data.List.Permutation
import Mathlib.Order.Lattice
import NestedSpec.Session
import NestedSpec.Proofs.Arranging

/-!
# File order

In file order a spec lists its members by place: a leaf by its own, a nested spec by the earliest
place below it. Places are compared by the bytes of the file, then by line and column, and members
with the same place stay as they were registered.

A spec without members counts with its own place, also where it is nested in another one that has
leaves. So a nested spec stands at the earliest of its leaves only if no spec without members stands
before all of them.
-/

namespace NestedSpec

variable {ν α : Type}

/-! ## Places in order -/

namespace Location

def encoded (c : Char) : List Nat := (String.utf8EncodeChar c).map UInt8.toNat

theorem byte_toNat {n : Nat} (fits : n < 256) : (UInt8.ofNat n).toNat = n := by
  rw [UInt8.toNat_ofNat', Nat.mod_eq_of_lt fits]

/-- The encodings of two characters differ within both of them, as the characters do. -/
theorem encoded_lt {c d : Char} (less : c < d) (rest rest' : List Nat) :
    encoded c ++ rest < encoded d ++ rest' := by
  have below : c.val.toNat < d.val.toNat := less
  have bound : d.val.toNat < 0x110000 := by
    rcases d.valid with low | high
    · exact lt_trans low (by decide)
    · exact high.2
  have second (n : Nat) : n / 4096 = n / 64 / 64 := (Nat.div_div_eq_div_mul n 64 64).symm
  have third (n : Nat) : n / 262144 = n / 64 / 64 / 64 := by
    rw [Nat.div_div_eq_div_mul, Nat.div_div_eq_div_mul]
  unfold encoded String.utf8EncodeChar
  generalize c.val.toNat = m at *
  generalize d.val.toNat = n at *
  dsimp only
  -- One case for every two lengths; the bytes are compared one after another.
  split_ifs <;>
    simp (disch := omega) only [List.map_cons, List.map_nil, List.cons_append, List.nil_append,
      List.cons_lt_cons_iff, byte_toNat, second, third] <;> omega

theorem encoded_ne_nil (c : Char) : encoded c ≠ [] :=
  fun none => String.utf8EncodeChar_ne_nil (List.map_eq_nil_iff.mp none)

theorem encodedAll_lt {cs ds : List Char} (less : cs < ds) :
    cs.flatMap encoded < ds.flatMap encoded := by
  induction ds generalizing cs with
  | nil => exact absurd less (List.not_lt_nil cs)
  | cons d ds ih =>
    cases cs with
    | nil =>
      obtain ⟨first, rest, bytes⟩ := List.exists_cons_of_ne_nil (encoded_ne_nil d)
      rw [List.flatMap_cons, bytes]
      exact List.nil_lt_cons ..
    | cons c cs =>
      rw [List.flatMap_cons, List.flatMap_cons]
      rcases List.cons_lt_cons_iff.mp less with first | ⟨rfl, later⟩
      · exact encoded_lt first _ _
      · exact List.append_left_lt (ih later)

def fileBytes (place : Location) : List Nat :=
  place.file.toUTF8.data.toList.map UInt8.toNat

theorem fileBytes_eq (place : Location) : place.fileBytes = place.file.toList.flatMap encoded := by
  have bytes : place.file.toUTF8 = place.file.toList.utf8Encode := by
    rw [String.toUTF8_eq_toByteArray, ← String.toByteArray_ofList, String.ofList_toList]
  rw [fileBytes, bytes, List.utf8Encode, List.toList_data_toByteArray, List.map_flatMap]
  rfl

theorem fileBytes_lt {a b : Location} (less : a.file < b.file) : a.fileBytes < b.fileBytes := by
  rw [fileBytes_eq, fileBytes_eq]
  exact encodedAll_lt (String.lt_iff_toList_lt.mp less)

theorem file_lt_iff {a b : Location} : a.file < b.file ↔ a.fileBytes < b.fileBytes := by
  refine ⟨fileBytes_lt, fun less => ?_⟩
  rcases lt_trichotomy a.file b.file with below | same | above
  · exact below
  · rw [fileBytes, fileBytes, same] at less
    exact absurd less (lt_irrefl _)
  · exact absurd less (lt_asymm (fileBytes_lt above))

theorem file_eq_iff {a b : Location} : a.file = b.file ↔ a.fileBytes = b.fileBytes := by
  refine ⟨fun same => by rw [fileBytes, fileBytes, same], fun same => ?_⟩
  rcases lt_trichotomy a.file b.file with below | equal | above
  · exact absurd same (fileBytes_lt below).ne
  · exact equal
  · exact absurd same (fileBytes_lt above).ne'

/-- What places are compared by: the bytes of the file, the line and the column. -/
def key (place : Location) : List Nat ×ₗ Nat ×ₗ Nat :=
  toLex (place.fileBytes, toLex (place.line, place.column))

theorem atMost_iff {a b : Location} : a.atMost b = true ↔ a.key ≤ b.key := by
  simp only [atMost, key, Prod.Lex.toLex_le_toLex, Bool.or_eq_true, Bool.and_eq_true,
    decide_eq_true_eq, beq_iff_eq, file_lt_iff, file_eq_iff]

theorem atMost_trans {a b c : Location} (first : a.atMost b = true) (second : b.atMost c = true) :
    a.atMost c = true :=
  atMost_iff.mpr ((atMost_iff.mp first).trans (atMost_iff.mp second))

theorem atMost_total (a b : Location) : (a.atMost b || b.atMost a) = true := by
  rw [Bool.or_eq_true]
  exact (le_total a.key b.key).imp atMost_iff.mpr atMost_iff.mpr

/-- Items that a stable sort has put in this order are in order by place and number. -/
theorem key_lt_or_eq_of_zipIdxLE {place : α → Location} {a b : α} {m n : Nat} (ne : m ≠ n)
    (le : List.zipIdxLE (fun a b => (place a).atMost (place b)) (a, m) (b, n) = true) :
    (place a).key < (place b).key ∨ (place a).key = (place b).key ∧ m < n := by
  have below : (place a).atMost (place b) = true := by
    by_contra above
    simp [List.zipIdxLE, above] at le
  by_cases above : (place b).atMost (place a) = true
  · have numbers : m ≤ n := by simpa [List.zipIdxLE, below, above] using le
    exact .inr ⟨le_antisymm (atMost_iff.mp below) (atMost_iff.mp above), lt_of_le_of_ne numbers ne⟩
  · exact .inl (lt_of_not_ge fun ge => above (atMost_iff.mpr ge))

theorem key_injective : Function.Injective key := by
  rintro ⟨file, line, column⟩ ⟨file', line', column'⟩ same
  obtain ⟨bytes, rest⟩ := Prod.ext_iff.mp (toLex.injective same)
  obtain ⟨lines, columns⟩ := Prod.ext_iff.mp (toLex.injective rest)
  obtain rfl : file = file' := file_eq_iff.mpr bytes
  obtain rfl : line = line' := lines
  obtain rfl : column = column' := columns
  rfl

structure Earliest (place : Location) (places : List Location) : Prop where
  among : place ∈ places
  first : ∀ other ∈ places, place.key ≤ other.key

theorem Earliest.unique {place other : Location} {places : List Location}
    (earliest : Earliest place places) (earliest' : Earliest other places) : place = other :=
  key_injective (le_antisymm (earliest.first _ earliest'.among) (earliest'.first _ earliest.among))

theorem Earliest.congr {place : Location} {places places' : List Location}
    (same : ∀ other, other ∈ places ↔ other ∈ places') (earliest : Earliest place places) :
    Earliest place places' :=
  ⟨(same _).mp earliest.among, fun other member => earliest.first other ((same _).mpr member)⟩

theorem earliest_singleton (place : Location) : Earliest place [place] :=
  ⟨List.mem_singleton_self _, fun _ member => (List.mem_singleton.mp member) ▸ le_rfl⟩

theorem Earliest.append {place later : Location} {places more : List Location}
    (earliest : Earliest place places) (earliest' : Earliest later more) :
    Earliest (place.first later) (places ++ more) := by
  unfold Location.first
  split
  · rename_i atMost
    have before : place.key ≤ later.key := atMost_iff.mp atMost
    refine ⟨List.mem_append_left _ earliest.among, fun other member => ?_⟩
    rcases List.mem_append.mp member with here | there
    · exact earliest.first other here
    · exact before.trans (earliest'.first other there)
  · rename_i above
    have before : later.key ≤ place.key :=
      (le_total place.key later.key).resolve_left fun below => above (atMost_iff.mpr below)
    refine ⟨List.mem_append_right _ earliest'.among, fun other member => ?_⟩
    rcases List.mem_append.mp member with here | there
    · exact before.trans (earliest.first other here)
    · exact earliest'.first other there

theorem exists_earliest {places : List Location} (nonempty : places ≠ []) :
    ∃ place, Earliest place places := by
  induction places with
  | nil => exact absurd rfl nonempty
  | cons place rest ih =>
    by_cases last : rest = []
    · exact ⟨place, last ▸ earliest_singleton place⟩
    · obtain ⟨later, earliest⟩ := ih last
      exact ⟨_, (earliest_singleton place).append earliest⟩

end Location

structure ByPlace (stands : α → Location → Prop) (items : List α) (numbers : List Nat) : Prop where
  once : numbers.Perm (List.range items.length)
  sorted : numbers.Pairwise fun m n => ∀ a b place other, items[m]? = some a → items[n]? = some b →
    stands a place → stands b other →
      place.key < other.key ∨ place.key = other.key ∧ m < n

theorem ByPlace.imp {stands stands' : α → Location → Prop} {items : List α} {numbers : List Nat}
    (byPlace : ByPlace stands items numbers)
    (same : ∀ item ∈ items, ∀ place, stands' item place → stands item place) :
    ByPlace stands' items numbers where
  once := byPlace.once
  sorted := byPlace.sorted.imp fun sorted a b place other here here' stands stands' =>
    sorted a b place other here here' (same a (List.mem_of_getElem? here) place stands)
      (same b (List.mem_of_getElem? here') other stands')

theorem Orderer.order_file {orderer : Orderer} (file : orderer.mode = .file) (scope : String)
    (place : α → Location) (items : List α) : ∃ numbers,
      ByPlace (fun item here => here = place item) items numbers ∧
      (orderer.order scope place items).map some = numbers.map (items[·]?) := by
  let atMost := fun a b => (place a).atMost (place b)
  -- With its number beside every item the order is strict, so that ties are told apart.
  let numbered := items.zipIdx.mergeSort (List.zipIdxLE atMost)
  have perm : numbered.Perm items.zipIdx := List.mergeSort_perm _ _
  have stands : ∀ entry ∈ numbered, items[entry.2]? = some entry.1 := fun entry member =>
    List.mem_zipIdx_iff_getElem?.mp (perm.mem_iff.mp member)
  have ordered : orderer.order scope place items = numbered.map (·.1) := by
    unfold Orderer.order
    rw [file]
    exact List.mergeSort_zipIdx.symm
  have once : (numbered.map (·.2)).Perm (List.range items.length) := by
    rw [List.range_eq_range', ← List.zipIdx_map_snd]
    exact perm.map _
  have distinct : numbered.Pairwise fun first second => first.2 ≠ second.2 :=
    List.pairwise_map.mp (once.nodup_iff.mpr List.nodup_range)
  have transitive : ∀ a b c, atMost a b = true → atMost b c = true → atMost a c = true :=
    fun _ _ _ => Location.atMost_trans
  have total : ∀ a b, (atMost a b || atMost b a) = true := fun a b =>
    Location.atMost_total (place a) (place b)
  have sorted : numbered.Pairwise fun first second => List.zipIdxLE atMost first second = true :=
    List.pairwise_mergeSort (List.zipIdxLE_trans transitive) (List.zipIdxLE_total total) _
  refine ⟨numbered.map (·.2), ⟨once, ?_⟩, ?_⟩
  · rw [List.pairwise_map]
    refine (sorted.and distinct).imp_of_mem ?_
    rintro ⟨a, m⟩ ⟨b, n⟩ member member' ⟨le, ne⟩ a' b' _ _ here here' rfl rfl
    obtain rfl : a = a' := Option.some.inj ((stands _ member).symm.trans here)
    obtain rfl : b = b' := Option.some.inj ((stands _ member').symm.trans here')
    exact Location.key_lt_or_eq_of_zipIdxLE ne le
  · rw [ordered, List.map_map, List.map_map]
    exact List.map_congr_left fun entry member => (stands entry member).symm

namespace Item

/-! ## Where a member stands -/

mutual
theorem map_place_leaves (chain chain' : Chain ν) : (item : Item ν) →
    (leaves chain item).map (·.2.place) = (leaves chain' item).map (·.2.place)
  | leaf _ => rfl
  | group g items => map_place_leavesAll (chain ++ [g]) (chain' ++ [g]) items

theorem map_place_leavesAll (chain chain' : Chain ν) : (items : List (Item ν)) →
    (leavesAll chain items).map (·.2.place) = (leavesAll chain' items).map (·.2.place)
  | [] => rfl
  | first :: rest => by
    simp only [leavesAll, List.map_append, map_place_leaves chain chain' first,
      map_place_leavesAll chain chain' rest]
end

def leafPlaces (item : Item ν) : List Location := (leaves [] item).map (·.2.place)

theorem leafPlaces_group (g : Group ν) (items : List (Item ν)) :
    leafPlaces (group g items) = items.flatMap leafPlaces := by
  change (leavesAll [g] items).map (·.2.place) = _
  rw [leavesAll_eq_flatMap, List.map_flatMap]
  exact List.flatMap_congr fun item _ => map_place_leaves [g] [] item

mutual
def barePlaces : Item ν → List Location
  | leaf _ => []
  | group g items => if items.isEmpty then [g.place] else barePlacesAll items

def barePlacesAll : List (Item ν) → List Location
  | [] => []
  | first :: rest => barePlaces first ++ barePlacesAll rest
end

theorem barePlacesAll_eq_flatMap (items : List (Item ν)) :
    barePlacesAll items = items.flatMap barePlaces := by
  induction items with
  | nil => rfl
  | cons first rest ih => simp only [barePlacesAll, ih, List.flatMap_cons]

def standing (item : Item ν) : List Location := leafPlaces item ++ barePlaces item

theorem mem_standing_group {g : Group ν} {items : List (Item ν)} {place : Location} :
    place ∈ standing (group g items) ↔
      (∃ item ∈ items, place ∈ standing item) ∨ items = [] ∧ place = g.place := by
  cases items with
  | nil => simp [standing, leafPlaces_group, barePlaces]
  | cons first rest =>
    simp only [standing, leafPlaces_group, barePlaces, barePlacesAll_eq_flatMap, List.isEmpty_cons,
      Bool.false_eq_true, if_false, List.mem_append, List.mem_flatMap, reduceCtorEq, false_and,
      or_false]
    constructor
    · rintro (⟨item, among, here⟩ | ⟨item, among, here⟩)
      · exact ⟨item, among, .inl here⟩
      · exact ⟨item, among, .inr here⟩
    · rintro ⟨item, among, here | here⟩
      · exact .inl ⟨item, among, here⟩
      · exact .inr ⟨item, among, here⟩

mutual
theorem firstPlace_earliest : (item : Item ν) →
    Location.Earliest item.firstPlace item.standing
  | leaf l => Location.earliest_singleton l.place
  | group g [] => Location.earliest_singleton g.place
  | group g (first :: rest) => by
    obtain ⟨place, found, earliest⟩ := firstPlaces_earliest (first :: rest) (List.cons_ne_nil _ _)
    rw [firstPlace, found]
    refine earliest.congr fun other => ?_
    rw [mem_standing_group, List.mem_flatMap]
    exact ⟨.inl, fun here => here.resolve_right fun none => List.cons_ne_nil _ _ none.1⟩

theorem firstPlaces_earliest : (items : List (Item ν)) → items ≠ [] →
    ∃ place, firstPlaces items = some place ∧
      Location.Earliest place (items.flatMap standing)
  | [], nonempty => absurd rfl nonempty
  | [item], _ => by
    refine ⟨item.firstPlace, rfl, ?_⟩
    rw [List.flatMap_singleton]
    exact firstPlace_earliest item
  | first :: second :: rest, _ => by
    obtain ⟨later, found, earliest⟩ := firstPlaces_earliest (second :: rest) (List.cons_ne_nil _ _)
    have here := (firstPlace_earliest first).append earliest
    exact ⟨first.firstPlace.first later, by rw [firstPlaces, found], here⟩
end

mutual
theorem mem_standing_arrange (orderer : Orderer) (chain : Chain ν) (place : Location) :
    (item : Item ν) → (place ∈ (arrange orderer chain item).standing ↔ place ∈ item.standing)
  | leaf _ => .rfl
  | group g items => by
    let inner := (g.ordering.map orderer.withMode).getD orderer
    have perm := Orderer.order_perm inner (Chain.path (chain ++ [g])) firstPlace
      (arrangeAll inner (chain ++ [g]) items)
    have members := mem_standing_arrangeAll inner (chain ++ [g]) place items
    have none : inner.order (Chain.path (chain ++ [g])) firstPlace
        (arrangeAll inner (chain ++ [g]) items) = [] ↔ items = [] := by
      rw [← List.length_eq_zero_iff, perm.length_eq, List.length_eq_zero_iff]
      cases items <;> simp [arrangeAll]
    simp only [arrange, mem_standing_group, inner, perm.mem_iff, members, none]

theorem mem_standing_arrangeAll (orderer : Orderer) (chain : Chain ν) (place : Location) :
    (items : List (Item ν)) → ((∃ item ∈ arrangeAll orderer chain items, place ∈ standing item) ↔
      ∃ item ∈ items, place ∈ standing item)
  | [] => .rfl
  | first :: rest => by
    simp only [arrangeAll, List.exists_mem_cons_iff, mem_standing_arrange orderer chain place first,
      mem_standing_arrangeAll orderer chain place rest]
end

/-- A member stands at the same place in every plan. -/
theorem firstPlace_arrange (orderer : Orderer) (chain : Chain ν) (item : Item ν) :
    (arrange orderer chain item).firstPlace = item.firstPlace := by
  have planned := (firstPlace_earliest (arrange orderer chain item)).congr fun place =>
    mem_standing_arrange orderer chain place item
  exact planned.unique (firstPlace_earliest item)

theorem arrangeAll_eq_map (orderer : Orderer) (chain : Chain ν) (items : List (Item ν)) :
    arrangeAll orderer chain items = items.map (arrange orderer chain) := by
  induction items with
  | nil => rfl
  | cons first rest ih => simp only [arrangeAll, ih, List.map_cons]

/-- A plan has each member of its tree in the same groups, arranged by the mode in force there. -/
theorem At.arranged (orderer : Orderer) {tree item : Item ν} {chain : Chain ν} {first : Nat}
    (place : At tree chain first item) : ∃ first',
      At (arrange orderer [] tree) chain first' (arrange (orderer.within chain) chain item) := by
  induction place with
  | root => exact ⟨0, .root⟩
  | @member chain first g before after item inside ih =>
    obtain ⟨first', planned⟩ := ih
    have within := orderer.within_append chain g
    have among : arrange (orderer.within (chain ++ [g])) (chain ++ [g]) item ∈
        arrangeAll (orderer.within (chain ++ [g])) (chain ++ [g]) (before ++ item :: after) := by
      rw [arrangeAll_eq_map]
      exact List.mem_map_of_mem (List.mem_append_right _ (List.mem_cons_self ..))
    rw [arrange, ← within] at planned
    obtain ⟨earlier, later, split⟩ := List.append_of_mem ((Orderer.order_perm
      (orderer.within (chain ++ [g])) (Chain.path (chain ++ [g])) firstPlace _).mem_iff.mpr among)
    rw [split] at planned
    exact ⟨_, .member planned⟩

/-- Where a member is to stand: a leaf at its own place, a spec at the earliest of the leaves in it,
and at its own place only if there are none. -/
inductive StandsAt : Item ν → Location → Prop
  | leaf (l : Leaf ν) : StandsAt (leaf l) l.place
  | leaves {g : Group ν} {items : List (Item ν)} {place : Location}
      (earliest : Location.Earliest place (leafPlaces (group g items))) :
      StandsAt (group g items) place
  | bare {g : Group ν} {items : List (Item ν)} (none : leafPlaces (group g items) = []) :
      StandsAt (group g items) g.place

/-- A spec stands at the earliest of its leaves exactly if no spec without members in it stands
before all of them. -/
theorem standsAt_firstPlace_iff {g : Group ν} {items : List (Item ν)}
    (nonempty : leafPlaces (group g items) ≠ []) :
    StandsAt (group g items) (group g items).firstPlace ↔
      ∀ bare ∈ barePlaces (group g items), ∃ place ∈ leafPlaces (group g items),
        place.key ≤ bare.key := by
  have stands := firstPlace_earliest (group g items)
  generalize (group g items).firstPlace = own at stands ⊢
  constructor
  · intro told bare among
    cases told with
    | leaves earliest =>
      exact ⟨_, earliest.among, stands.first bare (List.mem_append_right _ among)⟩
    | bare none => exact absurd none nonempty
  · intro after
    refine .leaves ⟨?_, fun other member => stands.first other (List.mem_append_left _ member)⟩
    rcases List.mem_append.mp stands.among with here | bare
    · exact here
    · obtain ⟨place, among, before⟩ := after _ bare
      have same := le_antisymm before (stands.first place (List.mem_append_left _ among))
      exact Location.key_injective same ▸ among

/-- A spec without leaves stands at its own place exactly if that is the earliest of the specs
without members in it. -/
theorem standsAt_firstPlace_iff_of_bare {g : Group ν} {items : List (Item ν)}
    (none : leafPlaces (group g items) = []) :
    StandsAt (group g items) (group g items).firstPlace ↔
      Location.Earliest g.place (barePlaces (group g items)) := by
  have stands := firstPlace_earliest (group g items)
  rw [standing, none, List.nil_append] at stands
  generalize (group g items).firstPlace = place at stands ⊢
  have own : StandsAt (group g items) place ↔ place = g.place := by
    constructor
    · intro told
      cases told with
      | leaves earliest => exact absurd (none ▸ earliest.among) List.not_mem_nil
      | bare _ => rfl
    · intro same
      exact same ▸ .bare none
  rw [own]
  exact ⟨fun same => same ▸ stands, stands.unique⟩

theorem exists_standsAt : (item : Item ν) → ∃ place, StandsAt item place
  | leaf l => ⟨_, .leaf l⟩
  | group g items => by
    by_cases none : leafPlaces (group g items) = []
    · exact ⟨_, .bare none⟩
    · obtain ⟨place, earliest⟩ := Location.exists_earliest none
      exact ⟨place, .leaves earliest⟩

theorem StandsAt.unique {item : Item ν} {place other : Location} (stands : item.StandsAt place)
    (stands' : item.StandsAt other) : place = other := by
  cases stands with
  | leaf l => cases stands'; rfl
  | leaves earliest =>
    cases stands' with
    | leaves earliest' => exact earliest.unique earliest'
    | bare none => exact absurd (none ▸ earliest.among) List.not_mem_nil
  | bare none =>
    cases stands' with
    | leaves earliest => exact absurd (none ▸ earliest.among) List.not_mem_nil
    | bare _ => rfl

end Item

namespace Runner

structure SortsFiles (runner : Runner ν) (tree : Item ν) : Prop where
  sorts : ∀ {chain first g items}, Item.At tree chain first (.group g items) →
    let here := chain ++ [g]
    let orderer := runner.orderer.within here
    orderer.mode = .file → ∃ first' planned numbers,
      Item.At (runner.plan tree) chain first' (.group g planned) ∧
      planned.map some = numbers.map (fun n => items[n]?.map (Item.arrange orderer here)) ∧
      ByPlace (fun item place => place = item.firstPlace) items numbers ∧
      ((∀ item ∈ items, item.StandsAt item.firstPlace) → ByPlace Item.StandsAt items numbers)
  first : ∀ item : Item ν, Location.Earliest item.firstPlace (item.leafPlaces ++ item.barePlaces)
  leaf : ∀ l : Leaf ν, (Item.leaf l).StandsAt (Item.leaf l).firstPlace
  leaves : ∀ (g : Group ν) (items : List (Item ν)), (Item.group g items).leafPlaces ≠ [] →
    ((Item.group g items).StandsAt (Item.group g items).firstPlace ↔
      ∀ bare ∈ (Item.group g items).barePlaces, ∃ place ∈ (Item.group g items).leafPlaces,
        place.key ≤ bare.key)
  bare : ∀ (g : Group ν) (items : List (Item ν)), (Item.group g items).leafPlaces = [] →
    ((Item.group g items).StandsAt (Item.group g items).firstPlace ↔
      Location.Earliest g.place (Item.group g items).barePlaces)
  told : ∀ item : Item ν, ∃! place, item.StandsAt place

/-- Every spec in file order lists its members by place. -/
theorem sorts_files (runner : Runner ν) (tree : Item ν) : runner.SortsFiles tree where
  sorts := by
    intro chain first g items place here orderer file
    obtain ⟨first', planned⟩ := place.arranged runner.orderer
    obtain ⟨numbers, byPlace, listed⟩ :=
      Orderer.order_file file here.path Item.firstPlace items
    have members : orderer.order here.path Item.firstPlace (Item.arrangeAll orderer here items) =
        (orderer.order here.path Item.firstPlace items).map (Item.arrange orderer here) := by
      have places : Item.firstPlace = fun item => (Item.arrange orderer here item).firstPlace :=
        funext fun item => (Item.firstPlace_arrange orderer here item).symm
      rw [Item.arrangeAll_eq_map, ← Orderer.map_order, ← places]
    rw [Item.arrange, ← Orderer.within_append, members] at planned
    refine ⟨first', _, numbers, planned, ?_, byPlace, fun told => ?_⟩
    · have moved := congrArg (List.map (Option.map (Item.arrange orderer here))) listed
      simpa [Function.comp_def] using moved
    · exact byPlace.imp fun item member place stands => stands.unique (told item member)
  first := Item.firstPlace_earliest
  leaf := Item.StandsAt.leaf
  leaves := fun _ _ => Item.standsAt_firstPlace_iff
  bare := fun _ _ => Item.standsAt_firstPlace_iff_of_bare
  told := fun item => item.exists_standsAt.elim fun place stands =>
    ⟨place, stands, fun _ other => other.unique stands⟩

end Runner

def pendingSpec : Item Unit :=
  .group { index := 1, description := "group", place := ⟨"b", 8, 16⟩ }
    [.group { index := 2, description := "pending", place := ⟨"a", 17, 16⟩ } [],
      .leaf ⟨"late", ⟨"b", 17, 16⟩, .done⟩]

def earlyLeaf : Item Unit := .leaf ⟨"early", ⟨"b", 16, 16⟩, .done⟩

def inFileOrder : Runner Unit :=
  ⟨{ Config.default 0 with ordering := .file }, .test, Deeper.within 1⟩

/-- A spec without members draws the one around it before a leaf that stands before all of the
leaves in it. -/
theorem pending_spec_is_drawn_forward :
    let tree : Item Unit :=
      .group { index := 0, description := "spec", place := default } [earlyLeaf, pendingSpec]
    (inFileOrder.plan tree).leafPaths [] = ["group/late", "early"] ∧
      pendingSpec.StandsAt ⟨"b", 17, 16⟩ ∧ earlyLeaf.StandsAt ⟨"b", 16, 16⟩ ∧
      (⟨"b", 16, 16⟩ : Location).key < (⟨"b", 17, 16⟩ : Location).key := by
  refine ⟨by cbv, .leaves (Location.earliest_singleton _), .leaf _, ?_⟩
  decide +kernel

end NestedSpec
