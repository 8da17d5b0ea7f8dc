import Mathlib.Data.List.Induction
import Mathlib.Order.Basic
import NestedSpec.Source.ContextNames

/-!
# Names that imports bring into scope

What names and paths denote in a source, as far as it concerns the context type: the library, its
module with the type, and the type. An import brings names for what paths denote. What a name
denotes does not depend on the order of the imports; a reader that takes them in order learns the
same if each refers only to names that earlier ones have brought.

The names of the context type are what such a reader learns that leaves three kinds of imports out:
a module named as `self` in a group, any name for the module with the type, and another name for a
name of the type.
-/

namespace NestedSpec.Source

/-! ## What paths denote -/

inductive Entity where
  | library
  | part
  | type
deriving Repr, DecidableEq

inductive Entity.Has : Entity → String → Entity → Prop where
  | part : Has .library "t" .part
  | type : Has .library "T" .type
  | typeOfPart : Has .part "T" .type

/-- What names stand for. A name can stand for several things, as names that hide others are not
looked at. -/
abbrev Scope := String → Entity → Prop

namespace Scope

inductive Denotes (scope : Scope) : List String → Entity → Prop where
  | name {name : String} {entity : Entity} : scope name entity → Denotes scope [name] entity
  | member {path : List String} {entity inner : Entity} {name : String} :
    Denotes scope path entity → entity.Has name inner → Denotes scope (path ++ [name]) inner

variable {scope other : Scope} {path : List String} {entity : Entity}

theorem Denotes.mono (within : scope ≤ other) (denotes : scope.Denotes path entity) :
    other.Denotes path entity := by
  induction denotes with
  | name known => exact .name (within _ _ known)
  | member _ has ih => exact .member ih has

theorem denotes_iff : scope.Denotes path entity ↔ (∃ name, path = [name] ∧ scope name entity) ∨
    ∃ front outer name, path = front ++ [name] ∧ scope.Denotes front outer ∧
      outer.Has name entity := by
  constructor
  · rintro (known | ⟨denotes, has⟩)
    · exact .inl ⟨_, rfl, known⟩
    · exact .inr ⟨_, _, _, rfl, denotes, has⟩
  · rintro (⟨name, rfl, known⟩ | ⟨front, outer, name, rfl, denotes, has⟩)
    · exact .name known
    · exact .member denotes has

theorem Denotes.ne_nil (denotes : scope.Denotes path entity) : path ≠ [] := by
  cases denotes <;> simp

theorem Denotes.exists_head (denotes : scope.Denotes path entity) :
    ∃ head, path.head? = some head :=
  Option.ne_none_iff_exists'.mp (mt List.head?_eq_none_iff.mp denotes.ne_nil)

/-- A path denotes what it does by its first name. -/
theorem Denotes.of_head {head : String} (denotes : scope.Denotes path entity)
    (first : path.head? = some head) (within : scope head ≤ other head) :
    other.Denotes path entity := by
  induction denotes with
  | name known =>
    obtain rfl := Option.some_inj.mp first
    exact .name (within _ known)
  | member denotes has ih =>
    obtain ⟨_, _, rfl⟩ := List.exists_cons_of_ne_nil denotes.ne_nil
    exact .member (ih first) has

theorem denotes_library_iff :
    scope.Denotes path .library ↔ ∃ name, path = [name] ∧ scope name .library := by
  rw [denotes_iff]
  exact or_iff_left fun ⟨_, _, _, _, _, has⟩ => nomatch has

theorem denotes_part_iff : scope.Denotes path .part ↔
    (∃ name, path = [name] ∧ scope name .part) ∨
      ∃ name, path = [name, "t"] ∧ scope name .library := by
  rw [denotes_iff]
  refine or_congr_right ⟨?_, ?_⟩
  · rintro ⟨front, outer, _, rfl, denotes, ⟨⟩⟩
    obtain ⟨name, rfl, known⟩ := denotes_library_iff.mp denotes
    exact ⟨name, rfl, known⟩
  · rintro ⟨name, rfl, known⟩
    exact ⟨[name], .library, "t", rfl, .name known, .part⟩

theorem denotes_type_iff : scope.Denotes path .type ↔ (∃ name, path = [name] ∧ scope name .type) ∨
    (∃ name, path = [name, "T"] ∧ (scope name .library ∨ scope name .part)) ∨
    ∃ name, path = [name, "t", "T"] ∧ scope name .library := by
  rw [denotes_iff]
  refine or_congr_right ⟨?_, ?_⟩
  · rintro ⟨front, outer, _, rfl, denotes, ⟨⟩ | ⟨⟩⟩
    · obtain ⟨name, rfl, known⟩ := denotes_library_iff.mp denotes
      exact .inl ⟨name, rfl, .inl known⟩
    · rcases denotes_part_iff.mp denotes with ⟨name, rfl, known⟩ | ⟨name, rfl, known⟩
      · exact .inl ⟨name, rfl, .inr known⟩
      · exact .inr ⟨name, rfl, known⟩
  · rintro (⟨name, rfl, known | known⟩ | ⟨name, rfl, known⟩)
    · exact ⟨[name], .library, "T", rfl, .name known, .type⟩
    · exact ⟨[name], .part, "T", rfl, .name known, .typeOfPart⟩
    · exact ⟨[name, "t"], .part, "T", rfl, .member (.name known) .part, .typeOfPart⟩

theorem denotes_singleton_iff {name : String} :
    scope.Denotes [name] entity ↔ scope name entity := by
  rw [denotes_iff]
  constructor
  · rintro (⟨_, same, known⟩ | ⟨front, outer, last, same, denotes, -⟩)
    · exact (List.singleton_inj.mp same) ▸ known
    · cases front with
      | nil => exact absurd rfl denotes.ne_nil
      | cons first rest => simp at same
  · exact fun known => .inl ⟨name, rfl, known⟩

end Scope

/-! ## What imports bring -/

/-- One thing that an import brings: a name for what a path denotes, a name for a module that is
written as `self` in a group behind the module, or all members of a module. -/
inductive Entry where
  | named (path : List String) (name : String)
  | itself (path : List String) (name : String)
  | all (path : List String)
deriving Repr, DecidableEq

namespace Entry

def Brings : Entry → List String → String → Prop
  | named path name, path', name' => path' = path ∧ name' = name
  | itself path name, path', name' => path' = path ∧ name' = name
  | all around, path', name' => path' = around ++ [name']

def Spares (entry later : Entry) : Prop :=
  ∀ path name path' name', entry.Brings path name → later.Brings path' name' →
    path.head? ≠ some name'

def isItself : Entry → Bool
  | itself _ _ => true
  | _ => false

def ofName (around : List String) (name : String) (newName : Option String) : Entry :=
  if name = "self" ∧ around ≠ [] then
    .itself around (newName.getD (around.getLast?.getD name))
  else .named (around ++ [name]) (newName.getD name)

end Entry

namespace UseTree

mutual
def entries (around : List String) : UseTree → List Entry
  | name last => [.ofName around last none]
  | rename last newName => [.ofName around last (some newName)]
  | glob => [.all around]
  | path first rest => entries (around ++ [first]) rest
  | group trees => entriesAll around trees

def entriesAll (around : List String) : List UseTree → List Entry
  | [] => []
  | first :: rest => entries around first ++ entriesAll around rest
end

end UseTree

def Import.entries : Import → List Entry
  | .use tree => tree.entries []
  | .externCrate name newName => [.named [name] (newName.getD name)]

abbrev Reading := Entry → List String → Entity → Prop

namespace Reading

def whole : Reading := fun _ _ _ => True

/-- Leaves out a `self` in a group, names for the module with the type, and names for what is a name
of the type already. -/
def plain : Reading := fun entry path entity =>
  entry.isItself = false ∧ entity ≠ .part ∧ (entity = .type → 1 < path.length)

end Reading

namespace Scope

def bring (reading : Reading) (scope : Scope) (entry : Entry) : Scope := fun name entity =>
  scope name entity ∨
    ∃ path, entry.Brings path name ∧ reading entry path entity ∧ scope.Denotes path entity

def ofLibrary (library : String) : Scope := fun name entity => name = library ∧ entity = .library

def read (reading : Reading) (library : String) (entries : List Entry) : Scope :=
  entries.foldl (bring reading) (ofLibrary library)

/-- The least scope that has the name of the library and all that the entries bring into it, in
whatever order they stand. -/
def least (reading : Reading) (library : String) (entries : List Entry) : Scope :=
  fun name entity => ∀ scope, ofLibrary library ≤ scope →
    (∀ entry ∈ entries, scope.bring reading entry ≤ scope) → scope name entity

variable {reading : Reading} {scope other : Scope} {library : String} {entries : List Entry}

theorem le_bring (entry : Entry) : scope ≤ scope.bring reading entry :=
  fun _ _ known => .inl known

theorem bring_mono (within : scope ≤ other) (entry : Entry) :
    scope.bring reading entry ≤ other.bring reading entry := by
  rintro name entity (known | ⟨path, brings, taken, denotes⟩)
  · exact .inl (within _ _ known)
  · exact .inr ⟨path, brings, taken, denotes.mono within⟩

theorem le_foldl_bring (entries : List Entry) (scope : Scope) :
    scope ≤ entries.foldl (bring reading) scope := by
  induction entries generalizing scope with
  | nil => exact le_refl scope
  | cons entry rest ih => exact (le_bring entry).trans (ih _)

theorem foldl_bring_mono (within : scope ≤ other) (entries : List Entry) :
    entries.foldl (bring reading) scope ≤ entries.foldl (bring reading) other := by
  induction entries generalizing scope other with
  | nil => exact within
  | cons entry rest ih => exact ih (bring_mono within entry)

theorem ofLibrary_le_least : ofLibrary library ≤ least reading library entries :=
  fun _ _ known _ start _ => start _ _ known

theorem least_le (start : ofLibrary library ≤ scope)
    (closed : ∀ entry ∈ entries, scope.bring reading entry ≤ scope) :
    least reading library entries ≤ scope :=
  fun _ _ known => known scope start closed

theorem bring_least_le {entry : Entry} (member : entry ∈ entries) :
    (least reading library entries).bring reading entry ≤ least reading library entries := by
  intro name entity known scope start closed
  exact closed entry member _ _ (bring_mono (least_le start closed) entry _ _ known)

theorem least_of_brings {entry : Entry} {path : List String} {name : String} {entity : Entity}
    (member : entry ∈ entries) (brings : entry.Brings path name)
    (denotes : (least .whole library entries).Denotes path entity) :
    least .whole library entries name entity :=
  bring_least_le member _ _ (.inr ⟨path, brings, trivial, denotes⟩)

theorem foldl_bring_le {first : Scope} (within : first ≤ other)
    (closed : ∀ entry ∈ entries, other.bring reading entry ≤ other) :
    entries.foldl (bring reading) first ≤ other := by
  induction entries generalizing first with
  | nil => exact within
  | cons entry rest ih =>
    have taken : first.bring reading entry ≤ other :=
      (bring_mono within entry).trans (closed entry (List.mem_cons_self ..))
    exact ih taken fun later member => closed later (List.mem_cons_of_mem _ member)

/-- In order, no more is learned than the entries bring in any order. -/
theorem read_le_least : read reading library entries ≤ least reading library entries :=
  foldl_bring_le ofLibrary_le_least fun _ => bring_least_le

theorem least_mono {more : List Entry} (within : entries ⊆ more) :
    least reading library entries ≤ least reading library more :=
  least_le ofLibrary_le_least fun _ member => bring_least_le (within member)

/-- Whatever is left out, nothing else is learned. -/
theorem read_le_least_whole : read reading library entries ≤ least .whole library entries := by
  refine foldl_bring_le ofLibrary_le_least fun entry member name entity known => ?_
  refine bring_least_le member name entity (known.imp_right ?_)
  exact fun ⟨path, brings, _, denotes⟩ => ⟨path, brings, trivial, denotes⟩

/-- A name that none of the later entries brings stands for what it did before them, if what they
bring is not what the entries before them refer to. -/
theorem least_of_untouched {before later : List Entry}
    (spares : ∀ early ∈ before, ∀ late ∈ later, early.Spares late) :
    least .whole library (before ++ later) ≤ fun name entity =>
      (∀ late ∈ later, ∀ path, ¬ late.Brings path name) →
        least .whole library before name entity := by
  refine least_le (fun _ _ start _ => ofLibrary_le_least _ _ start) ?_
  rintro entry member name entity (there | ⟨path, brings, -, denotes⟩) untouched
  · exact there untouched
  · rcases List.mem_append.mp member with isEarly | isLate
    · obtain ⟨head, first⟩ := denotes.exists_head
      refine least_of_brings isEarly brings (denotes.of_head first fun _ known => known ?_)
      exact fun late isLate path' brings' =>
        spares entry isEarly late isLate path name path' head brings brings' first
    · exact absurd brings (untouched entry isLate path)

end Scope

/-! ## Imports in order -/

/-- Entries only refer to names that entries before them have brought. -/
def InOrder (library : String) (entries : List Entry) : Prop :=
  ∀ before entry after, entries = before ++ entry :: after →
    ∀ path name entity, entry.Brings path name →
      (Scope.least .whole library entries).Denotes path entity →
      (Scope.least .whole library before).Denotes path entity

section Ordered

variable {library : String} {entries : List Entry} {entry : Entry}

theorem InOrder.before (ordered : InOrder library (entries ++ [entry])) :
    InOrder library entries := by
  intro before here after split path name entity brings denotes
  refine ordered before here (after ++ [entry]) (by simp [split]) path name entity brings ?_
  exact denotes.mono (Scope.least_mono (List.subset_append_left ..))

/-- Entries are in order where none refers to a name that is brought by itself or a later one. -/
theorem inOrder_of_spares (alone : ∀ entry ∈ entries, entry.Spares entry)
    (apart : entries.Pairwise fun entry later => entry.Spares later) : InOrder library entries := by
  rintro before entry after rfl path name entity brings denotes
  obtain ⟨-, fromEntry, across⟩ := List.pairwise_append.mp apart
  have spared : ∀ late ∈ entry :: after, entry.Spares late := List.forall_mem_cons.mpr
    ⟨alone entry (by simp), fun _ => List.rel_of_pairwise_cons fromEntry⟩
  obtain ⟨head, first⟩ := denotes.exists_head
  refine denotes.of_head first fun entity known => ?_
  refine Scope.least_of_untouched across _ _ known fun late isLate path' brings' => ?_
  exact spared late isLate path name path' head brings brings' first

/-- What entries in order refer to is known before the last one, which gives nothing to others. -/
theorem InOrder.denotes_before {front : List Entry} {last : Entry} {path : List String}
    {name : String} {entity : Entity} (ordered : InOrder library (front ++ [last]))
    (member : entry ∈ front ++ [last]) (brings : entry.Brings path name)
    (denotes : (Scope.least .whole library (front ++ [last])).Denotes path entity) :
    (Scope.least .whole library front).Denotes path entity := by
  obtain ⟨before, after, split⟩ := List.append_of_mem member
  have within : before ⊆ front := by
    have shorter := congrArg List.dropLast split
    rw [List.dropLast_concat, List.dropLast_append_cons] at shorter
    exact shorter ▸ List.subset_append_left ..
  have earlier := ordered before entry after split path name entity brings denotes
  exact earlier.mono (Scope.least_mono within)

/-- A reader that takes imports in order learns what they bring, if they are in order. -/
theorem InOrder.least_eq_read (ordered : InOrder library entries) :
    Scope.least .whole library entries = Scope.read .whole library entries := by
  refine le_antisymm ?_ Scope.read_le_least
  induction entries using List.reverseRecOn with
  | nil => exact Scope.least_le (le_refl _) (by simp)
  | append_singleton front last ih =>
    have known : Scope.least .whole library front = Scope.read .whole library front :=
      le_antisymm (ih ordered.before) Scope.read_le_least
    have step : Scope.read .whole library (front ++ [last]) =
        (Scope.least .whole library front).bring .whole last := by
      simp [known, Scope.read]
    refine Scope.least_le (Scope.le_foldl_bring _ _) ?_
    rintro entry member name entity (there | ⟨path, brings, -, denotes⟩)
    · exact there
    · have denoted := ordered.denotes_before member brings (denotes.mono Scope.read_le_least)
      rw [step]
      rcases List.mem_append.mp member with inFront | isLast
      · exact .inl (Scope.least_of_brings inFront brings denoted)
      · obtain rfl := List.mem_singleton.mp isLast
        exact .inr ⟨path, brings, trivial, denoted⟩

/-- Where every entry that brings something is taken, nothing is missed. -/
theorem InOrder.read_eq_least {reading : Reading} (ordered : InOrder library entries)
    (taken : ∀ entry ∈ entries, ∀ path name entity, entry.Brings path name →
      (Scope.least .whole library entries).Denotes path entity → reading entry path entity) :
    Scope.read reading library entries = Scope.least .whole library entries := by
  have same (rest : List Entry) (within : rest ⊆ entries) (scope : Scope)
      (below : scope ≤ Scope.least .whole library entries) :
      rest.foldl (Scope.bring reading) scope = rest.foldl (Scope.bring .whole) scope := by
    induction rest generalizing scope with
    | nil => rfl
    | cons entry rest ih =>
      have ⟨member, later⟩ := List.cons_subset.mp within
      have one : scope.bring reading entry = scope.bring .whole entry := by
        ext name entity
        refine or_congr_right ⟨?_, ?_⟩
        · exact fun ⟨path, brings, _, denotes⟩ => ⟨path, brings, trivial, denotes⟩
        · exact fun ⟨path, brings, _, denotes⟩ =>
            ⟨path, brings, taken entry member path name entity brings (denotes.mono below), denotes⟩
      rw [List.foldl_cons, List.foldl_cons, one]
      exact ih later _ ((Scope.bring_mono below entry).trans (Scope.bring_least_le member))
  rw [ordered.least_eq_read]
  exact same entries (List.Subset.refl _) _ Scope.ofLibrary_le_least

end Ordered

/-! ## The names of the context type -/

namespace ContextNames

def scope (names : ContextNames) : Scope
  | name, .library => name ∈ names.libraries
  | _, .part => False
  | name, .type => name ∈ names.types ∨ (names.everything = true ∧ name = "T")

variable {names : ContextNames} {around path : List String} {name : String}

theorem scope_cons_type {entity : Entity} {newName : String} :
    { names with types := newName :: names.types }.scope name entity ↔
      names.scope name entity ∨ name = newName ∧ entity = .type := by
  cases entity <;> simp [scope]
  tauto

theorem scope_cons_library {entity : Entity} {newName : String} :
    { names with libraries := newName :: names.libraries }.scope name entity ↔
      names.scope name entity ∨ name = newName ∧ entity = .library := by
  cases entity <;> simp [scope, or_comm]

theorem isTypePath_iff :
    names.isTypePath path = true ↔ 1 < path.length ∧ names.scope.Denotes path .type := by
  rw [Scope.denotes_type_iff]
  match path with
  | [] => simp [isTypePath]
  | [_] => simp [isTypePath]
  | [library, last] => simp [isTypePath, scope, and_assoc]; exact and_comm
  | [library, part, last] => simp [isTypePath, scope, and_assoc]; tauto
  | _ :: _ :: _ :: _ :: _ => simp [isTypePath]

theorem isTypePath_append_iff {last : String} : names.isTypePath (around ++ [last]) = true ↔
    names.isModulePath around = true ∧ last = "T" := by
  match around with
  | [] => simp [isTypePath, isModulePath]
  | [_] => simp [isTypePath, isModulePath]
  | [_, _] => simp [isTypePath, isModulePath]
  | _ :: _ :: _ :: _ => simp [isTypePath, isModulePath]

theorem denotes_library_append_iff {last : String} :
    names.scope.Denotes (around ++ [last]) .library ↔
      (around.isEmpty && names.libraries.contains last) = true := by
  cases around <;> simp [Scope.denotes_library_iff, scope]

theorem scope_bring_ofName {last : String} {newName : Option String} :
    names.scope.bring .plain (.ofName around last newName) = fun name entity =>
      names.scope name entity ∨ name = newName.getD last ∧
        (entity = .library ∧ (around.isEmpty && names.libraries.contains last) = true ∨
          entity = .type ∧ names.isTypePath (around ++ [last]) = true) := by
  ext name entity
  unfold Entry.ofName
  split
  next isSelf =>
    simp [Scope.bring, Reading.plain, Entry.isItself, isSelf, isTypePath_append_iff]
  next =>
    rw [isTypePath_iff, ← denotes_library_append_iff]
    cases entity <;>
      simp [Scope.bring, Reading.plain, Entry.isItself, Entry.Brings, and_assoc, and_left_comm]

theorem scope_addTree_name {last : String} : (names.addTree around (.name last)).scope =
    names.scope.bring .plain (.ofName around last none) := by
  rw [scope_bring_ofName, addTree]
  ext name entity
  by_cases isType : names.isTypePath (around ++ [last]) = true
  · have inside : around ≠ [] := by rintro rfl; simp [isTypePath] at isType
    simp [isType, inside, scope_cons_type]
  · rw [if_neg isType]
    refine ⟨.inl, ?_⟩
    rintro (known | ⟨rfl, ⟨rfl, isLibrary⟩ | ⟨-, isType'⟩⟩)
    · exact known
    · simp only [Bool.and_eq_true, List.contains_iff_mem] at isLibrary
      exact isLibrary.2
    · exact absurd isType' isType

theorem scope_addTree_rename {last newName : String} :
    (names.addTree around (.rename last newName)).scope =
      names.scope.bring .plain (.ofName around last (some newName)) := by
  rw [scope_bring_ofName, addTree]
  ext name entity
  by_cases isType : names.isTypePath (around ++ [last]) = true
  · have inside : around ≠ [] := by rintro rfl; simp [isTypePath] at isType
    simp [isType, inside, scope_cons_type]
  · by_cases isLibrary : (around.isEmpty && names.libraries.contains last) = true
    · simp only [isType, isLibrary, Bool.false_eq_true, if_true, if_false, scope_cons_library]
      simp
    · simp only [isType, isLibrary, Bool.false_eq_true, if_false]
      simp

theorem scope_addTree_glob : (names.addTree around .glob).scope =
    names.scope.bring .plain (.all around) := by
  ext name entity
  cases entity with
  | library => simp [addTree, scope, Scope.bring, Entry.Brings, denotes_library_append_iff]
  | part => simp [scope, Scope.bring, Reading.plain]
  | type =>
    have brought : names.scope.bring .plain (.all around) name .type ↔
        names.scope name .type ∨ names.isTypePath (around ++ [name]) = true := by
      rw [isTypePath_iff]
      simp [Scope.bring, Reading.plain, Entry.isItself, Entry.Brings]
    rw [brought, isTypePath_append_iff]
    simp [addTree, scope]
    tauto

mutual
/-- A `use` tree adds what its entries bring. -/
theorem scope_addTree (names : ContextNames) (around : List String) (tree : UseTree) :
    (names.addTree around tree).scope =
      (tree.entries around).foldl (Scope.bring .plain) names.scope := by
  match tree with
  | .name last => simp [UseTree.entries, scope_addTree_name]
  | .rename last newName => simp [UseTree.entries, scope_addTree_rename]
  | .glob => simp [UseTree.entries, scope_addTree_glob]
  | .path first rest => simpa [UseTree.entries, addTree] using scope_addTree names _ rest
  | .group trees => simpa [UseTree.entries, addTree] using scope_addTrees names around trees

theorem scope_addTrees (names : ContextNames) (around : List String) (trees : List UseTree) :
    (names.addTrees around trees).scope =
      (UseTree.entriesAll around trees).foldl (Scope.bring .plain) names.scope := by
  match trees with
  | [] => rfl
  | first :: rest =>
    rw [addTrees, scope_addTrees, scope_addTree, UseTree.entriesAll, List.foldl_append]
end

/-- An `extern crate` item adds what a `use` item for the same name does. -/
theorem add_externCrate (name : String) (newName : Option String) :
    names.add (.externCrate name newName) =
      names.addTree [] (newName.elim (.name name) (.rename name)) := by
  cases newName <;> simp [add, addTree, isTypePath]

theorem scope_add (names : ContextNames) (imported : Import) :
    (names.add imported).scope = imported.entries.foldl (Scope.bring .plain) names.scope := by
  cases imported with
  | use tree => exact scope_addTree names [] tree
  | externCrate name newName =>
    rw [add_externCrate, scope_addTree]
    cases newName <;> simp [UseTree.entries, Import.entries, Entry.ofName]

def ofImports (library : String) (imports : List Import) : ContextNames :=
  imports.foldl add (ofLibrary library)

theorem ofOutline_eq (library : String) (outline : List Node) :
    ofOutline library outline = ofImports library (Node.importsAll outline) := rfl

theorem scope_foldl_add (names : ContextNames) (imports : List Import) :
    (imports.foldl add names).scope =
      (imports.flatMap Import.entries).foldl (Scope.bring .plain) names.scope := by
  induction imports generalizing names with
  | nil => rfl
  | cons first rest ih => rw [List.foldl_cons, ih, scope_add, List.flatMap_cons, List.foldl_append]

theorem scope_ofLibrary (library : String) :
    (ofLibrary library).scope = Scope.ofLibrary library := by
  ext name entity
  cases entity <;> simp [scope, ofLibrary, Scope.ofLibrary]

/-- The names of the context type are what the plain reader learns from the imports in order. -/
theorem scope_ofImports (library : String) (imports : List Import) :
    (ofImports library imports).scope =
      Scope.read .plain library (imports.flatMap Import.entries) := by
  rw [ofImports, scope_foldl_add, scope_ofLibrary, Scope.read]

end ContextNames

def TypeName.path? : TypeName → Option (List String)
  | .path segments => some segments
  | .behind inner => inner.path?
  | .other => none

namespace ContextNames

theorem isContext_iff {names : ContextNames} {type : TypeName} :
    names.isContext type = true ↔
      ∃ path, type.path? = some path ∧ names.scope.Denotes path .type := by
  fun_induction names.isContext type with
  | case1 name => simp [TypeName.path?, Scope.denotes_singleton_iff, scope]
  | case2 segments long =>
    have longer (denotes : names.scope.Denotes segments .type) : 1 < segments.length := by
      match segments with
      | [] => exact absurd rfl denotes.ne_nil
      | [name] => exact absurd rfl (long name)
      | _ :: _ :: _ => simp
    rw [isTypePath_iff, and_iff_right_of_imp longer]
    simp [TypeName.path?]
  | case3 inner ih => simpa [TypeName.path?] using ih
  | case4 => simp [TypeName.path?]

/-- Of imports in order a reader that takes all learns what every path denotes. The types that are
taken for the context type are those whose paths denote it for the plain reader, which is all of them
where every import is one that the plain reader takes. -/
theorem imports_are_followed {library : String} {outline : List Node} {type : TypeName}
    {path : List String}
    (ordered : InOrder library ((Node.importsAll outline).flatMap Import.entries))
    (named : type.path? = some path) :
    let entries := (Node.importsAll outline).flatMap Import.entries
    let meant := Scope.least .whole library entries
    (meant.Denotes path .type ↔ (Scope.read .whole library entries).Denotes path .type) ∧
    ((ofOutline library outline).isContext type = true ↔
      (Scope.read .plain library entries).Denotes path .type) ∧
    ((ofOutline library outline).isContext type = true → meant.Denotes path .type) ∧
    ((∀ entry ∈ entries, ∀ path name entity, entry.Brings path name → meant.Denotes path entity →
        Reading.plain entry path entity) →
      ((ofOutline library outline).isContext type = true ↔ meant.Denotes path .type)) := by
  intro entries meant
  have accepted : (ofOutline library outline).isContext type = true ↔
      (Scope.read .plain library entries).Denotes path .type := by
    rw [ofOutline_eq, isContext_iff, scope_ofImports, named]
    simp [entries]
  refine ⟨by rw [← ordered.least_eq_read], accepted, fun known => ?_, fun taken => ?_⟩
  · exact (accepted.mp known).mono Scope.read_le_least_whole
  · rw [accepted, ordered.read_eq_least taken]

def renamedTwice : List Node :=
  [.node (.item (some (.use (.rename "testcase" "tc")))) 1 1 [],
    .node (.item (some (.use (.path "tc" (.rename "T" "Ctx"))))) 2 2 []]

theorem imports_are_followed_renamedTwice :
    InOrder "testcase" ((Node.importsAll renamedTwice).flatMap Import.entries) ∧
    TypeName.path? (.behind (.path ["Ctx"])) = some ["Ctx"] ∧
    (ofOutline "testcase" renamedTwice).isContext (.behind (.path ["Ctx"])) = true ∧
    (Scope.least .whole "testcase"
      ((Node.importsAll renamedTwice).flatMap Import.entries)).Denotes ["Ctx"] .type := by
  have entries : (Node.importsAll renamedTwice).flatMap Import.entries =
      [.named ["testcase"] "tc", .named ["tc", "T"] "Ctx"] := by decide
  have ordered : InOrder "testcase" ((Node.importsAll renamedTwice).flatMap Import.entries) := by
    rw [entries]
    apply inOrder_of_spares <;> simp +contextual [Entry.Spares, Entry.Brings]
  have named : TypeName.path? (.behind (.path ["Ctx"])) = some ["Ctx"] := rfl
  have accepted :
      (ofOutline "testcase" renamedTwice).isContext (.behind (.path ["Ctx"])) = true := by decide
  obtain ⟨-, -, sound, -⟩ := imports_are_followed ordered named
  exact ⟨ordered, named, accepted, sound accepted⟩

def renamedSelf : List Node :=
  [.node (.item (some (.use (.path "testcase" (.group [.rename "self" "tc"]))))) 1 1 []]

def renamedModule : List Node :=
  [.node (.item (some (.use (.path "testcase" (.rename "t" "m"))))) 1 1 []]

/-- Both give a path to the type that is not taken for the context type. -/
theorem module_aliases_are_not_followed :
    (InOrder "testcase" ((Node.importsAll renamedSelf).flatMap Import.entries) ∧
      (Scope.least .whole "testcase"
        ((Node.importsAll renamedSelf).flatMap Import.entries)).Denotes ["tc", "T"] .type ∧
      (ofOutline "testcase" renamedSelf).isContext (.behind (.path ["tc", "T"])) = false) ∧
    (InOrder "testcase" ((Node.importsAll renamedModule).flatMap Import.entries) ∧
      (Scope.least .whole "testcase"
        ((Node.importsAll renamedModule).flatMap Import.entries)).Denotes ["m", "T"] .type ∧
      (ofOutline "testcase" renamedModule).isContext (.behind (.path ["m", "T"])) = false) := by
  have ofSelf : (Node.importsAll renamedSelf).flatMap Import.entries =
      [.itself ["testcase"] "tc"] := by decide
  have ofPart : (Node.importsAll renamedModule).flatMap Import.entries =
      [.named ["testcase", "t"] "m"] := by decide
  have library (entries : List Entry) : Scope.least .whole "testcase" entries "testcase" .library :=
    Scope.ofLibrary_le_least _ _ ⟨rfl, rfl⟩
  have brings : (Entry.itself ["testcase"] "tc").Brings ["testcase"] "tc" := ⟨rfl, rfl⟩
  have brings' : (Entry.named ["testcase", "t"] "m").Brings ["testcase", "t"] "m" := ⟨rfl, rfl⟩
  rw [ofSelf, ofPart]
  refine ⟨⟨?_, ?_, by decide⟩, ⟨?_, ?_, by decide⟩⟩
  · apply inOrder_of_spares <;> simp +contextual [Entry.Spares, Entry.Brings]
  · have known := Scope.least_of_brings (List.mem_singleton_self _) brings (.name (library _))
    exact Scope.denotes_type_iff.mpr (.inr (.inl ⟨"tc", rfl, .inl known⟩))
  · apply inOrder_of_spares <;> simp +contextual [Entry.Spares, Entry.Brings]
  · have known := Scope.least_of_brings (List.mem_singleton_self _) brings'
      (Scope.denotes_part_iff.mpr (.inr ⟨"testcase", rfl, library _⟩))
    exact Scope.denotes_type_iff.mpr (.inr (.inl ⟨"m", rfl, .inr known⟩))

end ContextNames
end NestedSpec.Source
