import NestedSpec.Proofs.Importing

/-!
# The order of imports

Imports are read in order, and an import adds what its paths denote by what has been read. So an
order is between two that are free of order: what each import adds when it is read alone, and what
the imports add when they are read again and again. Where these are the same no order matters, and
where each import has one name at its root there is no other case.
-/

namespace NestedSpec.Source

/-! ## Imports with one root -/

def Entry.HeadedBy (head : String) (entry : Entry) : Prop :=
  ∀ path name, entry.Brings path name → path.head? = some head

def Import.HeadedBy (head : String) (imported : Import) : Prop :=
  ∀ entry ∈ imported.entries, entry.HeadedBy head

theorem Entry.headedBy_ofName {head : String} {around : List String} {last : String}
    {newName : Option String} (first : (around ++ [last]).head? = some head) :
    (Entry.ofName around last newName).HeadedBy head := by
  unfold Entry.ofName
  split
  next isSelf =>
    rintro _ _ ⟨rfl, -⟩
    obtain ⟨_, _, rfl⟩ := List.exists_cons_of_ne_nil isSelf.2
    exact first
  next =>
    rintro _ _ ⟨rfl, -⟩
    exact first

namespace UseTree

mutual
theorem headedBy_of_mem_entries {head : String} {around : List String} {tree : UseTree}
    {entry : Entry} (first : around.head? = some head) (member : entry ∈ entries around tree) :
    entry.HeadedBy head := by
  have onward (name : String) : (around ++ [name]).head? = some head := by
    simp [List.head?_append, first]
  cases tree with
  | name last =>
    obtain rfl := List.mem_singleton.mp member
    exact Entry.headedBy_ofName (onward last)
  | rename last newName =>
    obtain rfl := List.mem_singleton.mp member
    exact Entry.headedBy_ofName (onward last)
  | glob =>
    obtain rfl := List.mem_singleton.mp member
    rintro _ name rfl
    exact onward name
  | path next rest => exact headedBy_of_mem_entries (onward next) member
  | group trees => exact headedBy_of_mem_entriesAll first member

theorem headedBy_of_mem_entriesAll {head : String} {around : List String} {trees : List UseTree}
    {entry : Entry} (first : around.head? = some head) (member : entry ∈ entriesAll around trees) :
    entry.HeadedBy head := by
  match trees with
  | [] => exact absurd member List.not_mem_nil
  | tree :: rest =>
    rcases List.mem_append.mp member with inFirst | inRest
    · exact headedBy_of_mem_entries first inFirst
    · exact headedBy_of_mem_entriesAll first inRest
end

def head? : UseTree → Option String
  | name last => some last
  | rename last _ => some last
  | path first _ => some first
  | glob => none
  | group _ => none

end UseTree

def Import.head? : Import → Option String
  | .use tree => tree.head?
  | .externCrate name _ => some name

theorem Import.headedBy_of_head? {head : String} {imported : Import}
    (first : imported.head? = some head) : imported.HeadedBy head := by
  intro entry member
  cases imported with
  | externCrate name newName =>
    obtain rfl := List.mem_singleton.mp member
    rintro _ _ ⟨rfl, -⟩
    exact first
  | use tree =>
    cases tree with
    | name last =>
      obtain rfl := List.mem_singleton.mp member
      exact Entry.headedBy_ofName first
    | rename last newName =>
      obtain rfl := List.mem_singleton.mp member
      exact Entry.headedBy_ofName first
    | path next rest =>
      have inside : [next].head? = some head := first
      exact UseTree.headedBy_of_mem_entries inside member
    | glob => nomatch first
    | group trees => nomatch first

namespace Scope

variable {scope : Scope} {head name library : String} {path : List String} {entity : Entity}
variable {entry : Entry} {entries : List Entry}

/-- What the plain reader takes for a path it takes because its first name is one of the library. -/
theorem Denotes.by_library (noPart : ∀ name, ¬ scope name .part)
    (denotes : scope.Denotes path entity) (first : path.head? = some head)
    (taken : Reading.plain entry path entity) :
    scope head .library ∧ (ofLibrary head).Denotes path entity := by
  have itself : ofLibrary head head .library := ⟨rfl, rfl⟩
  obtain ⟨-, notPart, long⟩ := taken
  cases entity with
  | library =>
    obtain ⟨_, rfl, known⟩ := denotes_library_iff.mp denotes
    obtain rfl := Option.some_inj.mp first
    exact ⟨known, .name itself⟩
  | part => exact absurd rfl notPart
  | type =>
    rcases denotes_type_iff.mp denotes with
      ⟨_, rfl, -⟩ | ⟨_, rfl, known | known⟩ | ⟨_, rfl, known⟩
    · exact absurd (long rfl) (by simp)
    · obtain rfl := Option.some_inj.mp first
      exact ⟨known, denotes_type_iff.mpr (.inr (.inl ⟨_, rfl, .inl itself⟩))⟩
    · exact absurd known (noPart _)
    · obtain rfl := Option.some_inj.mp first
      exact ⟨known, denotes_type_iff.mpr (.inr (.inr ⟨_, rfl, itself⟩))⟩

theorem noPart_bring (noPart : ∀ name, ¬ scope name .part) :
    ∀ name, ¬ scope.bring .plain entry name .part := by
  rintro name (there | ⟨_, -, ⟨-, notPart, -⟩, -⟩)
  · exact noPart name there
  · exact notPart rfl

theorem noPart_ofLibrary : ∀ name, ¬ ofLibrary library name .part := by
  rintro name ⟨-, ⟨⟩⟩

theorem ofLibrary_le (root : scope head .library) : ofLibrary head ≤ scope := by
  rintro _ _ ⟨rfl, rfl⟩
  exact root

/-- An entry adds what it adds to the library under the name at its root, if that is the library. -/
theorem bring_of_headed (headed : entry.HeadedBy head) (noPart : ∀ name, ¬ scope name .part) :
    scope.bring .plain entry name entity ↔ scope name entity ∨
      scope head .library ∧ (ofLibrary head).bring .plain entry name entity := by
  constructor
  · rintro (there | ⟨path, brings, taken, denotes⟩)
    · exact .inl there
    · obtain ⟨root, alone⟩ := denotes.by_library noPart (headed path name brings) taken
      exact .inr ⟨root, .inr ⟨path, brings, taken, alone⟩⟩
  · rintro (there | ⟨root, known⟩)
    · exact .inl there
    · exact bring_mono (ofLibrary_le root) entry name entity known

theorem bring_le_foldl (member : entry ∈ entries) :
    scope.bring .plain entry ≤ entries.foldl (bring .plain) scope := by
  obtain ⟨before, after, rfl⟩ := List.append_of_mem member
  rw [List.foldl_append, List.foldl_cons]
  exact (bring_mono (le_foldl_bring before scope) entry).trans (le_foldl_bring after _)

/-- So do several entries with one name at their roots. -/
theorem foldl_bring_of_headed (headed : ∀ entry ∈ entries, entry.HeadedBy head)
    (noPart : ∀ name, ¬ scope name .part) :
    entries.foldl (bring .plain) scope name entity ↔ scope name entity ∨
      scope head .library ∧ read .plain head entries name entity := by
  induction entries generalizing scope name entity with
  | nil =>
    refine ⟨.inl, ?_⟩
    rintro (there | ⟨root, known⟩)
    · exact there
    · exact ofLibrary_le root name entity known
  | cons entry rest ih =>
    obtain ⟨first, others⟩ := List.forall_mem_cons.mp headed
    have itself : (ofLibrary head).bring .plain entry head .library := .inl ⟨rfl, rfl⟩
    have step : read .plain head (entry :: rest) name entity ↔
        (ofLibrary head).bring .plain entry name entity ∨ read .plain head rest name entity := by
      rw [read, List.foldl_cons, ih others (noPart_bring noPart_ofLibrary)]
      exact or_congr_right (and_iff_right itself)
    rw [List.foldl_cons, ih others (noPart_bring noPart), step, bring_of_headed first noPart,
      bring_of_headed first noPart]
    tauto

end Scope

/-! ## Orders of imports -/

namespace Scope

def readPlain (library : String) (imports : List Import) : Scope :=
  read .plain library (imports.flatMap Import.entries)

/-- What imports bring in any order. -/
def leastPlain (library : String) (imports : List Import) : Scope :=
  least .plain library (imports.flatMap Import.entries)

def alone (library : String) (imports : List Import) : Scope := fun name entity =>
  ofLibrary library name entity ∨
    ∃ imported ∈ imports, read .plain library imported.entries name entity

variable {library head name : String} {entity : Entity} {imports order front : List Import}
variable {imported : Import}

theorem leastPlain_perm (perm : order.Perm imports) :
    leastPlain library order = leastPlain library imports := by
  have entries := perm.flatMap_right Import.entries
  exact le_antisymm (least_mono entries.subset) (least_mono entries.symm.subset)

theorem alone_perm (perm : order.Perm imports) : alone library order = alone library imports := by
  ext name entity
  simp [alone, perm.mem_iff]

theorem alone_le_readPlain : alone library imports ≤ readPlain library imports := by
  rintro name entity (start | ⟨imported, member, known⟩)
  · exact le_foldl_bring _ _ name entity start
  · obtain ⟨before, after, rfl⟩ := List.append_of_mem member
    rw [readPlain, read, List.flatMap_append, List.flatMap_cons, List.foldl_append,
      List.foldl_append]
    have start : ofLibrary library ≤ (before.flatMap Import.entries).foldl (bring .plain) _ :=
      le_foldl_bring _ _
    exact le_foldl_bring _ _ name entity (foldl_bring_mono start imported.entries name entity known)

theorem noPart_readPlain : ∀ name, ¬ readPlain library imports name .part := by
  intro name
  rw [readPlain, ← ContextNames.scope_ofImports]
  exact id

/-- Imports of the library by its own name need no others. -/
theorem leastPlain_le_alone (headed : ∀ imported ∈ imports, imported.HeadedBy library) :
    leastPlain library imports ≤ alone library imports := by
  have noPart (name : String) : ¬ alone library imports name .part :=
    fun known => noPart_readPlain name (alone_le_readPlain name .part known)
  refine least_le (fun _ _ => .inl) fun entry member name entity known => ?_
  obtain ⟨imported, isImport, isEntry⟩ := List.mem_flatMap.mp member
  have isHeaded := headed imported isImport entry isEntry
  rcases (bring_of_headed isHeaded noPart).mp known with there | ⟨-, added⟩
  · exact there
  · exact .inr ⟨imported, isImport, bring_le_foldl isEntry name entity added⟩

theorem readPlain_append_singleton (headed : imported.HeadedBy head) :
    readPlain library (front ++ [imported]) name entity ↔ readPlain library front name entity ∨
      readPlain library front head .library ∧ read .plain head imported.entries name entity := by
  rw [readPlain, read, List.flatMap_append, List.flatMap_singleton, List.foldl_append]
  exact foldl_bring_of_headed headed noPart_readPlain

/-- Imports that are not of the library by its own name bring nothing without others. -/
theorem readPlain_of_others
    (others : ∀ imported ∈ imports, ∃ head, imported.HeadedBy head ∧ head ≠ library) :
    readPlain library imports = ofLibrary library := by
  induction imports using List.reverseRecOn with
  | nil => rfl
  | append_singleton front last ih =>
    obtain ⟨inFront, head, headed, other⟩ := by simpa [or_imp, forall_and] using others
    ext name entity
    rw [readPlain_append_singleton headed, ih (by simpa using inFront)]
    simp [ofLibrary, other]

/-- Imports of the library by its own name bring what each of them brings alone. -/
theorem readPlain_append_own {own : List Import}
    (headed : ∀ imported ∈ own, imported.HeadedBy library) :
    readPlain library (front ++ own) ≤ fun name entity => readPlain library front name entity ∨
      ∃ imported ∈ own, read .plain library imported.entries name entity := by
  induction own using List.reverseRecOn with
  | nil => simp
  | append_singleton earlier last ih =>
    intro name entity known
    rw [← List.append_assoc, readPlain_append_singleton (headed last (by simp))] at known
    rcases known with known | ⟨-, known⟩
    · have before := ih (fun imported member => headed imported (by simp [member])) name entity known
      refine before.imp_right ?_
      exact fun ⟨imported, member, known⟩ => ⟨imported, by simp [member], known⟩
    · exact .inr ⟨last, by simp, known⟩

/-- With the imports of the library by its own name at the end none is there for others to use. -/
theorem exists_order_alone (library : String)
    (headed : ∀ imported ∈ imports, ∃ head, imported.HeadedBy head) :
    ∃ order, order.Perm imports ∧ readPlain library order ≤ alone library imports := by
  classical
  let own := imports.filter (·.HeadedBy library)
  let others := imports.filter fun imported => !decide (imported.HeadedBy library)
  have perm : (others ++ own).Perm imports :=
    List.perm_append_comm.trans (List.filter_append_perm _ imports)
  refine ⟨others ++ own, perm, fun name entity known => ?_⟩
  have early : readPlain library others = ofLibrary library := by
    refine readPlain_of_others fun imported member => ?_
    obtain ⟨member, notOwn⟩ := List.mem_filter.mp member
    obtain ⟨head, headedBy⟩ := headed imported member
    exact ⟨head, headedBy, fun same => absurd (same ▸ headedBy) (by simpa using notOwn)⟩
  have known := readPlain_append_own
    (fun imported member => of_decide_eq_true (List.mem_filter.mp member).2) name entity known
  rw [early] at known
  exact known.imp_right fun ⟨imported, member, known⟩ =>
    ⟨imported, (List.mem_filter.mp member).1, known⟩

/-- Where all orders are alike, no import adds anything at the end. -/
theorem leastPlain_le_of_alike (headed : ∀ imported ∈ imports, ∃ head, imported.HeadedBy head)
    (alike : ∀ order : List Import, order.Perm imports →
      readPlain library order = readPlain library imports) :
    leastPlain library imports ≤ readPlain library imports := by
  refine least_le (le_foldl_bring _ _) fun entry member name entity known => ?_
  obtain ⟨imported, isImport, isEntry⟩ := List.mem_flatMap.mp member
  obtain ⟨head, headedBy⟩ := headed imported isImport
  obtain ⟨before, after, split⟩ := List.append_of_mem isImport
  have last : ((before ++ after) ++ [imported]).Perm imports := by
    rw [split, List.append_assoc]
    exact (List.perm_append_singleton imported after).append_left before
  have atEnd {name : String} {entity : Entity} : readPlain library imports name entity ↔
      readPlain library (before ++ after) name entity ∨
        readPlain library (before ++ after) head .library ∧
          read .plain head imported.entries name entity := by
    rw [← alike _ last, readPlain_append_singleton headedBy]
  have isHeaded := headedBy entry isEntry
  rcases (bring_of_headed isHeaded noPart_readPlain).mp known with there | ⟨root, added⟩
  · exact there
  · have root := (atEnd.mp root).elim id And.left
    exact atEnd.mpr (.inr ⟨root, bring_le_foldl isEntry name entity added⟩)

end Scope

namespace ContextNames

variable {names other : ContextNames}

theorem isContext_congr (same : names.scope = other.scope) (type : TypeName) :
    names.isContext type = other.isContext type := by
  rw [Bool.eq_iff_iff, isContext_iff, isContext_iff, same]

/-- Names that classify types alike stand for the same. -/
theorem scope_eq_of_isContext (alike : ∀ type, names.isContext type = other.isContext type) :
    names.scope = other.scope := by
  ext name entity
  have same (type : TypeName) := Bool.eq_iff_iff.mp (alike type)
  cases entity with
  | library => simpa [isContext, isTypePath, scope] using same (.path [name, "T"])
  | part => exact Iff.rfl
  | type => simpa [isContext, scope] using same (.path [name])

/-- In every order imports bring at least what each brings alone, and at most what they bring without
an order. Where these are the same, types are classified alike in every order, and where each import
has one name at its root only there. -/
theorem orders_are_alike (library : String) (imports : List Import) :
    (∀ order : List Import, order.Perm imports →
      Scope.alone library imports ≤ (ofImports library order).scope ∧
        (ofImports library order).scope ≤ Scope.leastPlain library imports) ∧
    (Scope.leastPlain library imports ≤ Scope.alone library imports →
      ∀ order : List Import, order.Perm imports → ∀ type,
        (ofImports library order).isContext type = (ofImports library imports).isContext type) ∧
    ((∀ imported ∈ imports, ∃ head, imported.HeadedBy head) →
      (∀ order : List Import, order.Perm imports → ∀ type,
        (ofImports library order).isContext type = (ofImports library imports).isContext type) →
      Scope.leastPlain library imports ≤ Scope.alone library imports) := by
  have between (order : List Import) (perm : order.Perm imports) :
      Scope.alone library imports ≤ (ofImports library order).scope ∧
        (ofImports library order).scope ≤ Scope.leastPlain library imports := by
    rw [scope_ofImports, ← Scope.alone_perm perm, ← Scope.leastPlain_perm perm]
    exact ⟨Scope.alone_le_readPlain, Scope.read_le_least⟩
  refine ⟨between, fun closed order perm type => ?_, fun headed alike => ?_⟩
  · have only (order : List Import) (perm : order.Perm imports) :
        (ofImports library order).scope = Scope.alone library imports :=
      le_antisymm ((between order perm).2.trans closed) (between order perm).1
    exact isContext_congr ((only order perm).trans (only imports (.refl _)).symm) type
  · have same (order : List Import) (perm : order.Perm imports) :
        Scope.readPlain library order = Scope.readPlain library imports := by
      have := scope_eq_of_isContext (alike order perm)
      rwa [scope_ofImports, scope_ofImports] at this
    obtain ⟨order, perm, least⟩ := Scope.exists_order_alone library headed
    calc Scope.leastPlain library imports
        ≤ Scope.readPlain library imports := Scope.leastPlain_le_of_alike headed same
      _ = Scope.readPlain library order := (same order perm).symm
      _ ≤ Scope.alone library imports := least

def renamedApart : List Import :=
  [.use (.rename "testcase" "tc"), .use (.path "testcase" (.group [.rename "T" "Ctx", .glob]))]

theorem orders_are_alike_renamedApart :
    Scope.leastPlain "testcase" renamedApart ≤ Scope.alone "testcase" renamedApart ∧
    (∀ imported ∈ renamedApart, ∃ head, imported.HeadedBy head) ∧
    ∀ order : List Import, order.Perm renamedApart →
      Scope.alone "testcase" renamedApart ≤ (ofImports "testcase" order).scope ∧ ∀ type,
        (ofImports "testcase" order).isContext type =
          (ofImports "testcase" renamedApart).isContext type := by
  have headed : ∀ imported ∈ renamedApart, imported.HeadedBy "testcase" := by
    have heads : ∀ imported ∈ renamedApart, imported.head? = some "testcase" := by decide
    exact fun imported member => Import.headedBy_of_head? (heads imported member)
  obtain ⟨between, alike, needed⟩ := orders_are_alike "testcase" renamedApart
  have same := alike (Scope.leastPlain_le_alone headed)
  have closed := needed (fun imported member => ⟨_, headed imported member⟩) same
  exact ⟨closed, fun imported member => ⟨_, headed imported member⟩,
    fun order perm => ⟨(between order perm).1, same order perm⟩⟩

def usedEarly : List Import :=
  [.use (.path "tc" (.rename "T" "Ctx")), .use (.rename "testcase" "tc")]

/-- An import that is read before the one it refers to is lost. -/
theorem early_use_is_lost : usedEarly.reverse.Perm usedEarly ∧
    (ofImports "testcase" usedEarly.reverse).isContext (.behind (.path ["Ctx"])) = true ∧
    (ofImports "testcase" usedEarly).isContext (.behind (.path ["Ctx"])) = false :=
  ⟨List.reverse_perm _, by decide, by decide⟩

end ContextNames
end NestedSpec.Source
