import NestedSpec.Proofs.Outlines

/-!
# Colours only decorate a report

A report in colour is the report without colour and some sequences between its characters: taken
out, they leave the plain report, as long as no name brings in sequences of its own. The lines of
the two reports go together one by one. A name that cases go on below is not coloured, and any other
line is in one colour, which tells its mark.
-/

namespace NestedSpec

namespace Terminal

def escape : Char := '\x1b'

def switches : List (List Char) :=
  [reset.toList, (begin .red).toList, (begin .green).toList, (begin .yellow).toList]

/-- The characters that are left without the switches; so many of them belong to a switch that has
begun before. -/
def stripFrom : Nat → List Char → List Char
  | _, [] => []
  | skipped + 1, _ :: rest => stripFrom skipped rest
  | 0, c :: rest =>
    match switches.find? (·.isPrefixOf (c :: rest)) with
    | some switch => stripFrom (switch.length - 1) rest
    | none => c :: stripFrom 0 rest

def strip (text : String) : String := String.ofList (stripFrom 0 text.toList)

theorem switches_begin {switch : List Char} (member : switch ∈ switches) :
    ∃ rest, switch = escape :: rest := by
  have all : ∀ switch ∈ switches, switch.head? = some escape := by decide
  exact List.head?_eq_some_iff.mp (all switch member)

theorem stripFrom_cons_of_ne {c : Char} (plain : c ≠ escape) (rest : List Char) :
    stripFrom 0 (c :: rest) = c :: stripFrom 0 rest := by
  have unmatched : switches.find? (·.isPrefixOf (c :: rest)) = none := by
    refine List.find?_eq_none.mpr fun switch member starts => plain ?_
    obtain ⟨more, rfl⟩ := switches_begin member
    have same := (List.cons_prefix_cons.mp (List.isPrefixOf_iff_prefix.mp starts)).1
    exact same.symm
  rw [stripFrom, unmatched]

theorem stripFrom_length (text rest : List Char) :
    stripFrom text.length (text ++ rest) = stripFrom 0 rest := by
  induction text with
  | nil => rfl
  | cons c more ih => exact ih

theorem stripFrom_switch {switch : List Char} (member : switch ∈ switches) (rest : List Char) :
    stripFrom 0 (switch ++ rest) = stripFrom 0 rest := by
  -- No switch begins another, so the one that is found is the one that stands there.
  have found : switches.find? (·.isPrefixOf (switch ++ rest)) = some switch := by
    simp only [switches, List.mem_cons, List.not_mem_nil, or_false] at member
    rcases member with rfl | rfl | rfl | rfl <;> simp [switches, reset, begin, Colour.number]
  obtain ⟨more, rfl⟩ := switches_begin member
  rw [List.cons_append] at found
  rw [List.cons_append, stripFrom, found]
  exact stripFrom_length more rest

def Decorates (coloured plain : String) : Prop :=
  ∀ rest, stripFrom 0 (coloured.toList ++ rest) = plain.toList ++ stripFrom 0 rest

namespace Decorates

variable {coloured plain coloured' plain' text : String}

theorem strip_eq (decorates : Decorates coloured plain) : strip coloured = plain := by
  have whole := decorates []
  rw [List.append_nil] at whole
  rw [strip, whole, stripFrom, List.append_nil, String.ofList_toList]

theorem of_plain (plain : escape ∉ text.toList) : Decorates text text := by
  intro rest
  generalize text.toList = chars at plain ⊢
  induction chars with
  | nil => rfl
  | cons c more ih =>
    rw [List.mem_cons, not_or] at plain
    rw [List.cons_append, stripFrom_cons_of_ne (Ne.symm plain.1), ih plain.2, List.cons_append]

theorem of_switch (member : text.toList ∈ switches) : Decorates text "" := by
  intro rest
  rw [stripFrom_switch member]
  rfl

theorem append (first : Decorates coloured plain) (second : Decorates coloured' plain') :
    Decorates (coloured ++ coloured') (plain ++ plain') := by
  intro rest
  rw [String.toList_append, List.append_assoc, first, second, String.toList_append,
    List.append_assoc]

theorem join {α : Type} {items : List α} {colouredLine plainLine : α → String}
    (each : ∀ item ∈ items, Decorates (colouredLine item) (plainLine item)) :
    Decorates (String.join (items.map colouredLine)) (String.join (items.map plainLine)) := by
  induction items with
  | nil => exact fun _ => rfl
  | cons item rest ih =>
    rw [List.map_cons, List.map_cons, String.join_cons, String.join_cons]
    exact (each item (List.mem_cons_self ..)).append
      (ih fun other member => each other (List.mem_cons_of_mem _ member))

end Decorates

def wrap (colour : Colour) (text : String) : String := reset ++ begin colour ++ text ++ reset

theorem begin_mem_switches (colour : Colour) : (begin colour).toList ∈ switches := by
  cases colour <;> decide

theorem decorates_wrap {text : String} (plain : escape ∉ text.toList) (colour : Colour) :
    Decorates (wrap colour text) text := by
  have off : Decorates reset "" := .of_switch (by decide)
  have on : Decorates (begin colour) "" := .of_switch (begin_mem_switches colour)
  have all := ((off.append on).append (.of_plain plain)).append off
  rwa [String.append_empty, String.append_empty, String.empty_append] at all

theorem wrap_injective {colour other : Colour} {text : String}
    (same : wrap colour text = wrap other text) : colour = other := by
  simp only [wrap, String.append_assoc, String.append_right_inj] at same
  have begun : begin colour = begin other := String.append_left_inj _ |>.mp same
  cases colour <;> cases other <;> first | rfl | exact absurd begun (by decide)

end Terminal

namespace ReportStyle

open Terminal (Decorates escape wrap)

variable {cases : List Case} {path : List String}

theorem line_of_inner (style : ReportStyle) (inner : ∃ c ∈ cases, StrictlyBelow path c.path) :
    style.line cases path = indent (path.length - 1) ++ path.getLast?.getD "" := by
  rw [line, if_pos inner]

def label (cases : List Case) (path : List String) : String :=
  path.getLast?.getD "" ++ Case.markAt cases path

theorem line_plain_eq (verbose : Bool) (cases : List Case) (path : List String) :
    line ⟨verbose, false⟩ cases path = indent (path.length - 1) ++ label cases path := by
  rw [line_plain, Case.plainLine, label, ← String.append_assoc]
  rfl

def markColour (mark : String) : Terminal.Colour :=
  if mark = " [FAIL]" then .red else if mark = " [SKIP]" then .yellow else .green

theorem line_of_leaf (verbose : Bool) (leaf : ¬ ∃ c ∈ cases, StrictlyBelow path c.path) :
    line ⟨verbose, true⟩ cases path = indent (path.length - 1) ++
      wrap (markColour (Case.markAt cases path)) (label cases path) := by
  rw [line, label, Case.markAt, if_neg leaf, if_neg leaf]
  by_cases failed : ∃ c ∈ cases, c.path = path ∧ c.failed = true
  · simp [failed, paint, leafColour, marker, markColour, wrap]
  · by_cases skipped : ∃ c ∈ cases, c.path = path ∧ c.skipped = true <;>
      simp [failed, skipped, paint, leafColour, marker, markColour, wrap]

structure InColour (verbose : Bool) (cases : List Case) (path : List String)
    (colour : Terminal.Colour) : Prop where
  wrapped : line ⟨verbose, true⟩ cases path =
    indent (path.length - 1) ++ wrap colour (label cases path)
  red : colour = .red ↔ Case.markAt cases path = " [FAIL]"
  yellow : colour = .yellow ↔ Case.markAt cases path = " [SKIP]"
  green : colour = .green ↔ Case.markAt cases path = ""

theorem markAt_cases (cases : List Case) (path : List String) : Case.markAt cases path = "" ∨
    Case.markAt cases path = " [FAIL]" ∨ Case.markAt cases path = " [SKIP]" := by
  unfold Case.markAt
  split
  · exact .inl rfl
  · split
    · exact .inr (.inl rfl)
    · split
      · exact .inr (.inr rfl)
      · exact .inl rfl

theorem inColour_markColour (verbose : Bool) (leaf : ¬ ∃ c ∈ cases, StrictlyBelow path c.path) :
    InColour verbose cases path (markColour (Case.markAt cases path)) := by
  rcases markAt_cases cases path with mark | mark | mark <;>
    refine ⟨line_of_leaf verbose leaf, ?_, ?_, ?_⟩ <;> rw [mark] <;> decide

theorem InColour.unique {verbose : Bool} {colour other : Terminal.Colour}
    (first : InColour verbose cases path colour) (second : InColour verbose cases path other) :
    colour = other := by
  have same := first.wrapped.symm.trans second.wrapped
  exact Terminal.wrap_injective (String.append_right_inj _ |>.mp same)

theorem plain_label (plain : ∀ c ∈ cases, ∀ name ∈ c.path, escape ∉ name.toList)
    (named : path ≠ []) (known : ∃ c ∈ cases, path <+: c.path) :
    escape ∉ (label cases path).toList := by
  obtain ⟨c, member, here⟩ := known
  have last : path.getLast?.getD "" ∈ c.path := by
    rw [List.getLast?_eq_some_getLast named, Option.getD_some]
    exact here.subset (List.getLast_mem named)
  have mark : escape ∉ (Case.markAt cases path).toList := by
    rcases markAt_cases cases path with none | failed | skipped
    · rw [none]; decide
    · rw [failed]; decide
    · rw [skipped]; decide
  rw [label, String.toList_append, List.mem_append, not_or]
  exact ⟨plain c member _ last, mark⟩

theorem plain_indent (level : Nat) : escape ∉ (indent level).toList := by
  rw [indent, String.toList_ofList, List.mem_replicate]
  exact fun known => absurd known.2 (by decide)

/-- A line in colour is the line without colour, decorated. -/
theorem decorates_line (verbose : Bool)
    (plain : ∀ c ∈ cases, ∀ name ∈ c.path, escape ∉ name.toList) (named : path ≠ [])
    (known : ∃ c ∈ cases, path <+: c.path) :
    Decorates (line ⟨verbose, true⟩ cases path) (line ⟨verbose, false⟩ cases path) := by
  have label := plain_label plain named known
  have indented := Decorates.of_plain (plain_indent (path.length - 1))
  by_cases inner : ∃ c ∈ cases, StrictlyBelow path c.path
  · rw [line_of_inner _ inner, ← line_of_inner ⟨verbose, false⟩ inner, line_plain_eq]
    exact indented.append (.of_plain label)
  · rw [line_of_leaf verbose inner, line_plain_eq]
    exact indented.append (Terminal.decorates_wrap label _)

/-- Without its switches, a report in colour is the report without colour, if no name holds the
character that begins a switch. The lines are those of the same paths: a path that a case goes on
below has the same line in both, and any other line is wrapped in one colour that tells its mark. -/
theorem colour_decorates (verbose : Bool) {cases : List Case}
    (plain : ∀ c ∈ cases, ∀ name ∈ c.path, escape ∉ name.toList) :
    Terminal.strip (format ⟨verbose, true⟩ cases) = format ⟨verbose, false⟩ cases ∧
    ∃ shown, Case.Outlines verbose cases shown ∧
      (∀ colour, format ⟨verbose, colour⟩ cases =
        String.join (shown.map fun path => line ⟨verbose, colour⟩ cases path ++ "\n")) ∧
      ∀ path ∈ shown, line ⟨verbose, false⟩ cases path = Case.plainLine cases path ∧
        ((∃ c ∈ cases, StrictlyBelow path c.path) →
          line ⟨verbose, true⟩ cases path = line ⟨verbose, false⟩ cases path) ∧
        ((¬ ∃ c ∈ cases, StrictlyBelow path c.path) →
          ∃! colour, InColour verbose cases path colour) := by
  have outlines := Case.outlines_outline verbose cases
  refine ⟨?_, _, outlines, fun colour => format_eq_join ⟨verbose, colour⟩ cases, ?_⟩
  · refine Decorates.strip_eq ?_
    rw [format_eq_join, format_eq_join]
    refine Decorates.join fun path listed => ?_
    obtain ⟨named, c, member, here, -⟩ := (outlines.mem_iff path).mp listed
    exact (decorates_line verbose plain named ⟨c, member, here⟩).append (.of_plain (by decide))
  · intro path _
    refine ⟨line_plain verbose cases path, fun inner => ?_, fun leaf => ?_⟩
    · rw [line_of_inner _ inner, line_of_inner _ inner]
    · exact ⟨_, inColour_markColour verbose leaf, fun other told =>
        told.unique (inColour_markColour verbose leaf)⟩

def oneOfEach : List Case :=
  [⟨["spec", "a"], true, false⟩, ⟨["spec", "b"], false, true⟩, ⟨["spec", "c"], false, false⟩,
    ⟨["spec"], true, false⟩]

theorem colour_decorates_oneOfEach :
    (∀ c ∈ oneOfEach, ∀ name ∈ c.path, escape ∉ name.toList) ∧
    Terminal.strip (format ⟨true, true⟩ oneOfEach) = format ⟨true, false⟩ oneOfEach ∧
    format ⟨true, true⟩ oneOfEach =
      "spec\n  \x1b[0m\x1b[31ma [FAIL]\x1b[0m\n  \x1b[0m\x1b[33mb [SKIP]\x1b[0m\n" ++
        "  \x1b[0m\x1b[32mc\x1b[0m\n" := by
  have plain : ∀ c ∈ oneOfEach, ∀ name ∈ c.path, escape ∉ name.toList := by decide
  exact ⟨plain, (colour_decorates true plain).1, by decide +kernel⟩

end ReportStyle
end NestedSpec
