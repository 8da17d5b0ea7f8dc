import Mathlib.Tactic.SplitIfs
import NestedSpec.Assertion
import NestedSpec.Proofs.Differences

/-!
# What is shown of unequal values

Values are shown with one component a line, and no such line is empty: what could end a line inside
a text is written as an escape. So the complaint that two values are not equal shows both of them in
full.
-/

namespace NestedSpec

open Text (OnOneLine)

/-! ## Texts on one line -/

namespace Text

theorem onOneLine_iff {text : String} :
    OnOneLine text ↔ ∀ c ∈ text.toList, c ≠ '\n' ∧ c ≠ '\r' := by
  constructor
  · intro plain c member
    exact ⟨fun feed => plain.1 (feed ▸ member), fun carriage => plain.2 (carriage ▸ member)⟩
  · intro plain
    exact ⟨fun feed => (plain _ feed).1 rfl, fun carriage => (plain _ carriage).2 rfl⟩

theorem onOneLine_of_digits {text : String} (digits : ∀ c ∈ text.toList, c.isDigit = true) :
    OnOneLine text :=
  ⟨fun feed => absurd (digits _ feed) (by decide),
    fun carriage => absurd (digits _ carriage) (by decide)⟩

theorem onOneLine_repr (n : Nat) : OnOneLine n.repr :=
  onOneLine_of_digits fun _ member =>
    Nat.isDigit_of_mem_toDigits (by decide) (by decide) (Nat.toList_repr ▸ member)

theorem onOneLine_toString (n : Int) : OnOneLine (toString n) := by
  rw [Int.toString_eq_repr, Int.repr_eq_if]
  split
  · exact onOneLine_repr _
  · exact onOneLine_append.mpr ⟨by decide, onOneLine_repr _⟩

theorem digitChar_ne {digit : Nat} (small : digit < 16) :
    digit.digitChar ≠ '\n' ∧ digit.digitChar ≠ '\r' := by
  have all : ∀ digit : Fin 16, Nat.digitChar digit ≠ '\n' ∧ Nat.digitChar digit ≠ '\r' := by decide
  exact all ⟨digit, small⟩

theorem onOneLine_hexadecimal (n : Nat) : OnOneLine (hexadecimal n) := by
  rw [onOneLine_iff, hexadecimal, String.toList_ofList]
  induction n using Nat.strongRecOn with
  | ind n ih =>
    rw [Nat.toDigits_eq_if (by decide)]
    intro c member
    split at member
    · rename_i small
      rw [List.mem_singleton.mp member]
      exact digitChar_ne small
    · rcases List.mem_append.mp member with higher | last
      · exact ih (n / 16) (by omega) c higher
      · rw [List.mem_singleton.mp last]
        exact digitChar_ne (Nat.mod_lt n (by decide))

theorem onOneLine_singleton {c : Char} (plain : c ≠ '\n' ∧ c ≠ '\r') :
    OnOneLine (String.singleton c) := by
  rw [onOneLine_iff, String.toList_singleton]
  intro other member
  exact List.mem_singleton.mp member ▸ plain

theorem onOneLine_escapeChar {quote : Char} (plain : quote ≠ '\n' ∧ quote ≠ '\r') (c : Char) :
    OnOneLine (escapeChar quote c) := by
  unfold escapeChar
  split_ifs with same _ _ carriage feed
  · exact onOneLine_append.mpr ⟨by decide, onOneLine_singleton (same ▸ plain)⟩
  · decide
  · decide
  · decide
  · decide
  · decide
  · rw [numericEscape, onOneLine_append, onOneLine_append]
    exact ⟨⟨by decide, onOneLine_hexadecimal c.toNat⟩, by decide⟩
  · exact onOneLine_singleton ⟨feed, carriage⟩

theorem onOneLine_join {texts : List String} (plain : ∀ text ∈ texts, OnOneLine text) :
    OnOneLine (String.join texts) := by
  induction texts with
  | nil => decide
  | cons text rest ih =>
    rw [String.join_cons, onOneLine_append]
    exact ⟨plain text (List.mem_cons_self ..),
      ih fun other member => plain other (List.mem_cons_of_mem _ member)⟩

theorem onOneLine_quote (text : String) : OnOneLine (quote text) := by
  refine onOneLine_append.mpr ⟨onOneLine_append.mpr ⟨by decide, ?_⟩, by decide⟩
  refine onOneLine_join fun escaped member => ?_
  obtain ⟨c, _, rfl⟩ := List.mem_map.mp member
  exact onOneLine_escapeChar (by decide) c

theorem onOneLine_quoteChar (c : Char) : OnOneLine (quoteChar c) :=
  onOneLine_append.mpr
    ⟨onOneLine_append.mpr ⟨by decide, onOneLine_escapeChar (by decide) c⟩, by decide⟩

theorem onOneLine_ofList {chars : List Char} (plain : ∀ c ∈ chars, c ≠ '\n' ∧ c ≠ '\r') :
    OnOneLine (String.ofList chars) := by
  rw [onOneLine_iff, String.toList_ofList]
  exact plain

end Text

namespace Decimal

open Text

theorem plain_of_mem_digitText {n : Nat} {c : Char} (member : c ∈ (digitText n).toList) :
    c ≠ '\n' ∧ c ≠ '\r' :=
  onOneLine_iff.mp (onOneLine_repr n) c member

theorem onOneLine_positional (d : Digits) : OnOneLine d.positional := by
  have zeros (count : Nat) : ∀ c ∈ List.replicate count '0', c ≠ '\n' ∧ c ≠ '\r' := by
    intro c member
    rw [(List.mem_replicate.mp member).2]
    decide
  unfold Digits.positional
  split
  · exact onOneLine_append.mpr ⟨onOneLine_append.mpr ⟨onOneLine_repr _, onOneLine_ofList (zeros _)⟩,
      by decide⟩
  · have padded (count : Nat) : ∀ c ∈ List.replicate count '0' ++ (digitText d.digits).toList,
        c ≠ '\n' ∧ c ≠ '\r' := fun c member =>
      (List.mem_append.mp member).elim (zeros count c) plain_of_mem_digitText
    refine onOneLine_append.mpr ⟨onOneLine_append.mpr ⟨onOneLine_ofList fun c member => ?_,
      by decide⟩, onOneLine_ofList fun c member => ?_⟩
    · exact padded _ c (List.mem_of_mem_take member)
    · exact padded _ c (List.mem_of_mem_drop member)

theorem onOneLine_scientific (d : Digits) : OnOneLine d.scientific := by
  unfold Digits.scientific
  refine onOneLine_append.mpr ⟨onOneLine_append.mpr ⟨onOneLine_append.mpr ⟨?_, ?_⟩, by decide⟩,
    onOneLine_toString _⟩
  · exact onOneLine_ofList fun c member => plain_of_mem_digitText (List.mem_of_mem_take member)
  · split
    · decide
    · exact onOneLine_append.mpr ⟨by decide, onOneLine_ofList fun c member =>
        plain_of_mem_digitText (List.mem_of_mem_drop member)⟩

theorem onOneLine_doubleText (bits : Nat) : OnOneLine (doubleText bits) := by
  have sign (negative : Bool) : OnOneLine (if negative then "-" else "") := by
    cases negative <;> decide
  unfold doubleText
  split
  · decide
  · exact onOneLine_append.mpr ⟨sign _, by decide⟩
  · exact onOneLine_append.mpr ⟨sign _, by decide⟩
  · refine onOneLine_append.mpr ⟨sign _, ?_⟩
    split
    · exact onOneLine_positional _
    · exact onOneLine_scientific _

end Decimal

namespace Datum

theorem onOneLine_atomText (value : Datum) : OnOneLine value.atomText := by
  unfold atomText
  split
  · decide
  · split <;> decide
  · exact Text.onOneLine_toString _
  · exact Decimal.onOneLine_doubleText _
  · exact Text.onOneLine_quoteChar _
  · exact Text.onOneLine_quote _
  · decide

mutual
def namedOnOneLine : Datum → Bool
  | .list items => itemsOnOneLine items
  | .tuple name items => decide (OnOneLine name) && itemsOnOneLine items
  | .record name fields =>
    decide (OnOneLine name) && fields.all (fun field => decide (OnOneLine field.1)) &&
      valuesOnOneLine fields
  | .map entries => valuesOnOneLine entries
  | _ => true

def itemsOnOneLine : List Datum → Bool
  | [] => true
  | item :: rest => namedOnOneLine item && itemsOnOneLine rest

def valuesOnOneLine : List (String × Datum) → Bool
  | [] => true
  | (_, value) :: rest => namedOnOneLine value && valuesOnOneLine rest
end

theorem mem_enclose {opening closing line : String} {components : List (List String)}
    (member : line ∈ enclose opening closing components) :
    line = opening ++ closing ∨ line = opening ∨ line = closing ∨
      ∃ lines ∈ components, ∃ inner ∈ lines, line = "    " ++ inner ∨
        line = "    " ++ (inner ++ ",") := by
  unfold enclose at member
  split at member
  · exact .inl (List.mem_singleton.mp member)
  · simp only [List.mem_append, List.mem_singleton, List.mem_flatMap, List.mem_map,
      List.mem_mapIdx] at member
    rcases member with (rfl | ⟨lines, among, _, ⟨i, inside, rfl⟩, rfl⟩) | rfl
    · exact .inr (.inl rfl)
    · refine .inr (.inr (.inr ⟨lines, among, lines[i], List.getElem_mem inside, ?_⟩))
      split
      · exact .inr rfl
      · exact .inl rfl
    · exact .inr (.inr (.inl rfl))

theorem onOneLine_enclose {opening closing : String} {components : List (List String)}
    (opened : OnOneLine opening) (closed : OnOneLine closing)
    (inside : ∀ lines ∈ components, ∀ line ∈ lines, OnOneLine line) :
    ∀ line ∈ enclose opening closing components, OnOneLine line := by
  have indented : OnOneLine "    " := by decide
  intro line member
  rcases mem_enclose member with rfl | rfl | rfl | ⟨lines, among, inner, here, rfl | rfl⟩
  · exact Text.onOneLine_append.mpr ⟨opened, closed⟩
  · exact opened
  · exact closed
  · exact Text.onOneLine_append.mpr ⟨indented, inside lines among inner here⟩
  · exact Text.onOneLine_append.mpr ⟨indented,
      Text.onOneLine_append.mpr ⟨inside lines among inner here, by decide⟩⟩

theorem onOneLine_labelled {label : String} {lines : List String} (plain : OnOneLine label)
    (inside : ∀ line ∈ lines, OnOneLine line) : ∀ line ∈ labelled label lines, OnOneLine line := by
  cases lines with
  | nil =>
    intro line member
    exact List.mem_singleton.mp member ▸ plain
  | cons first rest =>
    intro line member
    rcases List.mem_cons.mp member with rfl | later
    · exact Text.onOneLine_append.mpr ⟨plain, inside first (List.mem_cons_self ..)⟩
    · exact inside line (List.mem_cons_of_mem _ later)

theorem onOneLine_layout_atom {value : Datum} (atom : value.layout = [value.atomText]) :
    ∀ line ∈ value.layout, OnOneLine line := by
  intro line member
  rw [atom, List.mem_singleton] at member
  exact member ▸ onOneLine_atomText value

mutual
theorem onOneLine_layout : (value : Datum) → value.namedOnOneLine = true →
    ∀ line ∈ value.layout, OnOneLine line
  | .list items, named => onOneLine_enclose (by decide) (by decide) (onOneLine_layoutItems items named)
  | .tuple name items, named => by
    rw [namedOnOneLine, Bool.and_eq_true, decide_eq_true_iff] at named
    cases items with
    | nil =>
      intro line member
      exact List.mem_singleton.mp member ▸ named.1
    | cons first rest =>
      exact onOneLine_enclose (Text.onOneLine_append.mpr ⟨named.1, by decide⟩) (by decide)
        (onOneLine_layoutItems (first :: rest) named.2)
  | .record name fields, named => by
    rw [namedOnOneLine, Bool.and_eq_true, Bool.and_eq_true, decide_eq_true_iff,
      List.all_eq_true] at named
    exact onOneLine_enclose (Text.onOneLine_append.mpr ⟨named.1.1, by decide⟩) (by decide)
      (onOneLine_layoutFields id fields
        (fun field member => of_decide_eq_true (named.1.2 field member)) named.2)
  | .map entries, named =>
    onOneLine_enclose (by decide) (by decide)
      (onOneLine_layoutFields Text.quote entries (fun _ _ => Text.onOneLine_quote _) named)
  | .unit, _ => onOneLine_layout_atom rfl
  | .bool value, _ => onOneLine_layout_atom rfl
  | .int value, _ => onOneLine_layout_atom rfl
  | .double bits, _ => onOneLine_layout_atom rfl
  | .char value, _ => onOneLine_layout_atom rfl
  | .text value, _ => onOneLine_layout_atom rfl

theorem onOneLine_layoutItems : (items : List Datum) → itemsOnOneLine items = true →
    ∀ lines ∈ layoutItems items, ∀ line ∈ lines, OnOneLine line
  | [], _ => fun _ member => absurd member List.not_mem_nil
  | item :: rest, named => by
    rw [itemsOnOneLine, Bool.and_eq_true] at named
    intro lines member
    rcases List.mem_cons.mp member with rfl | later
    · exact onOneLine_layout item named.1
    · exact onOneLine_layoutItems rest named.2 lines later

theorem onOneLine_layoutFields (label : String → String) : (fields : List (String × Datum)) →
    (∀ field ∈ fields, OnOneLine (label field.1)) → valuesOnOneLine fields = true →
    ∀ lines ∈ layoutFields label fields, ∀ line ∈ lines, OnOneLine line
  | [], _, _ => fun _ member => absurd member List.not_mem_nil
  | (name, value) :: rest, labels, named => by
    rw [valuesOnOneLine, Bool.and_eq_true] at named
    intro lines member
    rcases List.mem_cons.mp member with rfl | later
    · exact onOneLine_labelled
        (Text.onOneLine_append.mpr ⟨labels _ (List.mem_cons_self ..), by decide⟩)
        (onOneLine_layout value named.1)
    · exact onOneLine_layoutFields label rest
        (fun field among => labels field (List.mem_cons_of_mem _ among)) named.2 lines later
end

/-- No line is empty, unless the value is a variant without name and components. -/
theorem filled_layout (value : Datum) :
    value.layout = [""] ∨ ∀ line ∈ value.layout, line ≠ "" := by
  have single (text : String) : [text] = [""] ∨ ∀ line ∈ [text], line ≠ "" := by
    by_cases empty : text = "" <;> simp [empty]
  have enclosed {opening closing : String} (opened : opening ≠ "") (closed : closing ≠ "")
      (components : List (List String)) :
      ∀ line ∈ enclose opening closing components, line ≠ "" := by
    intro line member
    rcases mem_enclose member with rfl | rfl | rfl | ⟨_, _, inner, _, rfl | rfl⟩
    · exact fun empty => opened (String.append_eq_empty_iff.mp empty).1
    · exact opened
    · exact closed
    · exact fun empty => absurd (String.append_eq_empty_iff.mp empty).1 (by decide)
    · exact fun empty => absurd (String.append_eq_empty_iff.mp empty).1 (by decide)
  have named (name : String) {opening : String} (opened : opening ≠ "") : name ++ opening ≠ "" :=
    fun empty => opened (String.append_eq_empty_iff.mp empty).2
  cases value with
  | list items => exact .inr (enclosed (by decide) (by decide) _)
  | tuple name items =>
    cases items with
    | nil => exact single name
    | cons first rest =>
      have opened : name ++ "(" ≠ "" := named name (by decide)
      have closed : ")" ≠ "" := by decide
      exact .inr (enclosed opened closed (layoutItems (first :: rest)))
  | record name fields => exact .inr (enclosed (named name (by decide)) (by decide) _)
  | map entries => exact .inr (enclosed (by decide) (by decide) _)
  | unit => exact single _
  | bool value => exact single _
  | int value => exact single _
  | double bits => exact single _
  | char value => exact single _
  | text value => exact single _

theorem filled_cut_spread {value : Datum} (named : value.namedOnOneLine = true) :
    ∀ line ∈ LineDiff.cut value.spread, line ≠ "" := by
  unfold LineDiff.cut
  split
  · exact fun _ member => absurd member List.not_mem_nil
  · rename_i filled
    have some : value.layout ≠ [] := fun none => filled (by rw [spread, none]; rfl)
    have split : Text.splitAtChar '\n' value.spread = value.layout :=
      Text.splitAtChar_intercalate rfl
        (fun line member => (onOneLine_layout value named line member).1) some
    rw [split]
    refine (filled_layout value).resolve_left fun empty => filled ?_
    rw [spread, empty]
    rfl

theorem plain_spread {value : Datum} (named : value.namedOnOneLine = true) :
    '\r' ∉ value.spread.toList :=
  Text.not_mem_intercalate (by decide) fun line member =>
    (onOneLine_layout value named line member).2

end Datum

/-- The complaint that two values are not equal shows both: without the lines that begin with `+`
and without the markers it has the lines of the expected value, and without those that begin with
`-` it has the lines of the actual one. -/
theorem equal_shows_both {expected actual : Datum} (named : expected.namedOnOneLine = true)
    (named' : actual.namedOnOneLine = true) :
    let shown := LineDiff.render expected.spread actual.spread
    LineDiff.unmarked .second shown = Text.lines expected.spread ∧
    LineDiff.unmarked .first shown = Text.lines actual.spread ∧
    (Check.equal expected actual).complaint? =
      if expected.same actual then none
      else some ("values are not equal (-expected +actual):\n" ++ shown) := by
  obtain ⟨showsExpected, showsActual⟩ :=
    LineDiff.unmarked_render_eq_lines (Datum.plain_spread named) (Datum.plain_spread named')
      (Datum.filled_cut_spread named) (Datum.filled_cut_spread named')
  exact ⟨showsExpected, showsActual, rfl⟩

/-- A line feed in a text of the value is shown as an escape. -/
example :
    LineDiff.render (Datum.record "Point" [("label", .some (.text "a\nb"))]).spread
        (Datum.record "Point" [("label", .some (.text "c"))]).spread =
      " Point \x7b\n     label: Some(\n-        \"a\\nb\",\n+        \"c\",\n     ),\n \x7d" := by
  decide +kernel

end NestedSpec
