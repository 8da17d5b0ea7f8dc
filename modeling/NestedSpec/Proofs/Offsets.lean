import Mathlib.Data.List.DropRight
import NestedSpec.Search
import NestedSpec.Proofs.Differences

/-!
# Byte offsets of positions

The offset of a position is that of the last place of the text that is not behind it. So it is
always a boundary between characters, and the offset of the position behind some characters is their
size.
-/

namespace NestedSpec.Source.Position

variable {text before : List Char} {line column : Nat} {p q : Position}

/-! ## Sizes -/

theorem byteSize_concat (chars : List Char) (c : Char) :
    byteSize (chars ++ [c]) = byteSize chars + c.utf8Size :=
  List.foldl_concat ..

theorem byteSize_toList (text : String) : byteSize text.toList = text.utf8ByteSize := by
  induction text using String.push_induction with
  | empty => rfl
  | push text c ih =>
    rw [String.toList_push, byteSize_concat, ih, String.utf8ByteSize_push]

/-! ## The order of positions -/

instance : LE Position :=
  ⟨fun p q => p.line < q.line ∨ p.line = q.line ∧ p.column ≤ q.column⟩

theorem le_iff : p ≤ q ↔ p.line < q.line ∨ p.line = q.line ∧ p.column ≤ q.column := Iff.rfl

theorem le_after (p : Position) (chars : List Char) : p ≤ p.after chars := by
  induction chars generalizing p with
  | nil => exact .inr ⟨rfl, Nat.le_refl _⟩
  | cons c rest ih =>
    have later : p.next c ≤ p.after (c :: rest) := ih (p.next c)
    have step : p ≤ p.next c := by
      rw [next]
      split <;> simp [le_iff]
    rw [le_iff] at step later ⊢
    omega

theorem eq_nil_of_after_le {chars : List Char} (back : p.after chars ≤ p) : chars = [] := by
  cases chars with
  | nil => rfl
  | cons c rest =>
    have later : p.next c ≤ p.after (c :: rest) := le_after (p.next c) rest
    have step : ¬ p.next c ≤ p := by
      rw [next]
      split <;> simp [le_iff]
    rw [le_iff] at step later back
    omega

/-- The position behind some characters at the front of a text: one line more than there are line
feeds among them, and the number of characters behind the last of these. -/
def behind (before : List Char) : Position :=
  ⟨before.count '\n' + 1, (before.rtakeWhile (· ≠ '\n')).length⟩

/-- This is the position that a reader has come to. -/
theorem after_start (before : List Char) : start.after before = behind before := by
  induction before using List.reverseRecOn with
  | nil => rfl
  | append_singleton before c ih =>
    have step : start.after (before ++ [c]) = (start.after before).next c := List.foldl_concat ..
    rw [step, ih, next, behind, behind, List.rtakeWhile_concat]
    by_cases feed : c = '\n' <;> simp [feed]

/-- Lines are counted from 1; a line 0 is taken for the first. -/
def fromOne (p : Position) : Position := ⟨max 1 p.line, p.column⟩

@[simp] theorem fromOne_behind (before : List Char) : (behind before).fromOne = behind before := by
  simp [fromOne, behind]

theorem ne_feed_of_plain (plain : '\n' ∉ before) : ∀ c ∈ before, decide (c ≠ '\n') = true :=
  fun _ member => decide_eq_true fun feed => plain (feed ▸ member)

theorem behind_of_plain (plain : '\n' ∉ before) : behind before = ⟨1, before.length⟩ := by
  rw [behind, List.count_eq_zero_of_not_mem plain,
    List.rtakeWhile_eq_self_iff.mpr (ne_feed_of_plain plain)]

theorem behind_feed (before : List Char) :
    behind ('\n' :: before) = ⟨(behind before).line + 1, (behind before).column⟩ := by
  rw [behind, behind, List.count_cons_self, List.rtakeWhile, List.rtakeWhile, List.reverse_cons,
    List.takeWhile_append]
  split <;> simp_all

theorem behind_cons {c : Char} (broken : '\n' ∈ before) (other : c ≠ '\n') :
    behind (c :: before) = behind before := by
  have short : (before.reverse.takeWhile (· ≠ '\n')).length ≠ before.reverse.length := by
    intro whole
    have same := (List.takeWhile_prefix (l := before.reverse) (· ≠ '\n')).eq_of_length whole
    have all := List.takeWhile_eq_self_iff.mp same '\n' (List.mem_reverse.mpr broken)
    simp at all
  rw [behind, behind, List.count_cons_of_ne other, List.rtakeWhile, List.rtakeWhile,
    List.reverse_cons, List.takeWhile_append, if_neg short]

/-! ## The part of a text before a position -/

theorem textBefore_first (text : List Char) (column : Nat) (first : line ≤ 1) :
    textBefore text ⟨line, column⟩ = (text.takeWhile (· ≠ '\n')).take column := by
  simp [textBefore, Nat.sub_eq_zero_of_le first]

theorem textBefore_feed (rest : List Char) (line column : Nat) :
    textBefore ('\n' :: rest) ⟨line + 2, column⟩ = '\n' :: textBefore rest ⟨line + 1, column⟩ := by
  simp [textBefore, Text.piecesWithFeed]

theorem textBefore_cons {c : Char} (other : c ≠ '\n') (rest : List Char) (line column : Nat) :
    textBefore (c :: rest) ⟨line + 2, column⟩ = c :: textBefore rest ⟨line + 2, column⟩ := by
  cases pieces : Text.piecesWithFeed rest with
  | nil =>
    have none : rest = [] := by rw [← Text.flatten_piecesWithFeed rest, pieces, List.flatten_nil]
    simp [textBefore, Text.piecesWithFeed, none]
  | cons piece pieces' =>
    simp [textBefore, Text.piecesWithFeed_cons other, pieces]

theorem textBefore_begins (text : List Char) (p : Position) : textBefore text p <+: text := by
  have parts : ((Text.piecesWithFeed text).take (p.line - 1)).flatten ++
      ((Text.piecesWithFeed text).drop (p.line - 1)).flatten = text := by
    rw [← List.flatten_append, List.take_append_drop, Text.flatten_piecesWithFeed]
  rw [textBefore]
  generalize ((Text.piecesWithFeed text).take (p.line - 1)).flatten = earlier at parts
  generalize ((Text.piecesWithFeed text).drop (p.line - 1)).flatten = rest at parts
  subst parts
  simp only [List.drop_left]
  exact (List.prefix_append_right_inj earlier).mpr
    ((List.take_prefix ..).trans (List.takeWhile_prefix _))

theorem prefix_textBefore_first (front : before <+: text) (first : line ≤ 1) :
    before <+: textBefore text ⟨line, column⟩ ↔ behind before ≤ ⟨1, column⟩ := by
  rw [textBefore_first text column first, List.prefix_take_iff]
  by_cases broken : '\n' ∈ before
  · have stopped : ¬ before <+: text.takeWhile (· ≠ '\n') := fun inside => by
      have kept := List.mem_takeWhile_imp (inside.subset broken)
      simp at kept
    have later : 0 < before.count '\n' := List.count_pos_iff.mpr broken
    simp only [stopped, false_and, le_iff, behind, false_iff]
    omega
  · obtain ⟨rest, rfl⟩ := front
    rw [List.takeWhile_append_of_pos (ne_feed_of_plain broken), behind_of_plain broken]
    simp [le_iff]

/-- Some characters at the front of a text are before a position exactly if the position behind them
is not after it. -/
theorem prefix_textBefore_iff (front : before <+: text) :
    before <+: textBefore text p ↔ behind before ≤ p.fromOne := by
  obtain ⟨line, column⟩ := p
  induction before generalizing text line with
  | nil =>
    simp [behind, fromOne, le_iff]
    omega
  | cons c before ih =>
    obtain ⟨more, rfl⟩ := front
    have inner : before <+: before ++ more := List.prefix_append ..
    have outer : c :: before <+: c :: (before ++ more) := (List.prefix_cons_inj c).mpr inner
    rcases line with _ | _ | line
    case zero => exact prefix_textBefore_first outer (by decide)
    case succ.zero => exact prefix_textBefore_first outer (by decide)
    -- A line feed at the front is one line less to go on both sides. Any other character counts in
    -- the column of `before` only while no line feed comes behind it.
    by_cases feed : c = '\n'
    · rw [feed, List.cons_append, textBefore_feed, List.prefix_cons_inj, ih inner, behind_feed,
        le_iff, le_iff]
      simp [fromOne]
    · rw [List.cons_append, textBefore_cons feed, List.prefix_cons_inj, ih inner]
      by_cases broken : '\n' ∈ before
      · rw [behind_cons broken feed]
      · have plain : '\n' ∉ c :: before := by simp [broken, Ne.symm feed]
        rw [behind_of_plain broken, behind_of_plain plain]
        simp [fromOne, le_iff]

theorem textBefore_behind (front : before <+: text) : textBefore text (behind before) = before := by
  have reached : before <+: textBefore text (behind before) := by
    rw [prefix_textBefore_iff front, fromOne_behind]
    exact .inr ⟨rfl, Nat.le_refl _⟩
  -- There is no more before the position than that, since more characters lead to a later one.
  have back : behind (textBefore text (behind before)) ≤ behind before := by
    have self := (prefix_textBefore_iff (textBefore_begins text (behind before))).mp List.prefix_rfl
    rwa [fromOne_behind] at self
  obtain ⟨more, parts⟩ := reached
  rw [← parts, ← after_start, ← after_start, after, List.foldl_append] at back
  rw [← parts, eq_nil_of_after_le back, List.append_nil]

/-! ## Places of a text -/

def ofPlace {text : String} (place : text.Pos) : Position :=
  behind (text.sliceTo place).copy.toList

theorem sliceTo_begins {text : String} (place : text.Pos) :
    (text.sliceTo place).copy.toList <+: text.toList := by
  conv_rhs => rw [place.splits.eq_append, String.toList_append]
  exact List.prefix_append ..

theorem le_iff_prefix {text : String} (other place : text.Pos) : other ≤ place ↔
    (text.sliceTo other).copy.toList <+: (text.sliceTo place).copy.toList := by
  rw [other.splits.le_iff_exists_eq_append place.splits]
  constructor
  · rintro ⟨between, before, -⟩
    rw [before, String.toList_append]
    exact List.prefix_append ..
  · rintro ⟨between, before⟩
    have same := other.splits.eq_append.symm.trans place.splits.eq_append
    rw [← String.toList_inj, String.toList_append, String.toList_append, ← before,
      List.append_assoc, List.append_right_inj] at same
    refine ⟨String.ofList between, ?_, ?_⟩
    · rw [← String.toList_inj, String.toList_append, String.toList_ofList, before]
    · rw [← String.toList_inj, String.toList_append, String.toList_ofList, same]

theorem byteOffset_ofPlace {text : String} (place : text.Pos) :
    (ofPlace place).byteOffset text.toList = place.offset.byteIdx := by
  rw [byteOffset, ofPlace, textBefore_behind (sliceTo_begins place), byteSize_toList,
    place.splits.offset_eq_rawEndPos]
  rfl

theorem exists_place (text : String) (p : Position) : ∃ place : text.Pos,
    (text.sliceTo place).copy.toList = textBefore text.toList p := by
  obtain ⟨rest, parts⟩ := textBefore_begins text.toList p
  have cut : text = String.ofList (textBefore text.toList p) ++ String.ofList rest := by
    rw [← String.ofList_append, parts, String.ofList_toList]
  refine ⟨.ofEqAppend cut, ?_⟩
  rw [(String.Pos.splits_ofEqAppend cut).copy_sliceTo_eq, String.toList_ofList]

def sizeAt {text : String} (place : text.Pos) : Nat :=
  if inside : place ≠ text.endPos then (place.get inside).utf8Size else 0

theorem byteSize_take_one {text : String} (place : text.Pos) :
    byteSize ((text.sliceFrom place).copy.toList.take 1) = sizeAt place := by
  rw [sizeAt]
  split
  case isTrue inside =>
    obtain ⟨rest, next⟩ := place.splits.exists_eq_singleton_append inside
    simp [next, byteSize]
  case isFalse ended =>
    have last : place = text.endPos := not_not.mp ended
    have none : (text.sliceFrom place).copy = "" := place.splits.eq_endPos_iff.mp last
    simp [none, byteSize]

/-- The offset of a place's position is the place. The offset of any other position is that of the
last place not after it, a line 0 being the first, and an error there marks the character that
begins at this place. -/
theorem byteOffset_inverts (text : String) :
    (∀ place : text.Pos, (ofPlace place).byteOffset text.toList = place.offset.byteIdx ∧
      ofPlace place = start.after (text.sliceTo place).copy.toList) ∧
    ∀ p : Position, p.byteOffset text.toList ≤ text.utf8ByteSize ∧ ∃ place : text.Pos,
      p.byteOffset text.toList = place.offset.byteIdx ∧
      (∀ other : text.Pos, other ≤ place ↔ ofPlace other ≤ p.fromOne) ∧
      ∀ path, SearchError.ofPosition path text p =
        .malformed path place.offset.byteIdx (sizeAt place) := by
  refine ⟨fun place => ⟨byteOffset_ofPlace place, (after_start _).symm⟩, fun p => ?_⟩
  obtain ⟨place, cut⟩ := exists_place text p
  have whole : text.toList = textBefore text.toList p ++ (text.sliceFrom place).copy.toList := by
    conv_lhs => rw [place.splits.eq_append, String.toList_append, cut]
  have offset : p.byteOffset text.toList = place.offset.byteIdx := by
    rw [byteOffset, ← cut, byteSize_toList, place.splits.offset_eq_rawEndPos]
    rfl
  refine ⟨offset ▸ place.isValid.le_utf8ByteSize, place, offset, fun other => ?_, fun path => ?_⟩
  · rw [ofPlace, le_iff_prefix, cut, prefix_textBefore_iff (sliceTo_begins other)]
  · have length : p.byteLength text.toList = sizeAt place := by
      rw [byteLength, ← byteSize_take_one, whole, List.drop_left' (by rw [← whole])]
    rw [SearchError.ofPosition, offset, length]

end NestedSpec.Source.Position
