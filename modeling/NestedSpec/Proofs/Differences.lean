import Mathlib.Data.List.Infix
import NestedSpec.LineDiff

/-!
# Line differences show both texts

A difference is made of chunks. The lines of the chunks that are shared or of the first text only
are those of the first text, and likewise for the second. An output has the lines of all chunks,
each with a marker. So the lines of a text can be read off it, except for empty ones at the end of a
chunk, which are not shown.
-/

namespace NestedSpec

/-! ## Lines of joined texts -/

namespace Text

/-- A text that neither ends a line nor could be taken for a part of a line end. -/
def OnOneLine (text : String) : Prop := '\n' ∉ text.toList ∧ '\r' ∉ text.toList

instance (text : String) : Decidable (OnOneLine text) :=
  inferInstanceAs (Decidable (_ ∧ _))

@[simp] theorem onOneLine_append {text more : String} :
    OnOneLine (text ++ more) ↔ OnOneLine text ∧ OnOneLine more := by
  simp only [OnOneLine, String.toList_append, List.mem_append, not_or]
  exact and_and_and_comm

def withoutEmptyEnd (lines : List String) : List String :=
  if lines.getLast? = some "" then lines.dropLast else lines

theorem withoutEmptyEnd_append (lines : List String) {more : List String} (filled : more ≠ []) :
    withoutEmptyEnd (lines ++ more) = lines ++ withoutEmptyEnd more := by
  unfold withoutEmptyEnd
  rw [List.getLast?_append, List.getLast?_eq_some_getLast filled, Option.some_or]
  split
  · rw [List.dropLast_append_of_ne_nil filled]
  · rfl

theorem piecesWithFeed_cons {c : Char} (other : c ≠ '\n') (rest : List Char) :
    piecesWithFeed (c :: rest) = match piecesWithFeed rest with
      | [] => [[c]]
      | piece :: pieces => (c :: piece) :: pieces :=
  piecesWithFeed.eq_3 _ _ other

theorem piecesWithFeed_append {line : List Char} (plain : '\n' ∉ line) (rest : List Char) :
    piecesWithFeed (line ++ '\n' :: rest) = (line ++ ['\n']) :: piecesWithFeed rest := by
  induction line with
  | nil => rw [List.nil_append, piecesWithFeed, List.nil_append]
  | cons c more ih =>
    rw [List.mem_cons, not_or] at plain
    rw [List.cons_append, piecesWithFeed_cons (Ne.symm plain.1), ih plain.2]
    rfl

theorem piecesWithFeed_of_plain {line : List Char} (plain : '\n' ∉ line) (filled : line ≠ []) :
    piecesWithFeed line = [line] := by
  induction line with
  | nil => exact absurd rfl filled
  | cons c more ih =>
    rw [List.mem_cons, not_or] at plain
    rw [piecesWithFeed_cons (Ne.symm plain.1)]
    cases more with
    | nil => rfl
    | cons next rest => rw [ih plain.2 (List.cons_ne_nil next rest)]

theorem dropLineEnd_append {line : List Char} (plain : '\r' ∉ line) :
    dropLineEnd (line ++ ['\n']) = line := by
  unfold dropLineEnd
  rw [List.reverse_append, List.reverse_singleton, List.singleton_append]
  split
  case h_1 rest same =>
    refine absurd ?_ plain
    have backwards := (List.cons.inj same).2
    exact List.mem_reverse.mp (backwards ▸ List.mem_cons_self ..)
  case h_2 rest _ same => rw [← (List.cons.inj same).2, List.reverse_reverse]
  case h_3 _ other => exact absurd rfl (other line.reverse)

theorem dropLineEnd_of_plain {line : List Char} (plain : '\n' ∉ line) :
    dropLineEnd line = line := by
  have ends {rest : List Char} (same : line.reverse = '\n' :: rest) : False :=
    plain (List.mem_reverse.mp (same ▸ List.mem_cons_self ..))
  unfold dropLineEnd
  split
  case h_1 rest same => exact (ends same).elim
  case h_2 rest _ same => exact (ends same).elim
  case h_3 => rfl

/-- The lines of texts put together line by line; an empty one at the end is not a line. -/
theorem lines_intercalate {texts : List String} (plain : ∀ text ∈ texts, OnOneLine text) :
    lines ("\n".intercalate texts) = withoutEmptyEnd texts := by
  induction texts with
  | nil => rfl
  | cons text rest ih =>
    obtain ⟨feed, carriage⟩ := plain text (List.mem_cons_self ..)
    cases rest with
    | nil =>
      by_cases empty : text = ""
      · rw [empty]; rfl
      · have filled : text.toList ≠ [] := fun nil => empty (String.toList_eq_nil_iff.mp nil)
        simp [lines, withoutEmptyEnd, empty, piecesWithFeed_of_plain feed filled,
          dropLineEnd_of_plain feed]
    | cons next more =>
      have later := List.cons_ne_nil next more
      have whole : ("\n".intercalate (text :: next :: more)).toList =
          text.toList ++ '\n' :: ("\n".intercalate (next :: more)).toList := by
        simp [String.intercalate_cons_of_ne_nil later]
      have first : withoutEmptyEnd (text :: next :: more) = text :: withoutEmptyEnd (next :: more) :=
        withoutEmptyEnd_append [text] later
      rw [first, ← ih fun other member => plain other (List.mem_cons_of_mem _ member), lines, whole,
        piecesWithFeed_append feed, List.map_cons, dropLineEnd_append carriage, String.ofList_toList]
      rfl

theorem splitAtChar_eq (separator : Char) (text : String) :
    splitAtChar separator text = (text.toList.splitOn separator).map String.ofList := by
  have parts (chars : List Char) : splitAtChar.go separator chars = chars.splitOn separator := by
    induction chars with
    | nil => rfl
    | cons c rest ih =>
      rw [splitAtChar.go, ih, List.splitOn_cons_eq_if_modifyHead]
      by_cases here : c = separator
      · simp [here]
      · cases split : rest.splitOn separator with
        | nil => exact absurd split (List.splitOn_ne_nil separator rest)
        | cons part parts => simp [here]
  rw [splitAtChar, parts]

theorem of_mem_splitOn {separator c : Char} {chars part : List Char}
    (member : part ∈ chars.splitOn separator) (inside : c ∈ part) : c ∈ chars ∧ c ≠ separator := by
  induction chars generalizing part with
  | nil =>
    rw [List.splitOn_nil, List.mem_singleton] at member
    rw [member] at inside
    exact absurd inside List.not_mem_nil
  | cons other rest ih =>
    have later {part : List Char} (among : part ∈ rest.splitOn separator) (inside : c ∈ part) :
        c ∈ other :: rest ∧ c ≠ separator :=
      (ih among inside).imp_left (List.mem_cons_of_mem _)
    rw [List.splitOn_cons_eq_if_modifyHead] at member
    split at member
    · rcases List.mem_cons.mp member with rfl | among
      · exact absurd inside List.not_mem_nil
      · exact later among inside
    · rename_i unlike
      cases split : rest.splitOn separator with
      | nil => exact absurd split (List.splitOn_ne_nil separator rest)
      | cons first parts =>
        rw [split] at later
        rw [split, List.modifyHead_cons] at member
        rcases List.mem_cons.mp member with rfl | among
        · rcases List.mem_cons.mp inside with rfl | deeper
          · exact ⟨List.mem_cons_self .., fun same => unlike (beq_iff_eq.mpr same)⟩
          · exact later (List.mem_cons_self ..) deeper
        · exact later (List.mem_cons_of_mem _ among) inside

theorem of_mem_splitAtChar {separator c : Char} {text part : String}
    (member : part ∈ splitAtChar separator text) (inside : c ∈ part.toList) :
    c ∈ text.toList ∧ c ≠ separator := by
  rw [splitAtChar_eq] at member
  obtain ⟨chars, among, rfl⟩ := List.mem_map.mp member
  rw [String.toList_ofList] at inside
  exact of_mem_splitOn among inside

theorem intercalate_splitAtChar {mark : String} {separator : Char}
    (single : mark.toList = [separator]) (text : String) :
    mark.intercalate (splitAtChar separator text) = text := by
  rw [← String.toList_inj, String.toList_intercalate, splitAtChar_eq, List.map_map]
  have same : String.toList ∘ String.ofList = id := funext fun chars => String.toList_ofList
  rw [same, List.map_id, single]
  exact List.intercalate_splitOn separator

theorem splitAtChar_intercalate {mark : String} {separator : Char}
    (single : mark.toList = [separator]) {texts : List String}
    (plain : ∀ text ∈ texts, separator ∉ text.toList) (filled : texts ≠ []) :
    splitAtChar separator (mark.intercalate texts) = texts := by
  have apart : ∀ chars ∈ texts.map String.toList, separator ∉ chars := by
    intro chars member
    obtain ⟨text, among, rfl⟩ := List.mem_map.mp member
    exact plain text among
  have split : ([separator].intercalate (texts.map String.toList)).splitOn separator =
      texts.map String.toList :=
    List.splitOn_intercalate separator apart (fun none => filled (List.map_eq_nil_iff.mp none))
  have same : String.ofList ∘ String.toList = id := funext fun text => String.ofList_toList
  rw [splitAtChar_eq, String.toList_intercalate, single]
  exact (congrArg (List.map String.ofList) split).trans (by rw [List.map_map, same, List.map_id])

theorem not_mem_intercalate {c : Char} {texts : List String} (other : c ≠ '\n')
    (plain : ∀ text ∈ texts, c ∉ text.toList) : c ∉ ("\n".intercalate texts).toList := by
  induction texts with
  | nil => exact List.not_mem_nil
  | cons text rest ih =>
    have here := plain text (List.mem_cons_self ..)
    cases rest with
    | nil => simpa using here
    | cons next more =>
      have later := ih fun text member => plain text (List.mem_cons_of_mem _ member)
      simp only [String.intercalate_cons_of_ne_nil (List.cons_ne_nil next more),
        String.toList_append, List.mem_append, not_or]
      exact ⟨⟨here, fun feed => other (List.mem_singleton.mp feed)⟩, later⟩

end Text

namespace LineDiff

/-! ## The shared lines are lines of both texts -/

theorem take_succ_getD {lines : Array String} {i : Nat} (inside : i < lines.size) :
    lines.toList.take (i + 1) = lines.toList.take i ++ [lines[i]?.getD ""] := by
  have there : lines.toList[i]? = some lines[i] := by simp [inside]
  rw [List.take_add_one, there, Array.getElem?_eq_getElem inside]
  rfl

/-- The way through the table puts lines in front of those found, and they come in this order before
the row and before the column where it starts. -/
theorem exists_trace (first second : Array String) (entries : Array Nat) (steps : Nat) {i j : Nat}
    (inFirst : i ≤ first.size) (inSecond : j ≤ second.size) (found : List String) :
    ∃ before, trace first second entries steps i j found = before ++ found ∧
      before.Sublist (first.toList.take i) ∧ before.Sublist (second.toList.take j) := by
  have ends (found : List String) (i j : Nat) : ∃ before, found = before ++ found ∧
      before.Sublist (first.toList.take i) ∧ before.Sublist (second.toList.take j) :=
    ⟨[], rfl, List.nil_sublist _, List.nil_sublist _⟩
  induction steps generalizing i j found with
  | zero => exact ends found i j
  | succ steps ih =>
    cases i with
    | zero => exact ends found 0 j
    | succ i =>
      cases j with
      | zero => exact ends found (i + 1) 0
      | succ j =>
        -- Whichever way it goes on, it goes on before the row or the column where it is now.
        have upwards := List.take_sublist_take_left (l := first.toList) (Nat.le_succ i)
        have leftwards := List.take_sublist_take_left (l := second.toList) (Nat.le_succ j)
        unfold trace
        simp only
        split
        · rename_i shared
          obtain ⟨before, traced, ofFirst, ofSecond⟩ :=
            ih (Nat.le_of_succ_le inFirst) (Nat.le_of_succ_le inSecond)
              (first[i]?.getD "" :: found)
          refine ⟨before ++ [first[i]?.getD ""], by rw [traced, List.append_cons], ?_, ?_⟩
          · rw [take_succ_getD inFirst]
            exact ofFirst.append (List.Sublist.refl _)
          · rw [take_succ_getD inSecond, shared]
            exact ofSecond.append (List.Sublist.refl _)
        · split
          · exact ends found (i + 1) (j + 1)
          · split
            · obtain ⟨before, traced, ofFirst, ofSecond⟩ :=
                ih inFirst (Nat.le_of_succ_le inSecond) found
              exact ⟨before, traced, ofFirst, ofSecond.trans leftwards⟩
            · obtain ⟨before, traced, ofFirst, ofSecond⟩ :=
                ih (Nat.le_of_succ_le inFirst) inSecond found
              exact ⟨before, traced, ofFirst.trans upwards, ofSecond⟩

theorem common_sublist (first second : List String) :
    (common first second).Sublist first ∧ (common first second).Sublist second := by
  obtain ⟨before, traced, ofFirst, ofSecond⟩ :=
    exists_trace first.toArray second.toArray (table first second) (first.length + second.length)
      (i := first.length) (j := second.length) (Nat.le_of_eq rfl) (Nat.le_of_eq rfl) []
  rw [common, traced, List.append_nil]
  exact ⟨ofFirst.trans (List.take_sublist _ _), ofSecond.trans (List.take_sublist _ _)⟩

/-! ## The chunks hold both texts -/

theorem exists_sharedStart (first second shared : List String) :
    ∃ same restFirst restSecond restShared,
      sharedStart first second shared = (same, restFirst, restSecond, restShared) ∧
      first = same ++ restFirst ∧ second = same ++ restSecond ∧ shared = same ++ restShared ∧
      ∀ line ∈ restShared.head?, ¬ (restFirst.head? = some line ∧ restSecond.head? = some line) := by
  fun_induction sharedStart first second shared with
  | case1 a as b bs c cs alike same restA restB restC eq ih =>
    obtain ⟨_, _, _, _, found, firstEq, secondEq, sharedEq, apart⟩ := ih
    obtain ⟨rfl, rfl, rfl, rfl⟩ : same = _ ∧ restA = _ ∧ restB = _ ∧ restC = _ := by
      simpa only [Prod.mk.injEq] using eq.symm.trans found
    refine ⟨_, _, _, _, rfl, ?_, ?_, ?_, apart⟩
    · rw [List.cons_append, ← firstEq]
    · rw [List.cons_append, ← secondEq, alike.2, alike.1]
    · rw [List.cons_append, ← sharedEq, alike.1]
  | case2 a as b bs c cs apart =>
    refine ⟨_, _, _, _, rfl, rfl, rfl, rfl, ?_⟩
    rintro line ofShared ⟨ofFirst, ofSecond⟩
    have same := Option.some.inj ofShared
    exact apart ⟨(Option.some.inj ofFirst).trans same.symm, (Option.some.inj ofSecond).trans same.symm⟩
  | case3 as bs cs short =>
    refine ⟨_, _, _, _, rfl, rfl, rfl, rfl, ?_⟩
    rintro line ofShared ⟨ofFirst, ofSecond⟩
    obtain ⟨as, rfl⟩ := List.head?_eq_some_iff.mp ofFirst
    obtain ⟨bs, rfl⟩ := List.head?_eq_some_iff.mp ofSecond
    obtain ⟨cs, rfl⟩ := List.head?_eq_some_iff.mp ofShared
    exact short _ _ _ _ _ _ rfl rfl rfl

def kept (dropped : Side) (chunks : List Chunk) : List Chunk :=
  chunks.filter (·.side ≠ dropped)

def keptLines (dropped : Side) (chunks : List Chunk) : List String :=
  (kept dropped chunks).flatMap Chunk.lines

@[simp] theorem keptLines_append (dropped : Side) (chunks more : List Chunk) :
    keptLines dropped (chunks ++ more) = keptLines dropped chunks ++ keptLines dropped more := by
  simp only [keptLines, kept, List.filter_append, List.flatMap_append]

@[simp] theorem keptLines_chunk? (dropped side : Side) (lines : List String) :
    keptLines dropped (chunk? side lines) = if side = dropped then [] else lines := by
  unfold chunk?
  cases lines with
  | nil => simp [keptLines, kept]
  | cons line rest => by_cases same : side = dropped <;> simp [keptLines, kept, same]

/-- What comes before a shared line in a text can be left out of it. -/
theorem sublist_dropWhile {shared lines : List String} (within : shared.Sublist lines) :
    shared.Sublist (lines.dropWhile fun line => shared.head? ≠ some line) := by
  cases shared with
  | nil => exact List.nil_sublist _
  | cons line rest =>
    induction lines with
    | nil => exact within
    | cons other lines ih =>
      rw [List.dropWhile_cons]
      split
      · rename_i unlike
        have skipped : line ≠ other := by simpa using unlike
        exact ih (within.of_cons_of_ne skipped)
      · exact within

theorem length_dropWhile_le (unlike : String → Bool) (lines : List String) :
    (lines.dropWhile unlike).length ≤ lines.length :=
  (List.dropWhile_suffix unlike).length_le

theorem length_dropWhile_lt {lines : List String} {unlike : String → Bool} {line : String}
    (here : lines.head? = some line) (holds : unlike line = true) :
    (lines.dropWhile unlike).length < lines.length := by
  obtain ⟨rest, rfl⟩ := List.head?_eq_some_iff.mp here
  rw [List.dropWhile_cons_of_pos holds]
  exact Nat.lt_succ_of_le (length_dropWhile_le unlike rest)

theorem exists_head?_of_sublist {shared lines : List String} {line : String}
    (within : shared.Sublist lines) (here : shared.head? = some line) :
    ∃ other, lines.head? = some other := by
  cases lines with
  | nil => rw [List.sublist_nil.mp within] at here; cases here
  | cons other rest => exact ⟨other, rfl⟩

/-- Where the texts do not go on with a shared line, one of them has a line that is not shared. -/
theorem length_dropWhile_add_lt {first second shared : List String}
    (ofFirst : shared.Sublist first) (ofSecond : shared.Sublist second)
    (filled : ¬ (first = [] ∧ second = []))
    (apart : ∀ line ∈ shared.head?, ¬ (first.head? = some line ∧ second.head? = some line)) :
    (first.dropWhile fun line => shared.head? ≠ some line).length +
        (second.dropWhile fun line => shared.head? ≠ some line).length <
      first.length + second.length := by
  have firstShorter := length_dropWhile_le (fun line => shared.head? ≠ some line) first
  have secondShorter := length_dropWhile_le (fun line => shared.head? ≠ some line) second
  have drops {lines : List String} {line : String} (here : lines.head? = some line)
      (unlike : shared.head? ≠ some line) :
      (lines.dropWhile fun line => shared.head? ≠ some line).length < lines.length :=
    length_dropWhile_lt here (decide_eq_true unlike)
  cases next : shared.head? with
  | none =>
    rw [next] at drops firstShorter secondShorter
    cases first with
    | cons line rest => exact Nat.add_lt_add_of_lt_of_le (drops rfl nofun) secondShorter
    | nil =>
      cases second with
      | cons line rest => exact Nat.add_lt_add_of_le_of_lt firstShorter (drops rfl nofun)
      | nil => exact absurd ⟨rfl, rfl⟩ filled
  | some line =>
    obtain ⟨a, headFirst⟩ := exists_head?_of_sublist ofFirst next
    obtain ⟨b, headSecond⟩ := exists_head?_of_sublist ofSecond next
    have different := apart line next
    rw [next] at drops firstShorter secondShorter
    by_cases same : a = line
    · have other : b ≠ line := fun same' => different ⟨same ▸ headFirst, same' ▸ headSecond⟩
      exact Nat.add_lt_add_of_le_of_lt firstShorter
        (drops headSecond fun equal => other (Option.some.inj equal).symm)
    · exact Nat.add_lt_add_of_lt_of_le
        (drops headFirst fun equal => same (Option.some.inj equal).symm) secondShorter

theorem keptLines_chunksAlong {rounds : Nat} {first second shared : List String}
    (ofFirst : shared.Sublist first) (ofSecond : shared.Sublist second)
    (enough : first.length + second.length < rounds) :
    keptLines .second (chunksAlong rounds first second shared) = first ∧
      keptLines .first (chunksAlong rounds first second shared) = second := by
  induction rounds generalizing first second shared with
  | zero => omega
  | succ rounds ih =>
    rw [chunksAlong]
    split
    · rename_i none
      simp only [List.isEmpty_iff] at none
      exact ⟨none.1.symm ▸ rfl, none.2.symm ▸ rfl⟩
    · rename_i filled
      simp only [List.isEmpty_iff] at filled
      obtain ⟨same, restFirst, restSecond, restShared, start, rfl, rfl, rfl, apart⟩ :=
        exists_sharedStart first second shared
      rw [start]
      rw [List.append_sublist_append_left] at ofFirst ofSecond
      -- A round takes a shared line or one that is not shared, so the rounds are enough.
      have shorter : (restFirst.dropWhile fun line => restShared.head? ≠ some line).length +
          (restSecond.dropWhile fun line => restShared.head? ≠ some line).length < rounds := by
        rw [List.length_append, List.length_append] at enough
        cases same with
        | nil =>
          have taken := length_dropWhile_add_lt ofFirst ofSecond filled apart
          simp only [List.length_nil] at enough
          omega
        | cons line more =>
          have firstShorter := length_dropWhile_le (fun line => restShared.head? ≠ some line) restFirst
          have secondShorter := length_dropWhile_le (fun line => restShared.head? ≠ some line) restSecond
          rw [List.length_cons] at enough
          omega
      obtain ⟨firstKept, secondKept⟩ := ih (sublist_dropWhile ofFirst) (sublist_dropWhile ofSecond) shorter
      simp only [keptLines_append, keptLines_chunk?, firstKept, secondKept]
      simp [List.append_assoc, List.takeWhile_append_dropWhile]

theorem sublist_cut {shared : List String} {text : String}
    (within : shared.Sublist (Text.splitAtChar '\n' text)) :
    (if shared = [""] then [] else shared).Sublist (cut text) := by
  split
  · exact List.nil_sublist _
  · rename_i other
    unfold cut
    split
    · rename_i empty
      have single : Text.splitAtChar '\n' text = [""] := by rw [empty]; decide
      rw [single] at within
      rcases List.sublist_singleton.mp within with rfl | rfl
      · exact List.nil_sublist _
      · exact absurd rfl other
    · exact within

/-- The chunks without those of one text only hold the lines of the other text, in order. -/
theorem keptLines_chunks (first second : String) :
    keptLines .second (chunks first second) = cut first ∧
      keptLines .first (chunks first second) = cut second := by
  obtain ⟨ofFirst, ofSecond⟩ :=
    common_sublist (Text.splitAtChar '\n' first) (Text.splitAtChar '\n' second)
  exact keptLines_chunksAlong (sublist_cut ofFirst) (sublist_cut ofSecond) (Nat.lt_succ_self _)

theorem filled_of_mem_chunksAlong {rounds : Nat} {first second shared : List String} {chunk : Chunk}
    (member : chunk ∈ chunksAlong rounds first second shared) : chunk.lines ≠ [] := by
  have filled {side : Side} {lines : List String} (among : chunk ∈ chunk? side lines) :
      chunk.lines ≠ [] := by
    cases lines with
    | nil => exact absurd among List.not_mem_nil
    | cons line rest =>
      rw [List.mem_singleton.mp among]
      exact List.cons_ne_nil line rest
  induction rounds generalizing first second shared with
  | zero => exact absurd member List.not_mem_nil
  | succ rounds ih =>
    rw [chunksAlong] at member
    split at member
    · exact absurd member List.not_mem_nil
    · simp only [List.mem_append] at member
      rcases member with ((same | ofFirst) | ofSecond) | later
      · exact filled same
      · exact filled ofFirst
      · exact filled ofSecond
      · exact ih later

/-! ## The output shows the chunks -/

def unmarked (dropped : Side) (output : String) : List String :=
  ((Text.lines output).filter fun line => !dropped.marker.toList.isPrefixOf line.toList).map
    fun line => String.ofList (line.toList.drop 1)

def Chunk.marked (chunk : Chunk) : List String :=
  (Text.withoutEmptyEnd chunk.lines).map (chunk.side.marker ++ ·)

variable {first second : String}

theorem onOneLine_of_mem_cut {text line : String} (plain : '\r' ∉ text.toList)
    (member : line ∈ cut text) : Text.OnOneLine line := by
  unfold cut at member
  split at member
  · exact absurd member List.not_mem_nil
  · exact ⟨fun feed => (Text.of_mem_splitAtChar member feed).2 rfl,
      fun carriage => plain (Text.of_mem_splitAtChar member carriage).1⟩

theorem onOneLine_of_mem_chunks (plain : '\r' ∉ first.toList) (plain' : '\r' ∉ second.toList)
    {chunk : Chunk} (member : chunk ∈ chunks first second) :
    ∀ line ∈ chunk.lines, Text.OnOneLine line := by
  intro line inside
  obtain ⟨ofFirst, ofSecond⟩ := keptLines_chunks first second
  have among {dropped : Side} (side : chunk.side ≠ dropped) :
      line ∈ keptLines dropped (chunks first second) :=
    List.mem_flatMap.mpr ⟨chunk, List.mem_filter.mpr ⟨member, decide_eq_true side⟩, inside⟩
  by_cases side : chunk.side = .second
  · refine onOneLine_of_mem_cut plain' (ofSecond ▸ among ?_)
    rw [side]
    exact nofun
  · exact onOneLine_of_mem_cut plain (ofFirst ▸ among side)

theorem render_eq (plain : '\r' ∉ first.toList) (plain' : '\r' ∉ second.toList) :
    render first second = "\n".intercalate ((chunks first second).flatMap Chunk.marked) := by
  rw [render]
  refine congrArg _ (List.flatMap_congr fun chunk member => ?_)
  rw [Text.lines_intercalate (onOneLine_of_mem_chunks plain plain' member), Chunk.marked]

theorem onOneLine_marker (side : Side) : Text.OnOneLine side.marker := by
  cases side <;> decide

theorem mem_withoutEmptyEnd {line : String} {lines : List String}
    (member : line ∈ Text.withoutEmptyEnd lines) : line ∈ lines := by
  unfold Text.withoutEmptyEnd at member
  split at member
  · exact List.mem_of_mem_dropLast member
  · exact member

theorem lines_render (plain : '\r' ∉ first.toList) (plain' : '\r' ∉ second.toList) :
    Text.lines (render first second) = (chunks first second).flatMap Chunk.marked := by
  have each : ∀ line ∈ (chunks first second).flatMap Chunk.marked,
      Text.OnOneLine line ∧ line ≠ "" := by
    intro line member
    obtain ⟨chunk, among, inside⟩ := List.mem_flatMap.mp member
    obtain ⟨text, shown, rfl⟩ := List.mem_map.mp inside
    have held := onOneLine_of_mem_chunks plain plain' among text (mem_withoutEmptyEnd shown)
    refine ⟨Text.onOneLine_append.mpr ⟨onOneLine_marker _, held⟩, fun empty => ?_⟩
    have marker := (String.append_eq_empty_iff.mp empty).1
    cases side : chunk.side <;> rw [side] at marker <;> exact absurd marker (by decide)
  rw [render_eq plain plain', Text.lines_intercalate fun line member => (each line member).1]
  unfold Text.withoutEmptyEnd
  split
  · rename_i last
    exact absurd rfl (each "" (List.mem_of_getLast? last)).2
  · rfl

theorem unmarked_marked (dropped : Side) (chunk : Chunk) :
    ((chunk.marked.filter fun line => !dropped.marker.toList.isPrefixOf line.toList).map
      fun line => String.ofList (line.toList.drop 1)) =
      if chunk.side = dropped then [] else Text.withoutEmptyEnd chunk.lines := by
  have marked (line : String) : dropped.marker.toList.isPrefixOf
      (chunk.side.marker ++ line).toList = decide (chunk.side = dropped) := by
    cases chunk.side <;> cases dropped <;> simp [Side.marker, List.isPrefixOf]
  have bare (line : String) : String.ofList ((chunk.side.marker ++ line).toList.drop 1) = line := by
    cases chunk.side <;> simp [Side.marker]
  unfold Chunk.marked
  induction Text.withoutEmptyEnd chunk.lines with
  | nil => split <;> rfl
  | cons line rest ih =>
    rw [List.map_cons, List.filter_cons, marked]
    by_cases same : chunk.side = dropped
    · simp [same]
    · rw [if_neg same] at ih ⊢
      rw [decide_eq_false same, Bool.not_false, if_pos rfl, List.map_cons, bare, ih]

theorem flatMap_kept (dropped : Side) (chunks : List Chunk) (lines : Chunk → List String) :
    (kept dropped chunks).flatMap lines =
      chunks.flatMap fun chunk => if chunk.side = dropped then [] else lines chunk := by
  induction chunks with
  | nil => rfl
  | cons chunk rest ih =>
    by_cases same : chunk.side = dropped
    · simpa [kept, same] using ih
    · simpa [kept, same] using ih

/-- What an output shows of a text: the lines of its chunks, without those that are empty and end a
chunk. -/
theorem unmarked_render (plain : '\r' ∉ first.toList) (plain' : '\r' ∉ second.toList)
    (dropped : Side) : unmarked dropped (render first second) =
      (kept dropped (chunks first second)).flatMap fun chunk => Text.withoutEmptyEnd chunk.lines := by
  rw [unmarked, lines_render plain plain', List.filter_flatMap, List.map_flatMap, flatMap_kept]
  exact List.flatMap_congr fun chunk _ => unmarked_marked dropped chunk

theorem withoutEmptyEnd_eq_self_iff {lines : List String} :
    Text.withoutEmptyEnd lines = lines ↔ lines.getLast? ≠ some "" := by
  unfold Text.withoutEmptyEnd
  split
  · rename_i last
    refine iff_of_false (fun same => ?_) (absurd last)
    have shorter := congrArg List.length same
    have member := List.length_pos_of_mem (List.mem_of_getLast? last)
    rw [List.length_dropLast] at shorter
    omega
  · rename_i last
    exact iff_of_true rfl last

theorem isPrefix_withoutEmptyEnd (lines : List String) : Text.withoutEmptyEnd lines <+: lines := by
  unfold Text.withoutEmptyEnd
  split
  · exact List.dropLast_prefix lines
  · exact List.prefix_refl lines

/-- Lines of chunks are left out unless no chunk ends with an empty one. -/
theorem flatMap_withoutEmptyEnd_eq_iff (chunks : List Chunk) :
    (chunks.flatMap fun chunk => Text.withoutEmptyEnd chunk.lines) = chunks.flatMap Chunk.lines ↔
      ∀ chunk ∈ chunks, chunk.lines.getLast? ≠ some "" := by
  have shorter (chunks : List Chunk) : (chunks.flatMap fun chunk =>
      Text.withoutEmptyEnd chunk.lines).length ≤ (chunks.flatMap Chunk.lines).length := by
    induction chunks with
    | nil => exact Nat.le_refl _
    | cons chunk rest ih =>
      simp only [List.flatMap_cons, List.length_append]
      exact Nat.add_le_add (isPrefix_withoutEmptyEnd chunk.lines).length_le ih
  constructor
  · intro same
    induction chunks with
    | nil => exact fun _ member => absurd member List.not_mem_nil
    | cons chunk rest ih =>
      rw [List.flatMap_cons, List.flatMap_cons] at same
      have lengths := congrArg List.length same
      rw [List.length_append, List.length_append] at lengths
      have kept := (isPrefix_withoutEmptyEnd chunk.lines).length_le
      have later := shorter rest
      have whole : Text.withoutEmptyEnd chunk.lines = chunk.lines :=
        (isPrefix_withoutEmptyEnd chunk.lines).eq_of_length (by omega)
      rw [whole] at same
      rintro other member
      rcases List.mem_cons.mp member with rfl | among
      · exact withoutEmptyEnd_eq_self_iff.mp whole
      · exact ih (List.append_cancel_left same) other among
  · intro filled
    exact List.flatMap_congr fun chunk member =>
      withoutEmptyEnd_eq_self_iff.mpr (filled chunk member)

theorem lines_eq_cut {text : String} (plain : '\r' ∉ text.toList) :
    Text.lines text = Text.withoutEmptyEnd (cut text) := by
  unfold cut
  split
  · rename_i empty
    rw [empty]
    rfl
  · rename_i filled
    have each : ∀ line ∈ Text.splitAtChar '\n' text, Text.OnOneLine line := by
      intro line member
      refine onOneLine_of_mem_cut plain ?_
      rwa [cut, if_neg filled]
    have feed : "\n".toList = ['\n'] := rfl
    conv_lhs => rw [← Text.intercalate_splitAtChar feed text]
    exact Text.lines_intercalate each

/-- A text is shown exactly if no chunk of it but the last ends with an empty line. -/
theorem unmarked_eq_lines_iff (plain : '\r' ∉ first.toList) (plain' : '\r' ∉ second.toList)
    {dropped : Side} {text : String} (plainText : '\r' ∉ text.toList)
    (whole : keptLines dropped (chunks first second) = cut text) :
    unmarked dropped (render first second) = Text.lines text ↔
      ∀ chunk ∈ (kept dropped (chunks first second)).dropLast, chunk.lines.getLast? ≠ some "" := by
  have filled : ∀ chunk ∈ kept dropped (chunks first second), chunk.lines ≠ [] :=
    fun chunk member => filled_of_mem_chunksAlong (List.mem_filter.mp member).1
  rw [unmarked_render plain plain', lines_eq_cut plainText, ← whole, keptLines]
  rcases List.eq_nil_or_concat (kept dropped (chunks first second)) with none | ⟨init, last, split⟩
  · simp [none, Text.withoutEmptyEnd]
  · have ends : last.lines ≠ [] := filled last (by simp [split])
    rw [split, List.concat_eq_append, List.dropLast_concat, List.flatMap_append,
      List.flatMap_append, List.flatMap_singleton, List.flatMap_singleton,
      Text.withoutEmptyEnd_append _ ends, List.append_left_inj]
    exact flatMap_withoutEmptyEnd_eq_iff init

/-- Texts without empty lines are shown in full. -/
theorem unmarked_render_eq_lines (plain : '\r' ∉ first.toList) (plain' : '\r' ∉ second.toList)
    (filled : ∀ line ∈ cut first, line ≠ "") (filled' : ∀ line ∈ cut second, line ≠ "") :
    unmarked .second (render first second) = Text.lines first ∧
      unmarked .first (render first second) = Text.lines second := by
  obtain ⟨ofFirst, ofSecond⟩ := keptLines_chunks first second
  have ends {dropped : Side} {text : String} (filled : ∀ line ∈ cut text, line ≠ "")
      (whole : keptLines dropped (chunks first second) = cut text) :
      ∀ chunk ∈ (kept dropped (chunks first second)).dropLast, chunk.lines.getLast? ≠ some "" := by
    intro chunk member last
    have among : "" ∈ keptLines dropped (chunks first second) :=
      List.mem_flatMap.mpr ⟨chunk, List.mem_of_mem_dropLast member, List.mem_of_getLast? last⟩
    exact filled "" (whole ▸ among) rfl
  exact ⟨(unmarked_eq_lines_iff plain plain' plain ofFirst).mpr (ends filled ofFirst),
    (unmarked_eq_lines_iff plain plain' plain' ofSecond).mpr (ends filled' ofSecond)⟩

/-- An output shows all lines of both texts exactly if no chunk of a text but its last ends with an
empty line. -/
theorem unmarked_render_eq_lines_iff (plain : '\r' ∉ first.toList) (plain' : '\r' ∉ second.toList) :
    (unmarked .second (render first second) = Text.lines first ↔
      ∀ chunk ∈ (kept .second (chunks first second)).dropLast, chunk.lines.getLast? ≠ some "") ∧
    (unmarked .first (render first second) = Text.lines second ↔
      ∀ chunk ∈ (kept .first (chunks first second)).dropLast, chunk.lines.getLast? ≠ some "") := by
  obtain ⟨ofFirst, ofSecond⟩ := keptLines_chunks first second
  exact ⟨unmarked_eq_lines_iff plain plain' plain ofFirst,
    unmarked_eq_lines_iff plain plain' plain' ofSecond⟩

/-- An empty line inside a chunk is shown. -/
theorem unmarked_render_eq_lines_iff_insideChunk :
    '\r' ∉ "a\n\nb".toList ∧ '\r' ∉ "a\n\nb\nc".toList ∧
    render "a\n\nb" "a\n\nb\nc" = " a\n \n b\n+c" ∧
    unmarked .second (render "a\n\nb" "a\n\nb\nc") = Text.lines "a\n\nb" ∧
    unmarked .first (render "a\n\nb" "a\n\nb\nc") = Text.lines "a\n\nb\nc" := by
  have plain : '\r' ∉ "a\n\nb".toList := by decide
  have plain' : '\r' ∉ "a\n\nb\nc".toList := by decide
  obtain ⟨showsFirst, showsSecond⟩ := unmarked_render_eq_lines_iff plain plain'
  exact ⟨plain, plain', by decide +kernel, showsFirst.mpr (by decide +kernel),
    showsSecond.mpr (by decide +kernel)⟩

/-- An empty line that ends a chunk is lost when there are more lines of the text behind it. -/
theorem empty_end_of_chunk_is_lost :
    render "a\n\nb" "b" = "-a\n b" ∧
    unmarked .second (render "a\n\nb" "b") = ["a", "b"] ∧
    Text.lines "a\n\nb" = ["a", "", "b"] := by
  decide +kernel

end LineDiff
end NestedSpec
