import NestedSpec.Text.Lines

/-!
# Line differences

Two texts are compared line by line. The lines they share are read off the table of lengths of
common subsequences, from its end backwards; the texts are then cut into chunks of shared lines,
lines of the first text only and lines of the second text only.
-/

namespace NestedSpec.LineDiff

/-- Which of the texts a chunk belongs to. -/
inductive Side where
  | both
  | first
  | second
deriving Repr, DecidableEq

/-- Some lines that belong together. -/
structure Chunk where
  side : Side
  lines : List String
deriving Repr, DecidableEq

/-- The entries of one row after the first column; `left` and `corner` are the entries to the left
and diagonally before the next one. -/
def rowTail (line : String) (left corner : Nat) : List String → List Nat → List Nat
  | other :: others, up :: ups =>
    let entry := if other = line then corner + 1 else max left up
    entry :: rowTail line entry up others ups
  | _, _ => []

def row (line : String) (second : List String) (above : List Nat) : List Nat :=
  match second, above with
  | other :: others, up :: ups =>
    let entry := if other = line then 1 else up
    entry :: rowTail line entry up others ups
  | _, _ => []

/-- All entries of the table, row after row. -/
def table (first second : List String) : Array Nat :=
  (rows first (second.map fun _ => 0)).flatten.toArray
where
  rows : List String → List Nat → List (List Nat)
    | [], _ => []
    | line :: lines, above =>
      let entries := row line second above
      entries :: rows lines entries

/-- The shared lines before row `i` and column `j`, newest found first. From a pair of unequal
lines the way leads left where the entry just before in the table is larger than the one above,
and upwards otherwise; it ends at the border. -/
def trace (first second : Array String) (entries : Array Nat) :
    Nat → Nat → Nat → List String → List String
  | 0, _, _, found => found
  | steps + 1, i, j, found =>
    match i, j with
    | i + 1, j + 1 =>
      let width := second.size
      let line := first[i]?.getD ""
      if line = second[j]?.getD "" then
        trace first second entries steps i j (line :: found)
      else if i = 0 ∧ j = 0 then found
      else
        let before := entries[i * width + j - 1]?.getD 0
        let above := entries[(i - 1) * width + j]?.getD 0
        if i = 0 ∨ before > above then trace first second entries steps (i + 1) j found
        else trace first second entries steps i (j + 1) found
    | _, _ => found

/-- The lines that the comparison takes for shared, in order. -/
def common (first second : List String) : List String :=
  trace first.toArray second.toArray (table first second) (first.length + second.length)
    first.length second.length []

/-- The longest common start of three lists, and what follows it in each. -/
def sharedStart : List String → List String → List String →
    List String × List String × List String × List String
  | a :: as, b :: bs, c :: cs =>
    if a = c ∧ b = c then
      let (same, restA, restB, restC) := sharedStart as bs cs
      (a :: same, restA, restB, restC)
    else ([], a :: as, b :: bs, c :: cs)
  | as, bs, cs => ([], as, bs, cs)

def chunk? (side : Side) (lines : List String) : List Chunk :=
  if lines.isEmpty then [] else [⟨side, lines⟩]

/-- The chunks of two lists of lines along their shared lines; every round takes a line, so as many
rounds as there are lines are enough. -/
def chunksAlong : Nat → List String → List String → List String → List Chunk
  | 0, _, _, _ => []
  | rounds + 1, first, second, shared =>
    if first.isEmpty ∧ second.isEmpty then []
    else
      let (same, restFirst, restSecond, restShared) := sharedStart first second shared
      let unlike (line : String) : Bool := restShared.head? ≠ some line
      chunk? .both same ++ chunk? .first (restFirst.takeWhile unlike) ++
        chunk? .second (restSecond.takeWhile unlike) ++
        chunksAlong rounds (restFirst.dropWhile unlike) (restSecond.dropWhile unlike) restShared

def cut (text : String) : List String :=
  if text = "" then [] else Text.splitAtChar '\n' text

def chunks (first second : String) : List Chunk :=
  let shared := common (Text.splitAtChar '\n' first) (Text.splitAtChar '\n' second)
  let shared := if shared = [""] then [] else shared
  chunksAlong ((cut first).length + (cut second).length + 1) (cut first) (cut second) shared

def Side.marker : Side → String
  | .both => " "
  | .first => "-"
  | .second => "+"

def render (first second : String) : String :=
  "\n".intercalate <| (chunks first second).flatMap fun chunk =>
    (Text.lines ("\n".intercalate chunk.lines)).map (chunk.side.marker ++ ·)

end NestedSpec.LineDiff
