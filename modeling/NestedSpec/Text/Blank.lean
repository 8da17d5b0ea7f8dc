/-!
# White space

The characters with the Unicode property `White_Space`, and the removal of white space at both
ends of a text.
-/

namespace NestedSpec.Text

def isBlank (c : Char) : Bool :=
  let n := c.toNat
  (0x9 ≤ n && n ≤ 0xD) || n == 0x20 || n == 0x85 || n == 0xA0 || n == 0x1680 ||
    (0x2000 ≤ n && n ≤ 0x200A) || n == 0x2028 || n == 0x2029 || n == 0x202F || n == 0x205F ||
    n == 0x3000

/-- The characters between the first and the last that is not blank. -/
def trimBlank (chars : List Char) : List Char :=
  ((chars.dropWhile isBlank).reverse.dropWhile isBlank).reverse

/-- White space on both sides is taken away, up to a core that has none at its ends. -/
theorem trimBlank_padded {front core back : List Char} (blankFront : ∀ c ∈ front, isBlank c = true)
    (blankBack : ∀ c ∈ back, isBlank c = true)
    (first : ∀ c ∈ core.head?, isBlank c = false) (last : ∀ c ∈ core.getLast?, isBlank c = false)
    (filled : core ≠ []) : trimBlank (front ++ core ++ back) = core := by
  have starts (chars rest : List Char) (nonempty : chars ≠ [])
      (edge : ∀ c ∈ chars.head?, isBlank c = false) :
      (chars ++ rest).dropWhile isBlank = chars ++ rest := by
    cases chars with
    | nil => exact absurd rfl nonempty
    | cons c chars => simp [edge c rfl]
  have opened : (front ++ core ++ back).dropWhile isBlank = core ++ back := by
    rw [List.append_assoc, List.dropWhile_append_of_pos blankFront, starts core back filled first]
  have closed : (core ++ back).reverse.dropWhile isBlank = core.reverse := by
    rw [List.reverse_append,
      List.dropWhile_append_of_pos fun c member => blankBack c (List.mem_reverse.mp member)]
    have edge : ∀ c ∈ core.reverse.head?, isBlank c = false := by
      simpa only [List.head?_reverse] using last
    simpa using starts core.reverse [] (by simpa using filled) edge
  rw [trimBlank, opened, closed, List.reverse_reverse]

theorem exists_padded (chars : List Char) : ∃ front back, chars = front ++ trimBlank chars ++ back ∧
    (∀ c ∈ front, isBlank c = true) ∧ ∀ c ∈ back, isBlank c = true := by
  have closed : trimBlank chars ++ ((chars.dropWhile isBlank).reverse.takeWhile isBlank).reverse =
      chars.dropWhile isBlank := by
    rw [trimBlank, ← List.reverse_append, List.takeWhile_append_dropWhile, List.reverse_reverse]
  refine ⟨chars.takeWhile isBlank, ((chars.dropWhile isBlank).reverse.takeWhile isBlank).reverse,
    ?_, fun c member => List.all_eq_true.mp List.all_takeWhile c member,
    fun c member => List.all_eq_true.mp List.all_takeWhile c (List.mem_reverse.mp member)⟩
  calc chars = chars.takeWhile isBlank ++ chars.dropWhile isBlank :=
        List.takeWhile_append_dropWhile.symm
    _ = chars.takeWhile isBlank ++ (trimBlank chars ++ _) := by rw [closed]
    _ = chars.takeWhile isBlank ++ trimBlank chars ++ _ := (List.append_assoc _ _ _).symm

def trim (text : String) : String :=
  String.ofList (trimBlank text.toList)

def isAllBlank (text : String) : Bool :=
  text.toList.all isBlank

def toAsciiLower (text : String) : String :=
  text.map Char.toLower

example : isBlank 'a' = false ∧ isBlank '\t' = true ∧ isBlank '\u3000' = true := by decide

end NestedSpec.Text
