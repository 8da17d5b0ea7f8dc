/-!
# Lines of a text

A line ends at a line feed, and a carriage return right before that line feed belongs to the end
of the line. What follows the last line feed is a line only if it is not empty.
-/

namespace NestedSpec.Text

/-- The pieces of a text, each with the line feed that ends it. -/
def piecesWithFeed : List Char → List (List Char)
  | [] => []
  | '\n' :: rest => ['\n'] :: piecesWithFeed rest
  | c :: rest =>
    match piecesWithFeed rest with
    | [] => [[c]]
    | piece :: pieces => (c :: piece) :: pieces

def dropLineEnd (piece : List Char) : List Char :=
  match piece.reverse with
  | '\n' :: '\r' :: rest => rest.reverse
  | '\n' :: rest => rest.reverse
  | _ => piece

def lines (text : String) : List String :=
  (piecesWithFeed text.toList).map fun piece => String.ofList (dropLineEnd piece)

/-- The parts of a text between the separators; a text without separator is one part. -/
def splitAtChar (separator : Char) (text : String) : List String :=
  (go text.toList).map String.ofList
where
  go : List Char → List (List Char)
    | [] => [[]]
    | c :: rest =>
      if c = separator then [] :: go rest
      else
        match go rest with
        | [] => [[c]]
        | part :: parts => (c :: part) :: parts

theorem flatten_piecesWithFeed (chars : List Char) : (piecesWithFeed chars).flatten = chars := by
  fun_induction piecesWithFeed chars with
  | case1 => rfl
  | case2 rest ih => simp [ih]
  | case3 c rest _ empty ih => simp [empty] at ih; simp [ih]
  | case4 c rest _ piece pieces same ih => simp [same] at ih; simp [ih]

end NestedSpec.Text
