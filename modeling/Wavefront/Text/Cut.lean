/-!
# Cutting a text at a mark

The parts of a text between the places where a mark stands. There is one part more than there are
marks, so an empty text has one part, and parts may be empty.
-/

namespace Wavefront.Text

/-- The parts of a text between its marks. -/
def cut (mark : Char) : List Char → List (List Char)
  | [] => [[]]
  | c :: cs =>
    if c = mark then [] :: cut mark cs
    else
      match cut mark cs with
      | part :: parts => (c :: part) :: parts
      | [] => [[c]]

end Wavefront.Text
