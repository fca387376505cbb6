/-!
# Lines

A line of a text is ended by a line feed, with or without a carriage return in
front of it; the last line may lack its end. A carriage return anywhere else
belongs to its line. A text that ends in a line feed has no empty line behind
it.
-/

namespace FormatScan.Text

/-- The lines of a text. -/
def lines : List Char → List (List Char)
  | [] => []
  | '\n' :: rest => [] :: lines rest
  | '\r' :: '\n' :: rest => [] :: lines rest
  | c :: rest =>
    match lines rest with
    | [] => [[c]]
    | line :: others => (c :: line) :: others

/-- The lines of a string. -/
def linesOf (text : String) : List String := (lines text.toList).map String.ofList

end FormatScan.Text
