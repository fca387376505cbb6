import FormatScan.Byte
import FormatScan.Text.Lines

/-!
# Differences

An expected text and an actual one are compared line by line, each line with the
one at the same place. A difference shows the lines and the column where they
part ways, counted in bytes; a line that only one side has is shown alone.
-/

namespace FormatScan.Diff

/-- One place where two texts differ. -/
inductive Hunk where
  /-- Both sides have a line, and the lines differ from a column on. -/
  | changed (line column : Nat) (expected actual : String)
  /-- Only the expected text has a line. -/
  | missing (line : Nat) (expected : String)
  /-- Only the actual text has a line. -/
  | extra (line : Nat) (actual : String)
deriving DecidableEq, Repr

/-- The length of the longest common beginning of two texts. -/
def commonLength : Bytes → Bytes → Nat
  | a :: as, b :: bs => if a == b then commonLength as bs + 1 else 0
  | _, _ => 0

/-- The differences between two lists of lines, from a line number on. -/
def hunksFrom (line : Nat) : List String → List String → List Hunk
  | [], [] => []
  | e :: es, [] => .missing line e :: hunksFrom (line + 1) es []
  | [], a :: as => .extra line a :: hunksFrom (line + 1) [] as
  | e :: es, a :: as =>
    if e == a then hunksFrom (line + 1) es as
    else
      .changed line (commonLength (bytesOf e) (bytesOf a) + 1) e a :: hunksFrom (line + 1) es as

/-- The differences between two texts. -/
def hunks (expected actual : String) : List Hunk :=
  hunksFrom 1 (Text.linesOf expected) (Text.linesOf actual)

/-- A difference as text. -/
def Hunk.render : Hunk → String
  | changed line column expected actual =>
    s!"@@ line {line}, col {column} @@\n-{expected}\n+{actual}\n"
  | missing line expected => s!"@@ line {line} @@\n-{expected}\n"
  | extra line actual => s!"@@ line {line} @@\n+{actual}\n"

/-- The differences between two texts as text. -/
def render (expected actual : String) : String :=
  if expected == actual then "[identical]"
  else "--- expected\n+++ actual\n" ++ String.join ((hunks expected actual).map Hunk.render)

end FormatScan.Diff
