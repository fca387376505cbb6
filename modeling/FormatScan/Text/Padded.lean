/-!
# Numbers of fixed width

A number that is padded with zeros in front has at least a given number of
digits; a longer one is written in full.
-/

namespace FormatScan.Text

/-- A number with at least `width` digits. -/
def padded (width n : Nat) : String :=
  let digits := toString n
  String.ofList (List.replicate (width - digits.length) '0') ++ digits

end FormatScan.Text
