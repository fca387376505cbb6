import FormatScan.Calendar
import FormatScan.Proofs.Text.Delimited

/-!
# Dates that are written and read back

A date and time is written as a row of numbers with a mark behind each of them. A number is
padded with zeros in front, and one that needs more digits has them. No mark is a digit, so
the numbers are told from each other, and the text is read back as the date and time that
it shows.
-/

namespace FormatScan

namespace Text

/-- Read a number at the front of a text, and the mark behind it. -/
def field? (mark : Char) (text : List Char) : Option (Nat × List Char) :=
  let digits := text.takeWhile Char.isDigit
  if digits.isEmpty then none
  else
    match text.drop digits.length with
    | c :: rest => if c == mark then some (Nat.ofDigitChars 10 digits 0, rest) else none
    | [] => none

/-- A padded number is read back in front of a mark that is no digit. -/
theorem field?_padded (width n : Nat) {mark : Char} (hmark : mark.isDigit = false)
    (rest : List Char) :
    field? mark ((padded width n).toList ++ mark :: rest) = some (n, rest) := by
  obtain ⟨hdigits, hnonempty, hvalue⟩ := padded_spells width n
  have hrun : ((padded width n).toList ++ mark :: rest).takeWhile Char.isDigit =
      (padded width n).toList := takeWhile_append_of_endsRun hdigits (endsRun_cons hmark rest)
  rw [field?, hrun, if_neg (by rwa [List.isEmpty_iff]), List.drop_left]
  dsimp only
  rw [if_pos (beq_self_eq_true mark), hvalue]

end Text

namespace DateTime

/-- Read a date and time with milliseconds. -/
def ofText? (text : String) : Option (DateTime × Nat) := do
  let (year, rest) ← Text.field? '-' text.toList
  let (month, rest) ← Text.field? '-' rest
  let (day, rest) ← Text.field? 'T' rest
  let (hour, rest) ← Text.field? ':' rest
  let (minute, rest) ← Text.field? ':' rest
  let (second, rest) ← Text.field? '.' rest
  let (millis, rest) ← Text.field? 'Z' rest
  if rest.isEmpty then some (⟨year, month, day, hour, minute, second⟩, millis) else none

/-- A date and time with any number of milliseconds is read back from its text. -/
theorem ofText?_render (t : DateTime) (millis : Nat) :
    ofText? (t.render millis) = some (t, millis) := by
  have htext : (t.render millis).toList =
      (Text.padded 4 t.year).toList ++ '-' :: ((Text.padded 2 t.month).toList ++ '-' ::
        ((Text.padded 2 t.day).toList ++ 'T' :: ((Text.padded 2 t.hour).toList ++ ':' ::
          ((Text.padded 2 t.minute).toList ++ ':' :: ((Text.padded 2 t.second).toList ++ '.' ::
            ((Text.padded 3 millis).toList ++ ['Z'])))))) := by
    simp [render]
  rw [ofText?, htext]
  simp only [Text.field?_padded _ _ (show Char.isDigit '-' = false from rfl),
    Text.field?_padded _ _ (show Char.isDigit 'T' = false from rfl),
    Text.field?_padded _ _ (show Char.isDigit ':' = false from rfl),
    Text.field?_padded _ _ (show Char.isDigit '.' = false from rfl),
    Text.field?_padded _ _ (show Char.isDigit 'Z' = false from rfl), Option.bind_eq_bind,
    Option.bind_some, List.isEmpty_nil, if_true]

end DateTime

end FormatScan
