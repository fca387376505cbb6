import FormatScan.Byte
import FormatScan.Word

/-!
# Pieces of output

Formatting produces a sequence of pieces: bytes as they stand, and runs of one
padding byte. A run is kept as its length, because a field may be wider than any
memory; it is a sink that decides how much of a run is ever stored.
-/

namespace FormatScan

/-- A stretch of formatted output. -/
inductive Piece where
  /-- Bytes as they stand. -/
  | text (bytes : Bytes)
  /-- One byte a number of times. -/
  | fill (byte : UInt8) (count : Nat)
deriving DecidableEq, Repr

namespace Piece

/-- The number of bytes in a piece. -/
def length : Piece → Nat
  | text bytes => bytes.length
  | fill _ count => count

/-- The bytes of a piece. -/
def bytes : Piece → Bytes
  | text bytes => bytes
  | fill byte count => List.replicate count byte

/-- The number of bytes produced once a sequence of pieces has followed some
earlier output. The count stays at the largest word. -/
def countFrom (produced : Nat) (pieces : List Piece) : Nat :=
  pieces.foldl (fun total piece => Word.satAdd total piece.length) produced

end Piece

end FormatScan
