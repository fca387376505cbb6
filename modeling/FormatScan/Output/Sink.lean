import FormatScan.Output.Piece

/-!
# Sinks

A sink decides what physically happens to formatted bytes. A bounded buffer
keeps as many as fit in front of a terminating zero byte, a growing text keeps
all of them, and a discarding sink keeps none. None of them takes part in
counting the output.
-/

namespace FormatScan

/-- A buffer of fixed size that output is stored into. -/
structure BoundedBuffer where
  /-- The whole buffer. -/
  bytes : Array UInt8
  /-- The number of bytes stored so far, the terminator aside. -/
  written : Nat
  /-- No more bytes are stored than the buffer has. -/
  written_le : written ≤ bytes.size := by omega

namespace BoundedBuffer

/-- A buffer that nothing has been stored into. -/
def ofBytes (bytes : Array UInt8) : BoundedBuffer := ⟨bytes, 0, Nat.zero_le _⟩

/-- The bytes behind the stored ones. -/
def remaining (buffer : BoundedBuffer) : Nat := buffer.bytes.size - buffer.written

/-- How many more bytes will be stored: the last one stays free for the
terminator. -/
def room (buffer : BoundedBuffer) : Nat := buffer.remaining - 1

/-- Store one byte when there is room for it and the terminator. -/
def put (buffer : BoundedBuffer) (byte : UInt8) : BoundedBuffer :=
  if h : buffer.written + 2 ≤ buffer.bytes.size then
    ⟨buffer.bytes.set buffer.written byte (by omega), buffer.written + 1, by simp; omega⟩
  else buffer

/-- Store a byte a number of times. -/
def putMany (buffer : BoundedBuffer) (byte : UInt8) : Nat → BoundedBuffer
  | 0 => buffer
  | count + 1 => (buffer.put byte).putMany byte count

/-- Store the terminator behind the stored bytes, if the buffer has a byte at
all. Storing may go on afterwards and overwrites it. -/
def finish (buffer : BoundedBuffer) : BoundedBuffer :=
  if h : buffer.written < buffer.bytes.size then
    ⟨buffer.bytes.set buffer.written 0 h, buffer.written, by simp; omega⟩
  else buffer

end BoundedBuffer

/-- A destination for formatted bytes. -/
inductive Sink where
  /-- Keep what fits in a buffer. -/
  | bounded (buffer : BoundedBuffer)
  /-- Keep everything. -/
  | growing (bytes : Array UInt8)
  /-- Keep nothing. -/
  | discard

namespace Sink

/-- Accept one byte. -/
def put : Sink → UInt8 → Sink
  | bounded buffer, byte => bounded (buffer.put byte)
  | growing bytes, byte => growing (bytes.push byte)
  | discard, _ => discard

/-- How many more bytes will be stored, when there is a bound. -/
def room : Sink → Option Nat
  | bounded buffer => some buffer.room
  | growing _ => none
  | discard => some 0

/-- Accept a run of one byte. Only as many are stored as there is room for, so
a run that is wider than any memory costs no more than the buffer. -/
def fill : Sink → UInt8 → Nat → Sink
  | bounded buffer, byte, count => bounded (buffer.putMany byte (min buffer.room count))
  | growing bytes, byte, count => growing (bytes ++ Array.replicate count byte)
  | discard, _, _ => discard

/-- Accept a piece of output. -/
def write (sink : Sink) : Piece → Sink
  | .text bytes => bytes.foldl put sink
  | .fill byte count => sink.fill byte count

/-- Accept a sequence of pieces. -/
def writeAll (sink : Sink) (pieces : List Piece) : Sink := pieces.foldl write sink

/-- The bytes that a sink holds: the whole buffer, or the whole text. -/
def bytes : Sink → Bytes
  | bounded buffer => buffer.bytes.toList
  | growing bytes => bytes.toList
  | discard => []

/-- Complete the output of one formatting call. -/
def finish : Sink → Sink
  | bounded buffer => bounded buffer.finish
  | growing bytes => growing bytes
  | discard => discard

end Sink

end FormatScan
