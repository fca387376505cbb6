import FormatScan.Output.Sink

/-!
# What sinks keep of a stream

A sequence of pieces stands for one stream of bytes. A growing text holds the
stream, the count of the output is its length within a machine word, and a
bounded buffer keeps the longest part of its front that leaves one byte free.
The last of these is the invariant `BoundedBuffer.Keeps`; every operation of a
buffer carries it from one stream to the next, so it holds along any history of
stored bytes, runs of padding and terminators.
-/

namespace FormatScan

/-- The stream that a sequence of pieces stands for. -/
def Piece.stream (pieces : List Piece) : Bytes := pieces.flatMap Piece.bytes

namespace Piece

@[simp] theorem stream_nil : stream [] = [] := rfl

@[simp] theorem stream_cons (piece : Piece) (pieces : List Piece) :
    stream (piece :: pieces) = piece.bytes ++ stream pieces := rfl

@[simp] theorem stream_append (first second : List Piece) :
    stream (first ++ second) = stream first ++ stream second :=
  List.flatMap_append

/-- A piece has as many bytes as it says. -/
theorem length_bytes (piece : Piece) : piece.bytes.length = piece.length := by
  cases piece with
  | text bytes => rfl
  | fill byte count => exact List.length_replicate

/-- Counting two sequences of pieces is counting the second behind the first. -/
theorem countFrom_append (produced : Nat) (first second : List Piece) :
    countFrom produced (first ++ second) = countFrom (countFrom produced first) second :=
  List.foldl_append

/-- The count of some output is the length of its stream, held at the largest
word. -/
theorem countFrom_eq {produced : Nat} (hp : produced ≤ Word.largest) (pieces : List Piece) :
    countFrom produced pieces = min (produced + (stream pieces).length) Word.largest := by
  induction pieces generalizing produced with
  | nil =>
    change produced = _
    rw [stream_nil, List.length_nil]
    omega
  | cons piece pieces ih =>
    have hs : Word.satAdd produced piece.length ≤ Word.largest := Nat.min_le_right _ _
    have hc := ih hs
    change countFrom (Word.satAdd produced piece.length) pieces = _
    rw [hc, stream_cons, List.length_append, length_bytes]
    dsimp only [Word.satAdd]
    omega

end Piece

namespace BoundedBuffer

/-- A buffer of some original content that a stream was stored into. It keeps
the longest front of the stream that leaves one byte free. The byte behind that
front belongs to the terminator, and all bytes behind it are the original
ones. -/
structure Keeps (buffer : BoundedBuffer) (original stream : Bytes) : Prop where
  /-- Storing never changes the size. -/
  size_eq : buffer.bytes.size = original.length
  /-- As much is stored as there is room for. -/
  written_eq : buffer.written = min stream.length (original.length - 1)
  /-- What is stored is the front of the stream. -/
  front : buffer.bytes.toList.take buffer.written = stream.take buffer.written
  /-- Nothing behind the place of the terminator is touched. -/
  behind : buffer.bytes.toList.drop (buffer.written + 1) = original.drop (buffer.written + 1)

/-- A fresh buffer keeps the empty stream. -/
theorem keeps_ofBytes (original : Bytes) : (ofBytes original.toArray).Keeps original [] where
  size_eq := List.size_toArray
  written_eq := by simp [ofBytes]
  front := rfl
  behind := rfl

/-- One more byte is stored behind the front while two bytes are free, and
dropped otherwise. -/
theorem Keeps.put {buffer : BoundedBuffer} {original stream : Bytes}
    (h : buffer.Keeps original stream) (byte : UInt8) :
    (buffer.put byte).Keeps original (stream ++ [byte]) := by
  have hsize := h.size_eq
  have hwritten := h.written_eq
  by_cases hroom : buffer.written + 2 ≤ buffer.bytes.size
  · have hall : buffer.written = stream.length := by omega
    have hput : buffer.put byte =
        ⟨buffer.bytes.set buffer.written byte (by omega), buffer.written + 1, by simp; omega⟩ :=
      dif_pos hroom
    have hfront := h.front
    rw [hput]
    constructor
    · simpa using hsize
    · dsimp only
      rw [List.length_append, List.length_singleton]
      omega
    · dsimp only
      rw [Array.toList_set, List.take_succ_eq_append_getElem (by simp; omega),
        List.take_set_of_le (Nat.le_refl _), hfront, List.getElem_set_self]
      rw [hall, List.take_length, List.take_of_length_le (by simp)]
    · dsimp only
      have hb := congrArg (List.drop 1) h.behind
      rw [List.drop_drop, List.drop_drop] at hb
      rw [Array.toList_set, List.drop_set_of_lt (by omega)]
      exact hb
  · have hput : buffer.put byte = buffer := dif_neg hroom
    rw [hput]
    refine ⟨hsize, ?_, ?_, h.behind⟩
    · rw [List.length_append, List.length_singleton]
      omega
    · rw [h.front, List.take_append_of_le_length (by omega)]

/-- Storing a text keeps the stream with that text behind it. -/
theorem Keeps.foldl_put {original : Bytes} (text : Bytes) {buffer : BoundedBuffer}
    {stream : Bytes} (h : buffer.Keeps original stream) :
    (text.foldl BoundedBuffer.put buffer).Keeps original (stream ++ text) := by
  induction text generalizing buffer stream with
  | nil => simpa using h
  | cons byte text ih =>
    have ht := ih (h.put byte)
    rw [List.append_assoc] at ht
    exact ht

/-- A byte stored a number of times is a text of that one byte. -/
theorem putMany_eq_foldl (buffer : BoundedBuffer) (byte : UInt8) (count : Nat) :
    buffer.putMany byte count = (List.replicate count byte).foldl BoundedBuffer.put buffer := by
  induction count generalizing buffer with
  | zero => rfl
  | succ count ih => exact ih (buffer.put byte)

/-- Each byte takes one place of the room, until none is left. -/
theorem room_put (buffer : BoundedBuffer) (byte : UInt8) :
    (buffer.put byte).room = buffer.room - 1 := by
  by_cases hroom : buffer.written + 2 ≤ buffer.bytes.size
  · simp only [BoundedBuffer.put, dif_pos hroom, room, remaining, Array.size_set]
    omega
  · simp only [BoundedBuffer.put, dif_neg hroom, room, remaining]
    omega

/-- A run of padding beyond the room leaves no trace: cutting it to the room
gives the same buffer. -/
theorem putMany_min_room (buffer : BoundedBuffer) (byte : UInt8) (count : Nat) :
    buffer.putMany byte (min buffer.room count) = buffer.putMany byte count := by
  induction count generalizing buffer with
  | zero => rw [Nat.min_zero]
  | succ count ih =>
    by_cases hroom : buffer.room = 0
    · have hput : buffer.put byte = buffer := by
        apply dif_neg
        dsimp only [room, remaining] at hroom
        omega
      have hi := ih buffer
      rw [hroom, Nat.zero_min] at hi ⊢
      change buffer = (buffer.put byte).putMany byte count
      rw [hput]
      exact hi
    · have hi := ih (buffer.put byte)
      rw [room_put] at hi
      have hmin : min buffer.room (count + 1) = min (buffer.room - 1) count + 1 := by omega
      rw [hmin]
      exact hi

/-- A terminator changes only the byte behind the front. -/
theorem Keeps.finish {buffer : BoundedBuffer} {original stream : Bytes}
    (h : buffer.Keeps original stream) : buffer.finish.Keeps original stream := by
  by_cases hfree : buffer.written < buffer.bytes.size
  · have hfinish : buffer.finish =
        ⟨buffer.bytes.set buffer.written 0 hfree, buffer.written, by simp; omega⟩ :=
      dif_pos hfree
    rw [hfinish]
    refine ⟨by simpa using h.size_eq, h.written_eq, ?_, ?_⟩
    · dsimp only
      rw [Array.toList_set, List.take_set_of_le (Nat.le_refl _)]
      exact h.front
    · dsimp only
      rw [Array.toList_set, List.drop_set_of_lt (by omega)]
      exact h.behind
  · have hfinish : buffer.finish = buffer := dif_neg hfree
    rw [hfinish]
    exact h

/-- The whole content of a terminated buffer: the front of the stream, a zero
byte, and the original bytes behind it. An empty buffer stays empty. -/
theorem Keeps.toList_finish {buffer : BoundedBuffer} {original stream : Bytes}
    (h : buffer.Keeps original stream) :
    buffer.finish.bytes.toList =
      if original = [] then []
      else stream.take (min stream.length (original.length - 1)) ++
        0 :: original.drop (min stream.length (original.length - 1) + 1) := by
  have hsize := h.size_eq
  have hwritten := h.written_eq
  by_cases hempty : original = []
  · rw [if_pos hempty]
    rw [hempty, List.length_nil] at hsize
    have hfinish : buffer.finish = buffer := dif_neg (by omega)
    rw [hfinish]
    exact List.eq_nil_of_length_eq_zero hsize
  · have hpos : 0 < original.length := List.length_pos_iff.mpr hempty
    have hfree : buffer.written < buffer.bytes.size := by omega
    rw [if_neg hempty, ← hwritten, ← h.front, ← h.behind]
    simp only [BoundedBuffer.finish, dif_pos hfree, Array.toList_set]
    rw [List.set_eq_take_append_cons_drop]
    exact if_pos hfree

end BoundedBuffer

namespace Sink

/-- A bounded sink stores a piece into its buffer byte by byte. -/
theorem write_bounded (buffer : BoundedBuffer) (piece : Piece) :
    (bounded buffer).write piece = bounded (piece.bytes.foldl BoundedBuffer.put buffer) := by
  cases piece with
  | text bytes =>
    change bytes.foldl put (bounded buffer) = bounded (bytes.foldl BoundedBuffer.put buffer)
    induction bytes generalizing buffer with
    | nil => rfl
    | cons byte bytes ih => exact ih (buffer.put byte)
  | fill byte count =>
    change bounded (buffer.putMany byte (min buffer.room count)) = _
    rw [BoundedBuffer.putMany_min_room, BoundedBuffer.putMany_eq_foldl]
    rfl

/-- A bounded sink stores the stream of some pieces. -/
theorem writeAll_bounded (buffer : BoundedBuffer) (pieces : List Piece) :
    (bounded buffer).writeAll pieces =
      bounded ((Piece.stream pieces).foldl BoundedBuffer.put buffer) := by
  induction pieces generalizing buffer with
  | nil => rfl
  | cons piece pieces ih =>
    change ((bounded buffer).write piece).writeAll pieces = _
    rw [write_bounded, ih, Piece.stream_cons, List.foldl_append]

/-- A growing text takes a piece at its end. -/
theorem bytes_write_growing (bytes : Array UInt8) (piece : Piece) :
    (growing bytes).write piece = growing (bytes ++ piece.bytes.toArray) := by
  cases piece with
  | text text =>
    change text.foldl put (growing bytes) = growing (bytes ++ text.toArray)
    induction text generalizing bytes with
    | nil => simp
    | cons byte text ih =>
      have hi := ih (bytes.push byte)
      have hpush : bytes.push byte ++ text.toArray = bytes ++ (byte :: text).toArray := by simp
      rw [hpush] at hi
      exact hi
  | fill byte count =>
    change growing (bytes ++ Array.replicate count byte) = _
    simp [Piece.bytes]

/-- A growing text takes the stream of some pieces at its end. -/
theorem writeAll_growing (bytes : Array UInt8) (pieces : List Piece) :
    (growing bytes).writeAll pieces = growing (bytes ++ (Piece.stream pieces).toArray) := by
  induction pieces generalizing bytes with
  | nil => simp [writeAll]
  | cons piece pieces ih =>
    change ((growing bytes).write piece).writeAll pieces = _
    rw [bytes_write_growing, ih, Piece.stream_cons]
    simp

end Sink

end FormatScan
