import FormatScan.Format.Render
import FormatScan.Proofs.Output.Storage

/-!
# Histories of a sink

Single bytes, terminators and whole formatting calls may reach one sink in any
order. A growing text shows the stream of such a history. A buffer that takes
the same history keeps, after each call, the longest front of that stream that
leaves one byte free, and tells how much room is left. Nothing behind the place
of the terminator is ever touched, and the terminator is there right behind every
call that completes its output; the next byte that is stored takes its place.
-/

namespace FormatScan

/-- A call on a sink. -/
inductive SinkCall where
  /-- Accept one byte. -/
  | put (byte : UInt8)
  /-- Complete the output. -/
  | finish
  /-- Format some operands, which completes the output even when it fails. -/
  | print (text : Bytes) (args : List FormatArg)

namespace SinkCall

/-- Whether a call completes the output. -/
def completes : SinkCall → Bool
  | put _ => false
  | finish => true
  | print _ _ => true

/-- The bytes that a call adds to the stream. -/
def bytes : SinkCall → Bytes
  | put byte => [byte]
  | finish => []
  | print text args => Piece.stream (Format.format text args).pieces

end SinkCall

/-- A sink after a call. -/
def Sink.call (sink : Sink) : SinkCall → Sink
  | .put byte => sink.put byte
  | .finish => sink.finish
  | .print text args => (Format.printTo sink text args).sink

/-- A sink after a history of calls. -/
def Sink.after (sink : Sink) (calls : List SinkCall) : Sink := calls.foldl Sink.call sink

/-- A buffer after a call: the bytes of the call go in one by one, and a terminator
follows if the call completes the output. -/
def BoundedBuffer.call (buffer : BoundedBuffer) (call : SinkCall) : BoundedBuffer :=
  let stored := call.bytes.foldl put buffer
  if call.completes then stored.finish else stored

namespace Sink

/-- A growing text takes the bytes of a call at its end. -/
theorem call_growing (bytes : Array UInt8) (call : SinkCall) :
    (growing bytes).call call = growing (bytes ++ call.bytes.toArray) := by
  cases call with
  | put byte =>
    change growing (bytes.push byte) = _
    rw [SinkCall.bytes, ← Array.append_singleton]
  | finish =>
    change growing bytes = _
    rw [SinkCall.bytes, Array.append_empty]
  | print text args =>
    change ((growing bytes).writeAll (Format.format text args).pieces).finish = _
    rw [writeAll_growing]
    rfl

/-- A growing text ends up with the bytes of all calls, in their order. -/
theorem after_growing (bytes : Array UInt8) (calls : List SinkCall) :
    (growing bytes).after calls = growing (bytes ++ (calls.flatMap SinkCall.bytes).toArray) := by
  induction calls generalizing bytes with
  | nil => simp [after]
  | cons call calls ih =>
    change ((growing bytes).call call).after calls = _
    rw [call_growing, ih, List.flatMap_cons, ← List.append_toArray, Array.append_assoc]

/-- A bounded sink passes a call on to its buffer. -/
theorem call_bounded (buffer : BoundedBuffer) (call : SinkCall) :
    (bounded buffer).call call = bounded (buffer.call call) := by
  cases call with
  | put byte => rfl
  | finish => rfl
  | print text args =>
    change ((bounded buffer).writeAll (Format.format text args).pieces).finish = _
    rw [writeAll_bounded]
    rfl

/-- A bounded sink passes a history on to its buffer. -/
theorem after_bounded (buffer : BoundedBuffer) (calls : List SinkCall) :
    (bounded buffer).after calls = bounded (calls.foldl BoundedBuffer.call buffer) := by
  induction calls generalizing buffer with
  | nil => rfl
  | cons call calls ih =>
    change ((bounded buffer).call call).after calls = _
    rw [call_bounded, ih, List.foldl_cons]

end Sink

namespace BoundedBuffer

variable {buffer : BoundedBuffer} {original stream : Bytes}

/-- A call carries what a buffer keeps on to the stream with the bytes of the call. -/
theorem Keeps.call (h : buffer.Keeps original stream) (call : SinkCall) :
    (buffer.call call).Keeps original (stream ++ call.bytes) := by
  have hstored := h.foldl_put call.bytes
  unfold BoundedBuffer.call
  dsimp only
  split
  · exact hstored.finish
  · exact hstored

/-- So does a history. -/
theorem Keeps.after (h : buffer.Keeps original stream) (calls : List SinkCall) :
    (calls.foldl BoundedBuffer.call buffer).Keeps original
      (stream ++ calls.flatMap SinkCall.bytes) := by
  induction calls generalizing buffer stream with
  | nil => simpa using h
  | cons call calls ih =>
    have hi := ih (h.call call)
    rw [List.append_assoc, ← List.flatMap_cons] at hi
    exact hi

/-- The room is what the stored front leaves in front of the last byte. -/
theorem Keeps.room_eq (h : buffer.Keeps original stream) :
    buffer.room = original.length - 1 - buffer.written := by
  dsimp only [room, remaining]
  rw [h.size_eq]
  omega

/-- Every byte behind the place of the terminator is the original one. -/
theorem Keeps.getElem?_behind (h : buffer.Keeps original stream) {offset : Nat}
    (ho : buffer.written < offset) : buffer.bytes.toList[offset]? = original[offset]? := by
  have hb : (buffer.bytes.toList.drop (buffer.written + 1))[offset - (buffer.written + 1)]? =
      (original.drop (buffer.written + 1))[offset - (buffer.written + 1)]? := by rw [h.behind]
  rwa [List.getElem?_drop, List.getElem?_drop, Nat.add_sub_cancel' ho] at hb

/-- A completed buffer that has a byte holds the terminator behind its front. -/
theorem Keeps.getElem?_finish (h : buffer.Keeps original stream) (hne : original ≠ []) :
    buffer.finish.bytes.toList[buffer.finish.written]? = some 0 := by
  have hsize := h.size_eq
  have hwritten := h.written_eq
  have hpos : 0 < original.length := List.length_pos_iff.mpr hne
  have hfree : buffer.written < buffer.bytes.size := by omega
  simp only [BoundedBuffer.finish, dif_pos hfree, Array.toList_set]
  exact List.getElem?_set_self (by simpa using hfree)

/-- While there is room, a byte is stored at the place of the terminator. -/
theorem getElem?_put (buffer : BoundedBuffer) (hroom : 0 < buffer.room) (byte : UInt8) :
    (buffer.put byte).bytes.toList[buffer.written]? = some byte := by
  have hfree : buffer.written + 2 ≤ buffer.bytes.size := by
    dsimp only [room, remaining] at hroom
    omega
  simp only [put, dif_pos hfree, Array.toList_set]
  exact List.getElem?_set_self (by simp; omega)

/-- Without room a byte leaves the buffer, terminator included, as it is. -/
theorem put_of_room_eq_zero (buffer : BoundedBuffer) (hroom : buffer.room = 0) (byte : UInt8) :
    buffer.put byte = buffer := by
  apply dif_neg
  dsimp only [room, remaining] at hroom
  omega

/-- Let a buffer and a growing text take the same history of bytes, terminators
and formatting calls, whether these succeed or fail. Then the buffer has stored as
many bytes of the text as leave one byte free, and its room is what remains of them;
the stored bytes are the front of the text, and everything behind the byte that
follows them is as it was in the beginning. That byte is zero right after a call
that completes its output, unless the buffer has no byte at all. A further byte
takes the place of that zero while there is room, and is dropped otherwise. -/
theorem after_history (original : Bytes) (calls : List SinkCall) :
    let stream := ((Sink.growing #[]).after calls).bytes
    ∃ buffer, (Sink.bounded (ofBytes original.toArray)).after calls = .bounded buffer ∧
      buffer.bytes.size = original.length ∧
      buffer.written = min stream.length (original.length - 1) ∧
      (Sink.bounded buffer).room = some (original.length - 1 - buffer.written) ∧
      buffer.bytes.toList.take buffer.written = stream.take buffer.written ∧
      (∀ offset, buffer.written < offset →
        buffer.bytes.toList[offset]? = original[offset]?) ∧
      (original ≠ [] → ∀ earlier last, calls = earlier ++ [last] → last.completes = true →
        buffer.bytes.toList[buffer.written]? = some 0) ∧
      ∀ byte, ∃ next,
        (Sink.bounded (ofBytes original.toArray)).after (calls ++ [.put byte]) = .bounded next ∧
        if buffer.written < original.length - 1 then
          next.bytes.toList[buffer.written]? = some byte
        else next = buffer := by
  intro stream
  have hstream : stream = calls.flatMap SinkCall.bytes := by
    dsimp only [stream]
    rw [Sink.after_growing]
    simp [Sink.bytes]
  have hk := (keeps_ofBytes original).after calls
  rw [List.nil_append, ← hstream] at hk
  have hroom := hk.room_eq
  have hafter := Sink.after_bounded (ofBytes original.toArray) calls
  refine ⟨_, hafter, hk.size_eq, hk.written_eq, congrArg some hroom, hk.front,
    fun offset => hk.getElem?_behind, fun hne earlier last hlast hcompletes => ?_,
    fun byte => ⟨(calls.foldl call (ofBytes original.toArray)).put byte, ?_, ?_⟩⟩
  · have hearlier := ((keeps_ofBytes original).after earlier).foldl_put last.bytes
    rw [hlast, List.foldl_append, List.foldl_cons, List.foldl_nil, call, if_pos hcompletes]
    exact hearlier.getElem?_finish hne
  · rw [Sink.after, List.foldl_append]
    exact congrArg (Sink.put · byte) hafter
  · split
    · exact getElem?_put _ (by omega) byte
    · exact put_of_room_eq_zero _ (by omega) byte

end BoundedBuffer

end FormatScan
