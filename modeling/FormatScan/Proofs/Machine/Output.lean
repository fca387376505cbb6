import FormatScan.Format.Field
import FormatScan.Proofs.Machine.Operations
import FormatScan.Proofs.Output.Storage

/-!
# Writing to a sink

A buffer of fixed size takes a byte only while two are free, so the place it writes
to lies within it and one byte is left for the terminator. Padding is stored as far
as there is room and counted in full, by a sum that stays at the largest word.
-/

namespace FormatScan.Machine

/-- A place in a buffer is still one when a byte is stored there. -/
theorem lt_size_set {buffer : BoundedBuffer} (h : buffer.written < buffer.bytes.size)
    (byte : UInt8) : buffer.written < (buffer.bytes.set buffer.written byte h).size := by
  rw [Array.size_set]
  exact h

theorem le_size_set {buffer : BoundedBuffer} (h : buffer.written < buffer.bytes.size)
    (byte : UInt8) : buffer.written ≤ (buffer.bytes.set buffer.written byte h).size :=
  Nat.le_of_lt (lt_size_set h byte)

/-- Store one byte in a buffer when there is room for it and the terminator. -/
def putBuffer (buffer : BoundedBuffer) (byte : UInt8) : Checked BoundedBuffer := do
  let remaining ← sub buffer.bytes.size buffer.written
  if 2 ≤ remaining then
    require (buffer.written < buffer.bytes.size) .outOfBounds fun h =>
      require (buffer.written + 1 ≤ Word.largest) .overflow fun _ =>
        .ok ⟨buffer.bytes.set buffer.written byte h, buffer.written + 1, lt_size_set h byte⟩
  else return buffer

/-- Store a byte behind the ones that were written, without counting it. -/
def putBehind (buffer : BoundedBuffer) (byte : UInt8)
    (h : buffer.written < buffer.bytes.size) : BoundedBuffer :=
  ⟨buffer.bytes.set buffer.written byte h, buffer.written, le_size_set h byte⟩

/-- Store the terminator, if there is a byte left for it. -/
def finishBuffer (buffer : BoundedBuffer) : Checked BoundedBuffer := do
  let remaining ← sub buffer.bytes.size buffer.written
  if 1 ≤ remaining then
    require (buffer.written < buffer.bytes.size) .outOfBounds fun h =>
      .ok (putBehind buffer 0 h)
  else return buffer

/-- Accept one byte. A growing text is given the memory it needs. -/
def putSink (sink : Sink) (byte : UInt8) : Checked Sink :=
  match sink with
  | .bounded buffer => do
    let buffer ← putBuffer buffer byte
    return .bounded buffer
  | .growing bytes => .ok (.growing (bytes.push byte))
  | .discard => .ok .discard

/-- Accept a byte a number of times. -/
def putRun (byte : UInt8) : Nat → Sink → Checked Sink
  | 0, sink => .ok sink
  | count + 1, sink => do
    let sink ← putSink sink byte
    putRun byte count sink

/-- How many more bytes will be stored, when there is a bound. -/
def room (sink : Sink) : Checked (Option Nat) :=
  match sink with
  | .bounded buffer => do
    let remaining ← sub buffer.bytes.size buffer.written
    return some (remaining - 1)
  | .growing _ => .ok none
  | .discard => .ok (some 0)

/-- Complete the output of one call. -/
def finish (sink : Sink) : Checked Sink :=
  match sink with
  | .bounded buffer => do
    let buffer ← finishBuffer buffer
    return .bounded buffer
  | .growing bytes => .ok (.growing bytes)
  | .discard => .ok .discard

/-- A sink, and the number of bytes produced so far. -/
structure Output where
  /-- The sink. -/
  sink : Sink
  /-- The number of bytes produced, whatever the sink kept. -/
  produced : Nat

/-- Write one byte. -/
def put (out : Output) (byte : UInt8) : Checked Output := do
  let sink ← putSink out.sink byte
  return ⟨sink, Word.satAdd out.produced 1⟩

/-- Write some bytes. -/
def putAll (out : Output) (bytes : Bytes) : Checked Output := bytes.foldlM put out

/-- Write a run of padding. Bytes that the sink has no room for are only counted. -/
def pad (out : Output) (byte : UInt8) (count : Int) : Checked Output :=
  if count ≤ 0 then .ok out
  else do
    let stored := match ← room out.sink with
      | some room => min room count.toNat
      | none => count.toNat
    let sink ← putRun byte stored out.sink
    return ⟨sink, Word.satAdd out.produced count.toNat⟩

/-- What is reached behind some pieces of output. -/
def Output.write (out : Output) (pieces : List Piece) : Output :=
  ⟨out.sink.writeAll pieces, Piece.countFrom out.produced pieces⟩

/-- A buffer, if the sink is one, is no longer than memory allows. Nothing is asked of a
growing text: one that has grown beyond what can be allocated is outside the model (see
`Bytes`). -/
def SinkFits : Sink → Prop
  | .bounded buffer => Fits buffer.bytes.toList
  | _ => True

/-- An output of a machine: what it counts is a word. -/
structure Output.Sound (out : Output) : Prop where
  /-- The sink is no longer than memory allows. -/
  sink_fits : SinkFits out.sink
  /-- The count is a word. -/
  produced_le : out.produced ≤ Word.largest

/-- Storing in a buffer meets no fault. -/
theorem putBuffer_eq {buffer : BoundedBuffer} (hfits : Fits buffer.bytes.toList) (byte : UInt8) :
    putBuffer buffer byte = .ok (buffer.put byte) := by
  have hle := buffer.written_le
  unfold Fits at hfits
  rw [Array.length_toList] at hfits
  rw [putBuffer, sub_eq hle, ok_bind, BoundedBuffer.put]
  by_cases hroom : buffer.written + 2 ≤ buffer.bytes.size
  · have hword : buffer.written + 1 ≤ Word.largest := by
      unfold Word.largest
      omega
    rw [if_pos (by omega), require_of (by omega), require_of hword, dif_pos hroom]
  · rw [if_neg (by omega), dif_neg hroom]
    rfl

/-- Storing keeps the length of a buffer. -/
theorem size_put (buffer : BoundedBuffer) (byte : UInt8) :
    (buffer.put byte).bytes.size = buffer.bytes.size := by
  unfold BoundedBuffer.put
  split
  · exact Array.size_set (by omega)
  · rfl

/-- Completing a buffer meets no fault. -/
theorem finishBuffer_eq (buffer : BoundedBuffer) : finishBuffer buffer = .ok buffer.finish := by
  have hle := buffer.written_le
  rw [finishBuffer, sub_eq hle, ok_bind, BoundedBuffer.finish]
  by_cases hfree : buffer.written < buffer.bytes.size
  · rw [if_pos (by omega), require_of hfree, dif_pos hfree]
    rfl
  · rw [if_neg (by omega), dif_neg hfree]
    rfl

section Sinks

variable {sink : Sink}

/-- Accepting a byte meets no fault. -/
theorem putSink_eq (hfits : SinkFits sink) (byte : UInt8) :
    putSink sink byte = .ok (sink.put byte) := by
  cases sink with
  | bounded buffer =>
    rw [putSink, putBuffer_eq hfits, ok_bind]
    rfl
  | growing bytes => rfl
  | discard => rfl

/-- Accepting a byte keeps the length of a buffer. -/
theorem SinkFits.put (hfits : SinkFits sink) (byte : UInt8) : SinkFits (sink.put byte) := by
  cases sink with
  | bounded buffer =>
    have hsize := size_put buffer byte
    unfold SinkFits Sink.put Fits at *
    dsimp only at hfits ⊢
    rw [Array.length_toList] at hfits ⊢
    omega
  | growing bytes => trivial
  | discard => trivial

/-- Accepting bytes keeps the length of a buffer. -/
theorem SinkFits.foldl_put (hfits : SinkFits sink) (bytes : Bytes) :
    SinkFits (bytes.foldl Sink.put sink) := by
  induction bytes generalizing sink with
  | nil => exact hfits
  | cons byte bytes ih => exact ih (hfits.put byte)

/-- Completing a sink meets no fault. -/
theorem finish_eq (sink : Sink) : finish sink = .ok sink.finish := by
  cases sink with
  | bounded buffer =>
    rw [finish, finishBuffer_eq, ok_bind]
    rfl
  | growing bytes => rfl
  | discard => rfl

/-- A bounded sink stores bytes into its buffer. -/
theorem foldl_put_bounded (bytes : Bytes) (buffer : BoundedBuffer) :
    bytes.foldl Sink.put (.bounded buffer) = .bounded (bytes.foldl BoundedBuffer.put buffer) := by
  induction bytes generalizing buffer with
  | nil => rfl
  | cons byte bytes ih => exact ih (buffer.put byte)

/-- A sink takes pieces of output byte by byte. -/
theorem writeAll_eq_foldl (sink : Sink) (pieces : List Piece) :
    sink.writeAll pieces = (Piece.stream pieces).foldl Sink.put sink := by
  have hgrowing : ∀ (bytes : Bytes) (text : Array UInt8),
      bytes.foldl Sink.put (.growing text) = .growing (text ++ bytes.toArray) := by
    intro bytes text
    have hwrite := Sink.bytes_write_growing text (.text bytes)
    exact hwrite
  have hdiscard : ∀ bytes : Bytes, bytes.foldl Sink.put .discard = .discard := by
    intro bytes
    induction bytes with
    | nil => rfl
    | cons byte bytes ih => exact ih
  cases sink with
  | bounded buffer => rw [Sink.writeAll_bounded, foldl_put_bounded]
  | growing bytes => rw [Sink.writeAll_growing, hgrowing]
  | discard =>
    rw [hdiscard]
    induction pieces with
    | nil => rfl
    | cons piece pieces ih =>
      have hpiece : Sink.discard.write piece = .discard := by
        cases piece with
        | text bytes => exact hdiscard bytes
        | fill byte count => rfl
      rw [Sink.writeAll, List.foldl_cons, hpiece]
      exact ih

/-- Accepting a run of one byte meets no fault. -/
theorem putRun_eq (hfits : SinkFits sink) (byte : UInt8) (count : Nat) :
    putRun byte count sink = .ok ((List.replicate count byte).foldl Sink.put sink) := by
  induction count generalizing sink with
  | zero => rfl
  | succ count ih => rw [putRun, putSink_eq hfits, ok_bind, ih (hfits.put byte)]; rfl

end Sinks

namespace Output

variable {out : Output}

/-- Writing pieces one after another is writing them all. -/
theorem write_append (out : Output) (first second : List Piece) :
    (out.write first).write second = out.write (first ++ second) := by
  unfold Output.write
  dsimp only
  rw [Piece.countFrom_append, Sink.writeAll, Sink.writeAll, Sink.writeAll, List.foldl_append]

/-- What is written shows in the bytes alone, not in how they are split up. -/
theorem Sound.write_congr (h : out.Sound) {first second : List Piece}
    (hstream : Piece.stream first = Piece.stream second) : out.write first = out.write second := by
  unfold Output.write
  rw [writeAll_eq_foldl, writeAll_eq_foldl, Piece.countFrom_eq h.produced_le,
    Piece.countFrom_eq h.produced_le, hstream]

/-- Pieces without a byte change nothing. -/
theorem Sound.write_nothing (h : out.Sound) {pieces : List Piece}
    (hstream : Piece.stream pieces = []) : out.write pieces = out := by
  have hnone : out.write pieces = out.write [] := h.write_congr hstream
  exact hnone

/-- Writing keeps an output sound. -/
theorem Sound.write (h : out.Sound) (pieces : List Piece) : (out.write pieces).Sound := by
  constructor
  · have hfits := h.sink_fits.foldl_put (Piece.stream pieces)
    rwa [← writeAll_eq_foldl] at hfits
  · have hcount := Piece.countFrom_eq h.produced_le pieces
    dsimp only [Output.write]
    omega

end Output

section Writing

variable {out : Output}

/-- Writing a byte meets no fault. -/
theorem put_eq (h : out.Sound) (byte : UInt8) : put out byte = .ok (out.write [.text [byte]]) := by
  rw [put, putSink_eq h.sink_fits, ok_bind]
  rfl

/-- Writing bytes meets no fault. -/
theorem putAll_eq (h : out.Sound) (bytes : Bytes) :
    putAll out bytes = .ok (out.write [.text bytes]) := by
  unfold putAll
  induction bytes generalizing out with
  | nil =>
    rw [h.write_nothing (by rfl)]
    rfl
  | cons byte bytes ih =>
    have hsplit : out.write ([.text [byte]] ++ [.text bytes]) = out.write [.text (byte :: bytes)] :=
      h.write_congr (by simp [Piece.bytes])
    rw [List.foldlM_cons, put_eq h, ok_bind, ih (h.write _), Output.write_append, hsplit]

/-- Writing padding meets no fault. -/
theorem pad_eq (h : out.Sound) (byte : UInt8) (count : Int) :
    pad out byte count = .ok (out.write [Format.padding byte count]) := by
  by_cases hcount : count ≤ 0
  · have hzero : count.toNat = 0 := by omega
    rw [pad, if_pos hcount, Format.padding, hzero, h.write_nothing (by rfl)]
  · have hwhole : out.write [Format.padding byte count] =
        ⟨out.sink.fill byte count.toNat, Word.satAdd out.produced count.toNat⟩ := rfl
    have hfits := h.sink_fits
    rw [pad, if_neg hcount, hwhole]
    obtain ⟨sink, produced⟩ := out
    cases sink with
    | bounded buffer =>
      have hroom : room (.bounded buffer) = .ok (some buffer.room) := by
        rw [room, sub_eq buffer.written_le]
        rfl
      dsimp only
      rw [hroom, ok_bind]
      dsimp only
      rw [putRun_eq hfits, ok_bind, foldl_put_bounded, ← BoundedBuffer.putMany_eq_foldl]
      rfl
    | growing bytes =>
      have hfill : (List.replicate count.toNat byte).foldl Sink.put (.growing bytes) =
          (Sink.growing bytes).fill byte count.toNat := by
        have htext := Sink.bytes_write_growing bytes (.text (List.replicate count.toNat byte))
        have hrun := Sink.bytes_write_growing bytes (.fill byte count.toNat)
        exact htext.trans hrun.symm
      dsimp only [room]
      rw [ok_bind]
      dsimp only
      rw [putRun_eq hfits, ok_bind, hfill]
      rfl
    | discard =>
      have hroom : min 0 count.toNat = 0 := Nat.zero_min _
      dsimp only [room]
      rw [ok_bind]
      dsimp only
      rw [hroom]
      rfl

end Writing

end FormatScan.Machine
