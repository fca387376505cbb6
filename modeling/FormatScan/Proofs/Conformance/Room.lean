import FormatScan.Conformance.Execution
import FormatScan.Proofs.Conformance.Faithful
import FormatScan.Proofs.Conformance.Sweeping
import FormatScan.Proofs.Format.ZeroBytes
import FormatScan.Proofs.Json.Records

/-!
# Buffers with room for the whole output

A buffer that is larger than the reported length holds the whole output and a zero byte
behind it. Its line shows the bytes in front of the first zero byte, while the line of a
call without a buffer shows them all. So the two lines are the same unless the output has a
zero byte of its own, and this only a conversion of a single byte can put there.
-/

namespace FormatScan

/-! ## Inputs -/

/-- The size of a buffer in the inputs of a call is a machine word. -/
theorem FormatInputs.capacity_le {inputs : Json} {call : FormatInputs} {size : Nat}
    (h : FormatInputs.ofJson inputs = .ok call) (hsize : call.capacity = some size) :
    size ≤ Word.largest := by
  obtain ⟨fields, -, h⟩ := Json.exists_of_bind h
  obtain ⟨args, -, h⟩ := Json.exists_of_bind h
  obtain ⟨capacity, hcapacity, h⟩ := Json.exists_of_bind h
  obtain ⟨text, -, h⟩ := Json.exists_of_bind h
  obtain ⟨_, -, h⟩ := Json.exists_of_bind h
  cases h
  have hsome : capacity = some (some size) := Option.join_eq_some_iff.mp hsize
  rw [hsome] at hcapacity
  obtain ⟨value, -, hvalue⟩ := Json.exists_of_present hcapacity
  unfold Json.asOption at hvalue
  split at hvalue
  · cases hvalue
  · cases hread : Json.asNat 64 value with
    | error reason =>
      rw [hread] at hvalue
      cases hvalue
    | ok n =>
      rw [hread] at hvalue
      cases hvalue
      exact Nat.le_of_lt_succ (Json.lt_of_asNat hread)

namespace Execution

/-- A case with a buffer comes to the line of its call. -/
theorem run_bounded {inputs : Json} {call : FormatInputs} {size : Nat}
    (h : FormatInputs.ofJson inputs = .ok call) (hsize : call.capacity = some size) :
    run "snprintf" inputs =
      .ok (Rendering.formatLine (bytesOf call.format) call.args (some size)) := by
  have hcall : run "snprintf" inputs = Execution.call .formatBounded inputs := rfl
  rw [hcall, Execution.call, decode, h]
  dsimp only [Except.mapError]
  simp only [bind, Except.bind, hsize]
  rfl

/-- So does a case without one. -/
theorem run_unbounded {inputs : Json} {call : FormatInputs}
    (h : FormatInputs.ofJson inputs = .ok call) :
    run "sprintf" inputs = .ok (Rendering.formatLine (bytesOf call.format) call.args none) := by
  have hcall : run "sprintf" inputs = Execution.call .format inputs := rfl
  rw [hcall, Execution.call, decode, h]
  rfl

end Execution

namespace Rendering

theorem untilZero_append_zero (text rest : Bytes) :
    untilZero (text ++ 0 :: rest) = untilZero text := by
  induction text with
  | nil => rfl
  | cons c text ih =>
    unfold untilZero at ih ⊢
    rw [List.cons_append, List.takeWhile_cons, List.takeWhile_cons, ih]

section Calls

variable {format : Bytes} {specs : List ArgSpec}

/-- A call that fails has the same line at any size of its buffer, and without one. -/
theorem formatLine_of_error {error : FormatError}
    (h : (Format.printAll format (specs.map ArgSpec.arg)).result = .error error) (size : Nat) :
    formatLine format specs (some size) = formatLine format specs none := by
  have hbounded : (Format.printBounded (List.replicate size 0) format
      (specs.map ArgSpec.arg)).result = .error error := h
  unfold formatLine outputLine
  dsimp only
  rw [h, hbounded]

/-- A reported length that is less than the largest word is that of the output. -/
theorem length_eq_of_lt {length : Nat} {args : List FormatArg}
    (h : (Format.printAll format args).result = .ok length) (hlt : length < Word.largest) :
    length = (Format.printAll format args).sink.bytes.length := by
  have hcount := Format.produced_of_run_ok h
  rw [Piece.countFrom_eq (Nat.zero_le _), Nat.zero_add] at hcount
  rw [Format.printAll_bytes]
  have hcount : length =
    min (Piece.stream (Format.format format args).pieces).length Word.largest := hcount
  omega

/-- In a buffer with room for it the line shows the output up to its first zero byte. -/
theorem formatLine_of_room {length size : Nat}
    (h : (Format.printAll format (specs.map ArgSpec.arg)).result = .ok length)
    (hroom : length < size) (hword : size ≤ Word.largest) :
    formatLine format specs (some size) =
      outputLine (.ok length)
        (untilZero (Format.printAll format (specs.map ArgSpec.arg)).sink.bytes)
        (Operands.counts (Format.printAll format (specs.map ArgSpec.arg)).args) := by
  have hresult : (Format.printBounded (List.replicate size 0) format
      (specs.map ArgSpec.arg)).result = .ok length := h
  have hargs : (Format.printBounded (List.replicate size 0) format
      (specs.map ArgSpec.arg)).args = (Format.printAll format (specs.map ArgSpec.arg)).args := rfl
  have hlength := length_eq_of_lt h (Nat.lt_of_lt_of_le hroom hword)
  have hpos : 0 < (List.replicate size (0 : UInt8)).length := by
    rw [List.length_replicate]
    omega
  -- the buffer keeps the whole output, and a zero byte stands behind it
  obtain ⟨rest, hbytes⟩ :=
    Sweep.exists_printBounded_bytes hpos format (specs.map ArgSpec.arg)
  rw [List.length_replicate, ← hlength, Nat.min_eq_left (by omega),
    List.take_of_length_le hlength.ge] at hbytes
  have hkept : untilZero (Format.printBounded (List.replicate size 0) format
      (specs.map ArgSpec.arg)).sink.bytes =
      untilZero (Format.printAll format (specs.map ArgSpec.arg)).sink.bytes := by
    rw [hbytes, untilZero_append_zero]
  unfold formatLine
  dsimp only
  rw [hresult, hkept, hargs]

/-- With room for the output the line is that of a call without a buffer unless the output
has a zero byte. -/
theorem formatLine_eq_iff {length size : Nat}
    (h : (Format.printAll format (specs.map ArgSpec.arg)).result = .ok length)
    (hroom : length < size) (hword : size ≤ Word.largest) :
    formatLine format specs (some size) = formatLine format specs none ↔
      ¬Format.PutsZero format (specs.map ArgSpec.arg) := by
  have hwhole : formatLine format specs none = outputLine (.ok length)
      (Format.printAll format (specs.map ArgSpec.arg)).sink.bytes
      (Operands.counts (Format.printAll format (specs.map ArgSpec.arg)).args) := by
    unfold formatLine
    dsimp only
    rw [h]
  rw [formatLine_of_room h hroom hword, hwhole, outputLine_eq_iff, ← Format.zero_mem_printAll_iff]
  constructor
  · intro hshown hmem
    obtain ⟨-, hkept⟩ := Prod.mk.inj (Except.ok.inj hshown)
    rw [← (Prod.mk.inj hkept).1] at hmem
    exact Format.zero_notMem_untilZero _ hmem
  · intro hmem
    have hkept : untilZero (Format.printAll format (specs.map ArgSpec.arg)).sink.bytes =
        (Format.printAll format (specs.map ArgSpec.arg)).sink.bytes :=
      List.takeWhile_eq_self_iff.mpr fun c hc => bne_iff_ne.mpr fun heq => hmem (heq ▸ hc)
    rw [hkept]

end Calls

/-- When a call reports its length, a buffer that is larger has the line of the output up to
its first zero byte. That is the line of the call without a buffer, and the case with the
buffer comes to what the case without it does, exactly when no conversion of a single byte
puts a zero byte out. When a call fails, its line is the same for every buffer. -/
theorem lines_with_room (format : Bytes) (specs : List ArgSpec) :
    let full := Format.printAll format (specs.map ArgSpec.arg)
    (∀ length size, full.result = .ok length → length < size → size ≤ Word.largest →
      formatLine format specs (some size) =
          outputLine (.ok length) (untilZero full.sink.bytes) (Operands.counts full.args) ∧
        (formatLine format specs (some size) = formatLine format specs none ↔
          ¬Format.PutsZero format (specs.map ArgSpec.arg))) ∧
      (∀ error size, full.result = .error error →
        formatLine format specs (some size) = formatLine format specs none) ∧
      ∀ bounded unbounded call call' length size,
        FormatInputs.ofJson bounded = .ok call → FormatInputs.ofJson unbounded = .ok call' →
        bytesOf call.format = format → bytesOf call'.format = format →
        call.args = specs → call'.args = specs → call.capacity = some size →
        full.result = .ok length → length < size →
        (Execution.run "snprintf" bounded = Execution.run "sprintf" unbounded ↔
          ¬Format.PutsZero format (specs.map ArgSpec.arg)) := by
  intro full
  refine ⟨fun length size h hroom hword =>
    ⟨formatLine_of_room h hroom hword, formatLine_eq_iff h hroom hword⟩,
    fun error size h => formatLine_of_error h size, ?_⟩
  intro bounded unbounded call call' length size hbounded hunbounded hformat hformat' hargs hargs'
    hsize h hroom
  rw [Execution.run_bounded hbounded hsize, Execution.run_unbounded hunbounded, hformat, hformat',
    hargs, hargs', ← formatLine_eq_iff h hroom (FormatInputs.capacity_le hbounded hsize)]
  exact ⟨Except.ok.inj, congrArg Except.ok⟩

/-- The number 7 needs a buffer of two bytes. -/
theorem lines_with_room_number :
    let format : Bytes := [0x25, 0x64]
    (Format.printAll format [.int 7]).result = .ok 1 ∧
      formatLine format [.int 7] (some 2) = formatLine format [.int 7] none := by
  intro format
  have hresult : (Format.printAll format [.int 7]).result = .ok 1 := by decide +kernel
  have hzero : ¬Format.PutsZero format [.int 7] := by
    rw [← Format.zero_mem_printAll_iff]
    decide +kernel
  obtain ⟨-, hsame⟩ := (lines_with_room format [.int 7]).1 1 2 hresult (by decide) (by decide)
  exact ⟨hresult, hsame.mpr hzero⟩

/-- A zero byte is counted, but a buffer of two bytes does not show it. -/
theorem formatLine_zero_char :
    let format : Bytes := [0x25, 0x63]
    (Format.printAll format [.char 0]).result = .ok 1 ∧ 1 < 2 ∧ 2 ≤ Word.largest ∧
      formatLine format [.char 0] (some 2) = "ret=1 out=\"\"" ∧
      formatLine format [.char 0] none = "ret=1 out=\"\\x00\"" ∧
      formatLine format [.char 0] (some 2) ≠ formatLine format [.char 0] none := by
  decide +kernel

end Rendering

end FormatScan
