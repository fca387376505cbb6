import FormatScan.Proofs.Format.Steps

/-!
# Truncated output

The same call may go to a growing text, to a buffer of fixed size or to a sink
that keeps nothing. Which of them it is never shows in the report, in the error
or in a count slot, and the buffer ends up with the front of the growing text
that fits ahead of a zero byte. A failing call is no exception: its output is
what the format in front of the failing directive produces, and the buffer is
terminated behind it all the same.
-/

namespace FormatScan.Format

/-- A growing text ends up with the stream of the whole output. -/
theorem printAll_bytes (text : Bytes) (args : List FormatArg) :
    (printAll text args).sink.bytes = Piece.stream (format text args).pieces := by
  dsimp only [printAll, printTo]
  rw [Sink.writeAll_growing]
  simp [Sink.finish, Sink.bytes]

/-- A buffer ends up with the front of the stream that leaves a byte free, a
zero byte, and its own bytes behind that. -/
theorem printBounded_bytes (buffer text : Bytes) (args : List FormatArg) :
    (printBounded buffer text args).sink.bytes =
      if buffer = [] then []
      else
        (Piece.stream (format text args).pieces).take
            (min (Piece.stream (format text args).pieces).length (buffer.length - 1)) ++
          0 :: buffer.drop
            (min (Piece.stream (format text args).pieces).length (buffer.length - 1) + 1) := by
  dsimp only [printBounded, printTo]
  rw [Sink.writeAll_bounded]
  have hk := (BoundedBuffer.keeps_ofBytes buffer).foldl_put
    (Piece.stream (format text args).pieces)
  rw [List.nil_append] at hk
  exact hk.toList_finish

/-- Formatting into a buffer, into a growing text and into nothing agree in the
report and in every operand, count slots included. A reported length is that of
the growing text, held at the largest word. After a failure the growing text is
the output of the format in front of the directive that failed. The buffer holds
as much of the growing text as leaves one byte free, then a zero byte, then its
own bytes; a buffer without bytes stays as it is. -/
theorem printBounded_truncates_printAll (buffer text : Bytes) (args : List FormatArg) :
    let full := printAll text args
    let bounded := printBounded buffer text args
    let measured := printTo .discard text args
    let kept := min full.sink.bytes.length (buffer.length - 1)
    (bounded.result = full.result ∧ measured.result = full.result) ∧
      (bounded.args = full.args ∧ measured.args = full.args) ∧
      (∀ length, full.result = .ok length →
        length = min full.sink.bytes.length Word.largest) ∧
      (∀ error, full.result = .error error →
        ∃ front rest length, text = front ++ 0x25 :: rest ∧
          (printAll front args).result = .ok length ∧
          (printAll front args).sink.bytes = full.sink.bytes ∧
          (printAll front args).args = full.args ∧
          (Directive.read false rest).1.perform ⟨(format front args).operands, length⟩ =
            .error error) ∧
      bounded.sink.bytes =
        if buffer = [] then []
        else full.sink.bytes.take kept ++ 0 :: buffer.drop (kept + 1) := by
  intro full bounded measured kept
  have hbytes : full.sink.bytes = Piece.stream (format text args).pieces := printAll_bytes text args
  refine ⟨⟨rfl, rfl⟩, ⟨rfl, rfl⟩, ?_, ?_, ?_⟩
  · intro length hok
    have hcount := produced_of_run_ok hok
    rw [Piece.countFrom_eq (Nat.zero_le _), Nat.zero_add] at hcount
    rw [hbytes]
    exact hcount
  · intro error herror
    obtain ⟨front, rest, length, htext, hrun, hfail⟩ := exists_front_of_run_error herror
    have hformat : format front args =
        ⟨(format text args).pieces, (format text args).operands, .ok length⟩ := hrun
    refine ⟨front, rest, length, htext, ?_, ?_, ?_, ?_⟩
    · exact congrArg Formatted.result hformat
    · rw [hbytes, printAll_bytes, hformat]
    · exact congrArg (fun formatted => formatted.operands.all) hformat
    · rw [hformat]
      exact hfail
  · dsimp only [kept]
    rw [hbytes]
    exact printBounded_bytes buffer text args

end FormatScan.Format
