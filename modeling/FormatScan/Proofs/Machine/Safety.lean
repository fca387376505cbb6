import FormatScan.Proofs.Machine.Printing
import FormatScan.Proofs.Machine.Scanning

/-!
# No fault

Formatting, scanning, decoding, encoding and the compiling of scan sets are carried out
by position on slices and words, where every operation looks before it acts. None of
them meets a fault, whatever it is given, and each yields what it is meant to yield.

That slices are no longer than memory allows is what they are, not a condition on the
caller. The conditions that remain are the base of an encoder, from 2 to 36, and the
offset of a scan set, which lies within the format.
-/

namespace FormatScan.Machine

/-- Nothing that is formatted, scanned, decoded, encoded or compiled meets a fault. No
index or range lies outside of its slice, no sum, difference or product leaves the range
of its type but where it stays at a bound or wraps, and nothing is divided by zero. No
position is outside of its format or input, a number field has at most 31 bytes, the
table of bases is asked for those of conversions only, and an encoded word has at most 64
digits. -/
theorem meets_no_fault :
    (∀ {sink : Sink} {format : Bytes} {args : List FormatArg},
      SinkFits sink → Fits format → OperandsFit args →
        printTo sink format args = .ok (Format.printTo sink format args)) ∧
    (∀ {buffer format : Bytes} {args : List FormatArg},
      Fits buffer → Fits format → OperandsFit args →
        printTo (.bounded (.ofBytes buffer.toArray)) format args =
          .ok (Format.printBounded buffer format args)) ∧
    (∀ {input format : Bytes} {targets : List ScanTarget},
      Fits input → Fits format → Fits targets →
        scan input format targets = .ok (Scan.scan input format targets)) ∧
    (∀ {format : Scan.NumberFormat} {width : Nat} {input : Bytes} {field : Scan.Field},
      Scan.Field.take? format width input = some field → field.text.length ≤ 31) ∧
    (∀ {text : Bytes}, Fits text → ∀ base : Nat,
      decodeUnsigned text base = .ok (Numeral.decodeMachineWord text base) ∧
        decodeSigned text base = .ok (Numeral.decodeSigned text base) ∧
        decodeUnsigned text base = .ok (Numeral.decodeUnsigned text base)) ∧
    (∀ {base : Nat} {buffer : Bytes}, 2 ≤ base → base ≤ 36 → buffer.length = Numeral.scratchSize →
      ∀ (upper : Bool) (n : UInt64),
        writeScratch buffer base upper n = .ok (Numeral.writeScratch buffer base upper n) ∧
          (Numeral.writeScratch buffer base upper n).length ≤ 64) ∧
    (∀ {format : Bytes} {start : Nat}, Fits format → start ≤ format.length →
      ∃ table, compile format start = .ok (table, (ScanSet.compile format start).2) ∧
        ∀ c, accepts table c = .ok ((ScanSet.compile format start).1.contains c)) := by
  refine ⟨printTo_eq, ?_, scan_eq, length_take?_le, ?_, ?_, ?_⟩
  · intro buffer format args hbuffer hfits hargs
    exact printTo_eq hbuffer hfits hargs
  · intro text hfits base
    exact ⟨decodeUnsigned_eq hfits base, decodeSigned_eq hfits base, decodeUnsigned_eq hfits base⟩
  · intro base buffer hb hb' hsize upper n
    exact ⟨writeScratch_eq hb hb' upper n hsize, length_leastFirst_le hb upper n⟩
  · intro format start hfits hstart
    obtain ⟨table, hcompile, hholds⟩ := exists_compile_eq hfits hstart
    exact ⟨table, hcompile, hholds.accepts_eq⟩

/-- Two bytes hold the first of `a%`, the word in front of a blank goes into a buffer,
the largest word has 64 digits in base 2, and `[a-c]` holds `b`. -/
theorem meets_no_fault_small :
    (printTo (.bounded (.ofBytes #[1, 1])) [0x61, 0x25, 0x25] []).map (·.result) = .ok (.ok 2) ∧
      scan [0x37, 0x20] [0x25, 0x73] [.buffer [1, 1, 1]] =
        .ok ⟨[.buffer [0x37, 0, 1]], .ok (.assigned 1)⟩ ∧
      (writeScratch (List.replicate 65 1) 2 false 18446744073709551615).map (·.length) = .ok 64 ∧
      (∃ table, compile [0x61, 0x2D, 0x63, 0x5D] 0 = .ok (table, .ok 4) ∧
        accepts table 0x62 = .ok true) := by
  obtain ⟨hprint, -, hscan, -, -, hencode, hcompile⟩ := meets_no_fault
  refine ⟨?_, ?_, ?_, ?_⟩
  · have hsink : SinkFits (.bounded (.ofBytes #[1, 1])) := by
      change Fits [1, 1]
      decide
    rw [hprint hsink (by decide) ⟨by decide, by simp⟩]
    with_unfolding_all rfl
  · rw [hscan (by decide) (by decide) (by decide)]
    with_unfolding_all rfl
  · rw [(hencode (by decide) (by decide) (by decide) false _).1]
    with_unfolding_all rfl
  · obtain ⟨table, htable, haccepts⟩ := @hcompile [0x61, 0x2D, 0x63, 0x5D] 0 (by decide) (by decide)
    refine ⟨table, htable, ?_⟩
    rw [haccepts]
    with_unfolding_all rfl

end FormatScan.Machine
