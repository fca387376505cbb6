import FormatScan.Proofs.Machine.Conversions

/-!
# Scanning by position

The input is cut at its first zero, and the format is walked by position. A directive
takes at least two bytes of the format, so there are never more conversions than a
word can count. The walk follows the course of the scan and stops where that stops.
-/

namespace FormatScan.Machine

open Scan

/-- Walk the format from a position on. -/
def walk (format : Bytes) (i : Nat) (input : Bytes) (scanner : Scanner) :
    Checked (Scanner × Halt) :=
  let c := byteAt format i
  if c == 0 then .ok (scanner, .finished)
  else reach format (i + 1) fun _ =>
    if Byte.isSpace c then do
      let scanner ← skipSpace input scanner
      walk format (i + 1) input scanner
    else if c != 0x25 then do
      match ← literal input scanner c with
      | .error halt => return (scanner, halt)
      | .ok scanner => walk format (i + 1) input scanner
    else do
      match ← readRequest format (i + 1) {} with
      | .error e => return (scanner, .failed e)
      | .ok none => return (scanner, .finished)
      | .ok (some request) =>
        require (i < request.next) .boundBroken fun _ => do
          match ← perform input request.directive request.table scanner with
          | .error halt => return (scanner, halt)
          | .ok scanner => walk format request.next input scanner
termination_by format.length - i

/-- Scan an input into a list of targets. -/
def scan (input format : Bytes) (targets : List ScanTarget) : Checked Scanned := do
  let input ← slice input 0 (input.findIdx (· == 0))
  let ended ← walk format 0 input ⟨0, 0, .start targets, 0, 0⟩
  let result :=
    match ended.2 with
    | .finished | .mismatch => .ok (.assigned ended.1.assigned)
    | .exhausted =>
      if ended.1.conversions == 0 then .ok .endOfInput else .ok (.assigned ended.1.assigned)
    | .failed error => .error error
  return ⟨ended.1.targets.all, result⟩

/-- A directive takes numbers in the known bases only. -/
theorem base_of_readFrom {start directive : Directive} {text after : Bytes} {format : NumberFormat}
    (h : Directive.readFrom start text = .read directive after)
    (hnumber : directive.conversion = .number format) : format.base ∈ fieldBases := by
  rw [Directive.reads_iff] at h
  induction h with
  | modifier _ _ ih => exact ih hnumber
  | set _ => cases hnumber
  | conversion _ _ _ =>
    unfold Conversion.ofByte at hnumber
    dsimp only at hnumber
    split at hnumber <;> cases hnumber <;> decide

section Walking

variable {format input rest : Bytes} {i : Nat} (hformat : Fits format)

include hformat

/-- A directive is read behind its percent sign, and then carried out. -/
theorem walk_percent (h : At format i (0x25 :: rest)) (input : Bytes) (scanner : Scanner) :
    ∃ read, Reads format (Directive.read rest) read ∧
      walk format i input scanner = (do
        match ← read with
        | .error e => return (scanner, .failed e)
        | .ok none => return (scanner, .finished)
        | .ok (some request) =>
          require (i < request.next) .boundBroken fun _ => do
            match ← perform input request.directive request.table scanner with
            | .error halt => return (scanner, halt)
            | .ok scanner => walk format request.next input scanner) := by
  refine ⟨readRequest format (i + 1) {}, reads_readRequest hformat h.next {}, ?_⟩
  rw [walk, h.byteAt_eq, if_neg (by decide), h.next.reach_eq hformat, if_neg (by decide),
    if_neg (by decide)]

/-- A directive that is read in full is carried out, and the walk goes on behind it. -/
theorem walk_directive (hfits : Fits input) {progress : Progress} {directive : Directive}
    {after : Bytes} (h : At format i (0x25 :: rest)) (hstands : Stands input progress)
    (hcount : progress.conversions ≤ i) (hread : Directive.read rest = .read directive after) :
    walk format i input (.of progress) =
      match directive.perform progress with
      | .error halt => .ok (.of progress, halt)
      | .ok done => walk format (format.length - after.length) input (.of done) := by
  obtain ⟨read, hreads, hwalk⟩ := walk_percent hformat h input (.of progress)
  rw [hread] at hreads
  obtain ⟨-, hle⟩ := h.next.behind (Directive.readFrom_suffix (Or.inl ⟨directive, hread⟩))
  have hword : progress.conversions + 1 ≤ Word.largest :=
    Nat.le_trans (Nat.succ_le_succ hcount) (h.next.le_largest hformat)
  cases hreads with
  | read request htells hnext =>
    rw [hwalk, ok_bind]
    dsimp only
    rw [hnext, require_of (Nat.lt_of_succ_le hle),
      perform_eq hstands hfits hword htells (fun format => base_of_readFrom hread), ok_bind]
    cases directive.perform progress <;> rfl

/-- Walking a format by position meets no fault, and ends as the scan does. -/
theorem walk_eq (hfits : Fits input) {progress : Progress} {trace : List (Directive × Progress)}
    {stopped : Stopped} (course : Course format.length rest progress trace stopped)
    (h : At format i rest) (hstands : Stands input progress) (hcount : progress.conversions ≤ i) :
    walk format i input (.of progress) = .ok (.of stopped.progress, stopped.halt) := by
  induction course generalizing i with
  | ended => rw [walk, h.byteAt_nil, if_pos (by rfl)]
  | zero => rw [walk, h.byteAt_eq, if_pos (by rfl)]
  | blank hc course ih =>
    rename_i c _ progress _ _
    have hz : ¬(c == 0) = true := by
      rw [beq_iff_eq]
      rintro rfl
      cases hc
    have hskipped : Stands input progress.skipBlanks :=
      hstands.advance (List.takeWhile_sublist Byte.isSpace).length_le
    rw [walk, h.byteAt_eq, if_neg hz, h.next.reach_eq hformat, if_pos hc,
      skipSpace_eq hfits hstands, ok_bind]
    exact ih h.next hskipped (Nat.le_succ_of_le hcount)
  | literal hz hs hp hm course ih =>
    obtain ⟨hlength, rfl⟩ := Progress.matchByte_ok hm
    rw [walk, h.byteAt_eq, if_neg (by simpa using hz), h.next.reach_eq hformat,
      if_neg (by rw [hs]; exact Bool.false_ne_true), if_pos (by simpa using hp),
      literal_eq hfits hstands, hm, ok_bind]
    exact ih h.next (hstands.advance hlength) (Nat.le_succ_of_le hcount)
  | unmatched hz hs hp hm =>
    rw [walk, h.byteAt_eq, if_neg (by simpa using hz), h.next.reach_eq hformat,
      if_neg (by rw [hs]; exact Bool.false_ne_true), if_pos (by simpa using hp),
      literal_eq hfits hstands, hm, ok_bind]
    rfl
  | cut hread =>
    obtain ⟨read, hreads, hwalk⟩ := walk_percent hformat h input _
    rw [hread] at hreads
    cases hreads
    exact hwalk
  | openSet hread =>
    obtain ⟨read, hreads, hwalk⟩ := walk_percent hformat h input _
    rw [hread] at hreads
    cases hreads
    exact hwalk
  | failed hread hfailed =>
    rw [walk_directive hformat hfits h hstands hcount hread, hfailed]
  | directive hread hdone course ih =>
    obtain ⟨hnext, hle⟩ := h.next.behind (Directive.readFrom_suffix (Or.inl ⟨_, hread⟩))
    obtain ⟨hstands', hcount'⟩ := hstands.perform hdone
    rw [walk_directive hformat hfits h hstands hcount hread, hdone]
    exact ih hnext hstands' (by omega)

end Walking

/-- Scanning meets no fault, whatever the input, the format and the targets are, and
yields what the scan yields. -/
theorem scan_eq {input format : Bytes} {targets : List ScanTarget} (hinput : Fits input)
    (hformat : Fits format) (htargets : Fits targets) :
    scan input format targets = .ok (Scan.scan input format targets) := by
  have hfits : Fits (untilZero input) :=
    Nat.le_trans (List.takeWhile_sublist _).length_le hinput
  have hstands : Stands (untilZero input) { input := untilZero input, targets := .start targets } :=
    ⟨At.start _, Nat.zero_le _, htargets⟩
  have hwalk : walk format 0 (untilZero input) ⟨0, 0, .start targets, 0, 0⟩ = _ :=
    walk_eq hformat hfits (course_run _ _ _) (At.start format) hstands (Nat.zero_le 0)
  rw [scan, slice_untilZero, ok_bind, hwalk, ok_bind, Scan.scan]
  dsimp only [Stopped.result, Scanner.of]
  generalize Scan.run _ _ _ = stopped
  cases stopped.halt <;> rfl

end FormatScan.Machine
