import FormatScan.Proofs.Length.Order
import FormatScan.Proofs.Scan.Frame
import Mathlib.Data.List.DropRight

/-!
# Blanks in a format

A blank in a format skips all blanks that the input has there, and what it skips is not found
again. So a run of blanks does no more than its first one, and which of the six it is does not
matter. A number or a word skips the blanks in front of it by itself, and a blank ahead of
such a directive does nothing that the directive would not do. Only the place that a scan has
reached where it stops may be another one, and no report tells of that.

A format that is longer or shorter by some blanks is scanned alike up to them, and alike from
there on. What is left to tell the two apart is the offset of an open scan set, which is
counted from the front of the format.
-/

namespace FormatScan

/-- An error with the offset of an open scan set some bytes further behind. An error that
names a target stays what it is. -/
def FormatError.behind (offset : Nat) : FormatError → FormatError
  | .unterminatedScanSet place => .unterminatedScanSet (offset + place)
  | error => error

namespace Scan

/-! ## What a blank does -/

/-- Blanks that were skipped are gone. -/
theorem Progress.skipBlanks_skipBlanks (progress : Progress) :
    progress.skipBlanks.skipBlanks = progress.skipBlanks := by
  refine Progress.skipBlanks_eq_self ?_
  have hinput : progress.skipBlanks.input = progress.input.dropWhile Byte.isSpace := by
    have hsplit : (progress.input.takeWhile Byte.isSpace ++
        progress.input.dropWhile Byte.isSpace).drop
          (progress.input.takeWhile Byte.isSpace).length =
        progress.input.dropWhile Byte.isSpace := List.drop_left
    rwa [List.takeWhile_append_dropWhile] at hsplit
  rw [hinput, List.takeWhile_eq_nil_iff]
  intro hpos
  exact List.dropWhile_get_zero_not _ _ hpos

/-- A run of blanks does what its first one does. -/
theorem run_blanks {blanks : Bytes} (hne : blanks ≠ [])
    (hb : ∀ c ∈ blanks, Byte.isSpace c = true) (total : Nat) (rest : Bytes) (progress : Progress) :
    run total (blanks ++ rest) progress = run total rest progress.skipBlanks := by
  -- behind the first blank there is none left in the input for the later ones
  have hmore : ∀ blanks : Bytes, (∀ c ∈ blanks, Byte.isSpace c = true) →
      run total (blanks ++ rest) progress.skipBlanks = run total rest progress.skipBlanks := by
    intro blanks hb
    induction blanks with
    | nil => rfl
    | cons c blanks ih =>
      rw [List.cons_append, run_blank (hb c List.mem_cons_self), Progress.skipBlanks_skipBlanks]
      exact ih fun d hd => hb d (List.mem_cons_of_mem c hd)
  cases blanks with
  | nil => exact absurd rfl hne
  | cons c blanks =>
    rw [List.cons_append, run_blank (hb c List.mem_cons_self)]
    exact hmore blanks fun d hd => hb d (List.mem_cons_of_mem c hd)

/-- The conversions that skip the blanks in front of them: numbers, words and the unknown
ones. -/
def Conversion.skipsBlanks : Conversion → Bool
  | word | number _ | unknown => true
  | percent | count | chars | set _ => false

/-- Getting ready behind blanks that were skipped is getting ready in front of them. -/
theorem Progress.approach_skipBlanks (progress : Progress) :
    progress.skipBlanks.approach false = progress.approach false := by
  unfold Progress.approach
  rw [progress.skipBlanks_skipBlanks]
  by_cases hempty : progress.input.isEmpty = true
  · have hskipped : progress.skipBlanks.input.isEmpty = true := by
      have hnil : progress.input = [] := List.isEmpty_iff.mp hempty
      rw [Progress.skipBlanks, Progress.advance, hnil]
      rfl
    rw [if_pos hempty, if_pos hskipped]
  · rw [if_neg hempty]
    by_cases hskipped : progress.skipBlanks.input.isEmpty = true
    · simp [hskipped]
    · simp [hskipped]

/-- A directive that skips blanks does the same when they were skipped before. -/
theorem Directive.perform_skipBlanks {directive : Directive}
    (h : directive.conversion.skipsBlanks = true) (progress : Progress) :
    directive.perform progress.skipBlanks = directive.perform progress := by
  have htaking (htakes : directive.conversion.takes = true)
      (hkeeps : directive.conversion.keepsBlanks = false) :
      directive.perform progress.skipBlanks = directive.perform progress := by
    rw [Directive.perform_of_takes htakes, Directive.perform_of_takes htakes, hkeeps,
      Progress.approach_skipBlanks]
  cases hc : directive.conversion with
  | percent | count | chars | set accepted =>
    rw [hc] at h
    cases h
  | word | number format => exact htaking (by rw [hc]; rfl) (by rw [hc]; rfl)
  | unknown =>
    unfold Directive.perform
    rw [hc]
    exact progress.approach_skipBlanks

/-- A blank ahead of a directive that skips blanks leaves no trace in what the scan leaves. -/
theorem scanned_blank_directive {rest after : Bytes} {directive : Directive}
    (hr : Directive.read rest = .read directive after)
    (h : directive.conversion.skipsBlanks = true) (total : Nat) (progress : Progress) :
    (run total (0x20 :: 0x25 :: rest) progress).scanned =
      (run total (0x25 :: rest) progress).scanned := by
  rw [run_blank (by decide), run_directive hr, run_directive hr, Directive.perform_skipBlanks h]
  cases directive.perform progress with
  | error halt => rfl
  | ok done => rfl

/-- The letters of the conversions that skip blanks: `d`, `i`, `o`, `u`, `x`, `p` and `s`. -/
def skippingLetters : Bytes := [0x64, 0x69, 0x6F, 0x75, 0x78, 0x70, 0x73]

/-- A directive with one of these letters is read in full, whatever modifiers stand in front
of the letter, and skips blanks. -/
theorem Directive.exists_read_skipping {modifiers : Bytes}
    (hm : ∀ c ∈ modifiers, isModifier c = true) {letter : UInt8} (hl : letter ∈ skippingLetters)
    (after : Bytes) :
    ∃ directive, Directive.read (modifiers ++ letter :: after) = .read directive after ∧
      directive.conversion.skipsBlanks = true := by
  have hletters : ∀ letter ∈ skippingLetters, isModifier letter = false ∧ letter ≠ 0 ∧
      letter ≠ 0x5B ∧ (Conversion.ofByte letter).skipsBlanks = true := by decide +kernel
  obtain ⟨hletter, hzero, hset, hskips⟩ := hletters letter hl
  refine ⟨{ modifiers.foldl Directive.adjust {} with conversion := .ofByte letter }, ?_, hskips⟩
  rw [Directive.read, Directive.readFrom_modifiers hm,
    Directive.readFrom_conversion hletter hzero hset]

/-! ## Formats that differ behind a front -/

/-- Where two formats cannot be told apart by what a scan leaves, from no place that it may
have reached, they cannot be told apart behind a whole front either. -/
theorem Whole.scanned_append {front : Bytes} (hw : Whole front) {total : Nat}
    {second other : Bytes}
    (h : ∀ progress, (run total second progress).scanned = (run total other progress).scanned)
    (progress : Progress) :
    (run total (front ++ second) progress).scanned =
      (run total (front ++ other) progress).scanned := by
  induction hw generalizing progress with
  | nil => exact h progress
  | @byte c rest hp hw ih =>
    rw [List.cons_append, List.cons_append]
    by_cases hz : c = 0
    · rw [hz, run_zero, run_zero]
    cases hs : Byte.isSpace c with
    | true =>
      rw [run_blank hs, run_blank hs]
      exact ih progress.skipBlanks
    | false =>
      rw [run_literal hz hs hp, run_literal hz hs hp]
      cases progress.matchByte c with
      | error halt => rfl
      | ok next => exact ih next
  | @directive rest after directive hr hw ih =>
    rw [List.cons_append, List.cons_append, run_directive (Directive.read_append hr second),
      run_directive (Directive.read_append hr other)]
    cases directive.perform progress with
    | error halt => rfl
    | ok done => exact ih done

/-- What a scan leaves, with the offset of an open scan set some bytes further behind. -/
def Scanned.behind (scanned : Scanned) (offset : Nat) : Scanned :=
  ⟨scanned.targets, scanned.result.mapError (.behind offset)⟩

theorem shiftError_zero (offset : Nat) (error : FormatError) :
    shiftError 0 offset error = error.behind offset := by
  cases error <;> simp [shiftError, FormatError.behind]

theorem Stopped.scanned_shift (progress : Progress) (halt : Halt) (offset : Nat) :
    Stopped.scanned ⟨progress, halt.shift 0 offset⟩ =
      (Stopped.scanned ⟨progress, halt⟩).behind offset := by
  cases halt with
  | finished => rfl
  | mismatch => rfl
  | failed error =>
    exact congrArg (fun error => Scanned.mk progress.targets.all (.error error))
      (shiftError_zero offset error)
  | exhausted =>
    have hresult : Stopped.result ⟨progress, .exhausted⟩ =
        (Stopped.result ⟨progress, .exhausted⟩).mapError (.behind offset) := by
      unfold Stopped.result
      dsimp only
      split <;> rfl
    exact congrArg (Scanned.mk progress.targets.all) hresult

/-- The joined place behind nothing is the second place. -/
theorem Noted.joined_start {marks : List Mark} {progress : Progress} (hn : Noted marks progress) :
    (Progress.start [] []).joined marks progress [] = progress := by
  have hused := hn.recount_eq
  obtain ⟨input, read, ⟨used, pending⟩, assigned, conversions⟩ := progress
  dsimp only at hused
  unfold Progress.joined Progress.start Cursor.start
  dsimp only
  rw [hused, Nat.zero_add, Nat.zero_add, Nat.zero_add, List.nil_append, List.append_nil]

/-- Where a format counts as longer than it is, only the place of an open scan set tells. -/
theorem scanned_of_longer (input format : Bytes) (targets : List ScanTarget) (offset : Nat) :
    (run (offset + format.length) format (.start input targets)).scanned =
      (scan input format targets).behind offset := by
  -- the run counted for the shorter format, joined behind marks that it leaves as they are
  have hcourse := course_run format.length format (.start input targets)
  have hnoted := Noted.start input targets
  have hlonger := hcourse.joined (Nat.le_refl _) hnoted (.start [] []) offset
  rw [hnoted.joined_start, List.nil_append,
    (noted_run input format targets).joined_start] at hlonger
  rw [hlonger]
  exact Stopped.scanned_shift _ _ offset

/-- Two formats that go on behind one front, the one in some more bytes than the other: where
the ways they go on cannot be told apart, only the place of an open scan set tells. -/
theorem Whole.scan_longer {front : Bytes} (hw : Whole front) {longer shorter : Bytes}
    {offset : Nat} (hlength : longer.length = offset + shorter.length)
    (h : ∀ total progress,
      (run total longer progress).scanned = (run total shorter progress).scanned)
    (input : Bytes) (targets : List ScanTarget) :
    scan input (front ++ longer) targets =
      (scan input (front ++ shorter) targets).behind offset := by
  have htotal : (front ++ longer).length = offset + (front ++ shorter).length := by
    rw [List.length_append, List.length_append, hlength]
    omega
  rw [scan_eq, hw.scanned_append (h _), htotal]
  exact scanned_of_longer input (front ++ shorter) targets offset

/-- Blanks of a format say no more than that blanks may stand there. Behind a front that does
not end inside a directive, a run of blanks of any kind may be written as a single space: the
scan leaves the same in all targets and reports the same. In front of a directive that takes
a number or a word, whatever its modifiers, the space may be left out as well. Only the
offset of an open scan set counts the bytes that the format has more. -/
theorem scan_blanks {front : Bytes} (hw : Whole front) {blanks : Bytes} (hne : blanks ≠ [])
    (hb : ∀ c ∈ blanks, Byte.isSpace c = true) (input rest : Bytes) (targets : List ScanTarget) :
    let spaced := scan input (front ++ 0x20 :: rest) targets
    scan input (front ++ (blanks ++ rest)) targets = spaced.behind (blanks.length - 1) ∧
      ∀ (modifiers after : Bytes) (letter : UInt8), (∀ c ∈ modifiers, isModifier c = true) →
        letter ∈ skippingLetters → rest = 0x25 :: (modifiers ++ letter :: after) →
        spaced = (scan input (front ++ rest) targets).behind 1 := by
  intro spaced
  constructor
  · have hlength : (blanks ++ rest).length = blanks.length - 1 + (0x20 :: rest).length := by
      have hpos := List.length_pos_iff.mpr hne
      rw [List.length_append, List.length_cons]
      omega
    refine hw.scan_longer hlength (fun total progress => ?_) input targets
    rw [run_blanks hne hb, run_blank (by decide)]
  · intro modifiers after letter hm hl hrest
    obtain ⟨directive, hr, hskips⟩ := Directive.exists_read_skipping hm hl after
    have hlength : (0x20 :: rest).length = 1 + rest.length := by
      rw [List.length_cons, Nat.add_comm]
    refine hw.scan_longer hlength (fun total progress => ?_) input targets
    rw [hrest]
    exact scanned_blank_directive hr hskips total progress

/-- Behind `%c` a tab and a line feed are as good as a space, and none is needed in front of
`%*3hd`. The set that `%[a` leaves open is found a byte sooner each time. -/
theorem scan_blanks_tab :
    let front : Bytes := [0x25, 0x63]
    let blanks : Bytes := [0x09, 0x0A]
    let rest : Bytes := [0x25, 0x2A, 0x33, 0x68, 0x64, 0x25, 0x5B, 0x61]
    let scanned (format : Bytes) : Scanned :=
      scan [0x78, 0x20, 0x31, 0x32, 0x61] format [.buffer [0], .int 7]
    (Whole front ∧ blanks ≠ [] ∧ ∀ c ∈ blanks, Byte.isSpace c = true) ∧
      scanned (front ++ (blanks ++ rest)) =
        ⟨[.buffer [0x78], .int 7], .error (.unterminatedScanSet 12)⟩ ∧
      scanned (front ++ 0x20 :: rest) =
        ⟨[.buffer [0x78], .int 7], .error (.unterminatedScanSet 11)⟩ ∧
      scanned (front ++ rest) =
        ⟨[.buffer [0x78], .int 7], .error (.unterminatedScanSet 10)⟩ := by
  intro front blanks rest scanned
  have hread : Directive.read [0x63] = .read { conversion := .chars } [] := rfl
  have hw : Whole front := .directive hread .nil
  have hb : ∀ c ∈ blanks, Byte.isSpace c = true := by decide +kernel
  have hplain : scanned (front ++ rest) =
      ⟨[.buffer [0x78], .int 7], .error (.unterminatedScanSet 10)⟩ := by
    with_unfolding_all rfl
  obtain ⟨hblanks, hspace⟩ := scan_blanks hw (List.cons_ne_nil _ _) hb
    [0x78, 0x20, 0x31, 0x32, 0x61] rest [.buffer [0], .int 7]
  have hmodifiers : ∀ c ∈ ([0x2A, 0x33, 0x68] : Bytes), isModifier c = true := by decide +kernel
  have hspaced := hspace [0x2A, 0x33, 0x68] [0x25, 0x5B, 0x61] 0x64 hmodifiers (by decide) rfl
  refine ⟨⟨hw, List.cons_ne_nil _ _, hb⟩, hblanks.trans ?_, hspaced.trans ?_, hplain⟩
  · rw [hspaced]
    exact congrArg (fun left => (left.behind 1).behind 1) hplain
  · exact congrArg (Scanned.behind · 1) hplain

end Scan

end FormatScan
