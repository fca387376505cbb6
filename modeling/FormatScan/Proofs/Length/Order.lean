import FormatScan.Proofs.Format.Taking
import FormatScan.Proofs.Length.Counting
import FormatScan.Proofs.Scan.Steps

/-!
# The order of modifiers

The modifiers of a directive that say something each by itself, flags and length
letters, may be written in any order. What they settle is a matter of how often each
stands there, and for the length letters that is their closed form by number. Digits,
dots and the formatter's stars are left out: an amount is a run of digits, a dot turns
later amounts into precisions, and a star takes an operand.

A directive that names no conversion is written out as it stands, so there the order
shows in the output, though in nothing else: the bytes are as many.
-/

namespace FormatScan

namespace Scan

/-- The modifiers that stand for themselves: a star and the length letters. -/
def flagBytes : Bytes := [0x2A, 0x68, 0x6C, 0x71, 0x6A, 0x74, 0x7A]

/-- Modifier bytes are read into the directive one by one. -/
theorem Directive.readFrom_modifiers {text : Bytes} (ht : ∀ c ∈ text, isModifier c = true)
    (start : Directive) (rest : Bytes) :
    Directive.readFrom start (text ++ rest) =
      Directive.readFrom (text.foldl Directive.adjust start) rest := by
  induction text generalizing start with
  | nil => rfl
  | cons c text ih =>
    rw [List.cons_append, Directive.readFrom_modifier (ht c List.mem_cons_self),
      ih (fun d hd => ht d (List.mem_cons_of_mem c hd)), List.foldl_cons]

/-- Reading modifiers adds their length letters up. -/
theorem Directive.length_foldl_adjust (text : Bytes) (start : Directive) :
    (text.foldl Directive.adjust start).length =
      (text.filterMap LengthLetter.ofByte?).foldl LengthFlags.addForTarget start.length := by
  induction text generalizing start with
  | nil => rfl
  | cons c text ih =>
    have hstep : (start.adjust c).length =
        (LengthLetter.ofByte? c).toList.foldl LengthFlags.addForTarget start.length := by
      unfold Directive.adjust
      by_cases hstar : c = 0x2A
      · subst hstar
        rfl
      · rw [if_neg (by simpa using hstar)]
        by_cases hdigit : Byte.isDigit c = true
        · rw [if_pos hdigit, (Format.class_of_isDigit hdigit).1]
          rfl
        · rw [if_neg hdigit]
          cases LengthLetter.ofByte? c <;> rfl
    rw [List.foldl_cons, ih, hstep, List.filterMap_cons]
    cases LengthLetter.ofByte? c <;> rfl

/-- The conversion behind the modifiers keeps their length letters. -/
theorem Directive.length_of_readFrom {c : UInt8} (hc : isModifier c = false)
    {start directive : Directive} {more after : Bytes}
    (h : Directive.readFrom start (c :: more) = .read directive after) :
    directive.length = start.length := by
  cases Directive.reads_iff.mp h with
  | modifier hc' _ =>
    rw [hc'] at hc
    cases hc
  | set _ => rfl
  | conversion _ _ _ => rfl

/-- A star or a length letter says one thing by itself. -/
theorem Directive.adjust_flag {c : UInt8} (hc : c ∈ flagBytes) :
    (∀ directive : Directive, directive.adjust c = { directive with suppressed := true }) ∨
      ∃ letter, ∀ directive : Directive, directive.adjust c =
        { directive with length := directive.length.addForTarget letter } := by
  simp only [flagBytes, List.mem_cons, List.not_mem_nil, or_false] at hc
  rcases hc with rfl | rfl | rfl | rfl | rfl | rfl | rfl
  · exact Or.inl fun _ => rfl
  · exact Or.inr ⟨.h, fun _ => rfl⟩
  · exact Or.inr ⟨.l, fun _ => rfl⟩
  · exact Or.inr ⟨.q, fun _ => rfl⟩
  · exact Or.inr ⟨.j, fun _ => rfl⟩
  · exact Or.inr ⟨.t, fun _ => rfl⟩
  · exact Or.inr ⟨.z, fun _ => rfl⟩

/-- Stars and length letters may be read in either order. -/
theorem Directive.adjust_swap {c d : UInt8} (hc : c ∈ flagBytes) (hd : d ∈ flagBytes)
    (directive : Directive) :
    (directive.adjust c).adjust d = (directive.adjust d).adjust c := by
  rcases Directive.adjust_flag hc with hc | ⟨letter, hc⟩ <;>
    rcases Directive.adjust_flag hd with hd | ⟨other, hd⟩ <;> simp only [hc, hd]
  rw [LengthFlags.addForTarget_eq, LengthFlags.addForTarget_eq, LengthFlags.add_swap,
    ← LengthFlags.addForTarget_eq, ← LengthFlags.addForTarget_eq]

/-- A directive is the same for every order of its stars and length letters. -/
theorem Directive.read_of_perm {first second : Bytes} (hp : first.Perm second)
    (hflags : ∀ c ∈ first, c ∈ flagBytes) (rest : Bytes) :
    Directive.read (first ++ rest) = Directive.read (second ++ rest) := by
  have hmodifier : ∀ c ∈ flagBytes, isModifier c = true := List.all_eq_true.mp (by decide)
  have hfirst : ∀ c ∈ first, isModifier c = true := fun c hc => hmodifier c (hflags c hc)
  have hsecond : ∀ c ∈ second, isModifier c = true := fun c hc => hfirst c (hp.mem_iff.mpr hc)
  have hfold : first.foldl Directive.adjust {} = second.foldl Directive.adjust {} :=
    hp.foldl_eq' (fun c hc d hd directive =>
      Directive.adjust_swap (hflags c hc) (hflags d hd) directive) {}
  unfold Directive.read
  rw [Directive.readFrom_modifiers hfirst, Directive.readFrom_modifiers hsecond, hfold]

/-- A scan is the same for every order of the stars and length letters of its first
directive. -/
theorem scan_of_perm {first second : Bytes} (hp : first.Perm second)
    (hflags : ∀ c ∈ first, c ∈ flagBytes) (input rest : Bytes) (targets : List ScanTarget) :
    scan input (0x25 :: (first ++ rest)) targets =
      scan input (0x25 :: (second ++ rest)) targets := by
  have hread := Directive.read_of_perm hp hflags rest
  have hlength : (0x25 :: (first ++ rest)).length = (0x25 :: (second ++ rest)).length := by
    simp [hp.length_eq]
  have hrun : ∀ progress, run (0x25 :: (second ++ rest)).length (0x25 :: (first ++ rest)) progress =
      run (0x25 :: (second ++ rest)).length (0x25 :: (second ++ rest)) progress := by
    intro progress
    cases hr : Directive.read (second ++ rest) with
    | cut => rw [run_cut hr, run_cut (hread.trans hr)]
    | openSet after => rw [run_openSet hr, run_openSet (hread.trans hr)]
    | read directive after => rw [run_directive hr, run_directive (hread.trans hr)]
  unfold scan
  rw [hlength, hrun]

end Scan

namespace Format

/-- The modifiers that stand for themselves: the four flags and the length letters. -/
def flagBytes : Bytes := [0x2D, 0x23, 0x2B, 0x30, 0x68, 0x6C, 0x71, 0x6A, 0x74, 0x7A]

/-- Whether a modifier says one thing by itself. -/
def Modifier.isFlag : Modifier → Bool
  | left | alternate | plus | zero | length _ => true
  | dot | star | amount _ => false

/-- What one more modifier makes of the settings, a star aside. -/
def Settings.note (settings : Settings) : Modifier → Settings
  | .left => { settings with left := true }
  | .alternate => { settings with alternate := true }
  | .plus => { settings with plus := true }
  | .zero => { settings with zero := true }
  | .dot => { settings with dotted := true }
  | .star => settings
  | .amount value => settings.setAmount value
  | .length letter => { settings with length := settings.length.add letter }

/-- Flags in front are noted, and the other modifiers carried out behind them. -/
theorem Settings.applyAll_flags {flags : List Modifier} (hf : ∀ m ∈ flags, m.isFlag = true)
    (settings : Settings) (operands : Operands) (rest : List Modifier) :
    settings.applyAll operands (flags ++ rest) =
      (flags.foldl Settings.note settings).applyAll operands rest := by
  induction flags generalizing settings with
  | nil => rfl
  | cons flag flags ih =>
    have hflag := hf flag List.mem_cons_self
    have happly : settings.apply operands flag = .ok (settings.note flag, operands) := by
      cases flag with
      | star => cases hflag
      | left | alternate | plus | zero | dot | amount _ | length _ => rfl
    rw [List.cons_append, Settings.applyAll, happly, List.foldl_cons]
    exact ih (fun m hm => hf m (List.mem_cons_of_mem flag hm)) (settings.note flag)

/-- Flags may be noted in either order. -/
theorem Settings.note_swap {first second : Modifier} (hf : first.isFlag = true)
    (hs : second.isFlag = true) (settings : Settings) :
    (settings.note first).note second = (settings.note second).note first := by
  cases first with
  | dot | star | amount _ => cases hf
  | left | alternate | plus | zero =>
    cases second with
    | dot | star | amount _ => cases hs
    | left | alternate | plus | zero | length _ => rfl
  | length letter =>
    cases second with
    | dot | star | amount _ => cases hs
    | left | alternate | plus | zero => rfl
    | length other =>
      dsimp only [Settings.note]
      rw [LengthFlags.add_swap]

/-- A directive does the same for every order of the flags in front of its other
modifiers. -/
theorem Directive.perform_of_perm {first second : List Modifier} (hp : first.Perm second)
    (hf : ∀ m ∈ first, m.isFlag = true) (rest : List Modifier) (conversion : Conversion)
    (progress : Progress) :
    Directive.perform ⟨first ++ rest, conversion⟩ progress =
      Directive.perform ⟨second ++ rest, conversion⟩ progress := by
  have hfold : first.foldl Settings.note {} = second.foldl Settings.note {} :=
    hp.foldl_eq' (fun m hm n hn settings => Settings.note_swap (hf m hm) (hf n hn) settings) {}
  unfold Directive.perform
  dsimp only
  rw [Settings.applyAll_flags hf, Settings.applyAll_flags fun m hm => hf m (hp.mem_iff.mpr hm),
    hfold]

/-- A flag byte stands for one modifier, and it starts no amount ahead of a dot. -/
theorem exists_flag {c : UInt8} (hc : c ∈ flagBytes) :
    c ≠ 0 ∧ ¬(Byte.isDigit c && (false || c != 0x30)) = true ∧
      ∃ flag, Modifier.ofByte? c = some flag ∧ flag.isFlag = true := by
  simp only [flagBytes, List.mem_cons, List.not_mem_nil, or_false] at hc
  rcases hc with rfl | rfl | rfl | rfl | rfl | rfl | rfl | rfl | rfl | rfl <;>
    exact ⟨by decide, by decide, _, rfl, rfl⟩

/-- Flag bytes are read one by one in front of the rest of a directive. -/
theorem Directive.read_flags {text : Bytes} (ht : ∀ c ∈ text, c ∈ flagBytes) (rest : Bytes) :
    Directive.read false (text ++ rest) =
      (⟨text.filterMap Modifier.ofByte? ++ (Directive.read false rest).1.modifiers,
        (Directive.read false rest).1.conversion⟩, (Directive.read false rest).2) := by
  induction text with
  | nil => rfl
  | cons c text ih =>
    obtain ⟨hz, hrun, flag, hflag, hkind⟩ := exists_flag (ht c List.mem_cons_self)
    have hdot : (false || flag == .dot) = false := by
      cases flag with
      | dot => cases hkind
      | left | alternate | plus | zero | star | amount _ | length _ => rfl
    rw [List.cons_append, Directive.read_modifier hz hrun hflag, hdot,
      ih fun d hd => ht d (List.mem_cons_of_mem c hd), List.filterMap_cons_some hflag]
    rfl

/-- Echoing a directive gives as many bytes for every order of its flags. -/
theorem length_echo_of_perm {first second : Bytes} (hp : first.Perm second)
    (hf : ∀ c ∈ first, c ∈ flagBytes) (rest : Bytes) :
    (untilZero (0x25 :: (first ++ rest))).length =
      (untilZero (0x25 :: (second ++ rest))).length := by
  have hwhole : ∀ text : Bytes, (∀ c ∈ text, c ∈ flagBytes) →
      untilZero (0x25 :: (text ++ rest)) = 0x25 :: (text ++ untilZero rest) := by
    intro text ht
    have hnonzero : ∀ c ∈ 0x25 :: text, (c != 0) = true := by
      intro c hc
      rcases List.mem_cons.mp hc with rfl | hc
      · decide
      · simpa using (exists_flag (ht c hc)).1
    exact List.takeWhile_append_of_pos hnonzero
  rw [hwhole first hf, hwhole second fun c hc => hf c (hp.mem_iff.mpr hc)]
  simp [hp.length_eq]

/-- Formatting reports and leaves the same for every order of the flags of its first
directive, and unless this is invalid it writes the same. -/
theorem run_of_perm {first second : Bytes} (hp : first.Perm second)
    (hf : ∀ c ∈ first, c ∈ flagBytes) (rest : Bytes) (progress : Progress) :
    let one := run (0x25 :: (first ++ rest)) progress
    let other := run (0x25 :: (second ++ rest)) progress
    one.result = other.result ∧ one.operands = other.operands ∧
      ((Directive.read false (first ++ rest)).1.conversion ≠ .invalid →
        one.pieces = other.pieces) := by
  intro one other
  have hflags : ∀ m ∈ first.filterMap Modifier.ofByte?, m.isFlag = true := by
    intro m hm
    obtain ⟨c, hc, hmodifier⟩ := List.mem_filterMap.mp hm
    obtain ⟨_, _, flag, hflag, hkind⟩ := exists_flag (hf c hc)
    rw [hflag] at hmodifier
    cases hmodifier
    exact hkind
  have hone := Directive.read_flags hf rest
  have hother := Directive.read_flags (fun c hc => hf c (hp.mem_iff.mpr hc)) rest
  have hsame := Directive.perform_of_perm (hp.filterMap _) hflags
    (Directive.read false rest).1.modifiers (Directive.read false rest).1.conversion progress
  generalize Directive.read false rest = read at hone hother hsame
  obtain ⟨⟨modifiers, conversion⟩, after⟩ := read
  dsimp only at hone hother hsame
  dsimp only [one, other]
  cases hperform : Directive.perform ⟨first.filterMap Modifier.ofByte? ++ modifiers, conversion⟩
      progress with
  | error error =>
    rw [run_failed (by rw [hone]; exact hperform),
      run_failed (by rw [hother]; exact hsame.symm.trans hperform)]
    exact ⟨rfl, rfl, fun _ => rfl⟩
  | ok done =>
    obtain ⟨pieces, operands⟩ := done
    by_cases hi : conversion = .invalid
    · rw [run_invalid (by rw [hone]; exact hi) (by rw [hone]; exact hperform),
        run_invalid (by rw [hother]; exact hi) (by rw [hother]; exact hsame.symm.trans hperform)]
      refine ⟨?_, rfl, fun hn => absurd (by rw [hone]; exact hi) hn⟩
      dsimp only [Progress.add, Piece.countFrom, List.foldl_cons, List.foldl_nil, Piece.length]
      rw [length_echo_of_perm hp hf rest]
    · rw [run_directive hone hi hperform, run_directive hother hi (hsame.symm.trans hperform)]
      exact ⟨rfl, rfl, fun _ => rfl⟩

end Format

/-- The order of modifiers that stand for themselves is nothing to what a directive does.
Flags and length letters of a formatter directive may be exchanged as they may be
repeated: the report and the operands, count slots included, stay the same, and so does
the output in every sink, unless the directive names no conversion and is written out as
it stands. Stars and length letters of a scanner directive may be exchanged without any
difference.

Behind any modifiers at all the length letters come to the flags of their numbers: an odd
number of `h`, two of them, an odd number of `l`, a `q` or two `l`, a `j`, a `t` and a
`z`. The formatter narrows an operand to the first width set in the order `j`, `q`, `t`,
`l`, `z`, `h`, `hh`, and a count to the first one of these without `t`. The scanner, which
takes `j`, `t` and `z` for `q`, narrows to the first one in the order `hh`, `h`, `l`,
`q`. -/
theorem modifiers_in_any_order :
    (∀ {first second : Bytes}, first.Perm second → (∀ c ∈ first, c ∈ Format.flagBytes) →
      ∀ (rest : Bytes) (args : List FormatArg) (sink : Sink),
        let one := Format.printTo sink (0x25 :: (first ++ rest)) args
        let other := Format.printTo sink (0x25 :: (second ++ rest)) args
        one.result = other.result ∧ one.args = other.args ∧
          ((Format.Directive.read false (first ++ rest)).1.conversion ≠ .invalid →
            one.sink = other.sink)) ∧
      (∀ {first second : Bytes}, first.Perm second → (∀ c ∈ first, c ∈ Scan.flagBytes) →
        ∀ (input rest : Bytes) (targets : List ScanTarget),
          Scan.scan input (0x25 :: (first ++ rest)) targets =
            Scan.scan input (0x25 :: (second ++ rest)) targets) ∧
      (∀ {text : Bytes}, (∀ c ∈ text, Format.isModifier c = true) → ∀ {c : UInt8}, c ≠ 0 →
        Format.isModifier c = false → ∀ more : Bytes,
          let directive := (Format.Directive.read false (text ++ c :: more)).1
          let flags := LengthFlags.ofCounts fun letter => text.count letter.byte
          (∀ stars pending : List FormatArg, stars.length = text.count 0x2A →
            (∀ star ∈ stars, star.bits?.isSome = true) →
            ∃ settings, Format.Settings.applyAll {} (.start (stars ++ pending))
                directive.modifiers = .ok (settings, ⟨stars, pending⟩) ∧
              settings.length = flags) ∧
          flags.forOperand = OperandWidth.firstSet
            [(flags.widest, .widest), (flags.longLong, .longLong),
              (flags.difference, .difference), (flags.long, .long), (flags.size, .size),
              (flags.short, .short), (flags.char, .char)] ∧
          flags.forCount = OperandWidth.firstSet
            [(flags.widest, .widest), (flags.longLong, .longLong), (flags.long, .long),
              (flags.size, .size), (flags.short, .short), (flags.char, .char)]) ∧
      ∀ {text : Bytes}, (∀ c ∈ text, Scan.isModifier c = true) → ∀ {c : UInt8},
        Scan.isModifier c = false → ∀ more : Bytes,
          let flags := LengthFlags.ofCounts
            (LengthFlags.foldedCount fun letter => text.count letter.byte)
          (∀ directive after, Scan.Directive.read (text ++ c :: more) = .read directive after →
            directive.length = flags) ∧
          (c ≠ 0 → c ≠ 0x5B → ∃ directive,
            Scan.Directive.read (text ++ c :: more) = .read directive more ∧
              directive.conversion = Scan.Conversion.ofByte c) ∧
          flags.forTarget = OperandWidth.firstSet
            [(flags.char, .char), (flags.short, .short), (flags.long, .long),
              (flags.longLong, .longLong)] := by
  refine ⟨?_, fun hp hflags => Scan.scan_of_perm hp hflags, ?_, ?_⟩
  · intro first second hp hflags rest args sink one other
    obtain ⟨hresult, hoperands, hpieces⟩ := Format.run_of_perm hp hflags rest ⟨.start args, 0⟩
    refine ⟨hresult, congrArg Cursor.all hoperands, fun hnamed => ?_⟩
    exact congrArg (fun pieces => (sink.writeAll pieces).finish) (hpieces hnamed)
  · intro text ht c hz hc more directive flags
    obtain ⟨modifiers, hread, hwrites⟩ :=
      Format.Directive.exists_read_modifiers ht hz hc false more
    have hmodifiers : directive.modifiers = modifiers :=
      congrArg (fun read => read.1.modifiers) hread
    refine ⟨fun stars pending hlength hstars => ?_, flags.forOperand_eq, flags.forCount_eq⟩
    obtain ⟨settings, happly, hletters, _⟩ :=
      Format.Settings.exists_applyAll modifiers {} (hlength.trans hwrites.stars.symm) hstars
    refine ⟨settings, by rw [hmodifiers]; exact happly [] pending, ?_⟩
    rw [hletters, hwrites.letters, LengthFlags.foldl_add]
    exact congrArg LengthFlags.ofCounts (funext fun letter => count_letters text letter)
  · intro text ht c hc more flags
    have hread := Scan.Directive.readFrom_modifiers ht {} (c :: more)
    refine ⟨fun directive after h => ?_, fun hz hset => ?_, flags.forTarget_eq⟩
    · rw [Scan.Directive.read, hread] at h
      rw [Scan.Directive.length_of_readFrom hc h, Scan.Directive.length_foldl_adjust,
        LengthFlags.foldl_addForTarget]
      exact congrArg (fun count => LengthFlags.ofCounts (LengthFlags.foldedCount count))
        (funext fun letter => count_letters text letter)
    · rw [Scan.Directive.read, hread, Scan.Directive.readFrom_conversion hc hz hset]
      exact ⟨_, rfl, rfl⟩

/-- The directives `%lh-hd` and `%hhl-d` write the same, and `%l*hd` and `%*hld` scan the
same. In `%h*hlhd` the letter `h` stands three times, so both of its flags are set, and
in `%h5zhhd` it makes the target a character. -/
theorem modifiers_in_any_order_thrice :
    (Format.printAll [0x25, 0x6C, 0x68, 0x2D, 0x68, 0x64] [.int 300]).sink =
        (Format.printAll [0x25, 0x68, 0x68, 0x6C, 0x2D, 0x64] [.int 300]).sink ∧
      Scan.scan [0x31, 0x32] [0x25, 0x6C, 0x2A, 0x68, 0x64] [.int 0] =
        Scan.scan [0x31, 0x32] [0x25, 0x2A, 0x68, 0x6C, 0x64] [.int 0] ∧
      (∃ settings, Format.Settings.applyAll {} (.start [.int 7])
          (Format.Directive.read false [0x68, 0x2A, 0x68, 0x6C, 0x68, 0x64]).1.modifiers =
            .ok (settings, ⟨[.int 7], []⟩) ∧
        settings.length = { short := true, char := true, long := true }) ∧
      ∃ directive, Scan.Directive.read [0x68, 0x35, 0x7A, 0x68, 0x68, 0x64] = .read directive [] ∧
        directive.length.forTarget = .char := by
  obtain ⟨hprint, hscan, hformatter, hscanner⟩ := modifiers_in_any_order
  have hnamed : (Format.Directive.read false [0x6C, 0x68, 0x2D, 0x68, 0x64]).1.conversion ≠
      .invalid := by
    have hread : Format.Directive.read false [0x6C, 0x68, 0x2D, 0x68, 0x64] =
        (⟨[.length .l, .length .h, .left, .length .h], .signed 10⟩, []) := by
      with_unfolding_all rfl
    rw [hread]
    decide
  have hwritten := @hprint [0x6C, 0x68, 0x2D, 0x68] [0x68, 0x68, 0x6C, 0x2D]
    (by decide) (by simp [Format.flagBytes]) [0x64] [.int 300] (.growing #[])
  have hscanned := @hscan [0x6C, 0x2A, 0x68] [0x2A, 0x68, 0x6C]
    (by decide) (by simp [Scan.flagBytes]) [0x31, 0x32] [0x64] [.int 0]
  have hthrice := @hformatter [0x68, 0x2A, 0x68, 0x6C, 0x68] (List.all_eq_true.mp (by decide)) 0x64
    (by decide) (by decide) []
  obtain ⟨settings, happly, hletters⟩ := hthrice.1 [.int 7] [] (by decide) (by decide)
  obtain ⟨hlength, hread, _⟩ := @hscanner [0x68, 0x35, 0x7A, 0x68, 0x68]
    (List.all_eq_true.mp (by decide)) 0x64 (by decide) []
  obtain ⟨directive, hdirective, _⟩ := hread (by decide) (by decide)
  refine ⟨hwritten.2.2 hnamed, hscanned, ⟨settings, happly, hletters.trans (by decide)⟩,
    directive, hdirective, ?_⟩
  rw [hlength directive [] hdirective]
  decide

end FormatScan
