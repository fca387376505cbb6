import FormatScan.Proofs.Format.Taking
import FormatScan.Proofs.Format.Truncation

/-!
# Directives that name no conversion

A directive may fail to name a conversion because its byte is unknown, or because the
format, or a zero byte in it, comes before that byte. Its stars take their operands all
the same. Then the rest of the format stands for itself, from its percent sign on, and
the percent signs behind it are bytes like any others: no operand is taken any more and
no count is stored.

Where a call comes to along its format is said here by its steps, apart from the function
that carries it out. A call that comes to some place does there what the format from
there on says, whatever operands lie behind those it has taken.
-/

namespace FormatScan.Format

/-- The way of a call along a format: a place in the format and what is reached there, and
a later place with what is reached then. -/
inductive Comes : Bytes → Progress → Bytes → Progress → Prop where
  /-- It has not started yet. -/
  | start {format : Bytes} {progress : Progress} : Comes format progress format progress
  /-- It writes a byte that stands for itself. -/
  | literal {c : UInt8} {rest later : Bytes} {progress reached : Progress} (hz : c ≠ 0)
      (hp : c ≠ 0x25) (way : Comes rest (progress.add [Piece.text [c]]) later reached) :
      Comes (c :: rest) progress later reached
  /-- It carries a named directive out. -/
  | directive {rest after later : Bytes} {progress reached : Progress} {directive : Directive}
      {pieces : List Piece} {operands : Operands}
      (hr : Directive.read false rest = (directive, after))
      (hn : directive.conversion ≠ .invalid)
      (hd : directive.perform progress = .ok (pieces, operands))
      (way : Comes after { progress.add pieces with operands := operands } later reached) :
      Comes (0x25 :: rest) progress later reached

/-- A call that comes to some place has written what the format in front of it writes and
taken some operands. There it goes on as the format from there on says, and neither what
follows in the format nor what lies behind the operands has shown until then. -/
theorem Comes.exists_front {format later : Bytes} {progress reached : Progress}
    (way : Comes format progress later reached) :
    ∃ front taken pieces, format = front ++ later ∧
      progress.operands.pending = taken ++ reached.operands.pending ∧
      reached.operands.used.length = progress.operands.used.length + taken.length ∧
      ∀ more others,
        run (front ++ more) ⟨⟨progress.operands.used, taken ++ others⟩, progress.produced⟩ =
          (run more ⟨⟨reached.operands.used, others⟩, reached.produced⟩).after pieces := by
  induction way with
  | start => exact ⟨[], [], [], rfl, rfl, rfl, fun _ _ => rfl⟩
  | @literal c rest later progress reached hz hp way ih =>
    obtain ⟨front, taken, pieces, hformat, hpending, hlength, hrun⟩ := ih
    refine ⟨c :: front, taken, [Piece.text [c]] ++ pieces, ?_, hpending, hlength,
      fun more others => ?_⟩
    · rw [hformat, List.cons_append]
    · have hrest := hrun more others
      dsimp only [Progress.add] at hrest
      rw [List.cons_append, run_literal hz hp]
      dsimp only [Progress.add]
      rw [hrest]
      simp only [Formatted.after, List.append_assoc]
  | @directive rest after later progress reached directive pieces operands hr hn hd way ih =>
    obtain ⟨front, taken, written, hformat, hpending, hlength, hrun⟩ := ih
    obtain ⟨⟨used, pending⟩, produced⟩ := progress
    have hnamed : (Directive.read false rest).1.conversion ≠ .invalid := by rwa [hr]
    obtain ⟨consumed, hrest, hmore⟩ := Directive.exists_consumed hnamed
    rw [hr] at hrest hmore
    cases directive.acts pending with
    | takes own behind pieces' hmarks hstep =>
      rw [hstep used behind produced] at hd
      cases hd
      dsimp only at hpending hlength hrun
      refine ⟨0x25 :: (consumed ++ front), own ++ taken, pieces ++ written, ?_, ?_, ?_,
        fun more others => ?_⟩
      · rw [hrest, hformat]
        simp
      · rw [hpending, List.append_assoc]
      · rw [hlength]
        simp only [List.length_append, length_leave, Nat.add_assoc]
      · have hread : Directive.read false (consumed ++ (front ++ more)) =
            (directive, front ++ more) := hmore (front ++ more)
        have hperform := hstep used (taken ++ others) produced
        have hbehind := hrun more others
        rw [List.cons_append, List.append_assoc, List.append_assoc,
          run_directive hread hn hperform]
        dsimp only [Progress.add] at hbehind ⊢
        rw [hbehind]
        simp only [Formatted.after, List.append_assoc]
    | fails _ error hstep =>
      rw [hstep used produced] at hd
      cases hd

/-- The bytes that name a conversion. -/
def conversionBytes : Bytes :=
  [0x25, 0x63, 0x64, 0x69, 0x79, 0x72, 0x75, 0x6F, 0x78, 0x58, 0x70, 0x73, 0x6E]

/-- Every other byte names none. -/
theorem Conversion.ofByte_of_not_mem {c : UInt8} (hc : c ∉ conversionBytes) :
    Conversion.ofByte c = .invalid := by
  have hall : ∀ n < 256, UInt8.ofNat n ∈ conversionBytes ∨
      Conversion.ofByte (UInt8.ofNat n) = .invalid := by decide +kernel
  have hbyte := hall c.toNat c.toNat_lt
  rw [UInt8.ofNat_toNat] at hbyte
  exact hbyte.resolve_left hc

/-- The text behind a percent sign has modifiers at its front and names no conversion
behind them. -/
inductive Unnamed (modifiers : Bytes) : Bytes → Prop where
  /-- The format ends behind the modifiers. -/
  | ended : Unnamed modifiers modifiers
  /-- A zero byte ends it there. -/
  | zero {more : Bytes} : Unnamed modifiers (modifiers ++ 0 :: more)
  /-- An unknown byte stands there. -/
  | unknown {c : UInt8} {more : Bytes} (hz : c ≠ 0) (hm : isModifier c = false)
      (hc : c ∉ conversionBytes) : Unnamed modifiers (modifiers ++ c :: more)

/-- A text that names no conversion is read as an invalid directive, with the modifiers at
its front. -/
theorem Unnamed.exists_read {modifiers rest : Bytes} (h : Unnamed modifiers rest)
    (hm : ∀ c ∈ modifiers, isModifier c = true) :
    ∃ read after, Directive.read false rest = (⟨read, .invalid⟩, after) ∧
      Writes modifiers read := by
  cases h with
  | ended =>
    have hstop : ∀ dotted, Directive.read dotted [] = (⟨[], .invalid⟩, []) := by
      intro dotted
      rw [Directive.read]
    obtain ⟨read, hread, hwrites⟩ :=
      Directive.exists_read_ahead hm (by simp) hstop false
    rw [List.append_nil] at hread
    exact ⟨read, [], hread, hwrites⟩
  | @zero more =>
    have hstop : ∀ dotted, Directive.read dotted (0 :: more) = (⟨[], .invalid⟩, 0 :: more) := by
      intro dotted
      rw [Directive.read, if_pos (by decide)]
    have hdigit : ∀ c ∈ (0 :: more).head?, Byte.isDigit c = false := by
      rintro c hc
      cases hc
      decide
    obtain ⟨read, hread, hwrites⟩ := Directive.exists_read_ahead hm hdigit hstop false
    exact ⟨read, 0 :: more, hread, hwrites⟩
  | @unknown c more hz hc hname =>
    obtain ⟨read, hread, hwrites⟩ := Directive.exists_read_modifiers hm hz hc false more
    rw [Conversion.ofByte_of_not_mem hname] at hread
    exact ⟨read, more, hread, hwrites⟩

/-- At a text that names no conversion, with an integer for each of its stars, the rest of
the format stands for itself and nothing else happens. -/
theorem run_unnamed {modifiers rest : Bytes} (h : Unnamed modifiers rest)
    (hm : ∀ c ∈ modifiers, isModifier c = true) {stars : List FormatArg}
    (hlength : stars.length = modifiers.count 0x2A)
    (hstars : ∀ star ∈ stars, star.bits?.isSome = true) (used others : List FormatArg)
    (produced : Nat) :
    run (0x25 :: rest) ⟨⟨used, stars ++ others⟩, produced⟩ =
      ⟨[Piece.text (untilZero (0x25 :: rest))], ⟨used ++ stars, others⟩,
        .ok (Piece.countFrom produced [Piece.text (untilZero (0x25 :: rest))])⟩ := by
  obtain ⟨read, after, hread, hwrites⟩ := h.exists_read hm
  obtain ⟨settled, happly, _, _⟩ :=
    Settings.exists_applyAll read {} (hlength.trans hwrites.stars.symm) hstars
  have hperform : (Directive.read false rest).1.perform ⟨⟨used, stars ++ others⟩, produced⟩ =
      .ok ([], ⟨used ++ stars, others⟩) := by
    rw [hread]
    unfold Directive.perform
    dsimp only
    rw [happly]
    rfl
  rw [run_invalid (by rw [hread]) hperform]
  rfl

/-- A format without a percent sign stands for itself up to its first zero byte. -/
theorem run_without_directives {text : Bytes} (h : 0x25 ∉ untilZero text) (progress : Progress) :
    Piece.stream (run text progress).pieces = untilZero text ∧
      (run text progress).operands = progress.operands ∧
      ∃ length, (run text progress).result = .ok length := by
  induction text generalizing progress with
  | nil =>
    rw [run_nil]
    exact ⟨rfl, rfl, _, rfl⟩
  | cons c rest ih =>
    by_cases hz : c = 0
    · subst hz
      rw [run_zero]
      exact ⟨rfl, rfl, _, rfl⟩
    · have hcons : untilZero (c :: rest) = c :: untilZero rest :=
        List.takeWhile_cons_of_pos (by simpa using hz)
      rw [hcons, List.mem_cons, not_or] at h
      obtain ⟨hstream, hoperands, hresult⟩ := ih h.2 (progress.add [Piece.text [c]])
      rw [run_literal hz (Ne.symm h.1), hcons]
      refine ⟨?_, hoperands, hresult⟩
      dsimp only [Formatted.after]
      rw [Piece.stream_append, hstream]
      rfl

/-- A call that comes to a text that names no conversion, with an integer for each of its
stars, formats the front by itself and echoes the rest. -/
theorem Comes.exists_echo {text rest modifiers : Bytes} {args stars others : List FormatArg}
    {reached : Progress} (way : Comes text ⟨.start args, 0⟩ (0x25 :: rest) reached)
    (hm : ∀ c ∈ modifiers, isModifier c = true) (hu : Unnamed modifiers rest)
    (hpending : reached.operands.pending = stars ++ others)
    (hlength : stars.length = modifiers.count 0x2A)
    (hstars : ∀ star ∈ stars, star.bits?.isSome = true) :
    ∃ front given pieces, text = front ++ 0x25 :: rest ∧ args = given ++ stars ++ others ∧
      reached.operands.used.length = given.length ∧
      format front args =
        ⟨pieces, ⟨reached.operands.used, stars ++ others⟩, .ok reached.produced⟩ ∧
      ∀ behind, format text (given ++ stars ++ behind) =
        ⟨pieces ++ [Piece.text (untilZero (0x25 :: rest))],
          ⟨reached.operands.used ++ stars, behind⟩,
          .ok (Piece.countFrom reached.produced [Piece.text (untilZero (0x25 :: rest))])⟩ := by
  obtain ⟨front, given, pieces, htext, hargs, hused, hrun⟩ := way.exists_front
  have hargs' : args = given ++ stars ++ others := by
    rw [List.append_assoc, ← hpending]
    exact hargs
  refine ⟨front, given, pieces, htext, hargs', hused.trans (Nat.zero_add _), ?_,
    fun behind => ?_⟩
  · have hfront := hrun [] (stars ++ others)
    rw [List.append_nil, run_nil, ← List.append_assoc, ← hargs', Formatted.after,
      List.append_nil] at hfront
    exact hfront
  · have hrest := hrun (0x25 :: rest) (stars ++ behind)
    rw [run_unnamed hu hm hlength hstars, ← htext, ← List.append_assoc] at hrest
    exact hrest

/-- A call that comes to a percent sign with no conversion behind it, and has an integer
for each star there, succeeds. Its output is that of the format in front of the percent
sign, taken alone, and then the format's own bytes from that sign on, up to the first zero
byte or the end, whatever percent signs are among them; every sink gets just this. The
length of it all is reported, held at the largest word. The operands are left as the front
leaves them, so no count is stored behind it, and any operands behind those of the stars
may be exchanged for others without a difference. In particular a format without percent
signs stands for itself. -/
theorem printTo_echo :
    (∀ {text rest modifiers : Bytes} {args stars others : List FormatArg} {reached : Progress},
      Comes text ⟨.start args, 0⟩ (0x25 :: rest) reached →
      (∀ c ∈ modifiers, isModifier c = true) → Unnamed modifiers rest →
      reached.operands.pending = stars ++ others → stars.length = modifiers.count 0x2A →
      (∀ star ∈ stars, star.bits?.isSome = true) →
      let place := text.length - (rest.length + 1)
      let front := text.take place
      let echo := untilZero (text.drop place)
      let full := printAll text args
      let taken := reached.operands.used.length + stars.length
      text.drop place = 0x25 :: rest ∧
        (printAll front args).result = .ok reached.produced ∧
        full.sink.bytes = (printAll front args).sink.bytes ++ echo ∧
        (∀ sink : Sink, (printTo sink text args).sink =
          ((sink.writeAll (format front args).pieces).write (.text echo)).finish) ∧
        full.result = .ok (min full.sink.bytes.length Word.largest) ∧
        full.args = (printAll front args).args ∧
        ∀ (others' : List FormatArg) (sink : Sink),
          printTo sink text (args.take taken ++ others') =
            { printTo sink text args with args := full.args.take taken ++ others' }) ∧
      ∀ {text : Bytes}, 0x25 ∉ untilZero text → ∀ args : List FormatArg,
        (printAll text args).sink.bytes = untilZero text ∧
          (printAll text args).result = .ok (min (untilZero text).length Word.largest) ∧
          (printAll text args).args = args := by
  constructor
  · intro text rest modifiers args stars others reached way hm hu hpending hlength hstars
      place front echo full taken
    obtain ⟨ahead, given, pieces, htext, hargs, hused, halone, hwhole⟩ :=
      way.exists_echo hm hu hpending hlength hstars
    have hplace : place = ahead.length := by
      dsimp only [place]
      rw [htext, List.length_append, List.length_cons]
      omega
    have hfront : front = ahead := by
      dsimp only [front]
      rw [hplace, htext, List.take_left]
    have hdrop : text.drop place = 0x25 :: rest := by
      rw [hplace, htext, List.drop_left]
    have hecho : echo = untilZero (0x25 :: rest) := congrArg untilZero hdrop
    rw [← hfront] at halone
    rw [← hecho] at hwhole
    have hfull := hwhole others
    rw [← hargs] at hfull
    have hbytes : full.sink.bytes = (printAll front args).sink.bytes ++ echo := by
      dsimp only [full]
      rw [printAll_bytes, printAll_bytes, hfull, halone, Piece.stream_append]
      simp [Piece.stream, Piece.bytes]
    have htaken : taken = (given ++ stars).length := by
      rw [List.length_append, ← hused]
    have hleft : full.args = reached.operands.used ++ stars ++ others := by
      have hall : full.args = (format text args).operands.all := rfl
      rw [hall, hfull]
      rfl
    have hkept : full.args.take taken = reached.operands.used ++ stars := by
      rw [hleft, htaken, List.length_append, ← hused, ← List.length_append, List.take_left]
    refine ⟨hdrop, ?_, hbytes, fun sink => ?_, ?_, ?_, fun others' sink => ?_⟩
    · exact congrArg Formatted.result halone
    · dsimp only [printTo]
      rw [hfull, halone, Sink.writeAll, List.foldl_append]
      rfl
    · have hok : full.result = .ok (Piece.countFrom reached.produced [Piece.text echo]) :=
        congrArg Formatted.result hfull
      rw [hok]
      congr 1
      have hcount := produced_of_run_ok hok
      rw [Piece.countFrom_eq (Nat.zero_le _), Nat.zero_add] at hcount
      rw [hcount]
      exact congrArg (fun bytes => min bytes.length Word.largest) (printAll_bytes text args).symm
    · have hall : (printAll front args).args = (format front args).operands.all := rfl
      rw [hleft, hall, halone, List.append_assoc]
      rfl
    · have htake : args.take taken = given ++ stars := by
        rw [hargs, htaken, List.take_left]
      dsimp only [printTo]
      rw [htake, hkept, hwhole, hfull]
      rfl
  · intro text hplain args
    obtain ⟨hstream, hoperands, length, hok⟩ := run_without_directives hplain ⟨.start args, 0⟩
    have hbytes : (printAll text args).sink.bytes = untilZero text := by
      rw [printAll_bytes]
      exact hstream
    refine ⟨hbytes, ?_, congrArg Cursor.all hoperands⟩
    have hcount := produced_of_run_ok hok
    rw [hstream.symm, ← Nat.zero_add (Piece.stream _).length]
    rw [Piece.countFrom_eq (Nat.zero_le _)] at hcount
    rw [← hcount]
    exact hok

/-- In `a%c%-*Q%n` the second directive has a star and an unknown byte. It takes its width
and is written out, and so is the count directive behind it, whose slot stays as it is. -/
theorem printTo_echo_unknown :
    (printAll [0x61, 0x25, 0x63, 0x25, 0x2D, 0x2A, 0x51, 0x25, 0x6E, 0, 0x78]
        [.char 0x62, .int 3, .count 5]).sink.bytes =
        [0x61, 0x62] ++ [0x25, 0x2D, 0x2A, 0x51, 0x25, 0x6E] ∧
      (printAll [0x61, 0x25, 0x63, 0x25, 0x2D, 0x2A, 0x51, 0x25, 0x6E, 0, 0x78]
        [.char 0x62, .int 3, .count 5]).result = .ok 8 ∧
      (printAll [0x61, 0x25, 0x63, 0x25, 0x2D, 0x2A, 0x51, 0x25, 0x6E, 0, 0x78]
        [.char 0x62, .int 3, .count 5]).args = [.char 0x62, .int 3, .count 5] ∧
      (printAll [0x61, 0x62, 0, 0x25] [.count 5]).sink.bytes = [0x61, 0x62] := by
  have hread : Directive.read false [0x63, 0x25, 0x2D, 0x2A, 0x51, 0x25, 0x6E, 0, 0x78] =
      (⟨[], .char⟩, [0x25, 0x2D, 0x2A, 0x51, 0x25, 0x6E, 0, 0x78]) := by
    with_unfolding_all rfl
  have hperform : Directive.perform ⟨[], .char⟩ ⟨⟨[], [.char 0x62, .int 3, .count 5]⟩, 1⟩ =
      .ok ([.text [0x62]], ⟨[.char 0x62], [.int 3, .count 5]⟩) := rfl
  have way : Comes [0x61, 0x25, 0x63, 0x25, 0x2D, 0x2A, 0x51, 0x25, 0x6E, 0, 0x78]
      ⟨.start [.char 0x62, .int 3, .count 5], 0⟩ [0x25, 0x2D, 0x2A, 0x51, 0x25, 0x6E, 0, 0x78]
      ⟨⟨[.char 0x62], [.int 3, .count 5]⟩, 2⟩ :=
    .literal (by decide) (by decide) (.directive hread (by decide) hperform .start)
  have hunnamed : Unnamed [0x2D, 0x2A] [0x2D, 0x2A, 0x51, 0x25, 0x6E, 0, 0x78] :=
    .unknown (c := 0x51) (by decide) (by decide) (by decide)
  have hpending : Cursor.pending ⟨[.char 0x62], [.int 3, .count 5]⟩ =
      [FormatArg.int 3] ++ [.count 5] := rfl
  have hplain : (0x25 : UInt8) ∉ untilZero [0x61, 0x62, 0, 0x25] := by decide
  obtain ⟨_, _, hbytes, _, hresult, hargs, _⟩ :=
    printTo_echo.1 way (List.all_eq_true.mp (by decide)) hunnamed hpending (by decide) (by decide)
  have hfront : (printAll [0x61, 0x25, 0x63] [.char 0x62, .int 3, .count 5]).sink.bytes =
      [0x61, 0x62] := by decide +kernel
  have hleft : (printAll [0x61, 0x25, 0x63] [.char 0x62, .int 3, .count 5]).args =
      [.char 0x62, .int 3, .count 5] := by decide +kernel
  have hwritten := hbytes.trans (congrArg (· ++ _) hfront)
  refine ⟨hwritten, ?_, hargs.trans hleft, ?_⟩
  · rw [hresult, hwritten]
    rfl
  · exact (printTo_echo.2 hplain [.count 5]).1

end FormatScan.Format
