import FormatScan.Proofs.Format.Stepwise
import FormatScan.Proofs.Format.Truncation

/-!
# Failing calls

A failing directive may have taken operands, for its stars and for its conversion, but
it has done nothing that shows. It takes all its operands before it writes or stores
anything, taking leaves the sink and the values of all operands as they are, and
writing and storing cannot fail. This order alone makes a directive atomic.

So a failing call leaves what the format in front of the failing directive leaves.
-/

namespace FormatScan.Format

/-- Nothing that shows has changed between two moments of a call. Operands may have
been taken, but all of them hold what they held. -/
structure Untouched (before after : Held) : Prop where
  /-- Nothing was written. -/
  sink_eq : after.sink = before.sink
  /-- Nothing was stored. -/
  all_eq : after.operands.all = before.operands.all
  /-- Nothing was counted. -/
  produced_eq : after.produced = before.produced

/-- A moment is untouched itself. -/
theorem Untouched.refl (held : Held) : Untouched held held := ⟨rfl, rfl, rfl⟩

/-- Untouched twice is untouched. -/
theorem Untouched.trans {first second third : Held} (h : Untouched first second)
    (h' : Untouched second third) : Untouched first third :=
  ⟨h'.sink_eq.trans h.sink_eq, h'.all_eq.trans h.all_eq, h'.produced_eq.trans h.produced_eq⟩

/-- A step that has changed nothing when it fails. -/
structure Atomic {α : Type} (step : Step α) : Prop where
  /-- Nothing is left behind by a failure. -/
  failed : ∀ {held error after}, step held = .error error after → Untouched held after

/-- A step that changes nothing, whether or not it fails. -/
structure Looks {α : Type} (step : Step α) : Prop extends Atomic step where
  /-- Nothing is left behind by a success. -/
  succeeded : ∀ {held result after}, step held = .ok result after → Untouched held after

section Order

variable {α β : Type}

/-- A step that cannot fail is atomic. -/
theorem Atomic.of_ok {step : Step α}
    (h : ∀ held, ∃ result after, step held = .ok result after) : Atomic step where
  failed {held error after} hfail := by
    obtain ⟨result, after', hok⟩ := h held
    rw [hok] at hfail
    cases hfail

/-- A step that yields a value does nothing at all. -/
theorem Looks.pure (result : α) : Looks (pure result : Step α) where
  failed h := by cases h
  succeeded h := by
    cases h
    exact .refl _

/-- A step that only fails does nothing else. -/
theorem Looks.throw (error : FormatError) : Looks (throw error : Step α) where
  failed h := by
    cases h
    exact .refl _
  succeeded h := by cases h

/-- Looking first does not keep a step from being atomic. -/
theorem Atomic.bind {step : Step α} {more : α → Step β} (hstep : Looks step)
    (hmore : ∀ result, Atomic (more result)) : Atomic (step >>= more) where
  failed {held error after} h := by
    rw [bind_eq] at h
    cases hlook : step held with
    | ok result between =>
      rw [hlook] at h
      exact (hstep.succeeded hlook).trans ((hmore result).failed h)
    | error error' between =>
      rw [hlook] at h
      cases h
      exact hstep.failed hlook

/-- Looking twice is looking. -/
theorem Looks.bind {step : Step α} {more : α → Step β} (hstep : Looks step)
    (hmore : ∀ result, Looks (more result)) : Looks (step >>= more) where
  toAtomic := Atomic.bind hstep fun result => (hmore result).toAtomic
  succeeded {held result after} h := by
    rw [bind_eq] at h
    cases hlook : step held with
    | ok result' between =>
      rw [hlook] at h
      exact (hstep.succeeded hlook).trans ((hmore result').succeeded h)
    | error error between =>
      rw [hlook] at h
      cases h

/-- Taking an operand changes none. -/
theorem next_looks : Looks next where
  failed {held error after} h := by
    obtain ⟨sink, ⟨used, pending⟩, produced⟩ := held
    cases pending with
    | nil =>
      cases h
      exact .refl _
    | cons arg rest => cases h
  succeeded {held result after} h := by
    obtain ⟨sink, ⟨used, pending⟩, produced⟩ := held
    cases pending with
    | nil => cases h
    | cons arg rest =>
      cases h
      exact ⟨rfl, (List.append_cons used arg rest).symm, rfl⟩

/-- Looking at an operand changes none, whether or not it is of use. -/
theorem fetch_looks (expected : OperandKind) (use : FormatArg → Option β) :
    Looks (fetch expected use) := by
  refine next_looks.bind fun taken => ?_
  dsimp only
  cases use taken.2 with
  | some result => exact .pure result
  | none => exact .throw _

/-- A modifier writes and stores nothing. -/
theorem Settings.adjust_looks (settings : Settings) (modifier : Modifier) :
    Looks (settings.adjust modifier) := by
  cases modifier with
  | star => exact (fetch_looks _ _).bind fun bits => .pure _
  | left | alternate | plus | zero | dot | amount _ | length _ => exact .pure _

/-- Modifiers write and store nothing. -/
theorem Settings.adjustAll_looks (settings : Settings) (modifiers : List Modifier) :
    Looks (settings.adjustAll modifiers) := by
  induction modifiers generalizing settings with
  | nil => exact .pure settings
  | cons modifier modifiers ih => exact (settings.adjust_looks modifier).bind ih

/-- Writing is atomic. -/
theorem emit_atomic (pieces : List Piece) : Atomic (emit pieces) :=
  .of_ok fun held => ⟨(), _, emit_eq pieces held⟩

/-- An integer is taken before it is written. -/
theorem emitInteger_atomic (settings : Settings) (base : Nat) (upper signed : Bool) :
    Atomic (emitInteger settings base upper signed) := by
  refine .bind (fetch_looks _ _) fun bits => ?_
  cases signed with
  | true => exact emit_atomic _
  | false => exact emit_atomic _

/-- A conversion takes its operand before it writes or stores anything. -/
theorem Conversion.carryOut_atomic (conversion : Conversion) (settings : Settings) :
    Atomic (conversion.carryOut settings) := by
  cases conversion with
  | percent => exact emit_atomic _
  | char | pointer | text => exact .bind (fetch_looks _ _) fun _ => emit_atomic _
  | signed base => exact emitInteger_atomic settings base false true
  | unsigned base upper => exact emitInteger_atomic settings base upper false
  | decimal => exact emitInteger_atomic settings 10 false settings.plus
  | count => exact .bind (fetch_looks _ _) fun _ => .of_ok fun held => ⟨(), _, rfl⟩
  | invalid => exact (Looks.pure ()).toAtomic

/-- A directive that fails has written nothing and stored nothing, however many
operands it had taken by then. -/
theorem Directive.carryOut_atomic (directive : Directive) : Atomic directive.carryOut :=
  .bind (Settings.adjustAll_looks {} directive.modifiers) directive.conversion.carryOut_atomic

end Order

/-- A call that fails does so in a directive. The format in front of it, taken alone,
succeeds with the same output and the same operands, and the directive fails where
that format ends. -/
theorem exists_failing_directive {format : Bytes} {progress : Progress} {error : FormatError}
    (h : (run format progress).result = .error error) :
    ∃ front rest length, format = front ++ 0x25 :: rest ∧
      run front progress =
        ⟨(run format progress).pieces, (run format progress).operands, .ok length⟩ ∧
      ∀ sink, ∃ after,
        (Directive.read false rest).1.carryOut
          (Progress.hold ⟨(run format progress).operands, length⟩
            (sink.writeAll (run format progress).pieces)) = .error error after ∧
        carryOut format (progress.hold sink) = .error error after := by
  -- The sink comes in last, so that where the call fails does not depend on it.
  fun_induction run format progress with
  | case1 => cases h
  | case2 => cases h
  | case3 progress c rest hz hp pieces ih =>
    obtain ⟨front, tail, length, hrest, hrun, hfail⟩ := ih h
    refine ⟨c :: front, tail, length, by rw [hrest, List.cons_append], ?_, fun sink => ?_⟩
    · rw [run_literal (by simpa using hz) (by simpa using hp), hrun]
      rfl
    · rw [carryOut_literal (by simpa using hz) (by simpa using hp)]
      exact hfail (sink.writeAll pieces)
  | case4 progress c rest hz hp read e hperform =>
    have hc : c = 0x25 := by simpa using hp
    cases h
    refine ⟨[], rest, progress.produced, by rw [hc]; rfl, run_nil progress, fun sink => ?_⟩
    obtain ⟨after, hstep⟩ := Directive.carryOut_of_error hperform sink
    refine ⟨after, hstep, ?_⟩
    rw [hc, carryOut_directive, hstep]
  | case5 => cases h
  | case6 progress c rest hz hp read pieces operands hperform hn ih =>
    obtain ⟨front, tail, length, hrest, hrun, hfail⟩ := ih h
    have hc : c = 0x25 := by simpa using hp
    have hn' : read.1.conversion ≠ .invalid := by simpa using hn
    obtain ⟨consumed, htext, hmore⟩ := Directive.exists_consumed hn'
    refine ⟨c :: (consumed ++ front), tail, length, ?_, ?_, fun sink => ?_⟩
    · rw [List.cons_append, List.append_assoc, ← hrest, ← htext]
    · rw [hc, run_directive (hmore front) hn' hperform, hrun]
      rfl
    · obtain ⟨after, hstep, hcall⟩ := hfail (sink.writeAll pieces)
      refine ⟨after, ?_, ?_⟩
      · dsimp only [Formatted.after, Sink.writeAll]
        rw [List.foldl_append]
        exact hstep
      · rw [hc, carryOut_directive, Directive.carryOut_of_ok hperform]
        dsimp only
        rw [if_neg hn']
        exact hcall

/-- What a call leaves behind with its result, once its sink is completed. -/
def Held.conclude (held : Held) (result : Except FormatError Nat) : Printed :=
  ⟨held.sink.finish, held.operands.all, result⟩

/-- Formatting into a sink by pieces comes to what formatting operation by operation
leaves, whether it succeeds or fails halfway. -/
theorem printTo_eq_conclude (sink : Sink) (text : Bytes) (args : List FormatArg) :
    printTo sink text args =
      match carryOut text (.start sink args) with
      | .ok _ held => held.conclude (.ok held.produced)
      | .error error held => held.conclude (.error error) := by
  unfold printTo
  dsimp only
  cases hresult : (format text args).result with
  | ok length =>
    have hcall : carryOut text (.start sink args) = _ := carryOut_of_ok hresult sink
    rw [hcall]
    rfl
  | error error =>
    obtain ⟨front, rest, length, -, -, hfail⟩ := exists_failing_directive hresult
    obtain ⟨after, hdirective, hcall⟩ := hfail sink
    have hcall' : carryOut text (.start sink args) = .error error after := hcall
    have hsame := (Directive.read false rest).1.carryOut_atomic.failed hdirective
    rw [hcall']
    dsimp only [Held.conclude]
    rw [hsame.sink_eq, hsame.all_eq]
    rfl

/-- A call that fails does so in one directive, and that directive leaves no trace.
The format in front of its percent sign, taken alone, succeeds with the same output in
any sink and the same operands, count slots included. Operation by operation, the call
gets to where that format ends, the directive fails there with the sink and the values
of all operands as they were, and this is what the call leaves. A buffer that has a
byte ends up with the front of that output that fits, a zero byte and its own bytes. -/
theorem printTo_failure_atomic {sink : Sink} {text : Bytes} {args : List FormatArg}
    {error : FormatError} (h : (printTo sink text args).result = .error error) :
    ∃ front rest length, text = front ++ 0x25 :: rest ∧
      (∀ sink, printTo sink front args = { printTo sink text args with result := .ok length }) ∧
      (∀ sink, ∃ reached after,
        carryOut front (.start sink args) = .ok () reached ∧
        (Directive.read false rest).1.carryOut reached = .error error after ∧
        Untouched reached after ∧
        carryOut text (.start sink args) = .error error after ∧
        printTo sink text args = after.conclude (.error error)) ∧
      ∀ buffer, buffer ≠ [] →
        let written := (printAll front args).sink.bytes
        let kept := min written.length (buffer.length - 1)
        (printBounded buffer text args).result = .error error ∧
          (printBounded buffer text args).sink.bytes =
            written.take kept ++ 0 :: buffer.drop (kept + 1) := by
  obtain ⟨front, rest, length, htext, hrun, hfail⟩ := exists_failing_directive h
  have hformat : format front args =
      ⟨(format text args).pieces, (format text args).operands, .ok length⟩ := hrun
  have hok : (format front args).result = .ok length := congrArg Formatted.result hformat
  refine ⟨front, rest, length, htext, fun sink => ?_, fun sink => ?_, fun buffer hbuffer => ?_⟩
  · dsimp only [printTo]
    rw [hformat]
  · have hreached : carryOut front (.start sink args) = _ := carryOut_of_ok hok sink
    obtain ⟨after, hdirective, hcall⟩ := hfail sink
    have hcall' : carryOut text (.start sink args) = .error error after := hcall
    have hprint := printTo_eq_conclude sink text args
    rw [hrun] at hreached
    rw [hcall'] at hprint
    exact ⟨_, after, hreached, hdirective,
      (Directive.read false rest).1.carryOut_atomic.failed hdirective, hcall', hprint⟩
  · have hwritten : (printAll front args).sink.bytes = Piece.stream (format text args).pieces := by
      rw [printAll_bytes, hformat]
    refine ⟨h, ?_⟩
    rw [hwritten, printBounded_bytes, if_neg hbuffer]

/-- In `a%n%*d` the last directive takes its width and then misses its number. The byte
and the count in front of it stay, and nothing of its own is left. -/
theorem printTo_failure_atomic_star :
    (printAll [0x61, 0x25, 0x6E, 0x25, 0x2A, 0x64] [.count 0, .int 5]).result =
        .error (.missingArgument 2) ∧
      ∃ front rest length, [0x61, 0x25, 0x6E, 0x25, 0x2A, 0x64] = front ++ 0x25 :: rest ∧
        (printAll front [.count 0, .int 5]).result = .ok length ∧
        (printAll front [.count 0, .int 5]).sink.bytes = [0x61] ∧
        (printAll front [.count 0, .int 5]).args = [.count 1, .int 5] ∧
        (printBounded [0xAA, 0xAA, 0xAA, 0xAA] [0x61, 0x25, 0x6E, 0x25, 0x2A, 0x64]
          [.count 0, .int 5]).sink.bytes = [0x61, 0x00, 0xAA, 0xAA] := by
  have hfailed : (printAll [0x61, 0x25, 0x6E, 0x25, 0x2A, 0x64] [.count 0, .int 5]).result =
      .error (.missingArgument 2) := by
    have herror : (match (printAll [0x61, 0x25, 0x6E, 0x25, 0x2A, 0x64]
          [.count 0, .int 5]).result with
        | .error error => some error
        | .ok _ => none) = some (.missingArgument 2) := by decide +kernel
    split at herror
    · rename_i hresult
      cases herror
      exact hresult
    · cases herror
  have hwritten : (printAll [0x61, 0x25, 0x6E, 0x25, 0x2A, 0x64]
      [.count 0, .int 5]).sink.bytes = [0x61] := by decide +kernel
  have hleft : (printAll [0x61, 0x25, 0x6E, 0x25, 0x2A, 0x64] [.count 0, .int 5]).args =
      [.count 1, .int 5] := by decide +kernel
  obtain ⟨front, rest, length, htext, hfront, -, hbuffer⟩ := printTo_failure_atomic hfailed
  have hall : printAll front [.count 0, .int 5] = _ := hfront (.growing #[])
  have hsame : (printAll front [.count 0, .int 5]).sink.bytes = [0x61] := by
    rw [hall]
    exact hwritten
  have hbounded := (hbuffer [0xAA, 0xAA, 0xAA, 0xAA] (by decide)).2
  rw [hsame] at hbounded
  refine ⟨hfailed, front, rest, length, htext, ?_, hsame, ?_, hbounded⟩
  · rw [hall]
  · rw [hall]
    exact hleft

end FormatScan.Format
