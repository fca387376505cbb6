import FormatScan.Proofs.Format.Composition
import FormatScan.Proofs.Format.Failure
import FormatScan.Proofs.Scan.Frame

/-!
# Operands and targets in order

Either engine takes the elements of its list strictly from the front, and an error names
the first element that was not taken before it, or the place behind the list. So elements
behind those that a call has come to are inert: the call does the same without them, and
leaves them alone. Only a call that runs out of elements comes to the end of its list, and
with more of them it fails, if at all, behind that end.

For the formatter this is a property of each single operation that sequences of operations
inherit. For the scanner it is read off the place where a scan stops.
-/

namespace FormatScan

namespace Format

/-- What is held with some more operands behind those that are pending. -/
def Held.extend (held : Held) (others : List FormatArg) : Held :=
  { held with operands := ⟨held.operands.used, held.operands.pending ++ others⟩ }

/-- Nothing more is what is held already. -/
theorem Held.extend_nil (held : Held) : held.extend [] = held := by
  unfold Held.extend
  rw [List.append_nil]

/-- A step ends at or behind a place in the list of operands: all operands in front of it
are taken, or it fails at none of them. -/
def Beyond {α : Type} (place : Nat) : EStateM.Result FormatError Held α → Prop
  | .ok _ after => place ≤ after.operands.used.length
  | .error error _ => ∀ index, error.argument? = some index → place ≤ index

/-- How a step ends that takes its operands in order. -/
inductive Ends {α : Type} (step : Step α) (held : Held) : Prop where
  /-- It succeeds, and operands behind are inert. -/
  | succeeds (result : α) (after : Held)
      (hused : held.operands.used.length ≤ after.operands.used.length)
      (hstep : ∀ others, step (held.extend others) = .ok result (after.extend others))
  /-- It comes to an operand that does not fit, and those behind are inert. -/
  | refuses (error : FormatError) (after : Held)
      (hplace : ∀ index, error.argument? = some index → held.operands.used.length ≤ index)
      (hkind : ∀ index, error ≠ .missingArgument index)
      (hstep : ∀ others, step (held.extend others) = .error error (after.extend others))
  /-- It takes all operands and then misses one. With others behind it ends behind those. -/
  | runsOut (after : Held) (hused : held.operands.used.length ≤ after.operands.used.length)
      (hall : after.operands.pending = [])
      (hstep : step held = .error (.missingArgument after.operands.used.length) after)
      (hothers : ∀ others, Beyond after.operands.used.length (step (held.extend others)))

/-- A step that takes its operands in order. -/
def InOrder {α : Type} (step : Step α) : Prop := ∀ held, Ends step held

section Order

variable {α β : Type}

/-- What a step does with any operands behind it does without them. -/
theorem eq_of_extend {step : Step α} {held after : Held}
    {ending : Held → EStateM.Result FormatError Held α}
    (h : ∀ others, step (held.extend others) = ending (after.extend others)) :
    step held = ending after := by
  have halone := h []
  rwa [Held.extend_nil, Held.extend_nil] at halone

/-- A step that takes its operands in order starts at the first that was not taken before. -/
theorem Ends.beyond {step : Step α} {held : Held} (h : Ends step held) :
    Beyond held.operands.used.length (step held) := by
  cases h with
  | succeeds _ _ hused hstep =>
    rw [eq_of_extend hstep]
    exact hused
  | refuses _ _ hplace _ hstep =>
    rw [eq_of_extend hstep]
    exact hplace
  | runsOut _ hused _ hstep _ =>
    rw [hstep]
    intro index hindex
    exact hused.trans (Option.some.inj hindex).le

/-- A step that cannot fail, and does not look at the operands that are pending, takes its
operands in order. -/
theorem InOrder.of_ok {step : Step α} (result : α) (effect : Held → Held)
    (h : ∀ held, step held = .ok result (effect held))
    (hextend : ∀ held others, effect (held.extend others) = (effect held).extend others)
    (hused : ∀ held, held.operands.used.length ≤ (effect held).operands.used.length) :
    InOrder step := by
  intro held
  refine .succeeds result (effect held) (hused held) fun others => ?_
  rw [h, hextend]

/-- A step that yields a value takes nothing. -/
theorem InOrder.pure (result : α) : InOrder (pure result : Step α) :=
  .of_ok result id (fun _ => rfl) (fun _ _ => rfl) (fun _ => Nat.le_refl _)

/-- A step behind another ends behind where that one ends. -/
theorem Beyond.bind {place : Nat} {step : Step α} {more : α → Step β} {held : Held}
    (h : Beyond place (step held)) (hmore : ∀ result, InOrder (more result)) :
    Beyond place ((step >>= more) held) := by
  rw [bind_eq]
  cases hstep : step held with
  | error error after =>
    rw [hstep] at h
    exact h
  | ok result after =>
    rw [hstep] at h
    have hle : place ≤ after.operands.used.length := h
    have hlater := (hmore result after).beyond
    dsimp only
    cases hresult : more result after with
    | ok result' last =>
      rw [hresult] at hlater
      exact hle.trans hlater
    | error error last =>
      rw [hresult] at hlater
      exact fun index hindex => hle.trans (hlater index hindex)

/-- Two steps in a row take their operands in order. -/
theorem InOrder.bind {step : Step α} {more : α → Step β} (hstep : InOrder step)
    (hmore : ∀ result, InOrder (more result)) : InOrder (step >>= more) := by
  intro held
  cases hstep held with
  | refuses error after hplace hkind h =>
    refine .refuses error after hplace hkind fun others => ?_
    rw [bind_eq, h]
  | runsOut after hused hall h hothers =>
    refine .runsOut after hused hall ?_ fun others => (hothers others).bind hmore
    rw [bind_eq, h]
  | succeeds result after hused h =>
    cases hmore result after with
    | succeeds result' last hused' h' =>
      refine .succeeds result' last (hused.trans hused') fun others => ?_
      rw [bind_eq, h]
      exact h' others
    | refuses error last hplace hkind h' =>
      refine .refuses error last (fun index hindex => hused.trans (hplace index hindex)) hkind
        fun others => ?_
      rw [bind_eq, h]
      exact h' others
    | runsOut last hused' hall h' hothers =>
      refine .runsOut last (hused.trans hused') hall ?_ fun others => ?_
      · rw [bind_eq, eq_of_extend h]
        exact h'
      · rw [bind_eq, h]
        exact hothers others

/-- Taking an operand ends behind the operands that were taken before. -/
theorem fetch_beyond (expected : OperandKind) (use : FormatArg → Option β) (held : Held) :
    Beyond held.operands.used.length (fetch expected use held) := by
  rw [fetch_eq]
  cases held.operands.pending with
  | nil => exact fun index hindex => (Option.some.inj hindex).le
  | cons arg rest =>
    dsimp only
    cases use arg with
    | none => exact fun index hindex => (Option.some.inj hindex).le
    | some result =>
      dsimp only [Beyond]
      rw [List.length_append]
      exact Nat.le_add_right _ _

/-- An operand is taken in order. -/
theorem fetch_inOrder (expected : OperandKind) (use : FormatArg → Option β) :
    InOrder (fetch expected use) := by
  intro held
  obtain ⟨sink, ⟨used, pending⟩, produced⟩ := held
  cases pending with
  | nil => exact .runsOut _ (Nat.le_refl _) rfl rfl fun others => fetch_beyond expected use _
  | cons arg rest =>
    let after : Held := ⟨sink, ⟨used ++ [arg], rest⟩, produced⟩
    cases huse : use arg with
    | some result =>
      refine .succeeds result after ?_ fun others => ?_
      · rw [List.length_append]
        exact Nat.le_add_right _ _
      · rw [fetch_eq]
        dsimp only [Held.extend, List.cons_append]
        rw [huse]
    | none =>
      refine .refuses (.argumentMismatch used.length expected arg.kind) after
        (fun index hindex => (Option.some.inj hindex).le) nofun fun others => ?_
      rw [fetch_eq]
      dsimp only [Held.extend, List.cons_append]
      rw [huse]
      rfl

/-- Writing takes no operand. -/
theorem emit_inOrder (pieces : List Piece) : InOrder (emit pieces) :=
  .of_ok () (·.write pieces) (emit_eq pieces) (fun _ _ => rfl) (fun _ => Nat.le_refl _)

/-- A modifier takes its operand in order. -/
theorem Settings.adjust_inOrder (settings : Settings) (modifier : Modifier) :
    InOrder (settings.adjust modifier) := by
  cases modifier with
  | star => exact (fetch_inOrder _ _).bind fun bits => .pure _
  | left | alternate | plus | zero | dot | amount _ | length _ => exact .pure _

/-- Modifiers take their operands in order. -/
theorem Settings.adjustAll_inOrder (settings : Settings) (modifiers : List Modifier) :
    InOrder (settings.adjustAll modifiers) := by
  induction modifiers generalizing settings with
  | nil => exact .pure settings
  | cons modifier modifiers ih => exact (settings.adjust_inOrder modifier).bind ih

/-- An integer is taken in order. -/
theorem emitInteger_inOrder (settings : Settings) (base : Nat) (upper signed : Bool) :
    InOrder (emitInteger settings base upper signed) := by
  refine (fetch_inOrder _ _).bind fun bits => ?_
  cases signed with
  | true => exact emit_inOrder _
  | false => exact emit_inOrder _

/-- Storing a count takes no operand. -/
theorem store_inOrder (count : Nat → Int) :
    InOrder (do store (count (← get).produced)) := by
  refine .of_ok () (fun held => { held with
    operands := ⟨held.operands.used.dropLast ++ [.count (Int64.ofInt (count held.produced))],
      held.operands.pending⟩ }) (fun _ => rfl) (fun _ _ => rfl) fun held => ?_
  dsimp only
  rw [List.length_append, List.length_dropLast, List.length_singleton]
  omega

/-- A conversion takes its operand in order. -/
theorem Conversion.carryOut_inOrder (conversion : Conversion) (settings : Settings) :
    InOrder (conversion.carryOut settings) := by
  cases conversion with
  | percent => exact emit_inOrder _
  | char | pointer | text => exact (fetch_inOrder _ _).bind fun _ => emit_inOrder _
  | signed base => exact emitInteger_inOrder settings base false true
  | unsigned base upper => exact emitInteger_inOrder settings base upper false
  | decimal => exact emitInteger_inOrder settings 10 false settings.plus
  | count =>
    exact (fetch_inOrder _ _).bind fun _ =>
      store_inOrder fun produced => settings.length.forCount.signed (UInt64.ofNat produced)
  | invalid => exact .pure ()

/-- A directive takes its operands in order. -/
theorem Directive.carryOut_inOrder (directive : Directive) : InOrder directive.carryOut :=
  (Settings.adjustAll_inOrder {} directive.modifiers).bind directive.conversion.carryOut_inOrder

/-- A call takes its operands in order. -/
theorem carryOut_inOrder (format : Bytes) : InOrder (carryOut format) := by
  fun_induction carryOut format with
  | case1 => exact .pure ()
  | case2 => exact .pure ()
  | case3 c rest hz hp ih => exact (emit_inOrder _).bind fun _ => ih
  | case4 c rest hz hp read ih =>
    refine read.1.carryOut_inOrder.bind fun _ => ?_
    split
    · exact emit_inOrder _
    · exact ih

end Order

section Calls

variable {sink : Sink} {text : Bytes} {args : List FormatArg}

/-- What a call leaves with operands behind is what it leaves without them, and those. -/
theorem Held.conclude_extend (held : Held) (others : List FormatArg)
    (result : Except FormatError Nat) :
    (held.extend others).conclude result =
      { held.conclude result with args := (held.conclude result).args ++ others } := by
  dsimp only [Held.conclude, Held.extend, Cursor.all]
  rw [List.append_assoc]

/-- A call that does not run out of operands does the same with others behind, and leaves
those alone. -/
theorem printTo_extend (h : ∀ index, (printTo sink text args).result ≠
      .error (.missingArgument index)) (others : List FormatArg) :
    printTo sink text (args ++ others) =
      { printTo sink text args with args := (printTo sink text args).args ++ others } := by
  have hstart : Held.start sink (args ++ others) = (Held.start sink args).extend others := rfl
  have halone := printTo_eq_conclude sink text args
  have hjoined := printTo_eq_conclude sink text (args ++ others)
  rw [hstart] at hjoined
  cases carryOut_inOrder text (.start sink args) with
  | succeeds result after _ hstep =>
    rw [eq_of_extend hstep] at halone
    rw [hstep] at hjoined
    rw [halone, hjoined]
    exact after.conclude_extend others _
  | refuses error after _ _ hstep =>
    rw [eq_of_extend hstep] at halone
    rw [hstep] at hjoined
    rw [halone, hjoined]
    exact after.conclude_extend others _
  | runsOut after _ _ hstep _ =>
    rw [hstep] at halone
    exact absurd (congrArg Printed.result halone) (h _)

/-- A call that runs out of operands has taken them all, and names the place behind them.
With others behind it fails, if at all, behind that place. -/
theorem printTo_missing {index : Nat}
    (h : (printTo sink text args).result = .error (.missingArgument index)) :
    index = args.length ∧
      (∃ held, carryOut text (.start sink args) = .error (.missingArgument index) held ∧
        held.operands.pending = []) ∧
      ∀ others error place, (printTo sink text (args ++ others)).result = .error error →
        error.argument? = some place → args.length ≤ place := by
  have halone := printTo_eq_conclude sink text args
  cases carryOut_inOrder text (.start sink args) with
  | succeeds result after _ hstep =>
    rw [eq_of_extend hstep] at halone
    cases h.symm.trans (congrArg Printed.result halone)
  | refuses error after _ hkind hstep =>
    rw [eq_of_extend hstep] at halone
    exact absurd (Except.error.inj (h.symm.trans (congrArg Printed.result halone))).symm (hkind _)
  | runsOut after _ hall hstep hothers =>
    rw [hstep] at halone
    obtain rfl : index = after.operands.used.length :=
      FormatError.missingArgument.inj
        (Except.error.inj (h.symm.trans (congrArg Printed.result halone)))
    have hlength : after.operands.used.length = args.length := by
      have hargs : (format text args).operands.all = after.operands.all :=
        congrArg Printed.args halone
      have hused : after.operands.all = after.operands.used := by
        rw [Cursor.all, hall, List.append_nil]
      rw [← hused, ← hargs]
      exact length_all text args
    refine ⟨hlength, ⟨after, hstep, hall⟩, fun others error place herror hplace => ?_⟩
    have hbeyond : Beyond after.operands.used.length
      (carryOut text (.start sink (args ++ others))) := hothers others
    have hjoined := printTo_eq_conclude sink text (args ++ others)
    cases hcall : carryOut text (.start sink (args ++ others)) with
    | ok result last =>
      rw [hcall] at hjoined
      cases herror.symm.trans (congrArg Printed.result hjoined)
    | error error' last =>
      rw [hcall] at hjoined hbeyond
      obtain rfl : error = error' :=
        Except.error.inj (herror.symm.trans (congrArg Printed.result hjoined))
      rw [← hlength]
      exact hbeyond place hplace

end Calls

end Format

namespace Scan

/-- How a step of a scan fails that takes its targets in order; `fails` says of a place that
the step fails there. -/
inductive FailsInOrder (fails : Progress → Prop) (progress : Progress) : Halt → Prop where
  /-- All targets are taken, and it needs one more. -/
  | missing (hnil : progress.targets.pending = []) :
      FailsInOrder fails progress (.failed (.missingArgument progress.targets.used.length))
  /-- It fails for another reason, and targets behind are inert. -/
  | settled {halt : Halt} (hkind : ∀ index, halt ≠ .failed (.missingArgument index))
      (hothers : ∀ others, fails (progress.extend others)) : FailsInOrder fails progress halt

/-- Storing takes targets in order. -/
theorem Effect.carryOut_inOrder {effect : Effect} {progress : Progress} {halt : Halt}
    (h : effect.carryOut progress = .error halt) :
    FailsInOrder (effect.carryOut · = .error halt) progress halt := by
  cases hstore : effect.store with
  | none =>
    unfold Effect.carryOut at h
    rw [hstore] at h
    cases h
  | some stored =>
    obtain ⟨expected, use⟩ := stored
    unfold Effect.carryOut at h ⊢
    rw [hstore] at h ⊢
    rcases Progress.store_error h with ⟨hnil, rfl⟩ | ⟨target, rest, hcons, hnone, rfl⟩
    · exact .missing hnil
    · refine .settled nofun fun others => ?_
      dsimp only [Progress.extend, Progress.withPending, Progress.store, Cursor.take] at hcons ⊢
      rw [hcons]
      dsimp only [List.cons_append]
      rw [hnone]
      rfl

/-- A directive takes targets in order. -/
theorem Directive.perform_inOrder {directive : Directive} {progress : Progress} {halt : Halt}
    (h : directive.perform progress = .error halt) :
    FailsInOrder (directive.perform · = .error halt) progress halt := by
  have hplace : ∀ others, directive.effect (progress.extend others).input
      (progress.extend others).read = directive.effect progress.input progress.read :=
    fun _ => rfl
  rw [Directive.perform_eq] at h
  cases heffect : directive.effect progress.input progress.read with
  | error reason =>
    rw [heffect] at h
    cases h
    refine .settled (fun index hindex => ?_) fun others => ?_
    · rcases Directive.effect_error heffect with hreason | hreason <;> rw [hreason] at hindex <;>
        cases hindex
    · rw [Directive.perform_eq, hplace, heffect]
  | ok effect =>
    rw [heffect] at h
    cases Effect.carryOut_inOrder h with
    | missing hnil => exact .missing hnil
    | settled hkind hothers =>
      refine .settled hkind fun others => ?_
      rw [Directive.perform_eq, hplace, heffect]
      exact hothers others

/-- A scan takes targets in order up to where it stops. -/
theorem Stops.inOrder {total : Nat} {rest : Bytes} {progress : Progress} {halt : Halt}
    (h : Stops total rest progress halt) :
    FailsInOrder (Stops total rest · halt) progress halt := by
  cases h with
  | ended => exact .settled nofun fun _ => .ended
  | zero => exact .settled nofun fun _ => .zero
  | @unmatched c _ _ _ hz hs hp hm =>
    refine .settled (fun index hindex => ?_) fun others => ?_
    · rcases Progress.matchByte_error hm with hreason | hreason <;> rw [hreason] at hindex <;>
        cases hindex
    · have hmatch := progress.matchByte_of_input_eq (progress.extend others) rfl c
      rw [hm] at hmatch
      exact .unmatched hz hs hp hmatch
  | cut hr => exact .settled nofun fun _ => .cut hr
  | openSet hr => exact .settled nofun fun _ => .openSet hr
  | failed hr hf =>
    cases Directive.perform_inOrder hf with
    | missing hnil => exact .missing hnil
    | settled hkind hothers =>
      exact .settled hkind fun others => .failed hr (hothers others)

section Calls

variable {input format : Bytes} {targets : List ScanTarget}

/-- A scan with targets behind goes on from where it stops without them. -/
theorem run_extend (input format : Bytes) (targets : List ScanTarget) :
    let stopped := run format.length format (.start input targets)
    ∃ rest, Stops format.length rest stopped.progress stopped.halt ∧
      ∀ others, run format.length format (.start input (targets ++ others)) =
        run format.length rest (stopped.progress.extend others) := by
  intro stopped
  obtain ⟨rest, way, hstops⟩ :=
    (course_run format.length format (.start input targets)).exists_stops
  exact ⟨rest, hstops, fun others => (way.extend others).resume format.length⟩

/-- What a scan leaves with targets behind is what it leaves without them, and those. -/
theorem Stopped.scanned_extend (progress : Progress) (halt : Halt) (others : List ScanTarget) :
    Stopped.scanned ⟨progress.extend others, halt⟩ =
      { Stopped.scanned ⟨progress, halt⟩ with
        targets := (Stopped.scanned ⟨progress, halt⟩).targets ++ others } := by
  dsimp only [Stopped.scanned, Progress.extend, Progress.withPending, Cursor.all]
  rw [List.append_assoc]
  rfl

/-- A scan that does not run out of targets does the same with others behind, and leaves
those alone. -/
theorem scan_extend (h : ∀ index, (scan input format targets).result ≠
      .error (.missingArgument index)) (others : List ScanTarget) :
    scan input format (targets ++ others) =
      { scan input format targets with
        targets := (scan input format targets).targets ++ others } := by
  obtain ⟨rest, hstops, hothers⟩ := run_extend input format targets
  rw [scan_eq input format targets] at h ⊢
  rw [scan_eq input format (targets ++ others)]
  generalize run format.length format (.start input targets) = stopped at h hstops hothers
  obtain ⟨progress, halt⟩ := stopped
  dsimp only at hstops hothers
  cases hstops.inOrder with
  | missing hnil => exact absurd rfl (h _)
  | settled hkind hextend =>
    have hjoined := (hothers others).trans (hextend others).run_eq
    exact (congrArg Stopped.scanned hjoined).trans (Stopped.scanned_extend _ _ others)

/-- A scan that runs out of targets has taken them all, and names the place behind them.
With others behind it fails, if at all, behind that place. -/
theorem scan_missing {index : Nat}
    (h : (scan input format targets).result = .error (.missingArgument index)) :
    index = targets.length ∧
      (run format.length format (.start input targets)).progress.targets.pending = [] ∧
      ∀ others error place, (scan input format (targets ++ others)).result = .error error →
        error.argument? = some place → targets.length ≤ place := by
  have hhalt := Stopped.result_eq_error h
  have hall := (course_run format.length format (.start input targets)).length_targets
  obtain ⟨rest, hstops, hothers⟩ := run_extend input format targets
  change (run format.length format (.start input targets)).halt = _ at hhalt
  generalize run format.length format (.start input targets) = stopped at *
  obtain ⟨progress, halt⟩ := stopped
  dsimp only at hstops hothers
  cases hstops.inOrder with
  | settled hkind _ => exact absurd hhalt (hkind index)
  | missing hnil =>
    have hlength : progress.targets.used.length = targets.length := by
      dsimp only at hall
      rw [Cursor.all, hnil, List.append_nil] at hall
      exact hall
    cases hhalt
    refine ⟨hlength, hnil, fun others error place herror hplace => ?_⟩
    have hfailed := (congrArg Stopped.halt (hothers others)).symm.trans
      (Stopped.result_eq_error herror)
    have hcourse := course_run format.length rest (progress.extend others)
    rw [hcourse.failed_at hfailed hplace, ← hlength]
    exact hcourse.keeps_used.length_le

end Calls

end Scan

/-- Operands and targets are taken in order, and surplus ones are inert. A formatting call
into any sink, and a scan of any input, that does not run out of elements does the same
with others behind its list: it reports the same, writes the same, and leaves its own
elements as they were left and the others alone. One that does run out has taken all of
its elements, names the place behind them, and with others behind fails at none of
them. -/
theorem surplus_inert :
    (∀ (sink : Sink) (text : Bytes) (args others : List FormatArg),
      let alone := Format.printTo sink text args
      let joined := Format.printTo sink text (args ++ others)
      ((∀ index, alone.result ≠ .error (.missingArgument index)) →
        joined = { alone with args := alone.args ++ others }) ∧
      ∀ index, alone.result = .error (.missingArgument index) →
        index = args.length ∧
          (∃ held, Format.carryOut text (.start sink args) =
              .error (.missingArgument index) held ∧ held.operands.pending = []) ∧
          ∀ error place, joined.result = .error error → error.argument? = some place →
            args.length ≤ place) ∧
    ∀ (input format : Bytes) (targets others : List ScanTarget),
      let alone := Scan.scan input format targets
      let joined := Scan.scan input format (targets ++ others)
      ((∀ index, alone.result ≠ .error (.missingArgument index)) →
        joined = { alone with targets := alone.targets ++ others }) ∧
      ∀ index, alone.result = .error (.missingArgument index) →
        index = targets.length ∧
          (Scan.run format.length format (.start input targets)).progress.targets.pending = [] ∧
          ∀ error place, joined.result = .error error → error.argument? = some place →
            targets.length ≤ place := by
  constructor
  · intro sink text args others alone joined
    refine ⟨fun h => Format.printTo_extend h others, fun index h => ?_⟩
    obtain ⟨hindex, hheld, hothers⟩ := Format.printTo_missing h
    exact ⟨hindex, hheld, hothers others⟩
  · intro input format targets others alone joined
    refine ⟨fun h => Scan.scan_extend h others, fun index h => ?_⟩
    obtain ⟨hindex, hpending, hothers⟩ := Scan.scan_missing h
    exact ⟨hindex, hpending, hothers others⟩

/-- With one operand `%*d` takes its width and misses its number, so with a second one it
fails, if at all, behind the first. A count behind the target of `%u` is left alone. -/
theorem surplus_inert_star :
    (Format.printAll [0x25, 0x2A, 0x64] [.int 3]).result = .error (.missingArgument 1) ∧
      (∀ error place, (Format.printAll [0x25, 0x2A, 0x64] ([.int 3] ++ [.int 7])).result =
        .error error → error.argument? = some place → 1 ≤ place) ∧
      (Scan.scan [0x31] [0x25, 0x75] ([.uint 0] ++ [.count 5])).targets =
        [.uint 1, .count 5] := by
  have hmissing : (Format.printAll [0x25, 0x2A, 0x64] [.int 3]).result =
      .error (.missingArgument 1) := by with_unfolding_all rfl
  have hresult : (Scan.scan [0x31] [0x25, 0x75] [.uint 0]).result = .ok (.assigned 1) := by
    with_unfolding_all rfl
  have hleft : (Scan.scan [0x31] [0x25, 0x75] [.uint 0]).targets = [.uint 1] := by
    decide +kernel
  have hkind : ∀ index, (Scan.scan [0x31] [0x25, 0x75] [.uint 0]).result ≠
      .error (.missingArgument index) := by
    intro index h
    cases hresult.symm.trans h
  have hprint := (surplus_inert.1 (.growing #[]) [0x25, 0x2A, 0x64] [.int 3] [.int 7]).2 1 hmissing
  have hscan := (surplus_inert.2 [0x31] [0x25, 0x75] [.uint 0] [.count 5]).1 hkind
  refine ⟨hmissing, hprint.2.2, ?_⟩
  rw [hscan, hleft]
  rfl

end FormatScan
