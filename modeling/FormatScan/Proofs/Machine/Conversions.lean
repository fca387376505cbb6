import FormatScan.Proofs.Machine.Field
import FormatScan.Proofs.Machine.Request
import FormatScan.Proofs.Scan.Walk

/-!
# Conversions by position

The input is walked by position, with a count of the bytes read beside it. Both stay
in step with what is left of the input, and every value is assigned to a target that
is there. So the counters stay in the range of their types, and a buffer is written
to no further than it goes.
-/

namespace FormatScan.Machine

open Scan

/-- What a scan has reached. -/
structure Scanner where
  /-- The position in the input. -/
  pos : Nat
  /-- The number of bytes read. -/
  read : Nat
  /-- The targets. -/
  targets : Targets
  /-- The number of values assigned. -/
  assigned : Nat
  /-- The number of conversions. -/
  conversions : Nat

/-- Skip blanks. -/
def skipSpace (input : Bytes) (scanner : Scanner) : Checked Scanner :=
  match input[scanner.pos]? with
  | some c =>
    if Byte.isSpace c then
      reach input (scanner.pos + 1) fun _ => do
        let read ← add scanner.read 1
        skipSpace input { scanner with pos := scanner.pos + 1, read := read }
    else .ok scanner
  | none => .ok scanner
termination_by input.length - scanner.pos

/-- Match one byte. -/
def literal (input : Bytes) (scanner : Scanner) (c : UInt8) : Checked (Except Halt Scanner) :=
  match input[scanner.pos]? with
  | none => .ok (.error .exhausted)
  | some head =>
    if head == c then
      reach input (scanner.pos + 1) fun _ => do
        let read ← add scanner.read 1
        return .ok { scanner with pos := scanner.pos + 1, read := read }
    else .ok (.error .mismatch)

/-- The position behind the bytes that a test accepts, at most a number of them from
the start. -/
def takeWhile (input : Bytes) (limit : Nat) (accept : UInt8 → Checked Bool) (start i : Nat) :
    Checked Nat := do
  let taken ← sub i start
  if taken < limit then
    match input[i]? with
    | none => return i
    | some c => do
      let accepted ← accept c
      if accepted then reach input (i + 1) fun _ => takeWhile input limit accept start (i + 1)
      else return i
  else return i
termination_by input.length - i

/-- Copy the front of a text over the front of a buffer. -/
def copyFront (buffer text : Bytes) (count : Nat) : Checked Bytes := do
  let front ← slice buffer 0 count
  let part ← slice text 0 count
  let copied ← copy front part
  return copied ++ buffer.drop count

/-- Put a text into a buffer, as much as fits. -/
def writeBytes (buffer text : Bytes) : Checked Bytes :=
  copyFront buffer text (min text.length buffer.length)

/-- Put a text and a zero byte into a buffer, as much as fits. An empty buffer is left
alone. -/
def writeText (buffer text : Bytes) : Checked Bytes :=
  match buffer.length with
  | 0 => .ok buffer
  | room + 1 => do
    let copied ← copyFront buffer text (min text.length room)
    store copied (min text.length room) 0

/-- Put a text into a buffer through a function of its old bytes. -/
def fillBuffer (write : Bytes → Checked Bytes) : ScanTarget → Checked (Option ScanTarget)
  | .buffer bytes => do
    let written ← write bytes
    return some (.buffer written)
  | _ => .ok none

/-- Store through the next target. -/
def storeNext (scanner : Scanner) (expected : OperandKind)
    (use : ScanTarget → Checked (Option ScanTarget)) : Checked (Except Halt Scanner) := do
  match ← takeNext scanner.targets expected ScanTarget.kind (fun target => do
      let after ← use target
      return after.map fun after => ((), after)) with
  | .error e => return .error (.failed e)
  | .ok taken => return .ok { scanner with targets := taken.2 }

/-- Store a value through the next target and count it, unless it is suppressed. -/
def assign (scanner : Scanner) (suppressed : Bool) (expected : OperandKind)
    (use : ScanTarget → Checked (Option ScanTarget)) : Checked (Except Halt Scanner) :=
  if suppressed then .ok (.ok scanner)
  else
    andThen (storeNext scanner expected use) fun scanner => do
      let assigned ← add scanner.assigned 1
      return .ok { scanner with assigned := assigned }

/-- Get ready for a conversion that takes input. -/
def approach (input : Bytes) (scanner : Scanner) (keepsBlanks : Bool) :
    Checked (Except Halt Scanner) := do
  let remaining ← sub input.length scanner.pos
  if remaining == 0 then return .error .exhausted
  else if keepsBlanks then return .ok scanner
  else do
    let scanner ← skipSpace input scanner
    let remaining ← sub input.length scanner.pos
    if remaining == 0 then return .error .exhausted
    else return .ok scanner

/-- Take the bytes that a test accepts and put them into a buffer. A conversion may need
at least one. -/
def takeBytes (input : Bytes) (directive : Directive) (scanner : Scanner) (limit : Nat)
    (accept : UInt8 → Checked Bool) (needed : Bool) (write : Bytes → Bytes → Checked Bytes) :
    Checked (Except Halt Scanner) := do
  let next ← takeWhile input limit accept scanner.pos scanner.pos
  let taken ← slice input scanner.pos next
  if needed && taken.isEmpty then return .error .mismatch
  else do
    let read ← add scanner.read taken.length
    assign { scanner with pos := next, read := read } directive.suppressed .byteBuffer
      (fillBuffer (write · taken))

/-- Take a number and store it. -/
def takeNumber (input : Bytes) (directive : Directive) (scanner : Scanner)
    (format : NumberFormat) : Checked (Except Halt Scanner) := do
  match ← takeField input format directive.width scanner.pos with
  | none => return .error .mismatch
  | some field => do
    let bits ← fieldBits format field.text field.base
    let read ← add scanner.read field.text.length
    let scanner := { scanner with pos := field.next, read := read }
    if format.pointer then
      assign scanner directive.suppressed .pointer fun target => .ok (intoPointer bits target)
    else
      assign scanner directive.suppressed .integer fun target =>
        .ok (intoInteger directive.length.forTarget bits target)

/-- The number of bytes to take under a width, 0 for as many as there are. -/
def spanLimit (width : Nat) : Nat := if width == 0 then Word.largest else width

/-- Carry out a conversion that takes input. Which bytes are in a set is told by a
table. -/
def takeInput (input : Bytes) (directive : Directive) (table : Table) (scanner : Scanner) :
    Conversion → Checked (Except Halt Scanner)
  | .chars =>
    takeBytes input directive scanner (if directive.width == 0 then 1 else directive.width)
      (fun _ => .ok true) false writeBytes
  | .set _ =>
    takeBytes input directive scanner (spanLimit directive.width) (accepts table) true writeText
  | .word =>
    takeBytes input directive scanner (spanLimit directive.width)
      (fun c => .ok (!Byte.isSpace c)) false writeText
  | .number format => takeNumber input directive scanner format
  | .percent | .count | .unknown => .ok (.ok scanner)

/-- Count the conversion that was carried out. -/
def counted (scanner : Scanner) : Checked (Except Halt Scanner) := do
  let conversions ← add scanner.conversions 1
  return .ok { scanner with conversions := conversions }

/-- Carry out a directive. -/
def perform (input : Bytes) (directive : Directive) (table : Table) (scanner : Scanner) :
    Checked (Except Halt Scanner) :=
  match directive.conversion with
  | .percent => literal input scanner 0x25
  | .count =>
    andThen (counted scanner) fun scanner =>
      if directive.suppressed then .ok (.ok scanner)
      else
        storeNext scanner .countSlot fun target =>
          .ok (intoCount (directive.counted scanner.read) target)
  | .unknown => approach input scanner false
  | conversion =>
    andThen (approach input scanner conversion.keepsBlanks) fun scanner =>
      andThen (takeInput input directive table scanner conversion) counted

/-- The scanner that has reached what a scan has. -/
def Scanner.of (progress : Progress) : Scanner :=
  ⟨progress.read, progress.read, progress.targets, progress.assigned, progress.conversions⟩

/-- What holds between two directives of a scan. -/
structure Stands (input : Bytes) (progress : Progress) : Prop where
  /-- What is left of the input stands behind the bytes read. -/
  place : At input progress.read progress.input
  /-- Every value was assigned to a target of its own. -/
  assigned_le : progress.assigned ≤ progress.targets.used.length
  /-- The targets are no more than memory allows. -/
  targets_fit : Fits progress.targets.all

namespace Stands

variable {input : Bytes} {progress : Progress}

/-- Moving on in the input keeps what holds of a scan. -/
theorem advance (h : Stands input progress) {count : Nat} (hcount : count ≤ progress.input.length) :
    Stands input (progress.advance count) :=
  ⟨h.place.skip hcount, h.assigned_le, h.targets_fit⟩

/-- What is left of the input stands at the position of the scanner. -/
theorem at_pos (h : Stands input progress) {rest : Bytes} (hinput : progress.input = rest) :
    At input (Scanner.of progress).pos rest := by
  subst hinput
  exact h.place

/-- The values assigned are counted by a word, and so is one more. -/
theorem assigned_lt (h : Stands input progress) : progress.assigned + 1 ≤ Word.largest := by
  have hle := h.assigned_le
  have hfits := h.targets_fit
  unfold Fits Cursor.all at hfits
  rw [List.length_append] at hfits
  unfold Word.largest
  omega

/-- Carrying out a directive keeps what holds of a scan, and counts at most one
conversion. -/
theorem perform (h : Stands input progress) {directive : Directive} {done : Progress}
    (hperform : directive.perform progress = .ok done) :
    Stands input done ∧ done.conversions ≤ progress.conversions + 1 := by
  obtain ⟨effect, heffect, hcarry⟩ := Directive.exists_effect hperform
  have hleads := effect.leads hcarry
  have hlength := Directive.effect_length_le heffect
  have hconversions := Directive.effect_conversions heffect
  have hassigned : effect.assigned ≤ if effect.store.isSome then 1 else 0 := by
    cases Directive.effects heffect with
    | taken =>
      unfold Taking.effect
      split <;> exact Nat.le_refl _
    | counted =>
      unfold Directive.countEffect
      split <;> exact Nat.zero_le _
    | passed => exact Nat.zero_le _
  have hle := h.assigned_le
  have hfits := h.targets_fit
  have hplace : At input done.read done.input := by
    rw [hleads.input_eq, hleads.read_eq]
    exact h.place.skip hlength
  refine ⟨?_, ?_⟩
  · rcases hleads.targets with ⟨hnone, htargets⟩ |
      ⟨expected, use, target, rest, after, hsome, hpending, huse, htargets⟩
    · rw [hnone] at hassigned
      refine ⟨hplace, ?_, by rwa [htargets]⟩
      rw [hleads.assigned_eq, htargets, Nat.le_zero.mp hassigned]
      exact hle
    · rw [hsome] at hassigned
      refine ⟨hplace, ?_, ?_⟩
      · have hone : effect.assigned ≤ 1 := hassigned
        rw [hleads.assigned_eq, htargets, List.length_append, List.length_singleton]
        omega
      · unfold Fits Cursor.all at *
        rw [htargets]
        rw [hpending] at hfits
        simp only [List.length_append, List.length_cons, List.length_nil] at hfits ⊢
        omega
  · rw [hleads.conversions_eq, hconversions]
    split <;> omega

end Stands

/-- Skipping blanks is skipping the first and then the others. -/
theorem skipBlanks_advance {progress : Progress} {c : UInt8} {rest : Bytes}
    (hinput : progress.input = c :: rest) (hc : Byte.isSpace c = true) :
    (progress.advance 1).skipBlanks = progress.skipBlanks := by
  have hcount : (rest.takeWhile Byte.isSpace).length + 1 =
      1 + (rest.takeWhile Byte.isSpace).length := Nat.add_comm _ _
  unfold Progress.skipBlanks Progress.advance
  dsimp only
  rw [hinput, List.drop_one, List.tail_cons, List.takeWhile_cons_of_pos hc, List.length_cons,
    List.drop_succ_cons, hcount, Nat.add_assoc]

section Moving

variable {input : Bytes} (hfits : Fits input)

include hfits

/-- Skipping blanks meets no fault. -/
theorem skipSpace_eq {progress : Progress} (h : Stands input progress) :
    skipSpace input (.of progress) = .ok (.of progress.skipBlanks) := by
  induction hinput : progress.input generalizing progress with
  | nil =>
    rw [skipSpace, (h.at_pos hinput).getElem?_eq, Progress.skipBlanks_eq_self (by rw [hinput]; rfl)]
    rfl
  | cons c rest ih =>
    have hplace := h.at_pos hinput
    rw [skipSpace, hplace.getElem?_eq]
    dsimp only [List.head?_cons]
    by_cases hblank : Byte.isSpace c = true
    · have hnext : Stands input (progress.advance 1) := by
        refine h.advance ?_
        rw [hinput]
        exact Nat.succ_le_succ (Nat.zero_le _)
      have hrest : (progress.advance 1).input = rest := by
        rw [Progress.advance, hinput]
        rfl
      have hword : (Scanner.of progress).read + 1 ≤ Word.largest := hplace.next.le_largest hfits
      have hmoved := ih hnext hrest
      rw [skipBlanks_advance hinput hblank] at hmoved
      rw [if_pos hblank, hplace.next.reach_eq hfits, add_eq hword, ok_bind]
      exact hmoved
    · have hnone : progress.input.takeWhile Byte.isSpace = [] := by
        rw [hinput, List.takeWhile_cons_of_neg hblank]
      rw [if_neg hblank, Progress.skipBlanks_eq_self hnone]

/-- Matching a byte meets no fault. -/
theorem literal_eq {progress : Progress} (h : Stands input progress) (c : UInt8) :
    literal input (.of progress) c = .ok ((progress.matchByte c).map .of) := by
  unfold Progress.matchByte
  cases hinput : progress.input with
  | nil =>
    rw [literal, (h.at_pos hinput).getElem?_eq]
    rfl
  | cons head rest =>
    have hplace := h.at_pos hinput
    have hword : (Scanner.of progress).read + 1 ≤ Word.largest := hplace.next.le_largest hfits
    rw [literal, hplace.getElem?_eq]
    dsimp only [List.head?_cons]
    by_cases heq : (head == c) = true
    · rw [if_pos heq, if_pos heq, hplace.next.reach_eq hfits, add_eq hword, ok_bind]
      rfl
    · rw [if_neg heq, if_neg heq]
      rfl

/-- Taking the bytes that a test accepts meets no fault, when the test meets none. -/
theorem takeWhile_eq {rest : Bytes} {i : Nat} (h : At input i rest) {start : Nat}
    (hstart : start ≤ i) (limit : Nat) {accept : UInt8 → Checked Bool} {test : UInt8 → Bool}
    (haccept : ∀ c, accept c = .ok (test c)) :
    takeWhile input limit accept start i =
      .ok (i + ((rest.take (limit - (i - start))).takeWhile test).length) := by
  induction rest generalizing i with
  | nil =>
    rw [takeWhile, sub_eq hstart, ok_bind, h.getElem?_eq, List.take_nil]
    exact ite_self _
  | cons c rest ih =>
    rw [takeWhile, sub_eq hstart, ok_bind, h.getElem?_eq]
    dsimp only [List.head?_cons]
    by_cases hroom : i - start < limit
    · have hleft : limit - (i - start) = limit - (i + 1 - start) + 1 := by omega
      rw [if_pos hroom, haccept, ok_bind, hleft, List.take_succ_cons]
      by_cases hc : test c = true
      · rw [if_pos hc, h.next.reach_eq hfits, ih h.next (by omega), List.takeWhile_cons_of_pos hc,
          List.length_cons, Nat.add_assoc, Nat.add_comm 1]
      · rw [if_neg hc, List.takeWhile_cons_of_neg hc]
        rfl
    · have hnone : limit - (i - start) = 0 := by omega
      rw [if_neg hroom, hnone]
      rfl

/-- Getting ready for a conversion meets no fault. -/
theorem approach_eq {progress : Progress} (h : Stands input progress) (keepsBlanks : Bool) :
    approach input (.of progress) keepsBlanks = .ok ((progress.approach keepsBlanks).map .of) := by
  have hremaining : ∀ {progress : Progress}, Stands input progress →
      sub input.length (Scanner.of progress).pos = .ok progress.input.length := by
    intro progress h
    rw [h.place.length_eq]
    exact sub_eq h.place.le_length
  have hskipped : Stands input progress.skipBlanks :=
    h.advance (List.takeWhile_sublist Byte.isSpace).length_le
  have hempty : ∀ text : Bytes, (text.length == 0) = text.isEmpty := by
    intro text
    cases text <;> rfl
  unfold approach Progress.approach
  rw [hremaining h, ok_bind, hempty]
  by_cases hnone : progress.input.isEmpty = true
  · rw [if_pos hnone, if_pos hnone]
    rfl
  · rw [if_neg hnone, if_neg hnone]
    cases keepsBlanks with
    | true => rfl
    | false =>
      rw [if_neg Bool.false_ne_true, if_neg Bool.false_ne_true, skipSpace_eq hfits h, ok_bind,
        hremaining hskipped, ok_bind, hempty]
      dsimp only
      split <;> rfl

end Moving

section Storing

/-- Copying the front of a text meets no fault where both are long enough. -/
theorem copyFront_eq {buffer text : Bytes} {count : Nat} (hbuffer : count ≤ buffer.length)
    (htext : count ≤ text.length) :
    copyFront buffer text count = .ok (text.take count ++ buffer.drop count) := by
  have hlength : (text.take count).length = (buffer.take count).length := by
    rw [List.length_take, List.length_take, Nat.min_eq_left hbuffer, Nat.min_eq_left htext]
  rw [copyFront, slice_eq (Nat.zero_le count) hbuffer, ok_bind,
    slice_eq (Nat.zero_le count) htext, ok_bind, List.drop_zero, List.drop_zero, copy,
    require_of hlength, ok_bind]
  rfl

/-- Putting a text into a buffer meets no fault. -/
theorem writeBytes_eq (buffer text : Bytes) :
    writeBytes buffer text = .ok (overlay buffer text) := by
  have htake : text.take (min text.length buffer.length) = text.take buffer.length := by
    rw [Nat.min_comm, ← List.take_eq_take_min]
  rw [writeBytes, copyFront_eq (Nat.min_le_right _ _) (Nat.min_le_left _ _), overlay,
    List.length_take, Nat.min_comm buffer.length, htake]

/-- Putting a text and a zero byte into a buffer meets no fault. -/
theorem writeText_eq (buffer text : Bytes) :
    writeText buffer text = .ok (overlayText buffer text) := by
  unfold writeText overlayText overlay
  cases hlength : buffer.length with
  | zero => rfl
  | succ room =>
    have hcount : min text.length room < buffer.length := by omega
    have htake : text.take (min text.length room) = text.take room := by
      rw [Nat.min_comm, ← List.take_eq_take_min]
    have hfront : (text.take room).length = min text.length room := by
      rw [List.length_take, Nat.min_comm]
    have hkept : (text.take room ++ [0]).take (room + 1) = text.take room ++ [0] := by
      refine List.take_of_length_le ?_
      rw [List.length_append, hfront, List.length_singleton]
      omega
    have hcopied : min text.length room <
        (text.take room ++ buffer.drop (min text.length room)).length := by
      rw [List.length_append, hfront, List.length_drop]
      omega
    dsimp only
    rw [copyFront_eq (Nat.le_of_lt hcount) (Nat.min_le_left _ _), ok_bind, htake,
      store_eq hcopied, Nat.add_sub_cancel, hkept, List.length_append, hfront,
      List.length_singleton, List.drop_eq_getElem_cons hcount,
      List.set_append_right _ _ (Nat.le_of_eq hfront), hfront, Nat.sub_self, List.set_cons_zero,
      List.append_assoc, List.singleton_append]

variable {input : Bytes} {progress : Progress} (h : Stands input progress)

include h

/-- Storing through the next target meets no fault, when the way of storing meets none. -/
theorem storeNext_eq {use : ScanTarget → Checked (Option ScanTarget)}
    {stored : ScanTarget → Option ScanTarget} (huse : ∀ target, use target = .ok (stored target))
    (expected : OperandKind) :
    storeNext (.of progress) expected use = .ok ((progress.store expected stored).map .of) := by
  have htake : takeNext (Scanner.of progress).targets expected ScanTarget.kind (fun target => do
      let after ← use target
      return after.map fun after => ((), after)) = .ok (progress.targets.take expected
        ScanTarget.kind fun target => (stored target).map fun after => ((), after)) := by
    refine takeNext_eq h.targets_fit (fun target => ?_)
    rw [huse]
    rfl
  rw [storeNext, htake, ok_bind, Progress.store]
  cases progress.targets.take expected ScanTarget.kind fun target =>
    (stored target).map fun after => ((), after) <;> rfl

/-- Assigning a value meets no fault, when the way of storing it meets none. -/
theorem assign_eq {use : ScanTarget → Checked (Option ScanTarget)}
    {stored : ScanTarget → Option ScanTarget} (huse : ∀ target, use target = .ok (stored target))
    (suppressed : Bool) (expected : OperandKind) :
    assign (.of progress) suppressed expected use =
      .ok ((progress.assign suppressed expected stored).map .of) := by
  unfold assign Progress.assign
  cases suppressed with
  | true => rfl
  | false =>
    rw [if_neg Bool.false_ne_true, if_neg Bool.false_ne_true, storeNext_eq h huse]
    cases hstore : progress.store expected stored with
    | error e => rfl
    | ok done =>
      obtain ⟨target, rest, after, -, -, rfl⟩ := Progress.store_ok hstore
      dsimp only [Except.map]
      rw [andThen_ok, add_eq (by exact h.assigned_lt), ok_bind]
      rfl

/-- Taking bytes into a buffer meets no fault. -/
theorem takeBytes_eq (hfits : Fits input) (directive : Directive) (limit : Nat)
    {accept : UInt8 → Checked Bool} {test : UInt8 → Bool} (haccept : ∀ c, accept c = .ok (test c))
    (needed : Bool) {write : Bytes → Bytes → Checked Bytes} {written : Bytes → Bytes → Bytes}
    (hwrite : ∀ buffer text, write buffer text = .ok (written buffer text)) {taken : Bytes}
    (htaken : (progress.input.take limit).takeWhile test = taken) :
    takeBytes input directive (.of progress) limit accept needed write =
      .ok (if needed && taken.isEmpty then .error .mismatch
        else ((progress.advance taken.length).assign directive.suppressed .byteBuffer
          (intoBuffer (written · taken))).map .of) := by
  have hfront : taken <+: progress.input := by
    rw [← htaken]
    exact (List.takeWhile_prefix test).trans (List.take_prefix limit progress.input)
  obtain ⟨rest, hinput⟩ := hfront
  have hcount : taken.length ≤ progress.input.length := by
    rw [← hinput, List.length_append]
    exact Nat.le_add_right _ _
  have hnext := h.advance hcount
  have htake : takeWhile input limit accept (Scanner.of progress).pos (Scanner.of progress).pos =
      .ok (progress.read + taken.length) := by
    have heq := takeWhile_eq hfits h.place (Nat.le_refl progress.read) limit haccept
    rw [Nat.sub_self, Nat.sub_zero, htaken] at heq
    exact heq
  have hslice : slice input (Scanner.of progress).pos (progress.read + taken.length) =
      .ok taken := by
    have hplace := hnext.place
    dsimp only [Progress.advance] at hplace
    rw [← hinput, List.drop_left] at hplace
    exact (h.at_pos hinput.symm).slice_front hplace
  have hword : (Scanner.of progress).read + taken.length ≤ Word.largest :=
    hnext.place.le_largest hfits
  have hbuffer : ∀ target, fillBuffer (write · taken) target =
      .ok (intoBuffer (written · taken) target) := by
    intro target
    cases target with
    | buffer bytes =>
      dsimp only [fillBuffer]
      rw [hwrite, ok_bind]
      rfl
    | _ => rfl
  rw [takeBytes, htake, ok_bind, hslice, ok_bind]
  by_cases hmiss : (needed && taken.isEmpty) = true
  · rw [if_pos hmiss, if_pos hmiss]
    rfl
  · rw [if_neg hmiss, if_neg hmiss, add_eq hword, ok_bind]
    exact assign_eq hnext hbuffer directive.suppressed .byteBuffer

/-- Taking a number meets no fault. -/
theorem takeNumber_eq (hfits : Fits input) (directive : Directive) {format : NumberFormat}
    (hbase : format.base ∈ fieldBases) :
    takeNumber input directive (.of progress) format =
      .ok (((Conversion.number format).perform directive progress).map .of) := by
  have htake := takeField_eq hfits h.place hbase directive.width
  unfold takeNumber Conversion.perform
  dsimp only [Scanner.of] at htake ⊢
  rw [htake, ok_bind]
  cases hfield : Field.take? format directive.width progress.input with
  | none => rfl
  | some field =>
    have hcount := (Field.front_of_take? hfield).length_le
    have hnext := h.advance hcount
    have hfield_fits : Fits field.text := by
      have hlength := h.place.length_eq
      unfold Fits at *
      omega
    have hword : progress.read + field.text.length ≤ Word.largest := hnext.place.le_largest hfits
    dsimp only [Option.map_some]
    rw [fieldBits_eq format hfield_fits, ok_bind, add_eq hword, ok_bind]
    by_cases hpointer : format.pointer = true
    · rw [if_pos hpointer, if_pos hpointer]
      exact assign_eq hnext (fun _ => rfl) directive.suppressed .pointer
    · rw [if_neg hpointer, if_neg hpointer]
      exact assign_eq hnext (fun _ => rfl) directive.suppressed .integer

/-- Carrying out a conversion that takes input meets no fault. -/
theorem takeInput_eq (hfits : Fits input) (directive : Directive) {table : Table}
    {conversion : Conversion}
    (haccepts : ∀ set, conversion = .set set → ∀ c, accepts table c = .ok (set.contains c))
    (hbase : ∀ format, conversion = .number format → format.base ∈ fieldBases) :
    takeInput input directive table (.of progress) (bare conversion) =
      .ok ((conversion.perform directive progress).map .of) := by
  have hspan : ∀ test, (progress.input.take (spanLimit directive.width)).takeWhile test =
      span directive.width test progress.input := by
    intro test
    unfold spanLimit span
    by_cases hwidth : (directive.width == 0) = true
    · have hlength : progress.input.length ≤ Word.largest := by
        have hle := h.place.length_eq
        unfold Fits at hfits
        unfold Word.largest
        omega
      rw [if_pos hwidth, if_pos hwidth, List.take_of_length_le hlength]
    · rw [if_neg hwidth, if_neg hwidth]
  cases conversion with
  | percent => rfl
  | count => rfl
  | unknown => rfl
  | number format => exact takeNumber_eq h hfits directive (hbase format rfl)
  | chars =>
    have htaken : (progress.input.take
        (if directive.width == 0 then 1 else directive.width)).takeWhile (fun _ => true) =
          progress.input.take (max directive.width 1) := by
      have hlimit : (if directive.width == 0 then 1 else directive.width) =
          max directive.width 1 := by
        split
        · simp_all
        · simp_all
          omega
      rw [hlimit]
      exact List.takeWhile_eq_self_iff.mpr (fun _ _ => rfl)
    exact takeBytes_eq h hfits directive _ (fun _ => rfl) false writeBytes_eq htaken
  | word => exact takeBytes_eq h hfits directive _ (fun _ => rfl) false writeText_eq (hspan _)
  | set set =>
    have htake := takeBytes_eq h hfits directive (spanLimit directive.width) (haccepts set rfl)
      true writeText_eq (hspan _)
    refine htake.trans ?_
    dsimp only [Conversion.perform]
    rw [Bool.true_and]
    split <;> rfl

end Storing

/-- Counting a conversion meets no fault. -/
theorem counted_eq {progress : Progress} (h : progress.conversions + 1 ≤ Word.largest) :
    counted (.of progress) = .ok (.ok (.of
      { progress with conversions := progress.conversions + 1 })) := by
  rw [counted, add_eq (by exact h), ok_bind]
  rfl

/-- Carrying out a directive that takes input meets no fault. -/
theorem perform_of_takes {input : Bytes} {progress : Progress} (h : Stands input progress)
    (hfits : Fits input) (hcount : progress.conversions + 1 ≤ Word.largest) {request : Request}
    {directive : Directive} (htells : request.Tells directive)
    (hbase : ∀ format, directive.conversion = .number format → format.base ∈ fieldBases)
    (htakes : directive.conversion.takes = true) :
    perform input request.directive request.table (.of progress) =
      .ok ((directive.perform progress).map .of) := by
  have hsteps : perform input request.directive request.table (.of progress) =
      andThen (approach input (.of progress) directive.conversion.keepsBlanks) fun scanner =>
        andThen (takeInput input directive request.table scanner (bare directive.conversion))
          counted := by
    rw [htells.directive_eq]
    unfold perform
    cases hconversion : directive.conversion with
    | percent | count | unknown =>
      rw [hconversion] at htakes
      cases htakes
    | _ => rfl
  have hmodel := Directive.perform_of_takes htakes progress
  have hkept : ∀ {done}, directive.perform progress = .ok done →
      done.conversions ≤ Word.largest := by
    intro done hdone
    exact Nat.le_trans (h.perform hdone).2 hcount
  rw [hsteps, approach_eq hfits h]
  rw [Progress.approach_eq] at hmodel ⊢
  cases hready : ready progress.input directive.conversion.keepsBlanks with
  | error halt =>
    rw [hready] at hmodel
    rw [hmodel]
    rfl
  | ok skipped =>
    have hnext := h.advance (ready_le hready)
    rw [hready] at hmodel
    dsimp only [Except.map] at hmodel ⊢
    rw [andThen_ok, takeInput_eq hnext hfits directive htells.accepts_eq hbase]
    cases hperform : directive.conversion.perform directive (progress.advance skipped) with
    | error halt =>
      rw [hperform] at hmodel
      rw [hmodel]
      rfl
    | ok done =>
      rw [hperform] at hmodel
      dsimp only [Except.map]
      rw [andThen_ok, counted_eq (hkept hmodel), hmodel]

/-- Carrying out a directive meets no fault. -/
theorem perform_eq {input : Bytes} {progress : Progress} (h : Stands input progress)
    (hfits : Fits input) (hcount : progress.conversions + 1 ≤ Word.largest) {request : Request}
    {directive : Directive} (htells : request.Tells directive)
    (hbase : ∀ format, directive.conversion = .number format → format.base ∈ fieldBases) :
    perform input request.directive request.table (.of progress) =
      .ok ((directive.perform progress).map .of) := by
  by_cases htakes : directive.conversion.takes = true
  · exact perform_of_takes h hfits hcount htells hbase htakes
  · rw [htells.directive_eq]
    unfold perform Directive.perform
    cases hconversion : directive.conversion with
    | percent => exact literal_eq hfits h 0x25
    | unknown => exact approach_eq hfits h false
    | count =>
      dsimp only [bare]
      rw [counted_eq hcount, andThen_ok]
      have hcounted : Stands input { progress with conversions := progress.conversions + 1 } :=
        ⟨h.place, h.assigned_le, h.targets_fit⟩
      by_cases hsuppressed : directive.suppressed = true
      · rw [if_pos hsuppressed, if_pos hsuppressed]
        rfl
      · rw [if_neg hsuppressed, if_neg hsuppressed]
        exact storeNext_eq hcounted (fun _ => rfl) .countSlot
    | _ =>
      rw [hconversion] at htakes
      exact absurd rfl htakes

end FormatScan.Machine
