import FormatScan.Scan.Number

/-!
# Scanning

A format is walked from the front against an input that ends at its first zero
byte. Blanks in the format skip blanks of the input, other bytes match
themselves, and a directive takes bytes and stores what they mean in the next
target. A scan stops where the format ends, where the input does not fit, where
the input is used up, or at a disagreement with the targets; what was stored
before stays.
-/

namespace FormatScan.Scan

/-- What a scan has reached between two directives. -/
structure Progress where
  /-- The input that is left. -/
  input : Bytes
  /-- The number of bytes read. -/
  read : Nat := 0
  /-- The targets. -/
  targets : Targets
  /-- The number of conversions that stored a value. -/
  assigned : Nat := 0
  /-- The number of conversions carried out, and of counts asked for. -/
  conversions : Nat := 0

/-- Why a scan stops. -/
inductive Halt where
  /-- The format was walked to its end. -/
  | finished
  /-- The input does not fit. -/
  | mismatch
  /-- The input is used up. -/
  | exhausted
  /-- The targets do not fit, or a scan set is open. -/
  | failed (error : FormatError)
deriving DecidableEq, Repr

/-- Copy a text to the front of a buffer. -/
def overlay (buffer text : Bytes) : Bytes :=
  let kept := text.take buffer.length
  kept ++ buffer.drop kept.length

/-- Store a text and a zero byte behind it, as much as fits. An empty buffer is
left alone. -/
def overlayText (buffer text : Bytes) : Bytes :=
  overlay buffer (text.take (buffer.length - 1) ++ [0])

namespace Progress

/-- Move on over some bytes of input. -/
def advance (progress : Progress) (count : Nat) : Progress :=
  { progress with input := progress.input.drop count, read := progress.read + count }

/-- Skip blanks. -/
def skipBlanks (progress : Progress) : Progress :=
  progress.advance (progress.input.takeWhile Byte.isSpace).length

/-- Match one byte. -/
def matchByte (progress : Progress) (c : UInt8) : Except Halt Progress :=
  match progress.input with
  | [] => .error .exhausted
  | head :: _ => if head == c then .ok (progress.advance 1) else .error .mismatch

/-- Store through the next target. -/
def store (progress : Progress) (expected : OperandKind) (use : ScanTarget → Option ScanTarget) :
    Except Halt Progress :=
  match progress.targets.take expected ScanTarget.kind fun t => (use t).map fun u => ((), u) with
  | .ok (_, targets) => .ok { progress with targets := targets }
  | .error e => .error (.failed e)

/-- Store a conversion's value through the next target, unless it is
suppressed. -/
def assign (progress : Progress) (suppressed : Bool) (expected : OperandKind)
    (use : ScanTarget → Option ScanTarget) : Except Halt Progress :=
  if suppressed then .ok progress
  else
    match progress.store expected use with
    | .ok progress => .ok { progress with assigned := progress.assigned + 1 }
    | .error e => .error e

end Progress

/-- Put a text into a buffer through a function of its old bytes. -/
def intoBuffer (write : Bytes → Bytes) : ScanTarget → Option ScanTarget
  | .buffer bytes => some (.buffer (write bytes))
  | _ => none

/-- Put a count into a slot, or into a signed integer. -/
def intoCount (value : Int64) : ScanTarget → Option ScanTarget
  | .count _ => some (.count value)
  | .int _ => some (.int value)
  | _ => none

/-- Put an address into an address or an unsigned integer. -/
def intoPointer (bits : UInt64) : ScanTarget → Option ScanTarget
  | .pointer _ => some (.pointer bits)
  | .uint _ => some (.uint bits)
  | _ => none

/-- Put a number, narrowed to a width, into an integer of either sign. -/
def intoInteger (width : OperandWidth) (bits : UInt64) : ScanTarget → Option ScanTarget
  | .int _ => some (.int (Int64.ofInt (width.signed bits)))
  | .uint _ => some (.uint (UInt64.ofNat (width.unsigned bits)))
  | _ => none

/-- The bytes at the front of the input that a test accepts, at most `width` of
them unless it is 0. -/
def span (width : Nat) (accept : UInt8 → Bool) (input : Bytes) : Bytes :=
  (if width == 0 then input else input.take width).takeWhile accept

/-- Carry out a conversion that takes input, which is not used up. -/
def Conversion.perform (directive : Directive) (progress : Progress) :
    Conversion → Except Halt Progress
  | chars =>
    let taken := progress.input.take (max directive.width 1)
    (progress.advance taken.length).assign directive.suppressed .byteBuffer
      (intoBuffer (overlay · taken))
  | set accepted =>
    let taken := span directive.width accepted.contains progress.input
    if taken.isEmpty then .error .mismatch
    else
      (progress.advance taken.length).assign directive.suppressed .byteBuffer
        (intoBuffer (overlayText · taken))
  | word =>
    let taken := span directive.width (fun c => !Byte.isSpace c) progress.input
    (progress.advance taken.length).assign directive.suppressed .byteBuffer
      (intoBuffer (overlayText · taken))
  | number format =>
    match Field.take? format directive.width progress.input with
    | none => .error .mismatch
    | some field =>
      let bits := field.bits format
      let progress := progress.advance field.text.length
      if format.pointer then progress.assign directive.suppressed .pointer (intoPointer bits)
      else
        progress.assign directive.suppressed .integer
          (intoInteger directive.length.forTarget bits)
  | percent | count | unknown => .ok progress

/-- Whether a conversion takes blanks as they stand. -/
def Conversion.keepsBlanks : Conversion → Bool
  | chars => true
  | set _ => true
  | _ => false

/-- Get ready for a conversion that takes input: skip blanks where the
conversion does, and stop when nothing is left. -/
def Progress.approach (progress : Progress) (keepsBlanks : Bool) : Except Halt Progress :=
  if progress.input.isEmpty then .error .exhausted
  else if keepsBlanks then .ok progress
  else
    let progress := progress.skipBlanks
    if progress.input.isEmpty then .error .exhausted else .ok progress

/-- Carry out a directive. A count needs no input, even a suppressed one counts
as a conversion, and an unknown conversion only skips blanks. -/
def Directive.perform (directive : Directive) (progress : Progress) : Except Halt Progress :=
  match directive.conversion with
  | .percent => progress.matchByte 0x25
  | .count =>
    let counted := { progress with conversions := progress.conversions + 1 }
    let value := Int64.ofInt (directive.length.forTarget.signed (UInt64.ofNat progress.read))
    if directive.suppressed then .ok counted
    else counted.store .countSlot (intoCount value)
  | .unknown => progress.approach false
  | conversion =>
    match progress.approach conversion.keepsBlanks with
    | .error e => .error e
    | .ok ready =>
      match conversion.perform directive ready with
      | .error e => .error e
      | .ok done => .ok { done with conversions := done.conversions + 1 }

/-- A scan that stopped. -/
structure Stopped where
  /-- What was reached. -/
  progress : Progress
  /-- Why the scan stopped. -/
  halt : Halt

/-- Walk the rest of a format of some total length. -/
def run (total : Nat) (format : Bytes) (progress : Progress) : Stopped :=
  match format with
  | [] => ⟨progress, .finished⟩
  | c :: rest =>
    if c == 0 then ⟨progress, .finished⟩
    else if Byte.isSpace c then run total rest progress.skipBlanks
    else if c != 0x25 then
      match progress.matchByte c with
      | .error halt => ⟨progress, halt⟩
      | .ok progress => run total rest progress
    else
      match _h : Directive.read rest with
      | .cut => ⟨progress, .finished⟩
      | .openSet after => ⟨progress, .failed (.unterminatedScanSet (total - after.length))⟩
      | .read directive after =>
        match directive.perform progress with
        | .error halt => ⟨progress, halt⟩
        | .ok progress => run total after progress
termination_by format.length
decreasing_by
  · simp
  · simp
  · exact Nat.lt_succ_of_le (Directive.length_le_of_readFrom _h)

/-- What a scan reports. -/
inductive Outcome where
  /-- The input was used up before any conversion. -/
  | endOfInput
  /-- The number of values stored, counts aside. -/
  | assigned (count : Nat)
deriving DecidableEq, Repr

namespace Outcome

/-- The number that reports an outcome, −1 for the end of input. It stays within
a signed word of 32 bits. -/
def toInt : Outcome → Int
  | endOfInput => -1
  | assigned count => min (count : Int) 2147483647

/-- The number of values stored. -/
def count : Outcome → Nat
  | endOfInput => 0
  | assigned count => count

end Outcome

/-- The outcome of a scanning call. -/
structure Scanned where
  /-- The targets afterwards. -/
  targets : List ScanTarget
  /-- The report, or why the call ended early. -/
  result : Except FormatError Outcome

/-- The report of a scan that stopped. Using up the input after some conversion
is no different from a mismatch. -/
def Stopped.result (stopped : Stopped) : Except FormatError Outcome :=
  match stopped.halt with
  | .finished | .mismatch => .ok (.assigned stopped.progress.assigned)
  | .exhausted =>
    if stopped.progress.conversions == 0 then .ok .endOfInput
    else .ok (.assigned stopped.progress.assigned)
  | .failed error => .error error

/-- Scan an input into a list of targets. -/
def scan (input format : Bytes) (targets : List ScanTarget) : Scanned :=
  let stopped := run format.length format { input := untilZero input, targets := .start targets }
  ⟨stopped.progress.targets.all, stopped.result⟩

end FormatScan.Scan
