import FormatScan.Format.Field
import FormatScan.Output.Sink

/-!
# Formatting

A format is read from the front: bytes stand for themselves up to a percent
sign, and a directive takes its operands from the list. Output appears as
pieces, and counting them stays within a machine word. A directive either
succeeds and adds its pieces, or fails and adds nothing. At an invalid directive
the rest of the format, from its percent sign on, stands for itself.
-/

namespace FormatScan.Format

/-- What a formatting call has reached between two directives. -/
structure Progress where
  /-- The operands. -/
  operands : Operands
  /-- The number of bytes produced. -/
  produced : Nat

/-- Go on behind some pieces of output. -/
def Progress.add (progress : Progress) (pieces : List Piece) : Progress :=
  { progress with produced := Piece.countFrom progress.produced pieces }

/-- The outcome of a formatting call. -/
structure Formatted where
  /-- The output, up to the directive that failed if there is one. -/
  pieces : List Piece
  /-- The operands afterwards. -/
  operands : Operands
  /-- The number of bytes produced, or why the call ended early. -/
  result : Except FormatError Nat

/-- An outcome behind some earlier pieces. -/
def Formatted.after (formatted : Formatted) (pieces : List Piece) : Formatted :=
  { formatted with pieces := pieces ++ formatted.pieces }

/-- Write a signed or unsigned integer operand. -/
def integer (settings : Settings) (operands : Operands) (base : Nat) (upper signed : Bool) :
    Except FormatError (List Piece × Operands) :=
  match operands.takeBits with
  | .error e => .error e
  | .ok (bits, operands) =>
    let width := settings.length.forOperand
    if signed then
      let value := width.signed bits
      .ok (numberField settings base upper (value < 0) value.natAbs, operands)
    else .ok (numberField settings base upper false (width.unsigned bits), operands)

/-- Carry out a conversion whose modifiers are settled. An address shows its
base exactly when it has no width. -/
def Conversion.perform (settings : Settings) (progress : Progress) :
    Conversion → Except FormatError (List Piece × Operands)
  | .percent => .ok ([.text [0x25]], progress.operands)
  | .char =>
    match progress.operands.takeBits with
    | .ok (bits, operands) => .ok ([.text [bits.toUInt8]], operands)
    | .error e => .error e
  | .signed base => integer settings progress.operands base false true
  | .unsigned base upper => integer settings progress.operands base upper false
  | .decimal => integer settings progress.operands 10 false settings.plus
  | .pointer =>
    match progress.operands.takeBits with
    | .ok (bits, operands) =>
      let marked := { settings with alternate := settings.width == 0 }
      .ok (numberField marked 16 false false bits.toNat, operands)
    | .error e => .error e
  | .text =>
    match progress.operands.takeText with
    | .ok (value, operands) => .ok (textField settings value, operands)
    | .error e => .error e
  | .count =>
    let count := settings.length.forCount.signed (UInt64.ofNat progress.produced)
    match progress.operands.storeCount count with
    | .ok (_, operands) => .ok ([], operands)
    | .error e => .error e
  | .invalid => .ok ([], progress.operands)

/-- Carry out a directive: its modifiers first, then its conversion. -/
def Directive.perform (directive : Directive) (progress : Progress) :
    Except FormatError (List Piece × Operands) :=
  match Settings.applyAll {} progress.operands directive.modifiers with
  | .error e => .error e
  | .ok (settings, operands) =>
    directive.conversion.perform settings { progress with operands := operands }

/-- Format the rest of a format from what was reached. -/
def run (format : Bytes) (progress : Progress) : Formatted :=
  match format with
  | [] => ⟨[], progress.operands, .ok progress.produced⟩
  | c :: rest =>
    if c == 0 then ⟨[], progress.operands, .ok progress.produced⟩
    else if c != 0x25 then
      let pieces := [Piece.text [c]]
      (run rest (progress.add pieces)).after pieces
    else
      let read := Directive.read false rest
      match read.1.perform progress with
      | .error e => ⟨[], progress.operands, .error e⟩
      | .ok (pieces, operands) =>
        if read.1.conversion == .invalid then
          let echo := [Piece.text (untilZero format)]
          ⟨echo, operands, .ok (progress.add echo).produced⟩
        else
          (run read.2 { progress.add pieces with operands := operands }).after pieces
termination_by format.length
decreasing_by
  · simp
  · exact Nat.lt_succ_of_le (Directive.length_read_le false rest)

/-- Format a list of operands. -/
def format (text : Bytes) (args : List FormatArg) : Formatted := run text ⟨.start args, 0⟩

/-- The outcome of formatting into a sink. -/
structure Printed where
  /-- The sink afterwards. -/
  sink : Sink
  /-- The operands afterwards, count slots included. -/
  args : List FormatArg
  /-- The length of the whole output, whatever the sink kept, or why formatting
  ended early. -/
  result : Except FormatError Nat

/-- Format into a sink. The sink is completed even when a directive fails. -/
def printTo (sink : Sink) (text : Bytes) (args : List FormatArg) : Printed :=
  let formatted := format text args
  ⟨(sink.writeAll formatted.pieces).finish, formatted.operands.all, formatted.result⟩

/-- Format into a buffer of fixed size: as many bytes as fit in front of a zero
byte, and nothing at all when the buffer is empty. -/
def printBounded (buffer : Bytes) (text : Bytes) (args : List FormatArg) : Printed :=
  printTo (.bounded (.ofBytes buffer.toArray)) text args

/-- Format into a text that grows without bound. -/
def printAll (text : Bytes) (args : List FormatArg) : Printed :=
  printTo (.growing #[]) text args

end FormatScan.Format
