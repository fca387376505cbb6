import FormatScan.Operand

/-!
# Scan sets

A scan set stands between brackets in a scanning directive. It is read from
left to right: a leading `^` negates it, the first member is always literal, and
a later `-` spans an inclusive range from the last member or bound to the next
byte, unless that byte closes the set or lies below. Ranges may chain. A `]`
behind the first member closes the set; a zero byte or the end of the format
leaves it open.
-/

namespace FormatScan

/-- The bytes between two bounds, both included. -/
structure ByteRange where
  /-- The lower bound. -/
  first : UInt8
  /-- The upper bound. -/
  last : UInt8
deriving DecidableEq, Repr

namespace ByteRange

/-- The range of one byte. -/
def single (c : UInt8) : ByteRange := ⟨c, c⟩

/-- Whether a byte is between the bounds. -/
def contains (range : ByteRange) (c : UInt8) : Bool := range.first ≤ c && c ≤ range.last

end ByteRange

/-- A set of bytes, given by its members or by those it leaves out. -/
structure ScanSet where
  /-- The members are left out rather than accepted. -/
  negated : Bool := false
  /-- The members, as ranges in the order in which they are written. -/
  members : List ByteRange := []
deriving DecidableEq, Repr

/-- How the reading of a scan set ends. -/
inductive ScanSet.Ending where
  /-- At the closing bracket, with the format behind it. -/
  | closed (rest : Bytes)
  /-- At a zero byte or the end, with the format from there on. -/
  | unterminated (rest : Bytes)
deriving DecidableEq, Repr

/-- The format that is left when the reading of a scan set ends. -/
def ScanSet.Ending.rest : ScanSet.Ending → Bytes
  | closed rest => rest
  | unterminated rest => rest

/-- A scan set as far as it was read, and how reading it ended. -/
structure ScanSet.Compiled where
  /-- The set. -/
  set : ScanSet
  /-- How its reading ended. -/
  ending : ScanSet.Ending
deriving DecidableEq, Repr

namespace ScanSet

/-- The set without members. -/
def empty : ScanSet := {}

/-- Whether a byte is accepted. -/
def contains (set : ScanSet) (c : UInt8) : Bool :=
  (set.members.any (·.contains c)) != set.negated

/-- The number of bytes that are accepted. -/
def size (set : ScanSet) : Nat :=
  ((List.range 256).filter fun n => set.contains (UInt8.ofNat n)).length

/-- Read the members behind the first one. `last` is the member or upper bound
read most recently. -/
def readMembers (last : UInt8) : Bytes → List ByteRange × Ending
  | [] => ([], .unterminated [])
  | c :: rest =>
    if c == 0 then ([], .unterminated (c :: rest))
    else if c == 0x5D then ([], .closed rest)
    else if c == 0x2D then
      match rest with
      | [] => ([.single c], .unterminated [])
      | bound :: after =>
        if bound == 0x5D || bound < last then
          let read := readMembers c (bound :: after)
          (.single c :: read.1, read.2)
        else
          let read := readMembers bound after
          (⟨last, bound⟩ :: read.1, read.2)
    else
      let read := readMembers c rest
      (.single c :: read.1, read.2)

/-- Read the members of a set, the first of which is literal. -/
def readBody (negated : Bool) : Bytes → Compiled
  | [] => ⟨⟨negated, []⟩, .unterminated []⟩
  | c :: rest =>
    if c == 0 then ⟨⟨negated, []⟩, .unterminated (c :: rest)⟩
    else
      let read := readMembers c rest
      ⟨⟨negated, .single c :: read.1⟩, read.2⟩

/-- Read a set from the byte behind its opening bracket. -/
def read : Bytes → Compiled
  | 0x5E :: rest => readBody true rest
  | text => readBody false text

/-- Compile the set that starts at an offset of a format. The result is the
offset behind its closing bracket; a set that is not closed is kept as far as it
goes, and the failure tells where the format ends. -/
def compile (format : Bytes) (start : Nat) : ScanSet × Except FormatError Nat :=
  let text := format.drop start
  let compiled := read text
  let finish := start + (text.length - compiled.ending.rest.length)
  match compiled.ending with
  | .closed _ => (compiled.set, .ok finish)
  | .unterminated _ => (compiled.set, .error (.unterminatedScanSet finish))

/-- Reading members never adds to the format. -/
theorem length_readMembers_le (last : UInt8) (text : Bytes) :
    (readMembers last text).2.rest.length ≤ text.length := by
  fun_induction readMembers last text with
  | case1 => simp [Ending.rest]
  | case2 => simp [Ending.rest]
  | case3 => simp [Ending.rest]
  | case4 => simp [Ending.rest]
  | case5 last c _ _ _ bound after _ read ih => exact Nat.le_succ_of_le ih
  | case6 last c _ _ _ bound after _ read ih =>
    exact Nat.le_succ_of_le (Nat.le_succ_of_le ih)
  | case7 last c rest _ _ _ read ih => exact Nat.le_succ_of_le ih

/-- Reading a body never adds to the format. -/
theorem length_readBody_le (negated : Bool) (text : Bytes) :
    (readBody negated text).ending.rest.length ≤ text.length := by
  match text with
  | [] => simp [readBody, Ending.rest]
  | c :: rest =>
    rw [readBody]
    split
    · simp [Ending.rest]
    · have := length_readMembers_le c rest
      simp only [List.length_cons]
      omega

/-- Reading a set never adds to the format. -/
theorem length_read_le (text : Bytes) : (read text).ending.rest.length ≤ text.length := by
  unfold read
  split
  · rename_i rest
    have := length_readBody_le true rest
    simp only [List.length_cons]
    omega
  · exact length_readBody_le false _

end ScanSet

end FormatScan
