import FormatScan.Operand
import FormatScan.Word

/-!
# Operations of a machine

A machine works on slices of memory by position, and on words of fixed size. Not
every operation can be carried out: an index may lie outside of its slice, a number
may leave the range of its type, a divisor may be zero. Here each such operation
looks before it acts and fails with a fault where it cannot go on. Sums that are
meant to stay at a bound, or to wrap, are not among them.

A fault also stands for a bound that nothing would enforce, but that the algorithms
on top of these operations are meant to keep: a position never lies outside of its
text.
-/

namespace FormatScan.Machine

/-- Why an operation cannot be carried out. -/
inductive Fault where
  /-- An index or a range lies outside of its slice. -/
  | outOfBounds
  /-- A number leaves the range of its type. -/
  | overflow
  /-- A number is divided by zero. -/
  | divisionByZero
  /-- A bound that the algorithm is meant to keep is not kept. -/
  | boundBroken
deriving DecidableEq, Repr

/-- What a computation yields, unless it meets a fault. -/
abbrev Checked (α : Type) := Except Fault α

/-- A slice of memory is no longer than the greatest signed word. -/
def Fits {α : Type} (items : List α) : Prop := items.length ≤ 9223372036854775807

instance {α : Type} (items : List α) : Decidable (Fits items) :=
  inferInstanceAs (Decidable (items.length ≤ 9223372036854775807))

section Operations

variable {α : Type}

/-- Go on when a condition holds. The condition is handed on: a loop ends because of
what its steps require. -/
def require (p : Prop) [Decidable p] (fault : Fault) (next : p → Checked α) : Checked α :=
  if h : p then next h else .error fault

/-- Add two unsigned words. -/
def add (a b : Nat) : Checked Nat := require (a + b ≤ Word.largest) .overflow fun _ => .ok (a + b)

/-- Subtract two unsigned numbers. -/
def sub (a b : Nat) : Checked Nat := require (b ≤ a) .overflow fun _ => .ok (a - b)

/-- Multiply two unsigned words. -/
def mul (a b : Nat) : Checked Nat := require (a * b ≤ Word.largest) .overflow fun _ => .ok (a * b)

/-- Divide two unsigned numbers. -/
def div (a b : Nat) : Checked Nat := require (b ≠ 0) .divisionByZero fun _ => .ok (a / b)

/-- The remainder of a division of unsigned numbers. -/
def rem (a b : Nat) : Checked Nat := require (b ≠ 0) .divisionByZero fun _ => .ok (a % b)

/-- Add two bytes. -/
def addByte (a b : Nat) : Checked Nat := require (a + b ≤ 255) .overflow fun _ => .ok (a + b)

/-- Add two signed words. -/
def addQuad (a b : Int) : Checked Int :=
  require (Quad.least ≤ a + b ∧ a + b ≤ Quad.greatest) .overflow fun _ => .ok (a + b)

/-- Change the sign of a signed word. -/
def negQuad (a : Int) : Checked Int := require (a ≠ Quad.least) .overflow fun _ => .ok (-a)

/-- The element at an index. -/
def index (items : List α) (i : Nat) : Checked α :=
  match items[i]? with
  | some item => .ok item
  | none => .error .outOfBounds

/-- Replace the element at an index. -/
def store (items : List α) (i : Nat) (item : α) : Checked (List α) :=
  require (i < items.length) .outOfBounds fun _ => .ok (items.set i item)

/-- The elements from one position up to another. -/
def slice (items : List α) (first last : Nat) : Checked (List α) :=
  require (first ≤ last ∧ last ≤ items.length) .outOfBounds fun _ =>
    .ok ((items.take last).drop first)

/-- Copy a slice over another one, which must be of the same length. -/
def copy (target source : List α) : Checked (List α) :=
  require (source.length = target.length) .outOfBounds fun _ => .ok source

/-- The byte at a position. Behind the end there are zeros. -/
def byteAt (text : Bytes) (i : Nat) : UInt8 := text[i]?.getD 0

/-- Go on at a position, which is a word and not outside of its text. -/
def reach (text : Bytes) (i : Nat) (next : i ≤ text.length → Checked α) : Checked α :=
  require (i ≤ Word.largest) .overflow fun _ => require (i ≤ text.length) .boundBroken next

end Operations

section Outcomes

variable {α β : Type}

/-- Going on behind a result takes that result. -/
@[simp] theorem ok_bind (a : α) (f : α → Checked β) : ((Except.ok a : Checked α) >>= f) = f a := rfl

/-- A condition that holds is no obstacle. -/
theorem require_of {p : Prop} [Decidable p] (h : p) (fault : Fault) (next : p → Checked α) :
    require p fault next = next h :=
  dif_pos h

/-- A sum in the range of words is a word. -/
theorem add_eq {a b : Nat} (h : a + b ≤ Word.largest) : add a b = .ok (a + b) := require_of h _ _

/-- A difference that is not negative is a word. -/
theorem sub_eq {a b : Nat} (h : b ≤ a) : sub a b = .ok (a - b) := require_of h _ _

/-- A product in the range of words is a word. -/
theorem mul_eq {a b : Nat} (h : a * b ≤ Word.largest) : mul a b = .ok (a * b) := require_of h _ _

/-- A division by another number than zero has a quotient. -/
theorem div_eq {b : Nat} (h : b ≠ 0) (a : Nat) : div a b = .ok (a / b) := require_of h _ _

/-- A division by another number than zero has a remainder. -/
theorem rem_eq {b : Nat} (h : b ≠ 0) (a : Nat) : rem a b = .ok (a % b) := require_of h _ _

/-- A sum in the range of bytes is a byte. -/
theorem addByte_eq {a b : Nat} (h : a + b ≤ 255) : addByte a b = .ok (a + b) := require_of h _ _

/-- An element within a slice can be replaced. -/
theorem store_eq {items : List α} {i : Nat} (h : i < items.length) (item : α) :
    store items i item = .ok (items.set i item) :=
  require_of h _ _

/-- A range within a slice can be taken. -/
theorem slice_eq {items : List α} {first last : Nat} (h : first ≤ last)
    (h' : last ≤ items.length) : slice items first last = .ok ((items.take last).drop first) :=
  require_of ⟨h, h'⟩ _ _

/-- A text can be cut at its first zero, or at its end. -/
theorem slice_untilZero (text : Bytes) :
    slice text 0 (text.findIdx (· == 0)) = .ok (untilZero text) := by
  rw [slice_eq (Nat.zero_le _) List.findIdx_le_length, List.drop_zero, untilZero,
    List.takeWhile_eq_take_findIdx_not]
  congr 3
  funext c
  exact (Bool.not_not (c == 0)).symm

end Outcomes

section Failing

variable {ε α β : Type}

/-- Go on behind a result that is no failure. -/
def andThen (first : Checked (Except ε α)) (next : α → Checked (Except ε β)) :
    Checked (Except ε β) := do
  match ← first with
  | .error e => return .error e
  | .ok a => next a

/-- Going on behind a result takes that result. -/
@[simp] theorem andThen_ok (a : α) (next : α → Checked (Except ε β)) :
    andThen (.ok (.ok a)) next = next a := rfl

end Failing

/-- Take the next element of a list, through `use`. The index behind it is a word. -/
def takeNext {α β : Type} (cursor : Cursor α) (expected : OperandKind) (kind : α → OperandKind)
    (use : α → Checked (Option (β × α))) : Checked (Except FormatError (β × Cursor α)) :=
  match cursor.pending with
  | [] => .ok (.error (.missingArgument cursor.index))
  | item :: _ => require (cursor.index + 1 ≤ Word.largest) .overflow fun _ => do
    let used ← use item
    return cursor.take expected kind fun _ => used

/-- Taking the next element meets no fault, when using it meets none. -/
theorem takeNext_eq {α β : Type} {cursor : Cursor α} (hfits : Fits cursor.all)
    {expected : OperandKind} {kind : α → OperandKind} {use : α → Checked (Option (β × α))}
    {taken : α → Option (β × α)} (huse : ∀ item, use item = .ok (taken item)) :
    takeNext cursor expected kind use = .ok (cursor.take expected kind taken) := by
  obtain ⟨used, pending⟩ := cursor
  cases pending with
  | nil => rfl
  | cons item rest =>
    have hword : used.length + 1 ≤ Word.largest := by
      unfold Fits Cursor.all at hfits
      dsimp only at hfits
      rw [List.length_append, List.length_cons] at hfits
      unfold Word.largest
      omega
    rw [takeNext]
    dsimp only
    rw [require_of (by exact hword), huse, ok_bind]
    rfl

/-- A digit is not below the first one, and at most nine above it. -/
theorem toNat_of_isDigit {c : UInt8} (h : Byte.isDigit c = true) :
    0x30 ≤ c.toNat ∧ c.toNat - 0x30 ≤ 9 := by
  have hrange : 0x30 ≤ c.toNat ∧ c.toNat ≤ 0x39 := by
    simpa [Byte.isDigit, UInt8.le_iff_toNat_le] using h
  omega

/-- A text in front of a position and behind it. -/
structure At (text : Bytes) (i : Nat) (rest : Bytes) : Prop where
  /-- The position is not outside of the text. -/
  le_length : i ≤ text.length
  /-- The rest stands behind the position. -/
  drop_eq : text.drop i = rest

namespace At

variable {text rest : Bytes} {i : Nat} {c : UInt8}

/-- The whole text stands behind its start. -/
theorem start (text : Bytes) : At text 0 text := ⟨Nat.zero_le _, rfl⟩

/-- A position tells the length of the rest. -/
theorem length_eq (h : At text i rest) : rest.length = text.length - i := by
  rw [← h.drop_eq, List.length_drop]

/-- The rest tells the position. -/
theorem eq_sub (h : At text i rest) : i = text.length - rest.length := by
  have hlength := h.length_eq
  have hle := h.le_length
  omega

/-- The element at a position is the first of the rest, if there is one. -/
theorem getElem?_eq (h : At text i rest) : text[i]? = rest.head? := by
  rw [← List.head?_drop, h.drop_eq]

/-- The byte at a position is the first of the rest. -/
theorem byteAt_eq (h : At text i (c :: rest)) : byteAt text i = c := by
  rw [byteAt, h.getElem?_eq]
  rfl

/-- Behind the end of a text there is a zero. -/
theorem byteAt_nil (h : At text i []) : byteAt text i = 0 := by
  rw [byteAt, h.getElem?_eq]
  rfl

/-- Behind a number of bytes the rest is what they leave. -/
theorem skip (h : At text i rest) {n : Nat} (hn : n ≤ rest.length) :
    At text (i + n) (rest.drop n) := by
  have hlength := h.length_eq
  have hle := h.le_length
  refine ⟨by omega, ?_⟩
  rw [← h.drop_eq, List.drop_drop]

/-- Behind a byte the rest is what follows it. -/
theorem next (h : At text i (c :: rest)) : At text (i + 1) rest :=
  h.skip (Nat.succ_le_of_lt (Nat.zero_lt_succ _))

/-- What the rest ends in has its own position further on. -/
theorem behind (h : At text i rest) {after : Bytes} (hsuffix : after <:+ rest) :
    At text (text.length - after.length) after ∧ i ≤ text.length - after.length := by
  obtain ⟨front, rfl⟩ := hsuffix
  have hskip := h.skip (List.length_append ▸ Nat.le_add_right front.length after.length)
  rw [List.drop_left] at hskip
  rw [← hskip.eq_sub]
  exact ⟨hskip, Nat.le_add_right i front.length⟩

/-- What stands between two positions can be taken. -/
theorem slice_front {front : Bytes} {j : Nat} (h : At text i (front ++ rest))
    (hj : At text j rest) : slice text i j = .ok front := by
  have hlength := h.length_eq
  have hlength' := hj.length_eq
  have hle := h.le_length
  have hle' := hj.le_length
  rw [List.length_append] at hlength
  have hfront : j - i = front.length := by omega
  rw [slice_eq (by omega) hle', List.drop_take, h.drop_eq, hfront, List.take_left]

/-- A position is a word. -/
theorem le_largest (h : At text i rest) (hfits : Fits text) : i ≤ Word.largest := by
  have hle := h.le_length
  unfold Fits at hfits
  unfold Word.largest
  omega

/-- A position within a text is reached. -/
theorem reach_eq {α : Type} (h : At text i rest) (hfits : Fits text)
    (next : i ≤ text.length → Checked α) : reach text i next = next h.le_length := by
  rw [reach, require_of (h.le_largest hfits), require_of h.le_length]

end At

end FormatScan.Machine
