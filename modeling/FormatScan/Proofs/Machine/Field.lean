import FormatScan.Proofs.Machine.Decoder
import FormatScan.Proofs.Scan.Field

/-!
# Taking number fields by position

A number field is copied into a buffer of 32 bytes while the walk moves on. At most 31
bytes are copied, so every place written to lies within the buffer. Where the base
changes at a nonzero digit, a table tells the base from then on, and only the bases
that conversions know ever reach it. A byte is given back only behind one that was
accepted, so the walk never falls back in front of the field.
-/

namespace FormatScan.Machine

open Scan

/-- The base behind a nonzero digit, for every base in front of it. -/
def baseTable : List Nat := [10, 1, 2, 3, 4, 5, 6, 7, 8, 9, 10, 11, 12, 13, 14, 15, 16]

/-- The bases that a number field can be in. -/
def fieldBases : List Nat := [0, 8, 10, 16]

/-- Look up the base behind a nonzero digit. -/
def lookUpBase (base : Nat) : Checked Nat :=
  require (base ∈ fieldBases) .boundBroken fun _ => index baseTable base

/-- The state after one more byte, or nothing when the byte cannot continue the field. -/
def acceptByte (state : FieldState) (c : UInt8) : Checked (Option FieldState) :=
  if Byte.isDigit c && c != 0x30 then do
    let base ← lookUpBase state.base
    return if c ≤ 0x37 || 8 < base then some (state.afterDigit base) else none
  else .ok (state.step c)

/-- A number field in its buffer. -/
structure Collected where
  /-- The buffer. -/
  buffer : Bytes
  /-- The position behind the field. -/
  next : Nat
  /-- The state behind the field. -/
  state : FieldState

/-- Copy the bytes that continue a field, until it has a number of them. -/
def collect (input : Bytes) (limit i : Nat) (buffer : Bytes) (state : FieldState) :
    Checked Collected :=
  if state.length < limit then
    match input[i]? with
    | none => .ok ⟨buffer, i, state⟩
    | some c => do
      match ← acceptByte state c with
      | none => return ⟨buffer, i, state⟩
      | some next => do
        let buffer ← store buffer state.length c
        let length ← add state.length 1
        require (length ≤ numberFieldLimit) .boundBroken fun _ =>
          reach input (i + 1) fun _ => collect input limit (i + 1) buffer next
  else .ok ⟨buffer, i, state⟩
termination_by input.length - i

/-- Give back one byte when it is not wanted. -/
def giveBack (unwanted : Bool) (n : Nat) : Checked Nat := if unwanted then sub n 1 else .ok n

/-- A number field that was taken. -/
structure Taken where
  /-- The bytes of the field. -/
  text : Bytes
  /-- The base in force behind them. -/
  base : Nat
  /-- The position behind them. -/
  next : Nat

/-- Take a number field, when there is one. -/
def takeField (input : Bytes) (format : NumberFormat) (width i : Nat) : Checked (Option Taken) := do
  let collected ← collect input (fieldLimit width) i (List.replicate 32 0) (.start format)
  let length := collected.state.length
  if !collected.state.digitSeen then do
    let next ← giveBack (length != 0) collected.next
    require (i ≤ next) .boundBroken fun _ => reach input next fun _ => .ok none
  else do
    let last ← sub length 1
    let c ← index collected.buffer last
    let length ← giveBack (isMark c) length
    let next ← giveBack (isMark c) collected.next
    let text ← slice collected.buffer 0 length
    require (i ≤ next) .boundBroken fun _ => reach input next fun _ =>
      .ok (some ⟨text, collected.state.base, next⟩)

/-- The 64 bits of the number in a field. -/
def fieldBits (format : NumberFormat) (text : Bytes) (base : Nat) : Checked UInt64 :=
  if format.signed then do
    let decoded ← decodeSigned text base
    return decoded.value.toUInt64
  else do
    let decoded ← decodeUnsigned text base
    return decoded.value

section Accepting

variable {state next : FieldState} {c : UInt8}

/-- One more byte makes a field longer by one. -/
theorem length_step (h : state.step c = some next) : next.length = state.length + 1 := by
  unfold FieldState.step FieldState.afterZero FieldState.afterDigit at h
  grind

/-- One more byte leaves a field in one of the known bases. -/
theorem base_step (hbase : state.base ∈ fieldBases) (h : state.step c = some next) :
    next.base ∈ fieldBases := by
  unfold FieldState.step FieldState.afterZero FieldState.afterDigit FieldState.settledBase at h
  unfold fieldBases at hbase ⊢
  grind

/-- Looking up a known base finds the one that is settled. -/
theorem lookUpBase_eq {base : Nat} (h : base ∈ fieldBases) :
    lookUpBase base = .ok (FieldState.settledBase base) := by
  rw [lookUpBase, require_of h]
  unfold fieldBases at h
  simp only [List.mem_cons, List.not_mem_nil, or_false] at h
  rcases h with rfl | rfl | rfl | rfl <;> rfl

/-- Accepting a byte meets no fault. -/
theorem acceptByte_eq (hbase : state.base ∈ fieldBases) (c : UInt8) :
    acceptByte state c = .ok (state.step c) := by
  unfold acceptByte
  by_cases hdigit : (Byte.isDigit c && c != 0x30) = true
  · obtain ⟨hd, hzero⟩ := Bool.and_eq_true_iff.mp hdigit
    have hnonzero : ¬(c == 0x30) = true := by simpa using hzero
    rw [if_pos hdigit, lookUpBase_eq hbase, ok_bind, FieldState.step, if_neg hnonzero, if_pos hd]
    rfl
  · rw [if_neg hdigit]

end Accepting

/-- Giving back a byte meets no fault behind one that was accepted. -/
theorem giveBack_eq {unwanted : Bool} {n : Nat} (h : unwanted = true → 1 ≤ n) :
    giveBack unwanted n = .ok (n - unwanted.toNat) := by
  cases unwanted with
  | true => exact sub_eq (h rfl)
  | false => rfl

/-- Behind a position a byte can be given back to no further than there. -/
theorem giveBack_behind (i : Nat) {unwanted : Bool} {n : Nat} (h : unwanted = true → 1 ≤ n) :
    giveBack unwanted (i + n) = .ok (i + (n - unwanted.toNat)) := by
  cases unwanted with
  | true =>
    have hpos := h rfl
    rw [giveBack_eq (fun _ => by omega), Bool.toNat_true, Nat.add_sub_assoc hpos]
  | false => rfl

/-- A field without a byte leaves its state as it was. -/
theorem state_of_follow_nil {state : FieldState} {input : Bytes}
    (h : (Field.follow state input).text = []) : (Field.follow state input).state = state := by
  cases input with
  | nil => rfl
  | cons c rest =>
    cases hstep : state.step c with
    | none => rw [Field.follow_stop hstep]
    | some next =>
      rw [Field.follow_cons hstep] at h
      cases h

/-- A field was copied into a buffer, behind what that held before. -/
structure Collected.Copies (collected : Collected) (buffer : Bytes) (i : Nat) (state : FieldState)
    (field : Field) : Prop where
  /-- The walk is behind the field. -/
  next_eq : collected.next = i + field.text.length
  /-- The state is the one behind the field. -/
  state_eq : collected.state = field.state
  /-- The buffer is as long as it was. -/
  size_eq : collected.buffer.length = 32
  /-- The state counts the bytes. -/
  length_eq : field.state.length = state.length + field.text.length
  /-- The bytes stand in the buffer. -/
  front_eq : collected.buffer.take field.state.length = buffer.take state.length ++ field.text

/-- An empty field leaves a buffer as it is. -/
theorem copies_nothing {buffer : Bytes} (hsize : buffer.length = 32) (i : Nat)
    (state : FieldState) : Collected.Copies ⟨buffer, i, state⟩ buffer i state ⟨[], state⟩ :=
  ⟨rfl, rfl, hsize, rfl, (List.append_nil _).symm⟩

/-- A byte in front of a field goes in front of it in the buffer. -/
theorem Collected.Copies.cons {collected : Collected} {buffer : Bytes} {i : Nat}
    {state next : FieldState} {field : Field} {c : UInt8}
    (h : collected.Copies (buffer.set state.length c) (i + 1) next field)
    (hlength : next.length = state.length + 1) (hfree : state.length < buffer.length) :
    collected.Copies buffer i state ⟨c :: field.text, field.state⟩ := by
  have hcount := h.length_eq
  have hfront := h.front_eq
  have hfirst : (buffer.set state.length c).take (state.length + 1) =
      buffer.take state.length ++ [c] := by
    rw [List.take_add_one, List.take_set_of_le (Nat.le_refl _), List.getElem?_set_self hfree]
    rfl
  constructor
  · rw [h.next_eq, List.length_cons]
    omega
  · exact h.state_eq
  · exact h.size_eq
  · rw [hcount, List.length_cons, hlength]
    omega
  · rw [hfront, hlength, hfirst, List.append_assoc, List.singleton_append]

namespace Collected.Copies

variable {collected : Collected} {buffer : Bytes} {i : Nat} {format : NumberFormat} {field : Field}
  (h : collected.Copies buffer i (.start format) field)

include h

/-- The state behind a whole field counts its bytes. -/
theorem length_state : field.state.length = field.text.length :=
  h.length_eq.trans (Nat.zero_add _)

/-- The buffer starts with a whole field. -/
theorem take_eq : collected.buffer.take field.text.length = field.text := by
  have hfront := h.front_eq
  rw [h.length_state] at hfront
  exact hfront

/-- The front of a whole field can be taken from the buffer. -/
theorem slice_text {n : Nat} (hn : n ≤ field.text.length) :
    slice collected.buffer 0 n = .ok (field.text.take n) := by
  have hsize := congrArg List.length h.take_eq
  rw [List.length_take] at hsize
  rw [slice_eq (Nat.zero_le n) (by omega), List.drop_zero, ← h.take_eq, List.take_take,
    Nat.min_eq_left hn]

/-- The last byte of a whole field can be taken from the buffer. -/
theorem index_last (hsome : field.text ≠ []) :
    index collected.buffer (field.text.length - 1) = .ok (field.text.getLast hsome) := by
  have hpos : 0 < field.text.length := List.length_pos_iff.mpr hsome
  have hget : collected.buffer[field.text.length - 1]? = some (field.text.getLast hsome) := by
    rw [← List.getElem?_take_of_lt (Nat.sub_one_lt_of_lt hpos), h.take_eq,
      ← List.getLast?_eq_getElem?, List.getLast?_eq_some_getLast hsome]
  rw [index, hget]

end Collected.Copies

/-- No width asks for more than 31 bytes. -/
theorem fieldLimit_le (width : Nat) : fieldLimit width ≤ 31 := by
  unfold fieldLimit numberFieldLimit
  split
  · exact Nat.le_refl _
  · simp_all

/-- A number field has at most 31 bytes. -/
theorem length_take?_le {format : NumberFormat} {width : Nat} {input : Bytes} {field : Field}
    (h : Field.take? format width input = some field) : field.text.length ≤ 31 := by
  have hlimit := fieldLimit_le width
  have hcount := (Field.front_of_follow (.start format) (input.take (fieldLimit width))).length_le
  rw [List.length_take] at hcount
  rw [Field.take?_eq_follow] at h
  generalize Field.follow (.start format) (input.take (fieldLimit width)) = taken at *
  dsimp only at h
  split at h
  · cases h
  · split at h
    · cases h
      dsimp only
      rw [List.length_dropLast]
      omega
    · cases h
      omega

section Taking

variable {input rest : Bytes} {i : Nat}

/-- Collecting a field meets no fault, and copies the field into the buffer. -/
theorem exists_collect (hfits : Fits input) (h : At input i rest) {limit : Nat}
    (hlimit : limit ≤ 31) {buffer : Bytes} (hsize : buffer.length = 32)
    {state : FieldState} (hbase : state.base ∈ fieldBases) :
    ∃ collected, collect input limit i buffer state = .ok collected ∧
      collected.Copies buffer i state
        (Field.follow state (rest.take (limit - state.length))) := by
  induction rest generalizing i buffer state with
  | nil =>
    rw [collect, h.getElem?_eq, List.take_nil]
    exact ⟨_, ite_self _, copies_nothing hsize i state⟩
  | cons c rest ih =>
    by_cases hroom : state.length < limit
    · have htake : (c :: rest).take (limit - state.length) =
          c :: rest.take (limit - (state.length + 1)) := by
        have hsucc : limit - state.length = limit - (state.length + 1) + 1 := by omega
        rw [hsucc, List.take_succ_cons]
      rw [collect, if_pos hroom, h.getElem?_eq, htake]
      dsimp only [List.head?_cons]
      rw [acceptByte_eq hbase, ok_bind]
      cases hstep : state.step c with
      | none =>
        rw [Field.follow_stop hstep]
        exact ⟨_, rfl, copies_nothing hsize i state⟩
      | some next =>
        have hlength := length_step hstep
        have hfree : state.length < buffer.length := by omega
        have hstored : (buffer.set state.length c).length = 32 := by rw [List.length_set, hsize]
        have hword : state.length + 1 ≤ Word.largest := by
          unfold Word.largest
          omega
        obtain ⟨collected, hcollect, hcopies⟩ := ih h.next hstored (base_step hbase hstep)
        rw [hlength] at hcopies
        rw [Field.follow_cons hstep]
        refine ⟨collected, ?_, hcopies.cons hlength hfree⟩
        dsimp only
        rw [store_eq hfree, ok_bind, add_eq hword, ok_bind,
          require_of (by unfold numberFieldLimit; omega), h.next.reach_eq hfits, hcollect]
    · have hnone : limit - state.length = 0 := by omega
      rw [collect, if_neg hroom, hnone]
      exact ⟨_, rfl, copies_nothing hsize i state⟩

/-- A walk that ends within what it started with is not outside of the input. -/
theorem land_eq {α : Type} (hfits : Fits input) (h : At input i rest) {n : Nat}
    (hn : n ≤ rest.length) (result : Checked α) :
    (require (i ≤ i + n) .boundBroken fun _ => reach input (i + n) fun _ => result) = result := by
  rw [require_of (Nat.le_add_right i n), (h.skip hn).reach_eq hfits]

/-- Taking a number field meets no fault, and takes the field that there is. -/
theorem takeField_eq (hfits : Fits input) (h : At input i rest) {format : NumberFormat}
    (hbase : format.base ∈ fieldBases) (width : Nat) :
    takeField input format width i = .ok ((Field.take? format width rest).map fun field =>
      ⟨field.text, field.state.base, i + field.text.length⟩) := by
  have hlimit := fieldLimit_le width
  have hstart : (FieldState.start format).base ∈ fieldBases := hbase
  obtain ⟨collected, hcollect, hcopies⟩ :=
    exists_collect hfits h hlimit (List.length_replicate (a := (0 : UInt8))) hstart
  have hfront := Field.front_of_follow (.start format) (rest.take (fieldLimit width))
  have hnothing : (Field.follow (.start format) (rest.take (fieldLimit width))).text = [] →
      (Field.follow (.start format) (rest.take (fieldLimit width))).state = .start format :=
    state_of_follow_nil
  change collected.Copies _ i (.start format)
    (Field.follow (.start format) (rest.take (fieldLimit width))) at hcopies
  rw [takeField, hcollect, ok_bind, Field.take?_eq_follow]
  dsimp only
  generalize Field.follow (.start format) (rest.take (fieldLimit width)) = field at *
  have hcount := hfront.length_le
  rw [List.length_take] at hcount
  have hwithin : ∀ unwanted : Bool, field.text.length - unwanted.toNat ≤ rest.length := by
    intro unwanted
    omega
  rw [hcopies.state_eq, hcopies.next_eq, hcopies.length_state]
  by_cases hseen : field.state.digitSeen = true
  · have hsome : field.text ≠ [] := by
      intro hnil
      rw [hnothing hnil] at hseen
      cases hseen
    have hpos : 1 ≤ field.text.length := List.length_pos_iff.mpr hsome
    rw [if_neg (by simpa using hseen), if_neg (by simpa using hseen), sub_eq hpos, ok_bind,
      hcopies.index_last hsome, ok_bind, giveBack_eq (fun _ => hpos), ok_bind,
      giveBack_behind i (fun _ => hpos), ok_bind, hcopies.slice_text (Nat.sub_le _ _), ok_bind,
      land_eq hfits h (hwithin _),
      List.getLast?_eq_some_getLast hsome, Option.any_some]
    cases isMark (field.text.getLast hsome) with
    | true =>
      rw [if_pos rfl, Option.map_some]
      dsimp only [Bool.toNat_true]
      rw [List.length_dropLast, List.dropLast_eq_take]
    | false =>
      rw [if_neg Bool.false_ne_true, Option.map_some]
      dsimp only [Bool.toNat_false, Nat.sub_zero]
      rw [List.take_length]
  · have hpos : (field.text.length != 0) = true → 1 ≤ field.text.length := by
      rw [bne_iff_ne]
      omega
    rw [if_pos (by simpa using hseen), if_pos (by simpa using hseen), giveBack_behind i hpos,
      ok_bind, land_eq hfits h (hwithin _)]
    rfl

end Taking

/-- Decoding the number in a field meets no fault. -/
theorem fieldBits_eq (format : NumberFormat) {field : Field} (hfits : Fits field.text) :
    fieldBits format field.text field.state.base = .ok (field.bits format) := by
  unfold fieldBits Field.bits
  rw [decodeSigned_eq hfits, decodeUnsigned_eq hfits]
  split <;> rfl

end FormatScan.Machine
