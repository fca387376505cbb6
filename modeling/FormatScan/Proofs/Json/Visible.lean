import FormatScan.Proofs.Json.Spelling

/-!
# Written values without control characters

Control characters are escaped in strings and occur nowhere else in the compact
layout. So a written value, whatever it is, stands on one line.
-/

namespace FormatScan.Json

/-- A character that is no control character. -/
def Visible (c : Char) : Prop := 0x20 ≤ c.toNat

instance (c : Char) : Decidable (Visible c) := inferInstanceAs (Decidable (0x20 ≤ c.toNat))

/-- The characters of a text are visible when it is checked for each of them. -/
theorem visible_of_all {text : List Char} (h : text.all (fun c => decide (Visible c)) = true) :
    ∀ c ∈ text, Visible c :=
  fun c hc => of_decide_eq_true (List.all_eq_true.mp h c hc)

/-- Digits are visible. -/
theorem visible_toDigits (n : Nat) : ∀ c ∈ Nat.toDigits 10 n, Visible c := by
  intro c hc
  have hrange : 0x30 ≤ c.toNat := (Char.isDigit_iff_toNat.mp (isDigit_toDigits n c hc)).1
  unfold Visible
  omega

/-- So are the digits of a byte in base 16. -/
theorem visible_hexPair (byte : UInt8) : ∀ c ∈ Text.hexPair byte, Visible c := by
  have hdigit : ∀ n < 16, Visible (Text.hexDigit n) := by decide
  have hbyte := byte.toNat_lt
  simp only [Text.hexPair, List.forall_mem_cons]
  exact ⟨hdigit _ (by omega), hdigit _ (by omega), List.forall_mem_nil _⟩

/-- Every character of a written form is visible. -/
theorem Escape.visible {c : Char} {text : List Char} {unit : CodeUnit} (h : Escape c text unit) :
    ∀ d ∈ text, Visible d := by
  cases h with
  | letter _ hv _ =>
    simp only [List.forall_mem_cons]
    exact ⟨by decide, hv, List.forall_mem_nil _⟩
  | code _ => exact List.forall_mem_append.mpr ⟨visible_of_all rfl, visible_hexPair _⟩
  | plain _ _ hc => exact List.forall_mem_singleton.mpr (Nat.le_of_not_lt hc)

/-- Every character of a written string is visible. -/
theorem visible_quote (text : String) : ∀ c ∈ quote text, Visible c := by
  have hinside : ∀ c ∈ text.toList.flatMap escapeChar, Visible c := by
    intro c hc
    obtain ⟨d, -, hd⟩ := List.mem_flatMap.mp hc
    obtain ⟨unit, hescape⟩ := exists_escape d
    exact hescape.visible c hd
  simp only [quote, List.forall_mem_cons, List.forall_mem_append]
  exact ⟨⟨by decide, hinside⟩, by decide, List.forall_mem_nil _⟩

/-- Every character of a written integer is visible. -/
theorem visible_integer (n : Int) : ∀ c ∈ (toString n).toList, Visible c := by
  rw [Int.toString_eq_repr, Int.repr_eq_if]
  split
  · rw [Nat.repr_eq_ofList_toDigits, String.toList_ofList]
    exact visible_toDigits _
  · rw [String.toList_append, Nat.repr_eq_ofList_toDigits, String.toList_ofList,
      String.toList_ofList]
    exact List.forall_mem_append.mpr ⟨visible_of_all rfl, visible_toDigits _⟩

/-- Every character of a written decimal number is visible. -/
theorem visible_decimal (d : Real.Decimal) : ∀ c ∈ d.render, Visible c := by
  have hdigits : ∀ n : Nat, ∀ c ∈ (toString n).toList, Visible c := by
    intro n
    rw [Nat.toString_eq_ofList_toDigits, String.toList_ofList]
    exact visible_toDigits n
  have hzeros : ∀ n, ∀ c ∈ List.replicate n '0', Visible c := by
    intro n c hc
    rw [List.eq_of_mem_replicate hc]
    decide
  have htake : ∀ k, ∀ c ∈ (toString d.digits).toList.take k, Visible c :=
    fun k c hc => hdigits _ c (List.mem_of_mem_take hc)
  have hdrop : ∀ k, ∀ c ∈ (toString d.digits).toList.drop k, Visible c :=
    fun k c hc => hdigits _ c (List.mem_of_mem_drop hc)
  unfold Real.Decimal.render
  dsimp only
  split
  · simp only [List.forall_mem_append]
    exact ⟨⟨hdigits _, hzeros _⟩, visible_of_all rfl⟩
  split
  · simp only [List.forall_mem_append]
    exact ⟨⟨htake _, visible_of_all rfl⟩, hdrop _⟩
  split
  · simp only [List.forall_mem_append]
    exact ⟨⟨visible_of_all rfl, hzeros _⟩, hdigits _⟩
  · simp only [List.forall_mem_append, List.forall_mem_cons]
    refine ⟨⟨htake _, ?_⟩, by decide, ?_, hdigits _⟩
    · split
      · exact List.forall_mem_nil _
      · exact List.forall_mem_cons.mpr ⟨by decide, hdrop _⟩
    · split <;> decide

/-- Every character of a written double is visible. -/
theorem visible_real (bits : UInt64) : ∀ c ∈ Real.render bits, Visible c := by
  have hsign : ∀ c ∈ (if Real.signBit ≤ bits then ['-'] else []), Visible c := by
    split <;> exact visible_of_all rfl
  unfold Real.render
  dsimp only
  split
  · exact List.forall_mem_append.mpr ⟨hsign, visible_of_all rfl⟩
  · exact List.forall_mem_append.mpr ⟨hsign, visible_decimal _⟩

mutual

/-- Every character of a value in the compact layout is visible. -/
theorem visible_printAt (depth : Nat) :
    (value : Json) → ∀ c ∈ printAt .compact depth value, Visible c
  | .null => by
    rw [printAt]
    exact visible_of_all rfl
  | .bool true => by
    rw [printAt]
    exact visible_of_all rfl
  | .bool false => by
    rw [printAt]
    exact visible_of_all rfl
  | .integer n => visible_integer n.value
  | .real bits => visible_real bits
  | .string text => visible_quote text
  | .array [] => by
    rw [printAt]
    exact visible_of_all rfl
  | .array (item :: rest) => by
    simp only [printAt, List.forall_mem_append, List.forall_mem_cons]
    exact ⟨⟨⟨⟨⟨by decide, List.forall_mem_nil _⟩, visible_printAt (depth + 1) item⟩,
      visible_printItems (depth + 1) rest⟩, List.forall_mem_nil _⟩, by decide,
      List.forall_mem_nil _⟩
  | .object [] => by
    rw [printAt]
    exact visible_of_all rfl
  | .object ((key, value) :: rest) => by
    simp only [printAt, List.forall_mem_append, List.forall_mem_cons]
    exact ⟨⟨⟨⟨⟨⟨⟨by decide, List.forall_mem_nil _⟩, visible_quote key⟩, visible_of_all rfl⟩,
      visible_printAt (depth + 1) value⟩, visible_printMembers (depth + 1) rest⟩,
      List.forall_mem_nil _⟩, by decide, List.forall_mem_nil _⟩

/-- Every character of some items in the compact layout is visible. -/
theorem visible_printItems (depth : Nat) :
    (items : List Json) → ∀ c ∈ printItems .compact depth items, Visible c
  | [] => List.forall_mem_nil _
  | item :: rest => by
    simp only [printItems, List.forall_mem_append, List.forall_mem_cons]
    exact ⟨⟨⟨by decide, List.forall_mem_nil _⟩, visible_printAt depth item⟩,
      visible_printItems depth rest⟩

/-- Every character of some members in the compact layout is visible. -/
theorem visible_printMembers (depth : Nat) :
    (members : List (String × Json)) → ∀ c ∈ printMembers .compact depth members, Visible c
  | [] => List.forall_mem_nil _
  | (key, value) :: rest => by
    simp only [printMembers, List.forall_mem_append, List.forall_mem_cons]
    exact ⟨⟨⟨⟨⟨by decide, List.forall_mem_nil _⟩, visible_quote key⟩, visible_of_all rfl⟩,
      visible_printAt depth value⟩, visible_printMembers depth rest⟩

end

/-- A value stands on one line. -/
theorem visible_compact (value : Json) : ∀ c ∈ value.compact.toList, Visible c := by
  rw [compact, String.toList_ofList]
  exact visible_printAt 0 value

end FormatScan.Json
