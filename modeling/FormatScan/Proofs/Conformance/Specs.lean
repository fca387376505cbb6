import FormatScan.Conformance.Spec
import FormatScan.Json.Printer
import FormatScan.Proofs.Log.Line
import FormatScan.Proofs.Text.Bytes
import FormatScan.Proofs.Text.Integer

/-!
# Notations for operands and targets

An operand or a target is described by a text on the command line and by a JSON value in a
case. The name in a text ends at the first colon, so a value may have colons of its own. A
number may be spelled in decimal or in base 16; the description has exactly that number, and
a number that its kind has no room for is refused.
-/

namespace FormatScan

/-- The JSON form of a choice: its name, or its name with a value that is no container. -/
inductive Json.IsChoice : Json → Prop
  /-- A name alone. -/
  | bare (name : String) : IsChoice (.string name)
  /-- A name with a value. -/
  | single {name : String} {value : Json} (hc : value.isContainer = false)
      (hexact : value.isReal = false) : IsChoice (.object [(name, value)])

/-- A choice is read back from its text. -/
theorem Json.IsChoice.parse?_compact {value : Json} (h : value.IsChoice) :
    parse? value.compact = some value := by
  cases h with
  | bare name =>
    exact parse?_print (exact_string name) (ordered_scalar rfl) (Nat.zero_le _)
      Layout.spaced_compact
  | @single name value hc hexact =>
    have hobject : (Json.object [(name, value)]).Exact :=
      .object rfl (List.forall_mem_singleton.mpr (.scalar hexact hc))
    have hordered : (Json.object [(name, value)]).Ordered :=
      .object (List.pairwise_singleton _ _) (List.forall_mem_singleton.mpr (ordered_scalar hc))
    have hmember : membersDepth [(name, value)] ≤ 0 :=
      membersDepth_le.mpr (List.forall_mem_singleton.mpr (depth_scalar hc 0))
    have hdepth : (Json.object [(name, value)]).depth ≤ Source.nestingLimit :=
      Nat.le_trans (Nat.succ_le_succ hmember) (by decide)
    exact parse?_print hobject hordered hdepth Layout.spaced_compact

/-! ## Numbers in any notation -/

namespace Spec

/-- The name ends at the first colon, whatever the value holds. -/
theorem split_append {name : String} (h : ':' ∉ name.toList) (value : String) :
    split (name ++ ":" ++ value) = (name, value) := by
  have hname : ∀ c ∈ name.toList, (c != ':') = true := by
    intro c hc
    exact bne_iff_ne.mpr fun heq => h (heq ▸ hc)
  have hcolon : Text.EndsRun (· != ':') (':' :: value.toList) := Text.endsRun_cons rfl _
  have hlist : (name ++ ":" ++ value).toList = name.toList ++ ':' :: value.toList := by
    rw [String.toList_append, String.toList_append, List.append_assoc]
    rfl
  have hdrop : (name.toList ++ ':' :: value.toList).drop (name.toList.length + 1) =
      value.toList := by
    rw [← List.drop_drop, List.drop_left]
    rfl
  unfold split
  rw [hlist, Text.takeWhile_append_of_endsRun hname hcolon]
  dsimp only
  rw [hdrop, String.ofList_toList, String.ofList_toList]

/-- The values of a type stand for the integers of a range, one for each. -/
structure StandsFor {β : Type} (range : Text.Range) (value : Int → β) (number : β → Int) :
    Prop where
  /-- The value for an integer in the range stands for it. -/
  number_value : ∀ n, range.least ≤ n → n ≤ range.greatest → number (value n) = n
  /-- Every value stands for an integer in the range. -/
  mem_range : ∀ v, range.least ≤ number v ∧ number v ≤ range.greatest
  /-- It is the value for that integer. -/
  value_number : ∀ v, value (number v) = v

theorem standsFor_signedWord : StandsFor .signedWord Int64.ofInt Int64.toInt where
  number_value _ hleast hle := Int64.toInt_ofInt_of_le hleast (Int.lt_add_one_of_le hle)
  mem_range v := ⟨v.le_toInt, Int.le_of_lt_add_one v.toInt_lt⟩
  value_number v := v.ofInt_toInt

theorem standsFor_word :
    StandsFor .word (fun n => UInt64.ofNat n.toNat) fun v => (v.toNat : Int) where
  number_value n hleast hle := by
    have hleast : 0 ≤ n := hleast
    have hle : n ≤ Word.largest := hle
    have hlargest : Word.largest + 1 = UInt64.size := rfl
    rw [UInt64.toNat_ofNat_of_lt' (by omega), Int.toNat_of_nonneg hleast]
  mem_range v := ⟨Int.natCast_nonneg _, Int.ofNat_le.mpr (Nat.le_of_lt_succ v.toNat_lt)⟩
  value_number v := v.ofNat_toNat

theorem standsFor_byte :
    StandsFor .byte (fun n => UInt8.ofNat n.toNat) fun v => (v.toNat : Int) where
  number_value n hleast hle := by
    have hleast : 0 ≤ n := hleast
    have hle : n ≤ 255 := hle
    have hsize : 255 + 1 = UInt8.size := rfl
    rw [UInt8.toNat_ofNat_of_lt' (by omega), Int.toNat_of_nonneg hleast]
  mem_range v := ⟨Int.natCast_nonneg _, Int.ofNat_le.mpr (Nat.le_of_lt_succ v.toNat_lt)⟩
  value_number v := v.ofNat_toNat

/-- An integer in the range is taken from each of its spellings, and any other is refused. -/
theorem number_of_spells (field : String) {range : Text.Range} {text : List Char} {n : Int}
    (h : Text.SpellsInteger range text n) (hgreatest : range.greatest ≤ Word.largest) :
    number field range (String.ofList text) =
      if range.contains n then .ok n
      else .error (.badInput field (.notANumber (String.ofList text))) := by
  rw [number, String.toList_ofList, h.integer?_eq hgreatest]
  cases range.contains n <;> rfl

/-- A kind of description that takes numbers. -/
structure NumberKind where
  /-- Its name. -/
  name : String
  /-- The numbers that it takes. -/
  range : Text.Range
  /-- The fewest characters that are taken for a number. -/
  fewest : Nat

/-- The descriptions of a kind are read from numbers in any notation. -/
structure TakesNumbers {α : Type} (parse : String → Except ConformanceError α) (field : String)
    (kind : NumberKind) (HasNumber : α → Int → Prop) : Prop where
  /-- Every number in the range can be described. -/
  exists_spec : ∀ n, kind.range.contains n = true → ∃ spec, HasNumber spec n
  /-- A description is read from every spelling of its number. -/
  parse_eq : ∀ spec n, HasNumber spec n → ∀ text, Text.SpellsInteger kind.range text n →
    kind.fewest ≤ text.length → parse (kind.name ++ ":" ++ String.ofList text) = .ok spec
  /-- A number that is out of the range is refused in every spelling. -/
  refused : ∀ n, kind.range.contains n = false → ∀ text, Text.SpellsInteger kind.range text n →
    kind.fewest ≤ text.length → parse (kind.name ++ ":" ++ String.ofList text) =
      .error (.badInput field (.notANumber (String.ofList text)))

/-- It is enough that a number is read and then made the description with this number. -/
theorem takesNumbers_of_parse_eq {α β : Type} {parse : String → Except ConformanceError α}
    {field : String} {kind : NumberKind} {HasNumber : α → Int → Prop} {value : Int → β}
    {number : β → Int} (make : β → α) (hvalues : StandsFor kind.range value number)
    (hgreatest : kind.range.greatest ≤ Word.largest)
    (hparse : ∀ text : List Char, kind.fewest ≤ text.length →
      parse (kind.name ++ ":" ++ String.ofList text) =
        (Spec.number field kind.range (String.ofList text)).map fun n => make (value n))
    (hnumber : ∀ spec n, HasNumber spec n ↔ ∃ v, spec = make v ∧ number v = n) :
    TakesNumbers parse field kind HasNumber where
  exists_spec n hcontains := by
    obtain ⟨hleast, hle⟩ := Text.Range.contains_iff.mp hcontains
    exact ⟨make (value n), (hnumber _ n).mpr ⟨_, rfl, hvalues.number_value n hleast hle⟩⟩
  parse_eq spec n hspec text htext hfewest := by
    obtain ⟨v, rfl, rfl⟩ := (hnumber spec n).mp hspec
    rw [hparse text hfewest, number_of_spells field htext hgreatest,
      if_pos (Text.Range.contains_iff.mpr (hvalues.mem_range v))]
    exact congrArg (fun v => Except.ok (make v)) (hvalues.value_number v)
  refused n hcontains text htext hfewest := by
    rw [hparse text hfewest, number_of_spells field htext hgreatest, hcontains]
    rfl

end Spec

/-! ## Operands -/

namespace ArgSpec

/-- The usual written forms of an operand. -/
def forms : ArgSpec → List String
  | int value => ["int:" ++ toString value.toInt]
  | uint value => ["uint:" ++ toString (value.toNat : Int)]
  | char value => ["char:" ++ String.ofList ('0' :: 'x' :: Text.hexPair value)]
  | pointer value =>
    ["ptr:" ++ toString (value.toNat : Int),
      "ptr:" ++ String.ofList ('0' :: 'x' :: Text.hexText value.toNat)]
  | text (some value) => ["str:" ++ value]
  | text none => ["null"]
  | count => ["count"]

/-- The kinds of operand that take numbers. A single byte stands for itself. -/
def numberKinds : List Spec.NumberKind :=
  [⟨"int", .signedWord, 0⟩, ⟨"uint", .word, 0⟩, ⟨"ptr", .word, 0⟩, ⟨"char", .byte, 2⟩]

/-- The kind of an operand of one of these kinds, and its number. -/
def number? : ArgSpec → Option (String × Int)
  | int value => some ("int", value.toInt)
  | uint value => some ("uint", value.toNat)
  | pointer value => some ("ptr", value.toNat)
  | char value => some ("char", value.toNat)
  | _ => none

theorem parse_int (value : String) : parse ("int" ++ ":" ++ value) =
    (Spec.number "arg" .signedWord value).map fun n => int (Int64.ofInt n) := by
  rw [parse, Spec.split_append (by decide)]
  rfl

theorem parse_uint (value : String) : parse ("uint" ++ ":" ++ value) =
    (Spec.number "arg" .word value).map fun n => uint (UInt64.ofNat n.toNat) := by
  rw [parse, Spec.split_append (by decide)]
  rfl

theorem parse_pointer (value : String) : parse ("ptr" ++ ":" ++ value) =
    (Spec.number "arg" .word value).map fun n => pointer (UInt64.ofNat n.toNat) := by
  rw [parse, Spec.split_append (by decide)]
  rfl

theorem parse_text (value : String) : parse ("str" ++ ":" ++ value) = .ok (text (some value)) := by
  rw [parse, Spec.split_append (by decide)]
  rfl

/-- A byte is read from a number if more than one character spells it. -/
theorem parse_char {value : List Char} (h : 1 < value.length) :
    parse ("char" ++ ":" ++ String.ofList value) =
      (Spec.number "arg" .byte (String.ofList value)).map fun n =>
        char (UInt8.ofNat n.toNat) := by
  have hlength := length_le_length_bytesOf value
  obtain ⟨first, second, rest, hbytes⟩ :
      ∃ first second rest, bytesOf (String.ofList value) = first :: second :: rest := by
    cases hbytes : bytesOf (String.ofList value) with
    | nil =>
      rw [hbytes, List.length_nil] at hlength
      omega
    | cons first others =>
      cases others with
      | nil =>
        rw [hbytes, List.length_singleton] at hlength
        omega
      | cons second rest => exact ⟨first, second, rest, rfl⟩
  rw [parse, Spec.split_append (by decide)]
  simp only [hbytes]

/-- Every one of these kinds takes the numbers of its range. -/
theorem takesNumbers {kind : Spec.NumberKind} (h : kind ∈ numberKinds) :
    Spec.TakesNumbers parse "arg" kind fun spec n => spec.number? = some (kind.name, n) := by
  simp only [numberKinds, List.mem_cons, List.not_mem_nil, or_false] at h
  obtain rfl | rfl | rfl | rfl := h
  · refine Spec.takesNumbers_of_parse_eq int Spec.standsFor_signedWord (by decide)
      (fun text _ => parse_int _) fun spec n => ?_
    cases spec <;> simp [number?]
  · refine Spec.takesNumbers_of_parse_eq uint Spec.standsFor_word (Int.le_refl _)
      (fun text _ => parse_uint _) fun spec n => ?_
    cases spec <;> simp [number?]
  · refine Spec.takesNumbers_of_parse_eq pointer Spec.standsFor_word (Int.le_refl _)
      (fun text _ => parse_pointer _) fun spec n => ?_
    cases spec <;> simp [number?]
  · refine Spec.takesNumbers_of_parse_eq char Spec.standsFor_byte (by decide)
      (fun text => parse_char) fun spec n => ?_
    cases spec <;> simp [number?]

/-- Every usual form of an operand is read as this operand. -/
theorem parse_forms {spec : ArgSpec} {form : String} (h : form ∈ spec.forms) :
    parse form = .ok spec := by
  have htaken : ∀ kind ∈ numberKinds, ∀ n, spec.number? = some (kind.name, n) →
      ∀ text, Text.SpellsInteger kind.range text n → kind.fewest ≤ text.length →
        parse (kind.name ++ ":" ++ String.ofList text) = .ok spec :=
    fun kind hkind n hnumber => (takesNumbers hkind).parse_eq spec n hnumber
  cases spec with
  | int value =>
    cases List.mem_singleton.mp h
    have hform := htaken ⟨"int", .signedWord, 0⟩ (by simp [numberKinds]) _ rfl _
      (Text.spellsInteger_toString _ _) (Nat.zero_le _)
    rwa [String.ofList_toList] at hform
  | uint value =>
    cases List.mem_singleton.mp h
    have hform := htaken ⟨"uint", .word, 0⟩ (by simp [numberKinds]) _ rfl _
      (Text.spellsInteger_toString _ _) (Nat.zero_le _)
    rwa [String.ofList_toList] at hform
  | char value =>
    cases List.mem_singleton.mp h
    exact htaken ⟨"char", .byte, 2⟩ (by simp [numberKinds]) _ rfl _
      (.hex (Text.spellsNumber_hexPair value)) (Nat.le_add_left 2 2)
  | pointer value =>
    have hkind : (⟨"ptr", .word, 0⟩ : Spec.NumberKind) ∈ numberKinds := by simp [numberKinds]
    rcases List.mem_pair.mp h with rfl | rfl
    · have hform := htaken ⟨"ptr", .word, 0⟩ hkind _ rfl _ (Text.spellsInteger_toString _ _)
        (Nat.zero_le _)
      rwa [String.ofList_toList] at hform
    · exact htaken ⟨"ptr", .word, 0⟩ hkind _ rfl _ (.hex (Text.spellsNumber_hexText value.toNat))
        (Nat.zero_le _)
  | text value =>
    cases value with
    | some value =>
      cases List.mem_singleton.mp h
      exact parse_text value
    | none =>
      cases List.mem_singleton.mp h
      rfl
  | count =>
    cases List.mem_singleton.mp h
    rfl

/-- An operand is read back from its JSON form. -/
theorem ofJson_toJson (spec : ArgSpec) : ofJson spec.toJson = .ok spec := by
  cases spec with
  | int value =>
    have hread : Json.asQuad (.ofQuad value) = .ok value.toInt :=
      Json.asInteger_integer value.le_toInt (Int.le_of_lt_add_one value.toInt_lt)
    change (do return int (Int64.ofInt (← Json.asQuad (.ofQuad value)))) = _
    rw [hread]
    exact congrArg (fun word => Except.ok (int word)) value.ofInt_toInt
  | uint value =>
    change (do return uint (UInt64.ofNat (← Json.asNat 64 (.ofWord value)))) = _
    rw [Json.asNat_ofWord]
    exact congrArg (fun word => Except.ok (uint word)) value.ofNat_toNat
  | char value =>
    have hvalue : (JsonInteger.ofNat value.toNat).value = value.toNat := by
      have hlt := value.toNat_lt
      exact congrArg Nat.cast (Nat.mod_eq_of_lt (by omega))
    have hle : (value.toNat : Int) ≤ 255 := Int.ofNat_le.mpr (Nat.le_of_lt_succ value.toNat_lt)
    have hread : Json.asNat 8 (.ofNat value.toNat) = .ok value.toNat := by
      rw [Json.asNat, Json.ofNat, Json.asInteger_integer, hvalue]
      · rfl
      · exact hvalue ▸ Int.natCast_nonneg _
      · exact hvalue ▸ hle
    change (do return char (UInt8.ofNat (← Json.asNat 8 (.ofNat value.toNat)))) = _
    rw [hread]
    exact congrArg (fun c => Except.ok (char c)) value.ofNat_toNat
  | pointer value =>
    change (do return pointer (UInt64.ofNat (← Json.asNat 64 (.ofWord value)))) = _
    rw [Json.asNat_ofWord]
    exact congrArg (fun word => Except.ok (pointer word)) value.ofNat_toNat
  | text value => cases value <;> rfl
  | count => rfl

theorem isChoice_toJson (spec : ArgSpec) : spec.toJson.IsChoice := by
  cases spec with
  | text value => cases value <;> exact .single rfl rfl
  | count => exact .bare _
  | _ => exact .single rfl rfl

end ArgSpec

/-! ## Targets -/

namespace TargetSpec

/-- The usual written forms of a target. -/
def forms : TargetSpec → List String
  | int => ["int"]
  | uint => ["uint"]
  | pointer => ["ptr"]
  | buffer size =>
    ["chars:" ++ toString (size.toNat : Int),
      "chars:" ++ String.ofList ('0' :: 'x' :: Text.hexText size.toNat)]
  | count => ["count"]

theorem parse_buffer (value : String) : parse ("chars" ++ ":" ++ value) =
    (Spec.number "target" .word value).map fun n => buffer (UInt64.ofNat n.toNat) := by
  rw [parse, Spec.split_append (by decide)]
  rfl

/-- The kind of target that takes a number, which is its size. -/
def sizeKind : Spec.NumberKind := ⟨"chars", .word, 0⟩

/-- It takes the numbers of a word. -/
theorem takesNumbers : Spec.TakesNumbers parse "target" sizeKind fun spec n =>
    ∃ size, spec = buffer size ∧ (size.toNat : Int) = n :=
  Spec.takesNumbers_of_parse_eq buffer Spec.standsFor_word (Int.le_refl _)
    (fun _ _ => parse_buffer _) fun _ _ => Iff.rfl

/-- Every usual form of a target is read as this target. -/
theorem parse_forms {spec : TargetSpec} {form : String} (h : form ∈ spec.forms) :
    parse form = .ok spec := by
  cases spec with
  | buffer size =>
    have htaken : ∀ text, Text.SpellsInteger .word text size.toNat →
        parse ("chars" ++ ":" ++ String.ofList text) = .ok (buffer size) := fun text htext =>
      takesNumbers.parse_eq _ _ ⟨size, rfl, rfl⟩ text htext (Nat.zero_le _)
    rcases List.mem_pair.mp h with rfl | rfl
    · have hform := htaken _ (Text.spellsInteger_toString _ _)
      rwa [String.ofList_toList] at hform
    · exact htaken _ (.hex (Text.spellsNumber_hexText size.toNat))
  | _ =>
    cases List.mem_singleton.mp h
    rfl

/-- A target is read back from its JSON form. -/
theorem ofJson_toJson (spec : TargetSpec) : ofJson spec.toJson = .ok spec := by
  cases spec with
  | buffer size =>
    change (do return buffer (UInt64.ofNat (← Json.asNat 64 (.ofWord size)))) = _
    rw [Json.asNat_ofWord]
    exact congrArg (fun word => Except.ok (buffer word)) size.ofNat_toNat
  | _ => rfl

theorem isChoice_toJson (spec : TargetSpec) : spec.toJson.IsChoice := by
  cases spec with
  | buffer size => exact .single rfl rfl
  | _ => exact .bare _

end TargetSpec

/-! ## The notations agree -/

/-- On the command line every operand and every target is read from each of its usual forms. A
number may be spelled in any other way as well, and one that is out of range is refused in
every spelling. In a case they are read back from their JSON forms, as values and as texts. -/
theorem Spec.notations_agree :
    (∀ spec : ArgSpec, ∀ form ∈ spec.forms, ArgSpec.parse form = .ok spec) ∧
    (∀ spec : TargetSpec, ∀ form ∈ spec.forms, TargetSpec.parse form = .ok spec) ∧
    (∀ kind ∈ ArgSpec.numberKinds, TakesNumbers ArgSpec.parse "arg" kind fun spec n =>
      spec.number? = some (kind.name, n)) ∧
    (TakesNumbers TargetSpec.parse "target" TargetSpec.sizeKind fun spec n =>
      ∃ size, spec = .buffer size ∧ (size.toNat : Int) = n) ∧
    (∀ spec : ArgSpec, ArgSpec.ofJson spec.toJson = .ok spec ∧
      (Json.parse? spec.toJson.compact).map ArgSpec.ofJson = some (.ok spec)) ∧
    (∀ spec : TargetSpec, TargetSpec.ofJson spec.toJson = .ok spec ∧
      (Json.parse? spec.toJson.compact).map TargetSpec.ofJson = some (.ok spec)) := by
  refine ⟨fun _ _ => ArgSpec.parse_forms, fun _ _ => TargetSpec.parse_forms,
    fun _ => ArgSpec.takesNumbers, TargetSpec.takesNumbers, fun spec => ?_, fun spec => ?_⟩
  · refine ⟨spec.ofJson_toJson, ?_⟩
    rw [spec.isChoice_toJson.parse?_compact, Option.map_some, spec.ofJson_toJson]
  · refine ⟨spec.ofJson_toJson, ?_⟩
    rw [spec.isChoice_toJson.parse?_compact, Option.map_some, spec.ofJson_toJson]

/-- An address in base 16, a text with a colon in it, and a number that only just does not
fit. -/
example : ArgSpec.parse "ptr:0xFF" = .ok (.pointer 255) ∧
    ArgSpec.parse "str:a:b" = .ok (.text (some "a:b")) ∧
    ArgSpec.parse "int:0x8000000000000000" =
      .error (.badInput "arg" (.notANumber "0x8000000000000000")) := by decide

end FormatScan
