import FormatScan.Json.Decode
import FormatScan.Proofs.Json.RoundTrip
import Mathlib.Data.List.Nodup

/-!
# Records that are written and read back

A record is written as an object with its fields as members. Where no two of these have the
same name, every field of the record is found again, with the tree of what was written for
it. What is read from the tree of some text is in the tree of that text.
-/

namespace FormatScan.Json

theorem sourcesOf_eq_map (items : List Json) : sourcesOf items = items.map sourceOf := by
  induction items with
  | nil => rfl
  | cons item items ih => rw [sourcesOf, ih, List.map_cons]

theorem memberSourcesOf_eq_map (members : List (String × Json)) :
    memberSourcesOf members = members.map fun member => (some member.1, sourceOf member.2) := by
  induction members with
  | nil => rfl
  | cons member members ih => rw [memberSourcesOf, ih, List.map_cons]

/-- A list is read item by item. -/
theorem mapM_eq_map {α β : Type} {read : α → Option β} {value : α → β} {items : List α}
    (h : ∀ item ∈ items, read item = some (value item)) :
    items.mapM read = some (items.map value) := by
  induction items with
  | nil => rfl
  | cons item items ih =>
    obtain ⟨hitem, hitems⟩ := List.forall_mem_cons.mp h
    rw [List.mapM_cons, hitem, ih hitems]
    rfl

/-- Items that are read back from their trees are read back from the trees of a list. -/
theorem mapM_sourcesOf {α : Type} {read : Source → Option α} {value : α → Json} {items : List α}
    (h : ∀ item ∈ items, read (sourceOf (value item)) = some item) :
    (sourcesOf (items.map value)).mapM read = some items := by
  rw [sourcesOf_eq_map, List.map_map, List.mapM_map]
  exact (mapM_eq_map h).trans (congrArg some (List.map_id items))

/-- What comes out of a list is read item by item. -/
theorem forall₂_of_mapM {α β : Type} {read : α → Option β} {items : List α} {values : List β}
    (h : items.mapM read = some values) :
    List.Forall₂ (fun item value => read item = some value) items values := by
  induction items generalizing values with
  | nil =>
    cases h
    exact .nil
  | cons item items ih =>
    rw [List.mapM_cons] at h
    obtain ⟨first, hfirst, h⟩ := Option.bind_eq_some_iff.mp h
    obtain ⟨others, hothers, h⟩ := Option.bind_eq_some_iff.mp h
    cases h
    exact .cons hfirst (ih hothers)

@[simp]
theorem exact_object {members : List (String × Json)} :
    (object members).Exact ↔ ∀ member ∈ members, member.2.Exact :=
  ⟨fun h _ hm => h.member hm, .object rfl⟩

@[simp]
theorem exact_array {items : List Json} : (array items).Exact ↔ ∀ item ∈ items, item.Exact := by
  constructor
  · intro h
    cases h with
    | scalar _ hc => cases hc
    | array _ hitems => exact hitems
  · exact .array rfl

@[simp]
theorem exact_bool (value : Bool) : (Json.bool value).Exact := .scalar rfl rfl

@[simp]
theorem exact_integer (n : JsonInteger) : (Json.integer n).Exact := .scalar rfl rfl

@[simp]
theorem exact_string (text : String) : (Json.string text).Exact := .scalar rfl rfl

@[simp]
theorem exact_ofNat (n : Nat) : (Json.ofNat n).Exact := exact_integer _

@[simp]
theorem exact_ofString? (value : Option String) : (Json.ofString? value).Exact := by
  cases value with
  | none => exact .scalar rfl rfl
  | some text => exact exact_string text

namespace Source

/-- A word is read back as it is. -/
theorem nat?_ofNat {n : Nat} (h : n ≤ Word.largest) : (sourceOf (.ofNat n)).nat? = some n := by
  have hwrap : (JsonInteger.ofNat n).value = n :=
    congrArg Nat.cast (Nat.mod_eq_of_lt (Nat.lt_succ_of_le h))
  simp [Json.ofNat, sourceOf, nat?, hwrap]

/-- A string that may be absent is read back, and its absence is told from an empty
string. -/
theorem optional?_ofString? (value : Option String) :
    (sourceOf (.ofString? value)).optional? string? = some value := by
  cases value with
  | none => rfl
  | some text => rfl

theorem string?_eq_some {tree : Source} {text : String} :
    tree.string? = some text ↔ tree = .string (some text) := by
  cases tree <;> simp [string?]

theorem items?_eq_some {tree : Source} {items : List Source} :
    tree.items? = some items ↔ tree = .array items := by
  cases tree <;> simp [items?]

/-- Only one member has the name of a member. -/
theorem filter_memberSourcesOf {members : List (String × Json)}
    (h : (members.map (·.1)).Nodup) {member : String × Json} (hm : member ∈ members) :
    (memberSourcesOf members).filter (fun other => other.1 == some member.1) =
      [(some member.1, sourceOf member.2)] := by
  obtain ⟨front, back, rfl⟩ := List.append_of_mem hm
  rw [List.map_append, List.map_cons] at h
  obtain ⟨-, hcons, hfront⟩ := List.nodup_append.mp h
  have hback := (List.nodup_cons.mp hcons).1
  have hother {other : String × Json} (hne : other.1 ≠ member.1) :
      ¬((some other.1 == some member.1) = true) := by
    simpa using hne
  have hfrontNone : front.filter (fun other => some other.1 == some member.1) = [] :=
    List.filter_eq_nil_iff.mpr fun other hm => hother
      (hfront _ (List.mem_map_of_mem hm) _ List.mem_cons_self)
  have hbackNone : back.filter (fun other => some other.1 == some member.1) = [] :=
    List.filter_eq_nil_iff.mpr fun other hm => hother
      fun heq => hback (heq ▸ List.mem_map_of_mem hm)
  rw [memberSourcesOf_eq_map, List.filter_map, List.filter_append, List.filter_cons]
  simp only [Function.comp_def, hfrontNone, hbackNone, beq_self_eq_true, if_true]
  rfl

/-- The fields of a record that was written as an object are the members of the object. -/
theorem record?_memberSourcesOf (members : List (String × Json)) (least : Nat)
    (h : (members.map (·.1)).Nodup) :
    (object (memberSourcesOf members)).record? (members.map (·.1)) least =
      some (members.map fun member => some (sourceOf member.2)) := by
  have hkeys : (memberSourcesOf members).any (fun member => member.1.isNone) = false := by
    simp [memberSourcesOf_eq_map]
  rw [record?, hkeys, if_neg Bool.false_ne_true, List.mapM_map]
  refine mapM_eq_map fun member hm => ?_
  rw [Function.comp_apply, filter_memberSourcesOf h hm]

/-- The fields of a record are trees inside its tree. -/
theorem Sound.record? {tree : Source} (h : tree.Sound) {names : List String} {least : Nat}
    {fields : List (Option Source)} (hf : tree.record? names least = some fields) :
    ∀ field ∈ fields, ∀ inner ∈ field, inner.Sound := by
  intro field hfield inner hinner
  cases hinner
  cases h with
  | word => cases hf
  | number => cases hf
  | string => cases hf
  | @array items hitems =>
    rw [Source.record?] at hf
    split at hf
    · cases hf
      obtain ⟨i, -, hi⟩ := List.mem_map.mp hfield
      exact hitems inner (List.mem_of_getElem? hi)
    · cases hf
  | @object members hmembers =>
    rw [Source.record?] at hf
    split at hf
    · cases hf
    · obtain ⟨name, -, hname⟩ := exists_mem_of_forall₂ (forall₂_of_mapM hf) hfield
      split at hname
      · cases hname
      · rename_i key value hone
        cases hname
        have hmem : (key, inner) ∈ members.filter (fun member => member.1 == some name) := by
          rw [hone]
          exact List.mem_singleton_self _
        exact hmembers _ (List.mem_filter.mp hmem).1
      · cases hname

/-- The items of a list are trees inside its tree. -/
theorem Sound.items? {tree : Source} (h : tree.Sound) {items : List Source}
    (hi : tree.items? = some items) : ∀ item ∈ items, item.Sound := by
  cases h with
  | array hitems =>
    cases hi
    exact hitems
  | _ => cases hi

end Source

/-! ## Steps of decoding -/

/-- A step that succeeds has a result, and goes on from it. -/
theorem exists_of_bind {α β : Type} {step : Decoded α} {next : α → Decoded β} {result : β}
    (h : step >>= next = .ok result) : ∃ x, step = .ok x ∧ next x = .ok result := by
  cases step with
  | error reason => cases h
  | ok x => exact ⟨x, rfl, h⟩

/-- A field that is read has a value. -/
theorem exists_of_present {α : Type} {fields : List (Option Json)} {index : Nat}
    {decode : Json → Decoded α} {x : α} (h : present fields index decode = .ok (some x)) :
    ∃ value, fields[index]? = some (some value) ∧ decode value = .ok x := by
  unfold present at h
  split at h
  · rename_i value hvalue
    refine ⟨value, hvalue, ?_⟩
    cases hdecode : decode value with
    | error reason =>
      rw [hdecode] at h
      cases h
    | ok y =>
      rw [hdecode] at h
      cases h
      rfl
  · cases h

/-- An unsigned number is below the number of words of its bits. -/
theorem lt_of_asNat {bits : Nat} {value : Json} {n : Nat} (h : asNat bits value = .ok n) :
    n < Word.count bits := by
  have hpos : 0 < Word.count bits := Nat.two_pow_pos bits
  unfold asNat asInteger at h
  split at h
  · split at h
    case isTrue hrange =>
      cases h
      rw [Bool.and_eq_true, decide_eq_true_eq, decide_eq_true_eq] at hrange
      omega
    case isFalse => cases h
  · cases h

end FormatScan.Json
