import FormatScan.Proofs.Json.RoundTrip

/-!
# What value a tree stands for

A list has the values of its items, in their order. An object has each of its keys once,
the keys in order; a key that is repeated has the value of its last member.
-/

namespace FormatScan.Json

/-- Members that are set one after the other leave every key with its last value. -/
theorem lookup_setMembers_reverse (key : String) (ordered members : List (String × Json)) :
    lookup key (setMembers ordered members) =
      (lookup key members.reverse).or (lookup key ordered) := by
  induction members generalizing ordered with
  | nil => rfl
  | cons head members ih =>
    change lookup key (setMembers (setMember head.1 head.2 ordered) members) = _
    rw [ih, List.reverse_cons, lookup_append, lookup_setMember, lookup_cons, Option.or_assoc]
    cases head.1 == key <;> rfl

namespace Source

/-- The tree of the first member with a key. -/
def first? (key : String) (members : List (Option String × Source)) : Option Source :=
  (members.find? fun member => member.1 == some key).map (·.2)

/-- A value that a tree stands for. -/
inductive Denotes : Source → Json → Prop
  /-- One of the three words. -/
  | word {value : Json} : Denotes (.word value) value
  /-- A number. -/
  | number {value : Json} : Denotes (.number (some value)) value
  /-- A string. -/
  | string {text : String} : Denotes (.string (some text)) (.string text)
  /-- A list, item by item. -/
  | array {items : List Source} {values : List Json} (h : List.Forall₂ Denotes items values) :
      Denotes (.array items) (.array values)
  /-- An object: its keys are in order, and each has what the last member with it stands
  for. -/
  | object {members : List (Option String × Source)} {values : List (String × Json)}
      (hkeys : Increasing values)
      (h : ∀ key, Option.Rel Denotes (first? key members.reverse) (lookup key values)) :
      Denotes (.object members) (.object values)

/-- Members that have values, one by one, have them for every key. -/
theorem rel_first?_lookup {members : List (Option String × Source)} {values : List (String × Json)}
    (h : List.Forall₂ (fun member value => member.1 = some value.1 ∧ Denotes member.2 value.2)
      members values) (key : String) :
    Option.Rel Denotes (first? key members) (lookup key values) := by
  induction h with
  | nil => exact .none
  | @cons member value members values hhead _ ih =>
    obtain ⟨hkey, hvalue⟩ := hhead
    have hsame : (member.1 == some key) = (value.1 == key) := by
      rw [hkey]
      rfl
    rw [first?, List.find?_cons, lookup_cons, hsame]
    cases value.1 == key with
    | true => exact .some hvalue
    | false => exact ih

/-- The value of a tree is what it stands for. -/
theorem Sound.denotes {tree : Source} (h : tree.Sound) {levels : Nat} {value : Json}
    (hv : tree.value? levels = some value) : tree.Denotes value := by
  induction h generalizing levels value with
  | word =>
    cases hv
    exact .word
  | number =>
    cases hv
    exact .number
  | string =>
    obtain ⟨text, rfl, rfl⟩ := Option.map_eq_some_iff.mp hv
    exact .string
  | @array items _ ih =>
    cases levels with
    | zero => cases hv
    | succ levels =>
      obtain ⟨values, hvalues, rfl⟩ := Option.map_eq_some_iff.mp hv
      have hitems := (List.forall₂_and_left _ _).mpr ⟨ih, forall₂_of_values? hvalues⟩
      exact .array (hitems.imp fun item value ⟨hdenotes, hvalue⟩ => hdenotes hvalue)
  | @object members _ ih =>
    cases levels with
    | zero => cases hv
    | succ levels =>
      obtain ⟨values, hvalues, rfl⟩ := Option.map_eq_some_iff.mp hv
      have hmembers := (List.forall₂_and_left _ _).mpr ⟨ih, forall₂_of_memberValues? hvalues⟩
      have hdenotes : List.Forall₂ (fun member value => member.1 = some value.1 ∧
          Denotes member.2 value.2) members values :=
        hmembers.imp fun member value ⟨hdenotes, hkey, hvalue⟩ => ⟨hkey, hdenotes hvalue⟩
      have hkeys : Increasing (setMembers [] values) := .setMembers .nil values
      have hnone (key : String) : lookup key [] = none := rfl
      rw [ofMembers_eq]
      refine .object hkeys fun key => ?_
      rw [lookup_setMembers_reverse, hnone, Option.or_none]
      exact rel_first?_lookup (List.forall₂_reverse_iff.mpr hdenotes) key

end Source

end FormatScan.Json
