import FormatScan.Json.Value

/-!
# Members in order

Setting members one after the other leaves every key once, in increasing order,
with the value that was set last. Members that are in that order already stay as
they are, and keys that are not repeated keep their values.
-/

namespace FormatScan.Json

/-- Members whose keys increase strictly. -/
def Increasing (members : List (String × Json)) : Prop :=
  members.Pairwise fun first second => first.1 < second.1

/-- Members set in a list, one after the other. -/
def setMembers (ordered members : List (String × Json)) : List (String × Json) :=
  members.foldl (fun ordered (key, value) => setMember key value ordered) ordered

theorem ofMembers_eq (members : List (String × Json)) :
    ofMembers members = .object (setMembers [] members) := rfl

/-- One of two different strings that is not the greater is the smaller. -/
theorem lt_of_not_lt {first second : String} (h : ¬first < second) (hne : first ≠ second) :
    second < first := by
  have hle : second ≤ first := String.not_lt.mp h
  by_cases hlt : second < first
  · exact hlt
  · exact absurd (String.le_antisymm (String.not_lt.mp hlt) hle) hne

/-- Setting a member adds nothing else. -/
theorem mem_setMember {key : String} {value : Json} {members : List (String × Json)}
    {member : String × Json} (h : member ∈ setMember key value members) :
    member = (key, value) ∨ member ∈ members := by
  induction members with
  | nil => exact Or.inl (List.mem_singleton.mp h)
  | cons head rest ih =>
    obtain ⟨other, old⟩ := head
    unfold setMember at h
    split at h
    · exact List.mem_cons.mp h
    split at h
    · rcases List.mem_cons.mp h with h | h
      · exact Or.inl h
      · exact Or.inr (List.mem_cons_of_mem _ h)
    · rcases List.mem_cons.mp h with h | h
      · exact Or.inr (h ▸ List.mem_cons_self)
      · exact (ih h).imp_right (List.mem_cons_of_mem _)

/-- Setting a member keeps the keys in order. -/
theorem Increasing.setMember {members : List (String × Json)} (h : Increasing members)
    (key : String) (value : Json) : Increasing (setMember key value members) := by
  induction members with
  | nil => exact List.pairwise_singleton _ _
  | cons head rest ih =>
    obtain ⟨other, old⟩ := head
    obtain ⟨hhead, hrest⟩ := List.pairwise_cons.mp h
    unfold Json.setMember
    split
    case isTrue hlt =>
      refine List.pairwise_cons.mpr ⟨fun member hm => ?_, h⟩
      rcases List.mem_cons.mp hm with rfl | hm
      · exact hlt
      · exact String.lt_trans hlt (hhead member hm)
    case isFalse hnlt =>
    split
    case isTrue heq =>
      rw [← eq_of_beq heq] at hhead
      exact List.pairwise_cons.mpr ⟨hhead, hrest⟩
    case isFalse hne =>
      refine List.pairwise_cons.mpr ⟨fun member hm => ?_, ih hrest⟩
      rcases mem_setMember hm with rfl | hm
      · exact lt_of_not_lt hnlt (by simpa using hne)
      · exact hhead member hm

/-- Setting members keeps the keys in order. -/
theorem Increasing.setMembers {ordered : List (String × Json)} (h : Increasing ordered)
    (members : List (String × Json)) : Increasing (setMembers ordered members) := by
  induction members generalizing ordered with
  | nil => exact h
  | cons member members ih => exact ih (h.setMember member.1 member.2)

/-- Setting members adds nothing else. -/
theorem mem_setMembers {ordered members : List (String × Json)} {member : String × Json}
    (h : member ∈ setMembers ordered members) : member ∈ ordered ∨ member ∈ members := by
  induction members generalizing ordered with
  | nil => exact Or.inl h
  | cons head members ih =>
    rcases ih (show member ∈ setMembers (setMember head.1 head.2 ordered) members from h) with h | h
    · rcases mem_setMember h with rfl | h
      · exact Or.inr List.mem_cons_self
      · exact Or.inl h
    · exact Or.inr (List.mem_cons_of_mem _ h)

/-- A key behind all others is set at the end. -/
theorem setMember_of_greatest {key : String} {members : List (String × Json)}
    (h : ∀ member ∈ members, member.1 < key) (value : Json) :
    setMember key value members = members ++ [(key, value)] := by
  induction members with
  | nil => rfl
  | cons head rest ih =>
    obtain ⟨hhead, hrest⟩ := List.forall_mem_cons.mp h
    have hne : (key == head.1) = false := by
      have : key ≠ head.1 := fun heq => String.lt_irrefl key (heq ▸ hhead)
      simpa using this
    rw [setMember, if_neg (String.lt_asymm hhead), hne, if_neg Bool.false_ne_true, ih hrest,
      List.cons_append]

/-- Members in order are set one behind the other. -/
theorem setMembers_append {ordered members : List (String × Json)}
    (h : Increasing (ordered ++ members)) : setMembers ordered members = ordered ++ members := by
  induction members generalizing ordered with
  | nil => exact (List.append_nil ordered).symm
  | cons head members ih =>
    have hbehind : ∀ member ∈ ordered, member.1 < head.1 := fun member hm =>
      (List.pairwise_append.mp h).2.2 member hm head List.mem_cons_self
    have happend : ordered ++ head :: members = ordered ++ [head] ++ members := by simp
    rw [happend] at h ⊢
    rw [← ih h, ← setMember_of_greatest hbehind]
    rfl

/-- Members in order make up an object as they are. -/
theorem ofMembers_of_increasing {members : List (String × Json)} (h : Increasing members) :
    ofMembers members = .object members := by
  have hall := setMembers_append (List.nil_append members ▸ h)
  rw [List.nil_append] at hall
  rw [ofMembers_eq, hall]

theorem lookup_cons (key : String) (member : String × Json) (members : List (String × Json)) :
    lookup key (member :: members) =
      if member.1 == key then some member.2 else lookup key members := by
  unfold lookup
  rw [List.find?_cons]
  cases member.1 == key <;> rfl

/-- The value of a key is the value of a member. -/
theorem exists_mem_of_lookup {key : String} {members : List (String × Json)} {value : Json}
    (h : lookup key members = some value) : ∃ member ∈ members, member.2 = value := by
  obtain ⟨member, hfound, rfl⟩ := Option.map_eq_some_iff.mp h
  exact ⟨member, List.mem_of_find?_eq_some hfound, rfl⟩

/-- A key has its first value. -/
theorem lookup_append (key : String) (first second : List (String × Json)) :
    lookup key (first ++ second) = (lookup key first).or (lookup key second) := by
  unfold lookup
  rw [List.find?_append, Option.map_or]

/-- A key that was set has its new value, and every other key has its old one. -/
theorem lookup_setMember (key other : String) (value : Json) (members : List (String × Json)) :
    lookup other (setMember key value members) =
      if key == other then some value else lookup other members := by
  induction members with
  | nil => rw [setMember, lookup_cons]
  | cons head rest ih =>
    unfold setMember
    split
    · rw [lookup_cons]
    split
    case isTrue _ heq =>
      rw [lookup_cons, lookup_cons, ← eq_of_beq heq]
      cases key == other <;> rfl
    case isFalse _ hne =>
      rw [lookup_cons, ih, lookup_cons]
      cases hother : head.1 == other with
      | false => rfl
      | true =>
        have hkey : (key == other) = false := by
          have hk : key ≠ head.1 := by simpa using hne
          rw [← eq_of_beq hother]
          simpa using hk
        rw [hkey]
        rfl

/-- A key that is not set keeps its value. -/
theorem lookup_setMembers_of_not_mem {key : String} {members : List (String × Json)}
    (h : ∀ member ∈ members, member.1 ≠ key) (ordered : List (String × Json)) :
    lookup key (setMembers ordered members) = lookup key ordered := by
  induction members generalizing ordered with
  | nil => rfl
  | cons head members ih =>
    obtain ⟨hhead, hmembers⟩ := List.forall_mem_cons.mp h
    change lookup key (setMembers (setMember head.1 head.2 ordered) members) = _
    have hne : (head.1 == key) = false := by simpa using hhead
    rw [ih hmembers, lookup_setMember, hne]
    rfl

/-- The object of some members without a repeated key gives every key the value
that it has among them. -/
theorem lookup_setMembers {members : List (String × Json)}
    (h : members.Pairwise fun first second => first.1 ≠ second.1) (key : String)
    (ordered : List (String × Json)) :
    lookup key (setMembers ordered members) = (lookup key members).or (lookup key ordered) := by
  induction members generalizing ordered with
  | nil => rfl
  | cons head members ih =>
    obtain ⟨hhead, hmembers⟩ := List.pairwise_cons.mp h
    change lookup key (setMembers (setMember head.1 head.2 ordered) members) = _
    rw [lookup_cons]
    cases hkey : head.1 == key with
    | false =>
      rw [ih hmembers, lookup_setMember, hkey]
      rfl
    | true =>
      have habsent : ∀ member ∈ members, member.1 ≠ key := fun member hm heq =>
        hhead member hm ((eq_of_beq hkey).trans heq.symm)
      rw [lookup_setMembers_of_not_mem habsent, lookup_setMember, hkey]
      rfl

end FormatScan.Json
