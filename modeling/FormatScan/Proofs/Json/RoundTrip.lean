import FormatScan.Proofs.Json.Members
import FormatScan.Proofs.Json.Reading
import Mathlib.Data.List.Forall2

/-!
# Values that are written and read back

The tree of a value has that value, when its containers are not nested too deeply
and its objects have their keys in order; an object whose keys are in no order comes
back with the same members in order. In the other direction, whatever text a value
was read from, its objects have their keys in order.
-/

namespace FormatScan.Json

mutual

/-- How deep the containers of a value are nested. -/
def depth : Json → Nat
  | .array items => itemsDepth items + 1
  | .object members => membersDepth members + 1
  | _ => 0

/-- How deep the containers in some items are nested. -/
def itemsDepth : List Json → Nat
  | [] => 0
  | item :: rest => max (depth item) (itemsDepth rest)

/-- How deep the containers in some members are nested. -/
def membersDepth : List (String × Json) → Nat
  | [] => 0
  | (_, value) :: rest => max (depth value) (membersDepth rest)

end

/-- A value that is no object, or one whose keys are in order. -/
def HasOrder : Json → Prop
  | .object members => Increasing members
  | _ => True

/-- A value whose objects have their keys in order. An object is kept by its keys, so a
value that was put together member by member (`ordered_ofMembers`) or read from a text
(`ordered_of_parse?`) is of this kind. -/
def Ordered : Json → Prop := Everywhere HasOrder

/-- A value that is no container is not nested at all. -/
theorem depth_scalar {value : Json} (h : value.isContainer = false) (levels : Nat) :
    value.depth ≤ levels := by
  cases value with
  | array items => cases h
  | object members => cases h
  | _ => exact Nat.zero_le _

/-- A list is nested as deep as its items are. -/
theorem itemsDepth_le {items : List Json} {levels : Nat} :
    itemsDepth items ≤ levels ↔ ∀ item ∈ items, item.depth ≤ levels := by
  induction items with
  | nil => simp [itemsDepth]
  | cons item items ih => rw [itemsDepth, Nat.max_le, ih, List.forall_mem_cons]

/-- A list of members is nested as deep as their values are. -/
theorem membersDepth_le {members : List (String × Json)} {levels : Nat} :
    membersDepth members ≤ levels ↔ ∀ member ∈ members, member.2.depth ≤ levels := by
  induction members with
  | nil => simp [membersDepth]
  | cons member members ih => rw [membersDepth, Nat.max_le, ih, List.forall_mem_cons]

/-- The trees of items that have their values have the values of the list. -/
theorem values?_sourcesOf {levels : Nat} {items : List Json}
    (h : ∀ item ∈ items, Source.value? levels (sourceOf item) = some item) :
    Source.values? levels (sourcesOf items) = some items := by
  induction items with
  | nil => rfl
  | cons item items ih =>
    obtain ⟨hitem, hitems⟩ := List.forall_mem_cons.mp h
    rw [sourcesOf, Source.values?, hitem, ih hitems]

/-- The trees of members that have their values have the values of the list. -/
theorem memberValues?_memberSourcesOf {levels : Nat} {members : List (String × Json)}
    (h : ∀ member ∈ members, Source.value? levels (sourceOf member.2) = some member.2) :
    Source.memberValues? levels (memberSourcesOf members) = some members := by
  induction members with
  | nil => rfl
  | cons member members ih =>
    obtain ⟨hmember, hmembers⟩ := List.forall_mem_cons.mp h
    simp only [memberSourcesOf, Source.memberValues?, hmember, ih hmembers]

/-- The tree of a value whose keys are in order has that value. -/
theorem Ordered.value?_sourceOf {value : Json} (h : value.Ordered) {levels : Nat}
    (hd : value.depth ≤ levels) : Source.value? levels (sourceOf value) = some value := by
  induction h generalizing levels with
  | @scalar value _ hc =>
    cases value with
    | array items => cases hc
    | object members => cases hc
    | _ => rfl
  | @array items _ _ ih =>
    rw [depth] at hd
    obtain ⟨below, rfl⟩ : ∃ below, levels = below + 1 := ⟨levels - 1, by omega⟩
    have hitems : Source.values? below (sourcesOf items) = some items := by
      refine values?_sourcesOf fun item hm => ih item hm ?_
      exact itemsDepth_le.mp (Nat.le_of_succ_le_succ hd) item hm
    rw [sourceOf, Source.value?, hitems]
    rfl
  | @object members hkeys _ ih =>
    rw [depth] at hd
    obtain ⟨below, rfl⟩ : ∃ below, levels = below + 1 := ⟨levels - 1, by omega⟩
    have hmembers : Source.memberValues? below (memberSourcesOf members) = some members := by
      refine memberValues?_memberSourcesOf fun member hm => ih member hm ?_
      exact membersDepth_le.mp (Nat.le_of_succ_le_succ hd) member hm
    rw [sourceOf, Source.value?, hmembers]
    exact congrArg some (ofMembers_of_increasing hkeys)

/-- A value without doubles whose objects have their keys in order is read back from
its text in any layout that adds blanks only. -/
theorem parse?_print {value : Json} (he : value.Exact) (ho : value.Ordered)
    (hd : value.depth ≤ Source.nestingLimit) {layout : Layout} (hl : layout.Spaced) :
    parse? (String.ofList (printAt layout 0 value)) = some value := by
  rw [parse?, he.parse?_print hl]
  exact ho.value?_sourceOf hd

/-- An object of such values is read back with its members in order. -/
theorem parse?_print_object {members : List (String × Json)}
    (h : ∀ member ∈ members,
      member.2.Exact ∧ member.2.Ordered ∧ member.2.depth < Source.nestingLimit)
    {layout : Layout} (hl : layout.Spaced) :
    parse? (String.ofList (printAt layout 0 (.object members))) = some (ofMembers members) := by
  have hexact : (Json.object members).Exact :=
    .object rfl fun member hm => (h member hm).1
  have hvalues : Source.memberValues? 126 (memberSourcesOf members) = some members :=
    memberValues?_memberSourcesOf fun member hm =>
      (h member hm).2.1.value?_sourceOf (Nat.le_of_lt_succ (h member hm).2.2)
  rw [parse?, hexact.parse?_print hl]
  change (Source.memberValues? 126 (memberSourcesOf members)).map ofMembers = _
  rw [hvalues]
  rfl

/-- A value that is no container has its keys in order. -/
theorem ordered_scalar {value : Json} (h : value.isContainer = false) : value.Ordered := by
  refine .scalar ?_ h
  cases value with
  | object members => cases h
  | _ => trivial

/-- The members of ordered values make up an ordered object, in whatever order they
come. -/
theorem ordered_ofMembers {members : List (String × Json)}
    (h : ∀ member ∈ members, member.2.Ordered) : (ofMembers members).Ordered := by
  have hnone : Increasing [] := List.Pairwise.nil
  refine .object (hnone.setMembers members) fun member hm => ?_
  rcases mem_setMembers hm with hm | hm
  · cases hm
  · exact h member hm

/-- The value of a number is no container. -/
theorem isContainer_of_value? {n : NumberText} {value : Json} (h : n.value? = some value) :
    value.isContainer = false := by
  have hreal : ∀ {found : Option UInt64}, found.map Json.real = some value →
      value.isContainer = false := by
    intro found hfound
    obtain ⟨bits, -, rfl⟩ := Option.map_eq_some_iff.mp hfound
    rfl
  unfold NumberText.value? at h
  dsimp only at h
  split at h
  · split at h
    · split at h
      · cases h
        rfl
      · cases h
    · exact hreal h
  · split at h
    · exact hreal h
    split at h
    · cases h
      rfl
    · split at h
      · cases h
        rfl
      · exact hreal h

/-- A token whose value, if it has one, is no container. -/
def Token.Sound : Token → Prop
  | .word value => value.isContainer = false
  | .number value => ∀ n ∈ value, n.isContainer = false
  | _ => True

/-- Every token of a text is of this kind. -/
theorem sound_of_readToken {text after : List Char} {token : Token}
    (h : readToken text = some (token, after)) : token.Sound := by
  have hnumber : ∀ n : NumberText, (Token.number n.value?).Sound :=
    fun n value hvalue => isContainer_of_value? hvalue
  unfold readToken at h
  split at h
  · cases h
  · cases h
    rfl
  · cases h
    rfl
  · cases h
    rfl
  · obtain ⟨⟨units, rest⟩, -, heq⟩ := Option.map_eq_some_iff.mp h
    cases heq
    trivial
  · obtain ⟨⟨n, rest⟩, -, heq⟩ := Option.map_eq_some_iff.mp h
    cases heq
    exact hnumber n
  · split at h
    · rename_i mark hmark
      cases h
      unfold punctuation? at hmark
      split at hmark
      all_goals cases hmark
      all_goals trivial
    · obtain ⟨⟨n, rest⟩, -, heq⟩ := Option.map_eq_some_iff.mp h
      cases heq
      exact hnumber n

/-- What is related item by item to a list is related to its items. -/
theorem exists_mem_of_forall₂ {α β : Type} {related : α → β → Prop} {first : List α}
    {second : List β} (h : List.Forall₂ related first second) {b : β} (hb : b ∈ second) :
    ∃ a ∈ first, related a b := by
  induction h with
  | nil => cases hb
  | @cons a c first second hhead _ ih =>
    rcases List.mem_cons.mp hb with rfl | hb
    · exact ⟨a, List.mem_cons_self, hhead⟩
    · obtain ⟨found, hfound, hrelated⟩ := ih hb
      exact ⟨found, List.mem_cons_of_mem _ hfound, hrelated⟩

theorem sound_of_tokens? {text : List Char} {tokens : List Token}
    (h : tokens? text = some tokens) : ∀ token ∈ tokens, token.Sound := by
  fun_induction tokens? text generalizing tokens with
  | case1 =>
    cases h
    exact List.forall_mem_nil _
  | case2 c rest hblank ih => exact ih h
  | case3 => cases h
  | case4 c rest hblank token after hread ih =>
    obtain ⟨others, hothers, rfl⟩ := Option.map_eq_some_iff.mp h
    exact List.forall_mem_cons.mpr ⟨sound_of_readToken hread, ih hothers⟩

namespace Source

/-- A tree whose words and numbers are no containers. -/
inductive Sound : Source → Prop
  | word {value : Json} (h : value.isContainer = false) : Sound (.word value)
  | number {value : Option Json} (h : ∀ n ∈ value, n.isContainer = false) : Sound (.number value)
  | string {text : Option String} : Sound (.string text)
  | array {items : List Source} (h : ∀ item ∈ items, Sound item) : Sound (.array items)
  | object {members : List (Option String × Source)} (h : ∀ member ∈ members, Sound member.2) :
      Sound (.object members)

/-- An open container with such trees. -/
def Frame.Sound : Frame → Prop
  | .array items => ∀ item ∈ items, Source.Sound item
  | .object members _ => ∀ member ∈ members, Source.Sound member.2

/-- A reader that has come upon such trees only. -/
def Reader.Sound : Reader → Prop
  | .awaitValue stack | .awaitItem stack | .awaitMember stack => ∀ frame ∈ stack, frame.Sound
  | .awaitKey members stack | .awaitColon members _ stack =>
    (∀ member ∈ members, Source.Sound member.2) ∧ ∀ frame ∈ stack, frame.Sound
  | .complete tree stack => Source.Sound tree ∧ ∀ frame ∈ stack, frame.Sound

/-- The first token of a value leads to such a reader. -/
theorem Reader.sound_of_begin? {stack : List Frame} {token : Token} {next : Reader}
    (hs : ∀ frame ∈ stack, frame.Sound) (ht : token.Sound) (h : begin? stack token = some next) :
    next.Sound := by
  cases token
  case word => cases h; exact ⟨.word ht, hs⟩
  case number => cases h; exact ⟨.number ht, hs⟩
  case string => cases h; exact ⟨.string, hs⟩
  case openArray => cases h; exact hs
  case openObject => cases h; exact hs
  all_goals cases h

/-- So does every further token. -/
theorem Reader.Sound.step {reader next : Reader} {token : Token} (h : reader.Sound)
    (ht : token.Sound) (hs : reader.step token = some next) : next.Sound := by
  -- the cases are those of the step, in the order in which it is defined
  unfold Reader.step at hs
  split at hs
  · exact sound_of_begin? h ht hs
  · cases hs
    exact ⟨.array (List.forall_mem_nil _), h⟩
  · have hempty : Frame.Sound (.array []) := List.forall_mem_nil _
    exact sound_of_begin? (List.forall_mem_cons.mpr ⟨hempty, h⟩) ht hs
  · cases hs
    exact ⟨.object (List.forall_mem_nil _), h⟩
  · cases hs
    exact ⟨List.forall_mem_nil _, h⟩
  · cases hs
    exact h
  · cases hs
    exact List.forall_mem_cons.mpr ⟨h.1, h.2⟩
  · cases hs
    obtain ⟨htree, hstack⟩ := h
    obtain ⟨hitems, hstack⟩ := List.forall_mem_cons.mp hstack
    exact List.forall_mem_cons.mpr ⟨List.forall_mem_cons.mpr ⟨htree, hitems⟩, hstack⟩
  · cases hs
    obtain ⟨htree, hstack⟩ := h
    obtain ⟨hitems, hstack⟩ := List.forall_mem_cons.mp hstack
    have hall := List.forall_mem_cons.mpr ⟨htree, hitems⟩
    exact ⟨.array fun item hm => hall item (List.mem_reverse.mp hm), hstack⟩
  · cases hs
    obtain ⟨htree, hstack⟩ := h
    obtain ⟨hmembers, hstack⟩ := List.forall_mem_cons.mp hstack
    exact ⟨List.forall_mem_cons.mpr ⟨htree, hmembers⟩, hstack⟩
  · cases hs
    obtain ⟨htree, hstack⟩ := h
    obtain ⟨hmembers, hstack⟩ := List.forall_mem_cons.mp hstack
    refine ⟨.object fun member hm => ?_, hstack⟩
    rcases List.mem_cons.mp (List.mem_reverse.mp hm) with rfl | hm
    · exact htree
    · exact hmembers member hm
  · cases hs

theorem Reader.Sound.run {tokens : List Token} {reader last : Reader} (h : reader.Sound)
    (ht : ∀ token ∈ tokens, token.Sound) (hr : reader.run tokens = some last) : last.Sound := by
  induction tokens generalizing reader with
  | nil =>
    cases hr
    exact h
  | cons token tokens ih =>
    obtain ⟨htoken, htokens⟩ := List.forall_mem_cons.mp ht
    unfold Reader.run at hr
    split at hr
    · rename_i next hstep
      exact ih (h.step htoken hstep) htokens hr
    · cases hr

/-- The tree of a text is of this kind. -/
theorem sound_of_parse? {text : String} {tree : Source} (h : parse? text = some tree) :
    tree.Sound := by
  unfold parse? at h
  split at h
  · cases h
  · rename_i tokens htokens
    split at h
    · rename_i last hlast
      cases h
      have hstart : (Reader.awaitValue []).Sound := List.forall_mem_nil _
      exact (hstart.run (sound_of_tokens? htokens) hlast).1
    · cases h

/-- The values of a list are those of its items, in their order. -/
theorem forall₂_of_values? {levels : Nat} {items : List Source} {values : List Json}
    (h : values? levels items = some values) :
    List.Forall₂ (fun item value => value? levels item = some value) items values := by
  induction items generalizing values with
  | nil =>
    cases h
    exact .nil
  | cons item items ih =>
    unfold values? at h
    split at h
    · rename_i value others hvalue hothers
      cases h
      exact .cons hvalue (ih hothers)
    · cases h

/-- The values of some members are those of their trees, with the keys and in the order of the
members. -/
theorem forall₂_of_memberValues? {levels : Nat} {members : List (Option String × Source)}
    {values : List (String × Json)} (h : memberValues? levels members = some values) :
    List.Forall₂ (fun member value => member.1 = some value.1 ∧
      value? levels member.2 = some value.2) members values := by
  induction members generalizing values with
  | nil =>
    cases h
    exact .nil
  | cons member members ih =>
    unfold memberValues? at h
    split at h
    · rename_i key value others hkey hvalue hothers
      cases h
      exact .cons ⟨hkey, hvalue⟩ (ih hothers)
    · cases h

/-- The values of the items of a list come from its items. -/
theorem forall_mem_of_values? {p : Json → Prop} {levels : Nat} {items : List Source}
    {values : List Json} (hp : ∀ item ∈ items, ∀ value, value? levels item = some value → p value)
    (h : values? levels items = some values) : ∀ value ∈ values, p value := by
  intro value hm
  obtain ⟨item, hitem, hvalue⟩ := exists_mem_of_forall₂ (forall₂_of_values? h) hm
  exact hp item hitem value hvalue

/-- The values of the members of a list come from its members. -/
theorem forall_mem_of_memberValues? {p : Json → Prop} {levels : Nat}
    {members : List (Option String × Source)} {values : List (String × Json)}
    (hp : ∀ member ∈ members, ∀ value, value? levels member.2 = some value → p value)
    (h : memberValues? levels members = some values) : ∀ member ∈ values, p member.2 := by
  intro value hm
  obtain ⟨member, hmember, -, hvalue⟩ := exists_mem_of_forall₂ (forall₂_of_memberValues? h) hm
  exact hp member hmember value.2 hvalue

/-- The value of such a tree has its keys in order. -/
theorem Sound.ordered {tree : Source} (h : tree.Sound) {levels : Nat} {value : Json}
    (hv : tree.value? levels = some value) : value.Ordered := by
  induction h generalizing levels value with
  | word h =>
    cases hv
    exact ordered_scalar h
  | number h => exact ordered_scalar (h value hv)
  | string =>
    obtain ⟨text, -, rfl⟩ := Option.map_eq_some_iff.mp hv
    exact ordered_scalar rfl
  | array _ ih =>
    cases levels with
    | zero => cases hv
    | succ levels =>
      obtain ⟨values, hvalues, rfl⟩ := Option.map_eq_some_iff.mp hv
      exact .array trivial (forall_mem_of_values? (fun item hm _ => ih item hm) hvalues)
  | object _ ih =>
    cases levels with
    | zero => cases hv
    | succ levels =>
      obtain ⟨values, hvalues, rfl⟩ := Option.map_eq_some_iff.mp hv
      refine ordered_ofMembers ?_
      exact forall_mem_of_memberValues? (fun member hm _ => ih member hm) hvalues

/-- The value of such a tree is nested no deeper than it may be. -/
theorem Sound.depth_le {tree : Source} (h : tree.Sound) {levels : Nat} {value : Json}
    (hv : tree.value? levels = some value) : value.depth ≤ levels := by
  induction h generalizing levels value with
  | word h =>
    cases hv
    exact depth_scalar h levels
  | number h => exact depth_scalar (h value hv) levels
  | string =>
    obtain ⟨text, -, rfl⟩ := Option.map_eq_some_iff.mp hv
    exact Nat.zero_le _
  | array _ ih =>
    cases levels with
    | zero => cases hv
    | succ levels =>
      obtain ⟨values, hvalues, rfl⟩ := Option.map_eq_some_iff.mp hv
      rw [depth]
      exact Nat.succ_le_succ (itemsDepth_le.mpr
        (forall_mem_of_values? (fun item hm _ => ih item hm) hvalues))
  | object _ ih =>
    cases levels with
    | zero => cases hv
    | succ levels =>
      obtain ⟨values, hvalues, rfl⟩ := Option.map_eq_some_iff.mp hv
      have hvalues := forall_mem_of_memberValues? (fun member hm _ => ih member hm) hvalues
      rw [ofMembers_eq, depth]
      refine Nat.succ_le_succ (membersDepth_le.mpr fun member hm => ?_)
      rcases mem_setMembers hm with hm | hm
      · cases hm
      · exact hvalues member hm

end Source

/-- The value of a text has the keys of its objects in order. -/
theorem ordered_of_parse? {text : String} {value : Json} (h : parse? text = some value) :
    value.Ordered := by
  obtain ⟨tree, htree, hvalue⟩ := Option.bind_eq_some_iff.mp h
  exact (Source.sound_of_parse? htree).ordered hvalue

end FormatScan.Json
