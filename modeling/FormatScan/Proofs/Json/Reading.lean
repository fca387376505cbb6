import FormatScan.Json.Source
import FormatScan.Proofs.Json.Spelling

/-!
# Written values as trees

A value without doubles is read back from its own text as the tree that says the
same: members in their order, every string and number with its value. It does not
matter which layout the text is in, as long as that adds blanks only.

Reading goes token by token, and a token is read from the front of the text. So the
proof follows a reader: in front of a written value it waits for one, and behind
that text it has the tree complete, with the containers around it as they were.
-/

namespace FormatScan.Json

/-- Whether a value has other values inside it. -/
def isContainer : Json → Bool
  | .array _ | .object _ => true
  | _ => false

/-- Whether a value is a number that is no integer. -/
def isReal : Json → Bool
  | .real _ => true
  | _ => false

/-- A property that a value has together with all values inside it. -/
inductive Everywhere (p : Json → Prop) : Json → Prop
  /-- A value that is no container. -/
  | scalar {value : Json} (h : p value) (hc : value.isContainer = false) : Everywhere p value
  /-- An array with its items. -/
  | array {items : List Json} (h : p (.array items)) (hi : ∀ item ∈ items, Everywhere p item) :
      Everywhere p (.array items)
  /-- An object with its members. -/
  | object {members : List (String × Json)} (h : p (.object members))
      (hm : ∀ member ∈ members, Everywhere p member.2) : Everywhere p (.object members)

/-- What holds everywhere in an object holds everywhere in its members. -/
theorem Everywhere.member {p : Json → Prop} {members : List (String × Json)}
    (h : Everywhere p (.object members)) {member : String × Json} (hm : member ∈ members) :
    Everywhere p member.2 := by
  cases h with
  | scalar _ hc => cases hc
  | object _ hmembers => exact hmembers member hm

/-- A value in which every number is an integer. -/
def Exact : Json → Prop := Everywhere fun value => value.isReal = false

mutual

/-- The tree that says what a value is. -/
def sourceOf : Json → Source
  | .null => .word .null
  | .bool value => .word (.bool value)
  | .integer n => .number (some (.integer n))
  | .real bits => .number (some (.real bits))
  | .string text => .string (some text)
  | .array items => .array (sourcesOf items)
  | .object members => .object (memberSourcesOf members)

/-- The trees of some items. -/
def sourcesOf : List Json → List Source
  | [] => []
  | item :: rest => sourceOf item :: sourcesOf rest

/-- The trees of some members. -/
def memberSourcesOf : List (String × Json) → List (Option String × Source)
  | [] => []
  | (key, value) :: rest => (some key, sourceOf value) :: memberSourcesOf rest

end

/-- The characters that are blanks. -/
theorem eq_of_isBlank {c : Char} (hc : isBlank c = true) :
    c = ' ' ∨ c = '\t' ∨ c = '\n' ∨ c = '\r' := by
  simpa [isBlank, or_assoc] using hc

/-- A layout that puts blanks between tokens and nothing else. -/
structure Layout.Spaced (layout : Layout) : Prop where
  /-- Items are separated by blanks. -/
  lineBreak : ∀ depth, ∀ c ∈ layout.lineBreak depth, isBlank c = true
  /-- A key is separated from its value by a colon and blanks. -/
  colon : ∃ blanks, layout.colon = ':' :: blanks ∧ ∀ c ∈ blanks, isBlank c = true

/-- The compact layout has no blanks. -/
theorem Layout.spaced_compact : Layout.compact.Spaced where
  lineBreak _ := List.forall_mem_nil _
  colon := ⟨[], rfl, List.forall_mem_nil _⟩

/-- The indented layout has line ends and spaces. -/
theorem Layout.spaced_indented : Layout.indented.Spaced where
  lineBreak depth := by
    simp only [Layout.indented, List.forall_mem_cons]
    refine ⟨rfl, fun c hc => ?_⟩
    rw [List.eq_of_mem_replicate hc]
    rfl
  colon := ⟨[' '], rfl, List.forall_mem_cons.mpr ⟨rfl, List.forall_mem_nil _⟩⟩

namespace Source

/-- What a reader comes to behind a text, if all of its tokens may follow. -/
def Reader.read (reader : Reader) (text : List Char) : Option Reader :=
  (tokens? text).bind reader.run

/-- Nothing is left to be read in an empty text. -/
@[simp] theorem Reader.read_nil (reader : Reader) : reader.read [] = some reader := by
  rw [Reader.read, tokens?]
  rfl

/-- Blanks are passed over. -/
theorem Reader.read_blanks (reader : Reader) {blanks : List Char}
    (hb : ∀ c ∈ blanks, isBlank c = true) (text : List Char) :
    reader.read (blanks ++ text) = reader.read text := by
  induction blanks with
  | nil => rfl
  | cons c blanks ih =>
    obtain ⟨hc, hrest⟩ := List.forall_mem_cons.mp hb
    rw [← ih hrest, List.cons_append, Reader.read, tokens?, if_pos hc]
    rfl

/-- No token starts with a blank. -/
theorem readToken_blank {c : Char} (hc : isBlank c = true) (rest : List Char) :
    readToken (c :: rest) = none := by
  rcases eq_of_isBlank hc with rfl | rfl | rfl | rfl
  all_goals rfl

/-- A token takes the reader one step. -/
theorem Reader.read_token {reader : Reader} (next : Reader) {text after : List Char}
    {token : Token} (ht : readToken text = some (token, after))
    (hs : reader.step token = some next) :
    reader.read text = next.read after := by
  cases text with
  | nil => cases ht
  | cons c rest =>
    have hc : ¬isBlank c = true := by
      intro hc
      rw [readToken_blank hc] at ht
      cases ht
    have htokens : tokens? (c :: rest) = (tokens? after).map (token :: ·) := by
      rw [tokens?, if_neg hc]
      split
      · rename_i hnone
        rw [ht] at hnone
        cases hnone
      · rename_i hsome
        rw [ht] at hsome
        cases hsome
        rfl
    unfold Reader.read
    rw [htokens]
    cases tokens? after with
    | none => rfl
    | some tokens =>
      change reader.run (token :: tokens) = next.run tokens
      rw [Reader.run, hs]

/-- A reader that waits for a value to stand in some open containers. -/
def Reader.Awaits (reader : Reader) (stack : List Frame) : Prop :=
  ∀ token, token ≠ .closeArray → reader.step token = begin? stack token

theorem Reader.awaits_value (stack : List Frame) : (awaitValue stack).Awaits stack :=
  fun _ _ => rfl

theorem Reader.awaits_item (stack : List Frame) :
    (awaitItem stack).Awaits (.array [] :: stack) := by
  intro token htoken
  cases token
  case closeArray => exact absurd rfl htoken
  all_goals rfl

end Source

open Source (Frame Reader)

/-- A blank goes on with no number. -/
theorem endsNumber_blanks {blanks rest : List Char} (hb : ∀ c ∈ blanks, isBlank c = true)
    (hr : EndsNumber rest) : EndsNumber (blanks ++ rest) := by
  cases blanks with
  | nil => exact hr
  | cons c blanks =>
    rcases eq_of_isBlank (hb c List.mem_cons_self) with rfl | rfl | rfl | rfl
    all_goals exact endsNumber_cons rfl _

/-- Behind the text of a value, a reader that waited for one has its tree complete. -/
def Reads (layout : Layout) (value : Json) : Prop :=
  ∀ {reader : Reader} {stack : List Frame} (depth : Nat) {rest : List Char},
    reader.Awaits stack → EndsNumber rest →
      reader.read (printAt layout depth value ++ rest) =
        (Reader.complete (sourceOf value) stack).read rest

section Containers

variable {layout : Layout} {depth outer : Nat} {stack : List Frame} {rest : List Char}

/-- What follows an item does not go on with a number. -/
theorem endsNumber_items (hl : layout.Spaced) (items : List Json) :
    EndsNumber (printItems layout depth items ++ (layout.lineBreak outer ++ ']' :: rest)) := by
  cases items with
  | nil =>
    rw [printItems, List.nil_append]
    exact endsNumber_blanks (hl.lineBreak outer) (endsNumber_cons rfl _)
  | cons item items => exact endsNumber_cons rfl _

/-- What follows the value of a member does not go on with a number. -/
theorem endsNumber_members (hl : layout.Spaced) (members : List (String × Json)) :
    EndsNumber (printMembers layout depth members ++ (layout.lineBreak outer ++ '}' :: rest)) := by
  cases members with
  | nil =>
    rw [printMembers, List.nil_append]
    exact endsNumber_blanks (hl.lineBreak outer) (endsNumber_cons rfl _)
  | cons member members => exact endsNumber_cons rfl _

/-- The items behind the first one complete their array. -/
theorem read_items (hl : layout.Spaced) {items : List Json}
    (hi : ∀ item ∈ items, Reads layout item) (tree : Source) (done : List Source) :
    (Reader.complete tree (.array done :: stack)).read
        (printItems layout depth items ++ (layout.lineBreak outer ++ ']' :: rest)) =
      (Reader.complete (.array (done.reverse ++ tree :: sourcesOf items)) stack).read rest := by
  induction items generalizing tree done with
  | nil =>
    change Reader.read _ (layout.lineBreak outer ++ ']' :: rest) = _
    rw [Reader.read_blanks _ (hl.lineBreak outer),
      Reader.read_token (.complete (.array (tree :: done).reverse) stack) rfl rfl,
      List.reverse_cons]
    rfl
  | cons item items ih =>
    obtain ⟨hitem, hitems⟩ := List.forall_mem_cons.mp hi
    have htext : printItems layout depth (item :: items) ++
          (layout.lineBreak outer ++ ']' :: rest) =
        ',' :: (layout.lineBreak depth ++ (printAt layout depth item ++
          (printItems layout depth items ++ (layout.lineBreak outer ++ ']' :: rest)))) := by
      rw [printItems]
      simp only [List.cons_append, List.append_assoc]
    rw [htext, Reader.read_token (.awaitValue (.array (tree :: done) :: stack)) rfl rfl,
      Reader.read_blanks _ (hl.lineBreak depth),
      hitem depth (Reader.awaits_value _) (endsNumber_items hl items), ih hitems]
    rw [List.reverse_cons, List.append_assoc]
    rfl

/-- A key and its value, in front of which a reader waits for a key. -/
theorem read_member (hl : layout.Spaced) {reader : Reader}
    {done : List (Option String × Source)} {key : String} {value : Json}
    (hs : reader.step (.string (some key)) = some (.awaitColon done (some key) stack))
    (hv : Reads layout value) (hr : EndsNumber rest) :
    reader.read (quote key ++ (layout.colon ++ (printAt layout depth value ++ rest))) =
      (Reader.complete (sourceOf value) (.object done (some key) :: stack)).read rest := by
  obtain ⟨blanks, hcolon, hblanks⟩ := hl.colon
  rw [Reader.read_token _ (readToken_quote key _) hs, hcolon, List.cons_append,
    Reader.read_token (.awaitValue (.object done (some key) :: stack)) rfl rfl,
    Reader.read_blanks _ hblanks]
  exact hv depth (Reader.awaits_value _) hr

/-- The members behind the first one complete their object. -/
theorem read_members (hl : layout.Spaced) {members : List (String × Json)}
    (hm : ∀ member ∈ members, Reads layout member.2) (tree : Source) (key : Option String)
    (done : List (Option String × Source)) :
    (Reader.complete tree (.object done key :: stack)).read
        (printMembers layout depth members ++ (layout.lineBreak outer ++ '}' :: rest)) =
      (Reader.complete
        (.object (done.reverse ++ (key, tree) :: memberSourcesOf members)) stack).read rest := by
  induction members generalizing tree key done with
  | nil =>
    change Reader.read _ (layout.lineBreak outer ++ '}' :: rest) = _
    rw [Reader.read_blanks _ (hl.lineBreak outer),
      Reader.read_token (.complete (.object ((key, tree) :: done).reverse) stack) rfl rfl,
      List.reverse_cons]
    rfl
  | cons member members ih =>
    obtain ⟨next, value⟩ := member
    obtain ⟨hvalue, hmembers⟩ := List.forall_mem_cons.mp hm
    have htext : printMembers layout depth ((next, value) :: members) ++
          (layout.lineBreak outer ++ '}' :: rest) =
        ',' :: (layout.lineBreak depth ++ (quote next ++ (layout.colon ++
          (printAt layout depth value ++ (printMembers layout depth members ++
            (layout.lineBreak outer ++ '}' :: rest)))))) := by
      rw [printMembers]
      simp only [List.cons_append, List.append_assoc]
    rw [htext, Reader.read_token (.awaitKey ((key, tree) :: done) stack) rfl rfl,
      Reader.read_blanks _ (hl.lineBreak depth),
      read_member hl rfl hvalue (endsNumber_members hl members), ih hmembers]
    rw [List.reverse_cons, List.append_assoc]
    rfl

end Containers

/-- A value without doubles is read back as its tree. -/
theorem Exact.reads {value : Json} (h : value.Exact) {layout : Layout} (hl : layout.Spaced) :
    Reads layout value := by
  induction h with
  | @scalar value hreal hcontainer =>
    intro reader stack depth rest hawaits hr
    cases value with
    | null => exact Reader.read_token _ rfl (hawaits _ (by simp))
    | bool value => cases value <;> exact Reader.read_token _ rfl (hawaits _ (by simp))
    | integer n => exact Reader.read_token _ (readToken_integer n hr) (hawaits _ (by simp))
    | real bits => cases hreal
    | string text => exact Reader.read_token _ (readToken_quote text rest) (hawaits _ (by simp))
    | array items => cases hcontainer
    | object members => cases hcontainer
  | @array items _ _ ih =>
    intro reader stack depth rest hawaits _
    have hopen : reader.step .openArray = some (.awaitItem stack) := hawaits _ (by simp)
    cases items with
    | nil =>
      change reader.read ('[' :: ']' :: rest) = _
      rw [Reader.read_token _ rfl hopen]
      exact Reader.read_token _ rfl rfl
    | cons item items =>
      obtain ⟨hitem, hitems⟩ := List.forall_mem_cons.mp ih
      have htext : printAt layout depth (.array (item :: items)) ++ rest =
          '[' :: (layout.lineBreak (depth + 1) ++ (printAt layout (depth + 1) item ++
            (printItems layout (depth + 1) items ++ (layout.lineBreak depth ++ ']' :: rest)))) := by
        rw [printAt]
        simp only [List.cons_append, List.append_assoc, List.nil_append]
      rw [htext, Reader.read_token _ rfl hopen, Reader.read_blanks _ (hl.lineBreak (depth + 1)),
        hitem (depth + 1) (Reader.awaits_item stack) (endsNumber_items hl items),
        read_items hl hitems]
      rfl
  | @object members _ _ ih =>
    intro reader stack depth rest hawaits _
    have hopen : reader.step .openObject = some (.awaitMember stack) := hawaits _ (by simp)
    cases members with
    | nil =>
      change reader.read ('{' :: '}' :: rest) = _
      rw [Reader.read_token _ rfl hopen]
      exact Reader.read_token _ rfl rfl
    | cons member members =>
      obtain ⟨key, value⟩ := member
      obtain ⟨hvalue, hmembers⟩ := List.forall_mem_cons.mp ih
      have htext : printAt layout depth (.object ((key, value) :: members)) ++ rest =
          '{' :: (layout.lineBreak (depth + 1) ++ (quote key ++ (layout.colon ++
            (printAt layout (depth + 1) value ++ (printMembers layout (depth + 1) members ++
              (layout.lineBreak depth ++ '}' :: rest)))))) := by
        rw [printAt]
        simp only [List.cons_append, List.append_assoc, List.nil_append]
      rw [htext, Reader.read_token _ rfl hopen, Reader.read_blanks _ (hl.lineBreak (depth + 1)),
        read_member hl rfl hvalue (endsNumber_members hl members), read_members hl hmembers]
      rfl

/-- The text of a value without doubles, in any such layout, says what the value
is. -/
theorem Exact.parse?_print {value : Json} (h : value.Exact) {layout : Layout}
    (hl : layout.Spaced) :
    Source.parse? (String.ofList (printAt layout 0 value)) = some (sourceOf value) := by
  have hread := h.reads hl 0 (Reader.awaits_value []) endsNumber_nil
  rw [List.append_nil, Reader.read_nil, Reader.read] at hread
  unfold Source.parse?
  rw [String.toList_ofList]
  obtain ⟨tokens, htokens, hrun⟩ := Option.bind_eq_some_iff.mp hread
  rw [htokens]
  dsimp only
  rw [hrun]

end FormatScan.Json
