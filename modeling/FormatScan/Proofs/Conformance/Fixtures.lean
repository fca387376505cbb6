import FormatScan.Conformance.Fixture
import FormatScan.Proofs.Json.Denotation
import FormatScan.Proofs.Json.Records

/-!
# Sets of cases that are written and read back

A set is kept as a JSON text. Whatever text a set was read from, in whatever layout, with
unknown fields, without clauses, with repeated keys among the inputs: its own text is read
back as the same set, provided that no input is a double.
-/

namespace FormatScan

open Json (Source sourceOf)

namespace Fixture

/-- A case is read back from its tree if its inputs are. -/
theorem ofSource?_sourceOf {fixture : Fixture} {depth : Nat}
    (h : (sourceOf fixture.inputs).value? (depth - 1) = some fixture.inputs) :
    ofSource? depth (sourceOf fixture.toJson) = some fixture := by
  have hnames : ["name", "function", "clause", "inputs", "expected_output"].Nodup := by decide
  have hfields : (sourceOf fixture.toJson).record?
      ["name", "function", "clause", "inputs", "expected_output"] 5 =
      some (fixture.members.map fun member => some (sourceOf member.2)) :=
    Source.record?_memberSourcesOf fixture.members 5 hnames
  rw [ofSource?, hfields]
  simp [members, sourceOf, Source.string?, h]

/-- What the tree of a case says: its fields are those of the case. The clause may be absent,
and is empty then; the inputs are what their tree stands for. -/
def SpelledBy (fixture : Fixture) (tree : Source) : Prop :=
  ∃ clause inputs,
    tree.record? ["name", "function", "clause", "inputs", "expected_output"] 5 =
      some [some (.string (some fixture.name)), some (.string (some fixture.function)), clause,
        some inputs, some (.string (some fixture.expected))] ∧
    (clause = some (.string (some fixture.clause)) ∨ clause = none ∧ fixture.clause = "") ∧
    inputs.Denotes fixture.inputs

/-- A case that was read is what its tree says. Its inputs are kept by their keys and are
nested no deeper than they may be. -/
theorem spelledBy_of_ofSource? {fixture : Fixture} {depth : Nat} {tree : Source}
    (hs : tree.Sound) (h : ofSource? depth tree = some fixture) :
    fixture.SpelledBy tree ∧ fixture.inputs.Ordered ∧ fixture.inputs.depth ≤ depth - 1 := by
  unfold ofSource? at h
  obtain ⟨fields, hfields, h⟩ := Option.bind_eq_some_iff.mp h
  have hsound := hs.record? hfields
  split at h
  case h_2 => cases h
  case h_1 name function clause inputs expected =>
  have hinputs : inputs.Sound := hsound (some inputs) (by simp) inputs rfl
  obtain ⟨clauseText, hclause, h⟩ : ∃ clauseText,
      (clause = some (.string (some clauseText)) ∨ clause = none ∧ clauseText = "") ∧ (do
        let name ← name.string?
        let function ← function.string?
        let inputs ← inputs.value? (depth - 1)
        let expected ← expected.string?
        some { name := name, function := function, clause := clauseText, inputs := inputs,
               expected := expected : Fixture }) = some fixture := by
    cases clause with
    | none => exact ⟨"", .inr ⟨rfl, rfl⟩, h⟩
    | some clause =>
      obtain ⟨clauseText, hclause, h⟩ := Option.bind_eq_some_iff.mp h
      exact ⟨clauseText, .inl (congrArg some (Source.string?_eq_some.mp hclause)), h⟩
  obtain ⟨nameText, hname, h⟩ := Option.bind_eq_some_iff.mp h
  obtain ⟨functionText, hfunction, h⟩ := Option.bind_eq_some_iff.mp h
  obtain ⟨value, hvalue, h⟩ := Option.bind_eq_some_iff.mp h
  obtain ⟨expectedText, hexpected, h⟩ := Option.bind_eq_some_iff.mp h
  cases h
  rw [Source.string?_eq_some.mp hname, Source.string?_eq_some.mp hfunction,
    Source.string?_eq_some.mp hexpected] at hfields
  exact ⟨⟨clause, inputs, hfields, hclause, hinputs.denotes hvalue⟩, hinputs.ordered hvalue,
    hinputs.depth_le hvalue⟩

end Fixture

namespace FixtureSet

/-- A set is read back from its tree if its cases are. -/
theorem ofSource?_sourceOf {set : FixtureSet} {depth : Nat}
    (h : ∀ fixture ∈ set.cases,
      Fixture.ofSource? (depth - 2) (sourceOf fixture.toJson) = some fixture) :
    ofSource? depth (sourceOf set.toJson) = some set := by
  have hnames : ["version", "family", "captured_at", "cases"].Nodup := by decide
  have hfields : (sourceOf set.toJson).record? ["version", "family", "captured_at", "cases"] 4 =
      some (set.members.map fun member => some (sourceOf member.2)) :=
    Source.record?_memberSourcesOf set.members 4 hnames
  have hcases : (Json.sourcesOf (set.cases.map Fixture.toJson)).mapM
      (Fixture.ofSource? (depth - 2)) = some set.cases := Json.mapM_sourcesOf h
  rw [ofSource?, hfields]
  simp [members, sourceOf, Source.string?, Source.items?, hcases]

/-- What the tree of a set says: its fields are those of the set, and its list has the cases
of the set in their order. -/
def SpelledBy (set : FixtureSet) (tree : Source) : Prop :=
  ∃ cases,
    tree.record? ["version", "family", "captured_at", "cases"] 4 =
      some [some (.string (some set.version)), some (.string (some set.family)),
        some (.string (some set.capturedAt)), some (.array cases)] ∧
    List.Forall₂ Fixture.SpelledBy set.cases cases

/-- A set that was read is what its text says. The inputs of its cases are kept by their keys
and are nested no deeper than they may be. -/
theorem spelledBy_of_ofText? {text : String} {set : FixtureSet} (h : ofText? text = some set) :
    (∃ tree, Source.parse? text = some tree ∧ set.SpelledBy tree) ∧
      ∀ fixture ∈ set.cases,
        fixture.inputs.Ordered ∧ fixture.inputs.depth ≤ Source.nestingLimit - 3 := by
  obtain ⟨tree, htree, h⟩ := Option.bind_eq_some_iff.mp h
  have hs := Source.sound_of_parse? htree
  unfold ofSource? at h
  obtain ⟨fields, hfields, h⟩ := Option.bind_eq_some_iff.mp h
  have hsound := hs.record? hfields
  split at h
  case h_2 => cases h
  case h_1 version family capturedAt cases =>
  have hcases : cases.Sound := hsound (some cases) (by simp) cases rfl
  obtain ⟨versionText, hversion, h⟩ := Option.bind_eq_some_iff.mp h
  obtain ⟨familyText, hfamily, h⟩ := Option.bind_eq_some_iff.mp h
  obtain ⟨capturedText, hcaptured, h⟩ := Option.bind_eq_some_iff.mp h
  obtain ⟨items, hitems, h⟩ := Option.bind_eq_some_iff.mp h
  obtain ⟨fixtures, hfixtures, h⟩ := Option.bind_eq_some_iff.mp h
  cases h
  have hread := (List.forall₂_and_left _ _).mpr
    ⟨hcases.items? hitems, Json.forall₂_of_mapM hfixtures⟩
  have hspelled : List.Forall₂ (fun item (fixture : Fixture) => fixture.SpelledBy item ∧
      fixture.inputs.Ordered ∧ fixture.inputs.depth ≤ Source.nestingLimit - 3) items fixtures :=
    hread.imp fun item fixture ⟨hsound, hread⟩ => Fixture.spelledBy_of_ofSource? hsound hread
  rw [Source.string?_eq_some.mp hversion, Source.string?_eq_some.mp hfamily,
    Source.string?_eq_some.mp hcaptured, Source.items?_eq_some.mp hitems] at hfields
  refine ⟨⟨tree, htree, items, hfields, .flip (hspelled.imp fun _ _ h => h.1)⟩, ?_⟩
  intro fixture hfixture
  obtain ⟨item, -, -, hinputs⟩ := Json.exists_mem_of_forall₂ hspelled hfixture
  exact hinputs

/-- A set whose inputs have no doubles has none in its JSON form. -/
theorem exact_toJson {set : FixtureSet} (h : ∀ fixture ∈ set.cases, fixture.inputs.Exact) :
    set.toJson.Exact := by
  have hcase : ∀ fixture ∈ set.cases, fixture.toJson.Exact := by
    intro fixture hm
    simp [Fixture.toJson, Fixture.members, h fixture hm]
  simpa [toJson, members] using hcase

/-- A set that was read from a text is what the text says: the version, the family, the time,
and the cases in their order, with an empty clause where there is none, and with the last
value of a repeated key among the inputs. If its inputs hold no doubles, then it is read back
from its own text, with nothing changed, and so what is written for the set that was read
back is this text, byte for byte. -/
theorem ofText?_text {text : String} {set : FixtureSet} (h : ofText? text = some set)
    (hexact : ∀ fixture ∈ set.cases, fixture.inputs.Exact) :
    (∃ tree, Source.parse? text = some tree ∧ set.SpelledBy tree) ∧
      ofText? set.text = some set ∧
        (ofText? set.text).map FixtureSet.text = some set.text := by
  obtain ⟨hspelled, hinputs⟩ := spelledBy_of_ofText? h
  have htree : Source.parse? set.text = some (sourceOf set.toJson) :=
    (exact_toJson hexact).parse?_print Json.Layout.spaced_indented
  have hback : ofText? set.text = some set := by
    rw [ofText?, htree]
    refine ofSource?_sourceOf fun fixture hm => Fixture.ofSource?_sourceOf ?_
    exact (hinputs fixture hm).1.value?_sourceOf (hinputs fixture hm).2
  exact ⟨hspelled, hback, by rw [hback]; rfl⟩

/-- A value with an unknown field, and with a case that has no clause and repeats a key among
its inputs. -/
def looseForm : Json :=
  let inputs : Json :=
    .object [("b", .ofNat 1), ("a", .array [.integer ⟨-2, by omega, by omega⟩]), ("b", .object [])]
  let fixture : Json :=
    .object [("function", .string "g"), ("name", .string ""), ("inputs", inputs),
      ("expected_output", .string "\"")]
  .object [("version", .string ""), ("note", .array []), ("family", .string "f"),
    ("captured_at", .string ""), ("cases", .array [fixture])]

/-- The set that its text holds. -/
def looseSet : FixtureSet :=
  let inputs : Json :=
    .object [("a", .array [.integer ⟨-2, by omega, by omega⟩]), ("b", .object [])]
  { version := "", family := "f", capturedAt := "",
    cases := [{ name := "", function := "g", clause := "", inputs := inputs, expected := "\"" }] }

/-- The compact text of the value is read as the set, and what is written for the set is so
too. -/
theorem ofText?_text_loose :
    ofText? looseForm.compact = some looseSet ∧
      (∀ fixture ∈ looseSet.cases, fixture.inputs.Exact) ∧
      ofText? looseSet.text = some looseSet := by
  have hform : looseForm.Exact := by simp [looseForm]
  have hread : ofText? looseForm.compact = some looseSet := by
    have htree : Source.parse? looseForm.compact = some (sourceOf looseForm) :=
      hform.parse?_print Json.Layout.spaced_compact
    rw [ofText?, htree]
    rfl
  have hexact : ∀ fixture ∈ looseSet.cases, fixture.inputs.Exact := by simp [looseSet]
  exact ⟨hread, hexact, (ofText?_text hread hexact).2.1⟩

end FixtureSet

end FormatScan
