import FormatScan.Log.Validation

/-!
# The parts of a trace identifier

A text falls into parts at its pairs of colons: a part ends where the first pair
behind its start begins, and the last part has no pair. Every text has one such
sequence of parts, and the check of a trace identifier counts exactly these.
-/

namespace FormatScan.LogValidation

/-- There is no pair of colons in a text. -/
def NoPair (text : List Char) : Prop := ¬[':', ':'] <:+: text

/-- The parts of a text between its pairs of colons. The colon behind a part belongs
to the pair that ends it, so that no pair begins earlier. -/
inductive Parts : List Char → List (List Char) → Prop
  | last {part : List Char} (h : NoPair part) : Parts part [part]
  | next {part rest : List Char} {parts : List (List Char)} (h : NoPair (part ++ [':']))
      (hr : Parts rest parts) : Parts (part ++ ':' :: ':' :: rest) (part :: parts)

/-- A text has no pair of colons when it does not begin with one and has none further
on. -/
theorem noPair_cons {c : Char} {text : List Char} :
    NoPair (c :: text) ↔ ¬(c = ':' ∧ text.head? = some ':') ∧ NoPair text := by
  have hstart : [':', ':'] <+: c :: text ↔ c = ':' ∧ text.head? = some ':' := by
    rw [List.cons_prefix_cons, eq_comm]
    cases text <;> simp [eq_comm]
  rw [NoPair, List.infix_cons_iff, not_or, hstart, NoPair]

theorem noPair_nil : NoPair [] := by
  intro h
  cases List.infix_nil.mp h

/-- A text without a colon has no pair of them. -/
theorem noPair_of_not_mem {text : List Char} (h : ':' ∉ text) : NoPair text :=
  fun hpair => h (hpair.subset List.mem_cons_self)

/-- One colon behind such a text makes no pair. -/
theorem noPair_colon {text : List Char} (h : ':' ∉ text) : NoPair (text ++ [':']) := by
  induction text with
  | nil => exact noPair_cons.mpr ⟨fun hpair => absurd hpair.2 (by simp), noPair_nil⟩
  | cons c text ih =>
    have hc : c ≠ ':' := fun heq => h (heq ▸ List.mem_cons_self)
    have htext : ':' ∉ text := fun hm => h (List.mem_cons_of_mem _ hm)
    exact noPair_cons.mpr ⟨fun hpair => hc hpair.1, ih htext⟩

/-- A character that begins no pair adds no part. -/
theorem partCount_cons {c : Char} {text : List Char} (h : ¬(c = ':' ∧ text.head? = some ':')) :
    partCount (c :: text) = partCount text :=
  partCount.eq_3 c text fun rest hc htext => h ⟨hc, by rw [htext]; rfl⟩

/-- A pair ends a part. -/
theorem partCount_append {part : List Char} (h : NoPair (part ++ [':'])) (rest : List Char) :
    partCount (part ++ ':' :: ':' :: rest) = partCount rest + 1 := by
  induction part with
  | nil => rfl
  | cons c part ih =>
    obtain ⟨hc, hpart⟩ := noPair_cons.mp h
    rw [List.cons_append, partCount_cons, ih hpart]
    cases part <;> simpa using hc

/-- A text without a pair is one part. -/
theorem partCount_of_noPair {text : List Char} (h : NoPair text) : partCount text = 1 := by
  induction text with
  | nil => rfl
  | cons c text ih =>
    obtain ⟨hc, htext⟩ := noPair_cons.mp h
    rw [partCount_cons hc, ih htext]

/-- The parts of a text are as many as are counted. -/
theorem Parts.length_eq {text : List Char} {parts : List (List Char)} (h : Parts text parts) :
    parts.length = partCount text := by
  induction h with
  | last h => exact (partCount_of_noPair h).symm
  | next h _ ih => rw [List.length_cons, ih, partCount_append h]

/-- A character that begins no pair belongs to the first part. -/
theorem Parts.cons {c : Char} {text : List Char} {parts : List (List Char)}
    (h : Parts text parts) (hc : ¬(c = ':' ∧ text.head? = some ':')) :
    ∃ others, Parts (c :: text) others := by
  cases h with
  | last hpart => exact ⟨_, .last (noPair_cons.mpr ⟨hc, hpart⟩)⟩
  | @next part rest parts hpart hr =>
    have hlonger : NoPair (c :: part ++ [':']) := by
      refine noPair_cons.mpr ⟨?_, hpart⟩
      cases part <;> simpa using hc
    exact ⟨_, Parts.next hlonger hr⟩

/-- Every text falls into parts. -/
theorem exists_parts (text : List Char) : ∃ parts, Parts text parts := by
  fun_induction partCount text with
  | case1 => exact ⟨_, .last noPair_nil⟩
  | case2 rest ih =>
    obtain ⟨parts, hparts⟩ := ih
    exact ⟨_, @Parts.next [] rest parts (noPair_colon List.not_mem_nil) hparts⟩
  | case3 c rest hpair ih =>
    obtain ⟨parts, hparts⟩ := ih
    refine hparts.cons fun ⟨hc, hrest⟩ => ?_
    obtain ⟨after, rfl⟩ := List.head?_eq_some_iff.mp hrest
    exact hpair after hc rfl

/-- A text is counted as three parts exactly when it falls into three. -/
theorem partCount_eq_three_iff {text : List Char} :
    partCount text = 3 ↔ ∃ run campaign number, Parts text [run, campaign, number] := by
  constructor
  · intro h
    obtain ⟨parts, hparts⟩ := exists_parts text
    have hlength := hparts.length_eq.trans h
    match parts, hlength with
    | [run, campaign, number], _ => exact ⟨run, campaign, number, hparts⟩
  · rintro ⟨run, campaign, number, hparts⟩
    exact hparts.length_eq.symm

end FormatScan.LogValidation
