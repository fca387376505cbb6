import FormatScan.Conformance.Diff
import FormatScan.Proofs.Text.Delimited
import Mathlib.Data.List.Forall2

/-!
# What a difference shows

Two texts are compared by their lines. So every place where these lists differ has its
own difference, in the order of the places, and nothing else has one; two texts that
differ in the ends of their lines alone leave nothing to show. The text of the
differences can be taken apart again although a line may look like any part of it: a
line ends at its line feed, and what stands before a line says that it is one. With the
expected text at hand it tells the actual lines.
-/

namespace FormatScan

namespace Text

/-- No line holds a line feed. -/
theorem newline_notMem_lines (text : List Char) : ∀ line ∈ lines text, '\n' ∉ line := by
  fun_induction lines text with
  | case1 => exact List.forall_mem_nil _
  | case2 rest ih => exact List.forall_mem_cons.mpr ⟨List.not_mem_nil, ih⟩
  | case3 rest ih => exact List.forall_mem_cons.mpr ⟨List.not_mem_nil, ih⟩
  | case4 c rest hn _ hrest _ =>
    exact List.forall_mem_singleton.mpr fun hmem => hn (List.mem_singleton.mp hmem).symm
  | case5 c rest hn _ line others hrest ih =>
    rw [hrest] at ih
    obtain ⟨hline, hothers⟩ := List.forall_mem_cons.mp ih
    refine List.forall_mem_cons.mpr ⟨fun hmem => ?_, hothers⟩
    rcases List.mem_cons.mp hmem with heq | hmem
    · exact hn heq.symm
    · exact hline hmem

theorem newline_notMem_linesOf {text line : String} (h : line ∈ linesOf text) :
    '\n' ∉ line.toList := by
  obtain ⟨chars, hchars, rfl⟩ := List.mem_map.mp h
  rw [String.toList_ofList]
  exact newline_notMem_lines text.toList chars hchars

end Text

namespace Diff

/-! ## The places of the differences -/

/-- The longest text that two texts both start with. -/
structure LongestFront (first second front : Bytes) : Prop where
  /-- The one text starts with it. -/
  of_first : front <+: first
  /-- So does the other. -/
  of_second : front <+: second
  /-- None that both start with is longer. -/
  longest : ∀ other, other <+: first → other <+: second → other.length ≤ front.length

/-- The common length is that of the longest text that both start with. -/
theorem exists_longestFront (first second : Bytes) :
    ∃ front, LongestFront first second front ∧ front.length = commonLength first second := by
  fun_induction commonLength first second with
  | case1 a first b second hab ih =>
    obtain ⟨front, hfront, hlength⟩ := ih
    refine ⟨a :: front, ⟨List.cons_prefix_cons.mpr ⟨rfl, hfront.of_first⟩,
      List.cons_prefix_cons.mpr ⟨eq_of_beq hab, hfront.of_second⟩, ?_⟩,
      congrArg (· + 1) hlength⟩
    intro other hfirst hsecond
    cases other with
    | nil => exact Nat.zero_le _
    | cons c other =>
      have hle := hfront.longest other (List.cons_prefix_cons.mp hfirst).2
        (List.cons_prefix_cons.mp hsecond).2
      exact Nat.succ_le_succ hle
  | case2 a first b second hab =>
    refine ⟨[], ⟨List.nil_prefix, List.nil_prefix, fun other hfirst hsecond => ?_⟩, rfl⟩
    cases other with
    | nil => exact Nat.le_refl 0
    | cons c other =>
      have heq : a = b := by
        rw [← (List.cons_prefix_cons.mp hfirst).1, (List.cons_prefix_cons.mp hsecond).1]
      exact absurd (beq_iff_eq.mpr heq) hab
  | case3 first second hshort =>
    refine ⟨[], ⟨List.nil_prefix, List.nil_prefix, fun other hfirst hsecond => ?_⟩, rfl⟩
    rcases hfirst with ⟨_, rfl⟩
    rcases hsecond with ⟨_, rfl⟩
    cases other with
    | nil => exact Nat.le_refl 0
    | cons c other => exact absurd rfl (hshort c _ c _ rfl)

/-- A difference shows what two lists of lines hold at a place. Its number counts from
that of the first line on, its column from one. -/
inductive Hunk.Shows (start : Nat) (expected actual : List String) (place : Nat) : Hunk → Prop where
  | changed {e a : String} {front : Bytes} (he : expected[place]? = some e)
      (ha : actual[place]? = some a) (hne : e ≠ a)
      (hfront : LongestFront (bytesOf e) (bytesOf a) front) :
      Shows start expected actual place (.changed (start + place) (front.length + 1) e a)
  | missing {e : String} (he : expected[place]? = some e) (ha : actual[place]? = none) :
      Shows start expected actual place (.missing (start + place) e)
  | extra {a : String} (he : expected[place]? = none) (ha : actual[place]? = some a) :
      Shows start expected actual place (.extra (start + place) a)

/-- The places where two lists of lines differ, the ends of the longer one included. -/
def differing (expected actual : List String) : List Nat :=
  (List.range (max expected.length actual.length)).filter
    fun place => expected[place]? != actual[place]?

theorem mem_differing {expected actual : List String} {place : Nat} :
    place ∈ differing expected actual ↔ expected[place]? ≠ actual[place]? := by
  rw [differing, List.mem_filter, List.mem_range, bne_iff_ne, and_iff_right_iff_imp]
  intro hne
  by_contra hlt
  rw [List.getElem?_eq_none (by omega), List.getElem?_eq_none (by omega)] at hne
  exact hne rfl

/-- Behind the first lines, the places are those of the lines behind, one further on. -/
theorem differing_of_length_pos {expected actual : List String}
    (h : 0 < max expected.length actual.length) :
    differing expected actual =
      if expected[0]? = actual[0]? then (differing expected.tail actual.tail).map Nat.succ
      else 0 :: (differing expected.tail actual.tail).map Nat.succ := by
  have hlength : max expected.length actual.length =
      max expected.tail.length actual.tail.length + 1 := by
    rw [List.length_tail, List.length_tail]
    omega
  have htail : (List.map Nat.succ (List.range (max expected.tail.length actual.tail.length))).filter
      (fun place => expected[place]? != actual[place]?) =
      (differing expected.tail actual.tail).map Nat.succ := by
    rw [List.filter_map, differing]
    simp only [List.getElem?_tail, Function.comp_def, Nat.succ_eq_add_one]
  rw [differing, hlength, List.range_succ_eq_map, List.filter_cons, htail]
  by_cases heq : expected[0]? = actual[0]?
  · rw [if_pos heq, if_neg (by rw [heq, bne_self_eq_false]; exact Bool.false_ne_true)]
  · rw [if_neg heq, if_pos (bne_iff_ne.mpr heq)]

/-- What is shown of the lines behind the first ones is shown of all. -/
theorem Hunk.Shows.of_tail {start place : Nat} {expected actual : List String} {hunk : Hunk}
    (h : hunk.Shows (start + 1) expected.tail actual.tail place) :
    hunk.Shows start expected actual (place + 1) := by
  have hnumber : start + 1 + place = start + (place + 1) := by omega
  cases h with
  | changed he ha hne hfront =>
    rw [List.getElem?_tail] at he ha
    rw [hnumber]
    exact .changed he ha hne hfront
  | missing he ha =>
    rw [List.getElem?_tail] at he ha
    rw [hnumber]
    exact .missing he ha
  | extra he ha =>
    rw [List.getElem?_tail] at he ha
    rw [hnumber]
    exact .extra he ha

/-- The differences between two lists of lines show the places where they differ, one
each. -/
theorem hunksFrom_shows (start : Nat) (expected actual : List String) :
    List.Forall₂ (Hunk.Shows start expected actual) (differing expected actual)
      (hunksFrom start expected actual) := by
  -- the differences behind the first lines are shown one place further on
  have hbehind : ∀ {start : Nat} {expected actual : List String} {found : List Hunk},
      List.Forall₂ (Hunk.Shows (start + 1) expected.tail actual.tail)
        (differing expected.tail actual.tail) found →
      List.Forall₂ (Hunk.Shows start expected actual)
        ((differing expected.tail actual.tail).map Nat.succ) found := fun h =>
    List.forall₂_map_left_iff.mpr (h.imp fun _ _ => Hunk.Shows.of_tail)
  fun_induction hunksFrom start expected actual with
  | case1 => exact .nil
  | case2 start e expected ih =>
    rw [differing_of_length_pos (by simp), if_neg (by simp)]
    exact .cons (.missing rfl rfl) (hbehind ih)
  | case3 start a actual ih =>
    rw [differing_of_length_pos (by simp), if_neg (by simp)]
    exact .cons (.extra rfl rfl) (hbehind ih)
  | case4 start e expected a actual heq ih =>
    rw [differing_of_length_pos (by simp), if_pos (by simpa using heq)]
    exact hbehind ih
  | case5 start e expected a actual hne ih =>
    have hlines : e ≠ a := fun heq => hne (beq_iff_eq.mpr heq)
    obtain ⟨front, hfront, hlength⟩ := exists_longestFront (bytesOf e) (bytesOf a)
    rw [differing_of_length_pos (by simp), if_neg (by simpa using hlines), ← hlength]
    exact .cons (.changed rfl rfl hlines hfront) (hbehind ih)

/-- The number of the line that a difference is about. -/
def Hunk.line : Hunk → Nat
  | changed line _ _ _ | missing line _ | extra line _ => line

/-- The lines that a difference shows. -/
def Hunk.shown : Hunk → List String
  | changed _ _ expected actual => [expected, actual]
  | missing _ expected => [expected]
  | extra _ actual => [actual]

/-- A line that is shown is a line of one of the texts. -/
theorem Hunk.Shows.mem_of_mem_shown {start place : Nat} {expected actual : List String}
    {hunk : Hunk} (h : hunk.Shows start expected actual place) :
    ∀ line ∈ hunk.shown, line ∈ expected ∨ line ∈ actual := by
  cases h with
  | changed he ha _ _ =>
    exact List.forall_mem_cons.mpr ⟨Or.inl (List.mem_of_getElem? he),
      List.forall_mem_singleton.mpr (Or.inr (List.mem_of_getElem? ha))⟩
  | missing he _ => exact List.forall_mem_singleton.mpr (Or.inl (List.mem_of_getElem? he))
  | extra _ ha => exact List.forall_mem_singleton.mpr (Or.inr (List.mem_of_getElem? ha))

theorem mem_of_shows {start : Nat} {expected actual : List String} {places : List Nat}
    {found : List Hunk} (h : List.Forall₂ (Hunk.Shows start expected actual) places found) :
    ∀ hunk ∈ found, ∀ line ∈ hunk.shown, line ∈ expected ∨ line ∈ actual := by
  induction h with
  | nil => exact List.forall_mem_nil _
  | cons hhead _ ih => exact List.forall_mem_cons.mpr ⟨hhead.mem_of_mem_shown, ih⟩

/-- The lines that a difference shows hold no line feed. -/
def Hunk.ShowsLines (hunk : Hunk) : Prop := ∀ line ∈ hunk.shown, '\n' ∉ line.toList

theorem hunks_showLines (expected actual : String) :
    ∀ hunk ∈ hunks expected actual, hunk.ShowsLines := by
  intro hunk hhunk line hline
  have hlines := mem_of_shows (hunksFrom_shows 1 _ _) hunk hhunk line hline
  exact hlines.elim Text.newline_notMem_linesOf Text.newline_notMem_linesOf

/-- A line behind the mark of its text. -/
def marked (mark : Char) (line : String) : List Char := mark :: (line.toList ++ ['\n'])

/-- What stands behind the number of its line in the text of a difference. -/
def Hunk.body : Hunk → List Char
  | changed _ column expected actual =>
    ", col ".toList ++ ((toString column).toList ++ (" @@\n".toList ++
      (marked '-' expected ++ marked '+' actual)))
  | missing _ expected => " @@\n".toList ++ marked '-' expected
  | extra _ actual => " @@\n".toList ++ marked '+' actual

theorem Hunk.toList_render (hunk : Hunk) :
    hunk.render.toList = "@@ line ".toList ++ ((toString hunk.line).toList ++ hunk.body) := by
  have hmarked : ∀ mark line rest,
      marked mark line ++ rest = mark :: (line.toList ++ '\n' :: rest) := by
    intro mark line rest
    rw [marked, List.cons_append, List.append_assoc, List.singleton_append]
  unfold render body
  cases hunk
  all_goals
    simp only [Text.toString_text, line, String.toList_append, List.append_assoc, hmarked]
    rfl

/-- What stands in front of the differences. -/
def header : String := "--- expected\n+++ actual\n"

theorem toList_render {expected actual : String} (h : expected ≠ actual) :
    (render expected actual).toList =
      header.toList ++ (hunks expected actual).flatMap fun hunk => hunk.render.toList := by
  rw [render, if_neg (by simpa using h), String.toList_append, String.toList_join,
    List.flatMap_map]
  rfl

theorem render_self (text : String) : render text text = "[identical]" :=
  if_pos (beq_self_eq_true text)

/-- Only equal texts are called identical. -/
theorem render_eq_identical_iff {expected actual : String} :
    render expected actual = "[identical]" ↔ expected = actual := by
  refine ⟨fun h => ?_, fun h => h ▸ render_self expected⟩
  by_contra hne
  have hlist := toList_render hne
  rw [h] at hlist
  exact absurd (List.cons.inj hlist).1 (by decide)

/-- Nothing is shown exactly when the lines are the same. -/
theorem hunks_eq_nil_iff {expected actual : String} :
    hunks expected actual = [] ↔ Text.linesOf expected = Text.linesOf actual := by
  have hshows := hunksFrom_shows 1 (Text.linesOf expected) (Text.linesOf actual)
  have hplaces : hunks expected actual = [] ↔
      differing (Text.linesOf expected) (Text.linesOf actual) = [] := by
    rw [← List.length_eq_zero_iff, ← List.length_eq_zero_iff, hshows.length_eq, hunks]
  rw [hplaces, List.eq_nil_iff_forall_not_mem, List.ext_getElem?_iff]
  exact forall_congr' fun place => by rw [mem_differing, not_not]

/-- Texts are called identical exactly when they are equal. The mark of a difference is shown
exactly when their lists of lines differ, so texts that differ only in how their lines end
leave nothing behind the header. -/
theorem render_marks_iff (expected actual : String) :
    (render expected actual = "[identical]" ↔ expected = actual) ∧
      (['@', '@'] <:+: (render expected actual).toList ↔
        Text.linesOf expected ≠ Text.linesOf actual) ∧
      (expected ≠ actual → Text.linesOf expected = Text.linesOf actual →
        render expected actual = header) := by
  have hbare : expected ≠ actual → Text.linesOf expected = Text.linesOf actual →
      render expected actual = header := by
    intro hne hlines
    rw [← String.toList_inj, toList_render hne, hunks_eq_nil_iff.mpr hlines, List.flatMap_nil,
      List.append_nil]
  refine ⟨render_eq_identical_iff, ⟨fun hmark hlines => ?_, fun hlines => ?_⟩, hbare⟩
  · by_cases heq : expected = actual
    · rw [heq, render_self] at hmark
      simp only [String.reduceToList] at hmark
      exact absurd hmark (by decide)
    · rw [hbare heq hlines] at hmark
      simp only [header, String.reduceToList] at hmark
      exact absurd hmark (by decide)
  · have hne : expected ≠ actual := fun heq => hlines (heq ▸ rfl)
    obtain ⟨hunk, others, hhunks⟩ :=
      List.exists_cons_of_ne_nil fun hnil => hlines (hunks_eq_nil_iff.mp hnil)
    have hmark : ['@', '@'] <+: hunk.render.toList := by
      rw [Hunk.toList_render]
      simp only [String.reduceToList]
      exact ⟨_, rfl⟩
    rw [toList_render hne, hhunks, List.flatMap_cons]
    exact (hmark.trans (List.prefix_append _ _)).isInfix.trans (List.suffix_append _ _).isInfix

/-- A last line with its end and one without are two texts, and nothing is shown of them. -/
theorem render_line_end :
    "a\n" ≠ "a" ∧ render "a\n" "a" = "--- expected\n+++ actual\n" ∧
      ¬['@', '@'] <:+: (render "a\n" "a").toList := by
  have hrender : render "a\n" "a" = "--- expected\n+++ actual\n" := by
    simp [render, hunks, Text.linesOf, Text.lines, hunksFrom]
  refine ⟨by decide, hrender, ?_⟩
  rw [hrender]
  simp only [String.reduceToList]
  decide

end Diff

end FormatScan
