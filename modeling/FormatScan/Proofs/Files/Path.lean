import FormatScan.Files.Path
import Mathlib.Data.List.TakeWhile

/-!
# The last name in a path

A path is what stands in front of its last name, and that name. Another extension changes
the name and nothing in front of it: the name comes out as it was exactly if it had that
extension, and extensions of different lengths make different names.
-/

namespace FormatScan.Path

/-- A path up to its last slash, and the name behind that. -/
structure Ends (path : String) (front name : List Char) : Prop where
  /-- The path is both together. -/
  toList_eq : path.toList = front ++ name
  /-- There is no slash in the name. -/
  bare : '/' ∉ name
  /-- There is one in front of the name, unless the name is all there is. -/
  closed : front = [] ∨ ∃ above, front = above ++ ['/']

/-- The names in front of the last one. -/
def namesBefore (front : List Char) : List String :=
  (front.splitOn '/').dropLast.map String.ofList

variable {path : String} {front name : List Char}

theorem exists_ends (path : String) : ∃ front name, Ends path front name := by
  have hparts := List.takeWhile_append_dropWhile (p := (· != '/')) (l := path.toList.reverse)
  refine ⟨(path.toList.reverse.dropWhile (· != '/')).reverse,
    (path.toList.reverse.takeWhile (· != '/')).reverse, ?_, ?_, ?_⟩
  · rw [← List.reverse_append, hparts, List.reverse_reverse]
  · intro hmem
    have := List.mem_takeWhile_imp (List.mem_reverse.mp hmem)
    simp at this
  · cases hback : path.toList.reverse.dropWhile (· != '/') with
    | nil => exact .inl rfl
    | cons c back =>
      have hc : c = '/' := by
        have := List.head?_dropWhile_not (p := (· != '/')) (l := path.toList.reverse)
        rw [hback] at this
        simpa using this
      exact .inr ⟨back.reverse, by rw [List.reverse_cons, hc]⟩

namespace Ends

theorem names_eq (h : Ends path front name) :
    names path = namesBefore front ++ [String.ofList name] := by
  have hname : name.splitOn '/' = [name] := List.splitOn_eq_singleton h.bare
  rw [names, namesBefore, h.toList_eq]
  obtain rfl | ⟨above, rfl⟩ := h.closed
  · rw [List.nil_append, hname]
    rfl
  · have hslash : (['/'] : List Char).splitOn '/' = [[], []] := rfl
    rw [List.append_assoc, List.singleton_append, List.splitOn_append_cons_self,
      List.splitOn_append_cons_self, hname, List.splitOn_nil, List.dropLast_concat, List.map_append]
    rfl

/-- Whether a path starts at the top is decided in front of its last name. -/
theorem head?_eq (h : Ends path front name) :
    (path.toList.head? == some '/') = (front.head? == some '/') := by
  rw [h.toList_eq]
  obtain rfl | ⟨above, rfl⟩ := h.closed
  · cases name with
    | nil => rfl
    | cons c name =>
      have hc : c ≠ '/' := fun heq => h.bare (heq ▸ List.mem_cons_self)
      simpa using hc
  · cases above <;> rfl

/-- Nothing stands behind the last name if that is a file name. -/
theorem withoutEnd_eq (h : Ends path front name) (hname : isFileName name) :
    withoutEnd path.toList.reverse = path.toList.reverse := by
  rw [h.toList_eq, List.reverse_append]
  have hreal : name ≠ [] ∧ name ≠ ['.'] := by
    simp only [isFileName, Bool.and_eq_true, bne_iff_ne] at hname
    exact hname.1
  have hbare : '/' ∉ name.reverse := fun hmem => h.bare (List.mem_reverse.mp hmem)
  have hback : name.reverse ≠ ['.'] := fun heq => hreal.2 (List.reverse_eq_iff.mp heq)
  match hrev : name.reverse with
  | [] => exact absurd (List.reverse_eq_nil_iff.mp hrev) hreal.1
  | [c] =>
    rw [hrev] at hbare hback
    have hc : c ≠ '/' := fun heq => hbare (heq ▸ List.mem_cons_self)
    have hdot : c ≠ '.' := fun heq => hback (heq ▸ rfl)
    simp [withoutEnd, hc, hdot]
  | c :: d :: rest =>
    rw [hrev] at hbare
    have hc : c ≠ '/' := fun heq => hbare (heq ▸ List.mem_cons_self)
    have hd : d ≠ '/' := fun heq => hbare (heq ▸ List.mem_cons_of_mem _ List.mem_cons_self)
    simp [withoutEnd, hc, hd]

theorem splitName_eq (h : Ends path front name) (hname : isFileName name) :
    splitName path = (front, name) := by
  have hrest : (front.reverse.takeWhile (· != '/')) = [] := by
    obtain rfl | ⟨above, rfl⟩ := h.closed <;> simp
  have htake : path.toList.reverse.takeWhile (· != '/') = name.reverse := by
    rw [h.toList_eq, List.reverse_append, List.takeWhile_append_of_pos, hrest, List.append_nil]
    intro c hc
    have hne : c ≠ '/' := fun heq => h.bare (heq ▸ List.mem_reverse.mp hc)
    simpa using hne
  rw [splitName, h.withoutEnd_eq hname, htake, h.toList_eq, List.reverse_append,
    List.reverse_reverse, List.drop_left', List.reverse_reverse]
  rfl

end Ends

/-- The extension is what stands behind the last dot, unless nothing stands in front of that
dot. -/
theorem splitExtension_cases (hname : isFileName name) :
    splitExtension name = (name, none) ∨
      ∃ stem extension, stem ≠ [] ∧ '.' ∉ extension ∧ name = stem ++ '.' :: extension ∧
        splitExtension name = (stem, some extension) := by
  let behind := name.reverse.takeWhile (· != '.')
  have hbehind : '.' ∉ behind := by
    intro hmem
    have hdot := List.mem_takeWhile_imp hmem
    simp at hdot
  have hparts : behind ++ name.reverse.dropWhile (· != '.') = name.reverse :=
    List.takeWhile_append_dropWhile
  have hsplit : splitExtension name =
      if (name.reverse.drop (behind.length + 1)).reverse.isEmpty then (name, none)
      else ((name.reverse.drop (behind.length + 1)).reverse, some behind.reverse) := by
    rw [splitExtension, hname]
    rfl
  cases hback : name.reverse.dropWhile (· != '.') with
  | nil =>
    rw [hback, List.append_nil] at hparts
    left
    rw [hsplit, ← hparts, List.drop_of_length_le (by omega)]
    rfl
  | cons c back =>
    have hdot : c = '.' := by
      have hhead := List.head?_dropWhile_not (p := (· != '.')) (l := name.reverse)
      rw [hback] at hhead
      simpa using hhead
    rw [hback, hdot] at hparts
    have hstem : name.reverse.drop (behind.length + 1) = back := by
      rw [← hparts, ← List.drop_drop, List.drop_left]
      rfl
    rw [hstem] at hsplit
    cases back with
    | nil => exact .inl hsplit
    | cons d back =>
      right
      refine ⟨(d :: back).reverse, behind.reverse, by simp, ?_, ?_, ?_⟩
      · exact fun hmem => hbehind (List.mem_reverse.mp hmem)
      · have hname := congrArg List.reverse hparts
        simpa using hname.symm
      · rw [hsplit, if_neg (by simp)]

/-- An extension has no dots in it. -/
theorem dot_not_mem_extension (hname : isFileName name) {extension : List Char}
    (h : (splitExtension name).2 = some extension) : '.' ∉ extension := by
  obtain hnone | ⟨stem, found, -, hdot, -, hsome⟩ := splitExtension_cases hname
  · rw [hnone] at h
    cases h
  · rw [hsome] at h
    cases h
    exact hdot

/-- A name with another extension in place of its own. -/
def renamed (name extension : List Char) : List Char :=
  if (splitExtension name).1 = ['.'] then ['.', '.']
  else (splitExtension name).1 ++ '.' :: extension

/-- Another extension changes the last name of a path and nothing in front of it. -/
theorem Ends.withExtension (h : Ends path front name) (hname : isFileName name)
    {extension : String} (hbare : '/' ∉ extension.toList) :
    Ends (withExtension path extension) front (renamed name extension.toList) := by
  have hstem : '/' ∉ (splitExtension name).1 := by
    obtain hnone | ⟨stem, found, -, -, heq, hsome⟩ := splitExtension_cases hname
    · rw [hnone]
      exact h.bare
    · rw [hsome]
      exact fun hmem => h.bare (heq ▸ List.mem_append_left _ hmem)
  have heq : Path.withExtension path extension =
      String.ofList (front ++ renamed name extension.toList) := by
    unfold Path.withExtension renamed
    rw [h.splitName_eq hname]
    by_cases hdot : (splitExtension name).1 = ['.'] <;> simp [hname, hdot, List.append_assoc]
  refine ⟨by rw [heq, String.toList_ofList], ?_, h.closed⟩
  unfold renamed
  split
  · decide
  · simp [hstem, hbare]

/-- A new name that is a file name is a stem with an extension. -/
theorem stem_of_renamed {extension : List Char} (h : isFileName (renamed name extension)) :
    (splitExtension name).1 ≠ ['.'] := by
  intro hdot
  rw [renamed, if_pos hdot] at h
  cases h

/-- The name comes out as it was exactly if it had the extension. -/
theorem renamed_eq_self_iff (hname : isFileName name) {extension : List Char}
    (h : isFileName (renamed name extension)) :
    renamed name extension = name ↔ (splitExtension name).2 = some extension := by
  rw [renamed, if_neg (stem_of_renamed h)]
  obtain hnone | ⟨stem, found, -, -, heq, hsome⟩ := splitExtension_cases hname
  · rw [hnone]
    constructor
    · intro hself
      have hlength := congrArg List.length hself
      simp at hlength
    · intro hno
      cases hno
  · rw [hsome]
    constructor
    · intro hself
      have htail := List.append_cancel_left (hself.trans heq)
      rw [(List.cons.inj htail).2]
    · intro hfound
      rw [heq, Option.some.inj hfound]

/-- Different extensions make different names. -/
theorem renamed_inj {extension other : List Char} (h : isFileName (renamed name extension)) :
    renamed name extension = renamed name other ↔ extension = other := by
  rw [renamed, renamed, if_neg (stem_of_renamed h), if_neg (stem_of_renamed h)]
  simp

theorem Ends.hasExtension_iff (h : Ends path front name) (hname : isFileName name)
    {extension : String} :
    hasExtension path extension ↔ (splitExtension name).2 = some extension.toList := by
  rw [hasExtension, h.splitName_eq hname, beq_iff_eq]

/-- The extension of a name is what stands behind its last dot, if something stands in front
of it. -/
theorem splitExtension_eq_some {stem extension : List Char} (hname : isFileName name) :
    splitExtension name = (stem, some extension) ↔
      stem ≠ [] ∧ '.' ∉ extension ∧ name = stem ++ '.' :: extension := by
  constructor
  · intro h
    obtain hnone | ⟨found, behind, hne, hdot, heq, hsome⟩ := splitExtension_cases hname
    · rw [hnone] at h
      cases h
    · rw [hsome] at h
      cases h
      exact ⟨hne, hdot, heq⟩
  · rintro ⟨hstem, hdot, rfl⟩
    have hreverse : (stem ++ '.' :: extension).reverse =
        extension.reverse ++ '.' :: stem.reverse := by simp
    have htake : (stem ++ '.' :: extension).reverse.takeWhile (· != '.') = extension.reverse := by
      rw [hreverse, List.takeWhile_append_of_pos, List.takeWhile_cons_of_neg (by decide),
        List.append_nil]
      intro c hc
      exact bne_iff_ne.mpr fun heq => hdot (heq ▸ List.mem_reverse.mp hc)
    have hdrop : (stem ++ '.' :: extension).reverse.drop (extension.reverse.length + 1) =
        stem.reverse := by
      rw [hreverse, ← List.drop_drop, List.drop_left]
      rfl
    rw [splitExtension, htake, hdrop, hname, List.reverse_reverse, List.reverse_reverse,
      List.isEmpty_eq_false_iff.mpr hstem]
    rfl

/-- A name without slashes has an extension exactly if it ends in a dot and the extension and
something stands in front of that dot. -/
theorem hasExtension_iff_append {name extension : String} (hbare : '/' ∉ name.toList)
    (hdot : '.' ∉ extension.toList) (hne : extension ≠ "") :
    hasExtension name extension = true ↔
      ∃ stem : String, stem ≠ "" ∧ name = stem ++ "." ++ extension := by
  have hends : Ends name [] name.toList := ⟨rfl, hbare, .inl rfl⟩
  have hlist : ∀ stem : String, name = stem ++ "." ++ extension ↔
      name.toList = stem.toList ++ '.' :: extension.toList := by
    intro stem
    rw [← String.toList_inj, String.toList_append, String.toList_append, List.append_assoc]
    rfl
  have hempty : ∀ stem : String, stem ≠ "" ↔ stem.toList ≠ [] := by
    intro stem
    rw [Ne, Ne, String.toList_eq_nil_iff]
  by_cases hname : isFileName name.toList
  · rw [hends.hasExtension_iff hname]
    constructor
    · intro h
      have hsplit : splitExtension name.toList =
          ((splitExtension name.toList).1, some extension.toList) := Prod.ext rfl h
      obtain ⟨hstem, -, heq⟩ := (splitExtension_eq_some hname).mp hsplit
      refine ⟨String.ofList (splitExtension name.toList).1, ?_, ?_⟩
      · rwa [hempty, String.toList_ofList]
      · rwa [hlist, String.toList_ofList]
    · rintro ⟨stem, hstem, heq⟩
      have hsplit := (splitExtension_eq_some hname).mpr
        ⟨(hempty stem).mp hstem, hdot, (hlist stem).mp heq⟩
      rw [hsplit]
  · -- such a name is too short to have a stem and an extension
    have hfew : name ∈ ["", ".", ".."] := by
      by_contra hother
      obtain ⟨hnone, hdot, hdots⟩ : name ≠ "" ∧ name ≠ "." ∧ name ≠ ".." := by
        simpa using hother
      have hreal : ∀ text : String, name ≠ text → (name.toList != text.toList) = true :=
        fun text h => bne_iff_ne.mpr fun heq => h (String.toList_inj.mp heq)
      refine hname (Bool.and_eq_true_iff.mpr ⟨Bool.and_eq_true_iff.mpr ⟨?_, ?_⟩, ?_⟩)
      · exact hreal "" hnone
      · exact hreal "." hdot
      · exact hreal ".." hdots
    have hnone : ∀ path ∈ ["", ".", ".."], (splitExtension (splitName path).2).2 = none ∧
        path.toList.length ≤ 2 := by decide
    obtain ⟨hsplit, hlength⟩ := hnone name hfew
    refine iff_of_false ?_ ?_
    · rw [hasExtension, hsplit]
      exact Bool.false_ne_true
    · rintro ⟨stem, hstem, heq⟩
      have hfirst := List.length_pos_iff.mpr ((hempty stem).mp hstem)
      have hlast := List.length_pos_iff.mpr ((hempty extension).mp hne)
      rw [(hlist stem).mp heq, List.length_append, List.length_cons] at hlength
      omega

end FormatScan.Path
