import FormatScan.Proofs.Machine.Operations
import FormatScan.Scan.Set

/-!
# Compiling scan sets by position

A scan set is compiled into a table with one entry for every byte. The walk looks one
byte ahead behind a `-`, and there the end of the format shows as a zero, which lies
below any member read before. So the end is never taken for the bound of a range, and
the walk does not step over it.
-/

namespace FormatScan.Machine

/-- Whether each byte is accepted, in the order of the bytes. -/
abbrev Table := List Bool

/-- Whether a byte is accepted. -/
def accepts (table : Table) (c : UInt8) : Checked Bool := index table c.toNat

/-- Mark one byte. -/
def mark (member : Bool) (table : Table) (c : UInt8) : Checked Table := store table c.toNat member

/-- Mark the bytes from one to another, both included. -/
def markRange (member : Bool) (table : Table) (first last : UInt8) : Checked Table :=
  (List.range' first.toNat (last.toNat + 1 - first.toNat)).foldlM
    (fun table n => store table n member) table

/-- A table, and the offset where its reading ends. -/
abbrev Compiled := Table × Except FormatError Nat

/-- A set that is still open at an offset. -/
def unterminated (table : Table) (i : Nat) : Checked Compiled := do
  let next ← add i 1
  let offset ← sub next 1
  return (table, .error (.unterminatedScanSet offset))

/-- Read the members behind the first one. `last` is the member or upper bound read
most recently. -/
def readMembers (format : Bytes) (member : Bool) (i : Nat) (last : UInt8) (table : Table) :
    Checked Compiled :=
  let c := byteAt format i
  if c == 0 then unterminated table i
  else reach format (i + 1) fun _ =>
    if c == 0x5D then .ok (table, .ok (i + 1))
    else if c == 0x2D then
      let bound := byteAt format (i + 1)
      if bound == 0x5D || bound < last then do
        let table ← mark member table c
        readMembers format member (i + 1) c table
      else reach format (i + 2) fun _ => do
        let table ← markRange member table last bound
        readMembers format member (i + 2) bound table
    else do
      let table ← mark member table c
      readMembers format member (i + 1) c table
termination_by format.length - i

/-- Read the members of a set, the first of which is literal. -/
def readBody (format : Bytes) (negated : Bool) (i : Nat) : Checked Compiled :=
  let c := byteAt format i
  let table := List.replicate 256 negated
  if c == 0 then unterminated table i
  else reach format (i + 1) fun _ => do
    let table ← mark (!negated) table c
    readMembers format (!negated) (i + 1) c table

/-- Compile the set that starts at an offset of a format. -/
def compile (format : Bytes) (start : Nat) : Checked Compiled :=
  if byteAt format start == 0x5E then
    reach format (start + 1) fun _ => readBody format true (start + 1)
  else readBody format false start

/-- A table holds a set of which some members are known. -/
structure Holds (table : Table) (negated : Bool) (members : List ByteRange) : Prop where
  /-- There is an entry for every byte. -/
  length_eq : table.length = 256
  /-- It tells whether the byte is accepted. -/
  entry_eq : ∀ c : UInt8, table[c.toNat]? = some ((ScanSet.mk negated members).contains c)

/-- A table of a set without members. -/
theorem Holds.replicate (negated : Bool) : Holds (List.replicate 256 negated) negated [] := by
  refine ⟨List.length_replicate, fun c => ?_⟩
  rw [List.getElem?_replicate, if_pos c.toNat_lt]
  cases negated <;> rfl

/-- A byte of a table is told as the set says. -/
theorem Holds.accepts_eq {table : Table} {negated : Bool} {members : List ByteRange}
    (h : Holds table negated members) (c : UInt8) :
    accepts table c = .ok ((ScanSet.mk negated members).contains c) := by
  rw [accepts, index, h.entry_eq]

/-- Marking a list of bytes changes their entries and no others. -/
theorem exists_foldlM_store {table : Table} (member : Bool) {places : List Nat}
    (hplaces : ∀ n ∈ places, n < table.length) :
    ∃ marked, places.foldlM (fun table n => store table n member) table = .ok marked ∧
      marked.length = table.length ∧
      ∀ n, marked[n]? = if n ∈ places then some member else table[n]? := by
  induction places generalizing table with
  | nil => exact ⟨table, rfl, rfl, fun n => by simp⟩
  | cons place places ih =>
    have hplace : place < table.length := hplaces place List.mem_cons_self
    have hrest : ∀ n ∈ places, n < (table.set place member).length := by
      intro n hn
      rw [List.length_set]
      exact hplaces n (List.mem_cons_of_mem place hn)
    obtain ⟨marked, hmarked, hlength, hentry⟩ := ih hrest
    refine ⟨marked, ?_, by rw [hlength, List.length_set], fun n => ?_⟩
    · rw [List.foldlM_cons, store_eq hplace, ok_bind, hmarked]
    · rw [hentry, List.getElem?_set]
      by_cases hn : n ∈ places
      · rw [if_pos hn, if_pos (List.mem_cons_of_mem place hn)]
      · by_cases hp : place = n
        · subst hp
          rw [if_neg hn, if_pos rfl, if_pos hplace, if_pos List.mem_cons_self]
        · rw [if_neg hn, if_neg hp, if_neg]
          simp [hn, Ne.symm hp]

/-- Marking a range adds it to the members. -/
theorem Holds.exists_markRange {table : Table} {negated : Bool} {members : List ByteRange}
    (h : Holds table negated members) {first last : UInt8} (hle : first ≤ last) :
    ∃ marked, markRange (!negated) table first last = .ok marked ∧
      Holds marked negated (members ++ [⟨first, last⟩]) := by
  have hbound := last.toNat_lt
  have hle' := UInt8.le_iff_toNat_le.mp hle
  have hplaces : ∀ n ∈ List.range' first.toNat (last.toNat + 1 - first.toNat),
      n < table.length := by
    intro n hn
    rw [List.mem_range'_1] at hn
    rw [h.length_eq]
    omega
  obtain ⟨marked, hmarked, hlength, hentry⟩ := exists_foldlM_store (!negated) hplaces
  refine ⟨marked, hmarked, by rw [hlength, h.length_eq], fun c => ?_⟩
  have hmem : c.toNat ∈ List.range' first.toNat (last.toNat + 1 - first.toNat) ↔
      (ByteRange.mk first last).contains c = true := by
    rw [List.mem_range'_1, ByteRange.contains, Bool.and_eq_true, decide_eq_true_eq,
      decide_eq_true_eq, UInt8.le_iff_toNat_le, UInt8.le_iff_toNat_le]
    dsimp only
    omega
  rw [hentry, h.entry_eq]
  unfold ScanSet.contains
  dsimp only
  rw [List.any_append, List.any_cons, List.any_nil, Bool.or_false]
  by_cases hc : (ByteRange.mk first last).contains c = true
  · rw [if_pos (hmem.mpr hc), hc, Bool.or_true]
    cases negated <;> rfl
  · rw [if_neg (fun hn => hc (hmem.mp hn)), Bool.eq_false_iff.mpr hc, Bool.or_false]

/-- Marking a byte adds it to the members. -/
theorem Holds.exists_mark {table : Table} {negated : Bool} {members : List ByteRange}
    (h : Holds table negated members) (c : UInt8) :
    ∃ marked, mark (!negated) table c = .ok marked ∧
      Holds marked negated (members ++ [.single c]) := by
  have hone : c.toNat + 1 - c.toNat = 1 := by omega
  obtain ⟨marked, hmarked, hholds⟩ := h.exists_markRange (UInt8.le_refl c)
  refine ⟨marked, ?_, hholds⟩
  rw [markRange, hone] at hmarked
  simpa [mark] using hmarked

/-- What the reading of a set reports, by the format that it leaves. -/
def report (format : Bytes) : ScanSet.Ending → Except FormatError Nat
  | .closed rest => .ok (format.length - rest.length)
  | .unterminated rest => .error (.unterminatedScanSet (format.length - rest.length))

section Reading

variable {format rest : Bytes} {i : Nat} {negated : Bool} {members : List ByteRange} {table : Table}

/-- A set that is still open is reported where the format ends. -/
theorem unterminated_eq (hfits : Fits format) (h : At format i rest) (table : Table) :
    unterminated table i = .ok (table, report format (.unterminated rest)) := by
  have hle := h.le_length
  have hword : i + 1 ≤ Word.largest := by
    unfold Fits at hfits
    unfold Word.largest
    omega
  rw [unterminated, add_eq hword, ok_bind, sub_eq (by omega), ok_bind, report, ← h.eq_sub]
  rfl

/-- At the end of the format nothing more is marked. -/
theorem readMembers_nil (hfits : Fits format) (h : At format i []) (member : Bool) (last : UInt8)
    (table : Table) :
    readMembers format member i last table = .ok (table, report format (.unterminated [])) := by
  rw [readMembers, h.byteAt_nil]
  exact unterminated_eq hfits h table

/-- Reading the members of a set meets no fault, and marks them. -/
theorem exists_readMembers (hfits : Fits format) (h : At format i rest) {last : UInt8}
    (hlast : last ≠ 0) (ht : Holds table negated members) :
    ∃ marked, readMembers format (!negated) i last table =
        .ok (marked, report format (ScanSet.readMembers last rest).2) ∧
      Holds marked negated (members ++ (ScanSet.readMembers last rest).1) := by
  induction last, rest using ScanSet.readMembers.induct generalizing i members table with
  | case1 last =>
    rw [ScanSet.readMembers]
    exact ⟨table, readMembers_nil hfits h _ last table, by rwa [List.append_nil]⟩
  | case2 last c rest hz =>
    rw [readMembers, h.byteAt_eq, if_pos hz, ScanSet.readMembers.eq_def]
    dsimp only
    rw [if_pos hz]
    exact ⟨table, unterminated_eq hfits h table, by rwa [List.append_nil]⟩
  | case3 last c rest hz hb =>
    rw [readMembers, h.byteAt_eq, if_neg hz, h.next.reach_eq hfits, if_pos hb,
      ScanSet.readMembers.eq_def]
    dsimp only
    rw [if_neg hz, if_pos hb, report, ← h.next.eq_sub]
    exact ⟨table, rfl, by rwa [List.append_nil]⟩
  | case4 last c hz hb hd =>
    -- The end of the format shows as a zero, which lies below the last member.
    have hbelow : (byteAt format (i + 1) == 0x5D || byteAt format (i + 1) < last) = true := by
      rw [h.next.byteAt_nil, Bool.or_eq_true, decide_eq_true_eq]
      exact Or.inr (UInt8.pos_iff_ne_zero.mpr hlast)
    obtain ⟨marked, hmark, hholds⟩ := ht.exists_mark c
    rw [readMembers, h.byteAt_eq, if_neg hz, h.next.reach_eq hfits, if_neg hb, if_pos hd,
      if_pos hbelow, hmark, ok_bind, readMembers_nil hfits h.next, ScanSet.readMembers, if_neg hz,
      if_neg hb, if_pos hd]
    exact ⟨marked, rfl, hholds⟩
  | case5 last c hz hb hd bound after hplain ih =>
    obtain ⟨marked, hmark, hholds⟩ := ht.exists_mark c
    obtain ⟨marked', hread, hholds'⟩ := ih h.next (by simpa using hz) hholds
    rw [List.append_assoc, List.singleton_append] at hholds'
    rw [readMembers, h.byteAt_eq, if_neg hz, h.next.reach_eq hfits, if_neg hb, if_pos hd,
      h.next.byteAt_eq, if_pos hplain, hmark, ok_bind, hread, ScanSet.readMembers, if_neg hz,
      if_neg hb, if_pos hd]
    dsimp only
    rw [if_pos hplain]
    exact ⟨marked', rfl, hholds'⟩
  | case6 last c hz hb hd bound after hrange ih =>
    have hle : last ≤ bound := by
      simp only [Bool.or_eq_true, decide_eq_true_eq, not_or, UInt8.not_lt] at hrange
      exact hrange.2
    have hbound : bound ≠ 0 := by
      rintro rfl
      exact hlast (UInt8.le_antisymm hle UInt8.zero_le)
    obtain ⟨marked, hmark, hholds⟩ := ht.exists_markRange hle
    obtain ⟨marked', hread, hholds'⟩ := ih h.next.next hbound hholds
    rw [List.append_assoc, List.singleton_append] at hholds'
    rw [readMembers, h.byteAt_eq, if_neg hz, h.next.reach_eq hfits, if_neg hb, if_pos hd,
      h.next.byteAt_eq, if_neg hrange, h.next.next.reach_eq hfits, hmark, ok_bind, hread,
      ScanSet.readMembers, if_neg hz, if_neg hb, if_pos hd]
    dsimp only
    rw [if_neg hrange]
    exact ⟨marked', rfl, hholds'⟩
  | case7 last c rest hz hb hd ih =>
    have hmodel : ScanSet.readMembers last (c :: rest) =
        (.single c :: (ScanSet.readMembers c rest).1, (ScanSet.readMembers c rest).2) := by
      rw [ScanSet.readMembers.eq_def]
      dsimp only
      rw [if_neg hz, if_neg hb, if_neg hd]
    obtain ⟨marked, hmark, hholds⟩ := ht.exists_mark c
    obtain ⟨marked', hread, hholds'⟩ := ih h.next (by simpa using hz) hholds
    rw [List.append_assoc, List.singleton_append] at hholds'
    rw [readMembers, h.byteAt_eq, if_neg hz, h.next.reach_eq hfits, if_neg hb, if_neg hd, hmark,
      ok_bind, hread, hmodel]
    exact ⟨marked', rfl, hholds'⟩

/-- Reading the body of a set meets no fault, and marks its members. -/
theorem exists_readBody (hfits : Fits format) (h : At format i rest) (negated : Bool) :
    ∃ table, readBody format negated i =
        .ok (table, report format (ScanSet.readBody negated rest).ending) ∧
      Holds table (ScanSet.readBody negated rest).set.negated
        (ScanSet.readBody negated rest).set.members := by
  have ht := Holds.replicate negated
  unfold readBody
  cases rest with
  | nil =>
    rw [h.byteAt_nil]
    exact ⟨_, unterminated_eq hfits h _, ht⟩
  | cons c rest =>
    rw [h.byteAt_eq, ScanSet.readBody]
    dsimp only
    by_cases hz : (c == 0) = true
    · rw [if_pos hz, if_pos hz]
      exact ⟨_, unterminated_eq hfits h _, ht⟩
    · obtain ⟨marked, hmark, hholds⟩ := ht.exists_mark c
      obtain ⟨marked', hread, hholds'⟩ :=
        exists_readMembers hfits h.next (by simpa using hz) hholds
      rw [if_neg hz, if_neg hz, h.next.reach_eq hfits, hmark, ok_bind, hread]
      exact ⟨marked', rfl, hholds'⟩

/-- Compiling a set meets no fault. The table holds the set, and the offset that is
reported is not outside of the format. -/
theorem exists_compile (hfits : Fits format) (h : At format i rest) :
    ∃ table, compile format i = .ok (table, report format (ScanSet.read rest).ending) ∧
      Holds table (ScanSet.read rest).set.negated (ScanSet.read rest).set.members := by
  unfold compile
  cases rest with
  | nil =>
    rw [h.byteAt_nil]
    exact exists_readBody hfits h false
  | cons c rest =>
    rw [h.byteAt_eq]
    by_cases hc : c = 0x5E
    · subst hc
      rw [if_pos (by rfl), h.next.reach_eq hfits]
      exact exists_readBody hfits h.next true
    · have hplain : ScanSet.read (c :: rest) = ScanSet.readBody false (c :: rest) := by
        unfold ScanSet.read
        split
        · rename_i heq
          exact absurd (List.cons.inj heq).1 hc
        · rfl
      rw [if_neg (by simpa using hc), hplain]
      exact exists_readBody hfits h false

end Reading

/-- Compiling the set at an offset reports what the set says. -/
theorem exists_compile_eq {format : Bytes} {start : Nat} (hfits : Fits format)
    (hstart : start ≤ format.length) :
    ∃ table, compile format start = .ok (table, (ScanSet.compile format start).2) ∧
      Holds table (ScanSet.compile format start).1.negated
        (ScanSet.compile format start).1.members := by
  have h : At format start (format.drop start) := ⟨hstart, rfl⟩
  obtain ⟨table, hcompile, hholds⟩ := exists_compile hfits h
  have hlength := h.length_eq
  have hle := ScanSet.length_read_le (format.drop start)
  have hreport : (ScanSet.compile format start).2 =
      report format (ScanSet.read (format.drop start)).ending := by
    unfold ScanSet.compile
    dsimp only
    cases hending : (ScanSet.read (format.drop start)).ending with
    | closed rest =>
      rw [hending] at hle
      dsimp only [ScanSet.Ending.rest] at hle ⊢
      rw [report]
      congr 1
      omega
    | unterminated rest =>
      rw [hending] at hle
      dsimp only [ScanSet.Ending.rest] at hle ⊢
      rw [report]
      congr 2
      omega
  have hset : (ScanSet.compile format start).1 = (ScanSet.read (format.drop start)).set := by
    unfold ScanSet.compile
    dsimp only
    split <;> rfl
  rw [hreport, hset]
  exact ⟨table, hcompile, hholds⟩

end FormatScan.Machine
