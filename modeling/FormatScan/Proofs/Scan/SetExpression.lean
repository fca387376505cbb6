import FormatScan.Scan.Set
import Mathlib.Logic.Function.Basic

/-!
# What a scan set means

The expression between the brackets of a scan set is read from left to right, and what a
`-` means depends on the member or bound read before it. Here the members of an expression
are given by rules over its bytes, and the place where it closes by the bytes of the format;
neither mentions the reading. A set that is read accepts exactly these members, or all other
bytes, and ends exactly there. A table that is filled in place holds the same set, whatever
it held before, also when the format ends early.
-/

namespace FormatScan.ScanSet

/-! ## Expressions -/

/-- An expression begins with a range: a `-` is followed by a byte that does not lie below
the last member or bound. -/
def Spans (last : UInt8) (body : Bytes) : Prop :=
  ∃ bound rest, body = 0x2D :: bound :: rest ∧ last ≤ bound

/-- A byte is a member of an expression behind its last member or bound. -/
inductive IsMember (x : UInt8) : UInt8 → Bytes → Prop
  /-- A range holds the bytes from the last member or bound to its own bound. -/
  | within {last bound : UInt8} {rest : Bytes} (above : last ≤ x) (below : x ≤ bound) :
    IsMember x last (0x2D :: bound :: rest)
  /-- The bound of a range is the last bound for what follows. -/
  | beyond {last bound : UInt8} {rest : Bytes} (ordered : last ≤ bound)
    (later : IsMember x bound rest) : IsMember x last (0x2D :: bound :: rest)
  /-- A byte that begins no range is a member, a `-` included. -/
  | literal {last : UInt8} {rest : Bytes} (plain : ¬ Spans last (x :: rest)) :
    IsMember x last (x :: rest)
  /-- Such a byte is the last member for what follows. -/
  | behind {last c : UInt8} {rest : Bytes} (plain : ¬ Spans last (c :: rest))
    (later : IsMember x c rest) : IsMember x last (c :: rest)

variable {x last bound c : UInt8} {text body rest tail : Bytes} {ending : Ending}

theorem not_isMember_nil : ¬ IsMember x last [] := fun h => nomatch h

theorem isMember_range (h : last ≤ bound) :
    IsMember x last (0x2D :: bound :: rest) ↔ (last ≤ x ∧ x ≤ bound) ∨ IsMember x bound rest := by
  have hspans : Spans last (0x2D :: bound :: rest) := ⟨bound, rest, rfl, h⟩
  constructor
  · intro hmember
    cases hmember with
    | within above below => exact .inl ⟨above, below⟩
    | beyond ordered later => exact .inr later
    | literal plain => exact absurd hspans plain
    | behind plain later => exact absurd hspans plain
  · rintro (⟨above, below⟩ | later)
    · exact .within above below
    · exact .beyond h later

theorem isMember_literal (h : ¬ Spans last (c :: rest)) :
    IsMember x last (c :: rest) ↔ x = c ∨ IsMember x c rest := by
  constructor
  · intro hmember
    cases hmember with
    | within above below => exact absurd ⟨_, _, rfl, UInt8.le_trans above below⟩ h
    | beyond ordered later => exact absurd ⟨_, _, rfl, ordered⟩ h
    | literal plain => exact .inl rfl
    | behind plain later => exact .inr later
  · rintro (rfl | later)
    · exact .literal h
    · exact .behind h later

/-! ## Reading the members -/

/-- Where the reading of members stops: at a closing bracket, at a zero byte or at the end. -/
inductive Stops : Bytes → Ending → Prop
  /-- The set is closed. -/
  | bracket (rest : Bytes) : Stops (0x5D :: rest) (.closed rest)
  /-- The format ends at a zero byte. -/
  | zero (rest : Bytes) : Stops (0 :: rest) (.unterminated (0 :: rest))
  /-- The format ends. -/
  | finish : Stops [] (.unterminated [])

/-- Every text is read up to the first place where the reading stops. -/
theorem exists_stops (text : Bytes) :
    ∃ body tail ending, text = body ++ tail ∧ 0 ∉ body ∧ 0x5D ∉ body ∧ Stops tail ending := by
  induction text with
  | nil => exact ⟨[], [], _, rfl, List.not_mem_nil, List.not_mem_nil, .finish⟩
  | cons c text ih =>
    by_cases hz : c = 0
    · subst hz
      exact ⟨[], _, _, rfl, List.not_mem_nil, List.not_mem_nil, .zero text⟩
    by_cases hb : c = 0x5D
    · subst hb
      exact ⟨[], _, _, rfl, List.not_mem_nil, List.not_mem_nil, .bracket text⟩
    obtain ⟨body, tail, ending, rfl, hzero, hbracket, hstops⟩ := ih
    refine ⟨c :: body, tail, ending, rfl, ?_, ?_, hstops⟩
    · rw [List.mem_cons, not_or]
      exact ⟨Ne.symm hz, hzero⟩
    · rw [List.mem_cons, not_or]
      exact ⟨Ne.symm hb, hbracket⟩

theorem readMembers_of_stops (h : Stops tail ending) : readMembers last tail = ([], ending) := by
  cases h <;> rw [readMembers.eq_def] <;> rfl

theorem readMembers_range (hbracket : bound ≠ 0x5D) (h : last ≤ bound) :
    readMembers last (0x2D :: bound :: rest) =
      (⟨last, bound⟩ :: (readMembers bound rest).1, (readMembers bound rest).2) := by
  have hrange : ¬ (bound == 0x5D || bound < last) = true := by
    simp [hbracket, UInt8.not_lt.mpr h]
  rw [readMembers.eq_def]
  dsimp only
  rw [if_neg (by decide), if_neg (by decide), if_pos (by decide), if_neg hrange]

/-- A byte is a literal member unless it is a `-` in front of a bound. -/
theorem readMembers_literal (hzero : c ≠ 0) (hbracket : c ≠ 0x5D)
    (h : ∀ bound rest, text = bound :: rest → c = 0x2D → bound = 0x5D ∨ bound < last) :
    readMembers last (c :: text) =
      (.single c :: (readMembers c text).1, (readMembers c text).2) := by
  rw [readMembers.eq_def]
  dsimp only
  rw [if_neg (by simpa using hzero), if_neg (by simpa using hbracket)]
  by_cases hdash : c = 0x2D
  · rw [if_pos (by simpa using hdash)]
    cases text with
    | nil => rw [readMembers]
    | cons bound rest =>
      dsimp only
      rw [if_pos (by simpa using h bound rest rfl hdash)]
  · rw [if_neg (by simpa using hdash)]

/-- Nothing at which the reading stops is the bound of a range. -/
theorem Stops.not_bound (h : Stops (bound :: rest) ending) (hlast : last ≠ 0) :
    bound = 0x5D ∨ bound < last := by
  cases h with
  | bracket => exact .inl rfl
  | zero => exact .inr (UInt8.pos_iff_ne_zero.mpr hlast)

theorem contains_single : (ByteRange.single c).contains x = true ↔ x = c := by
  rw [ByteRange.single, ByteRange.contains, Bool.and_eq_true, decide_eq_true_eq, decide_eq_true_eq]
  exact ⟨fun h => UInt8.le_antisymm h.2 h.1, fun h => h ▸ ⟨UInt8.le_refl _, UInt8.le_refl _⟩⟩

/-- The members of an expression are read in full, and reading them ends where it stops. -/
theorem readMembers_append_stops (hstops : Stops tail ending) (hlast : last ≠ 0)
    (hzero : 0 ∉ body) (hbracket : 0x5D ∉ body) :
    (readMembers last (body ++ tail)).2 = ending ∧
      ∀ x, (readMembers last (body ++ tail)).1.any (·.contains x) = true ↔
        IsMember x last body := by
  -- a range drops two bytes at once, so the induction is on the length
  induction hlength : body.length using Nat.strongRecOn generalizing last body with
  | ind length ih =>
  by_cases hspans : Spans last body
  · obtain ⟨bound, rest, rfl, hle⟩ := hspans
    simp only [List.mem_cons, not_or] at hzero hbracket
    obtain ⟨hend, hmember⟩ := ih rest.length (by simp only [← hlength, List.length_cons]; omega)
      (Ne.symm hzero.2.1) hzero.2.2 hbracket.2.2 rfl
    rw [List.cons_append, List.cons_append, readMembers_range (Ne.symm hbracket.2.1) hle]
    refine ⟨hend, fun x => ?_⟩
    rw [List.any_cons, Bool.or_eq_true, hmember, isMember_range hle, ByteRange.contains,
      Bool.and_eq_true, decide_eq_true_eq, decide_eq_true_eq]
  · cases body with
    | nil =>
      rw [List.nil_append, readMembers_of_stops hstops]
      exact ⟨rfl, fun x => iff_of_false Bool.false_ne_true not_isMember_nil⟩
    | cons c rest =>
      simp only [List.mem_cons, not_or] at hzero hbracket
      obtain ⟨hend, hmember⟩ := ih rest.length (by simp only [← hlength, List.length_cons]; omega)
        (Ne.symm hzero.1) hzero.2 hbracket.2 rfl
      -- a bound is a byte of the expression or the byte at which the reading stops
      have hplain : ∀ bound after, rest ++ tail = bound :: after → c = 0x2D →
          bound = 0x5D ∨ bound < last := by
        intro bound after hnext hdash
        cases rest with
        | nil =>
          rw [List.nil_append] at hnext
          exact (hnext ▸ hstops).not_bound hlast
        | cons second rest =>
          obtain ⟨rfl, -⟩ := List.cons.inj hnext
          exact .inr (UInt8.not_le.mp fun hle => hspans ⟨second, rest, hdash ▸ rfl, hle⟩)
      rw [List.cons_append, readMembers_literal (Ne.symm hzero.1) (Ne.symm hbracket.1) hplain]
      refine ⟨hend, fun x => ?_⟩
      rw [List.any_cons, Bool.or_eq_true, hmember, isMember_literal hspans, contains_single]

/-! ## Where a set closes -/

/-- The set whose first member is at a place closes at an offset: there is a bracket there,
and between the two there is neither a bracket nor a zero byte. -/
structure Closes (format : Bytes) (place close : Nat) : Prop where
  /-- The bracket is behind the first member. -/
  behind : place < close
  /-- There is a bracket. -/
  bracket : format[close]? = some 0x5D
  /-- It is the first one. -/
  first : ∀ i, place < i → i < close → format[i]? ≠ some 0x5D
  /-- The format does not end before. -/
  reached : ∀ i, place ≤ i → i < close → format[i]? ≠ some 0

/-- A format ends at an offset as seen from a place: at the first zero byte, or behind its
last byte. -/
structure Ends (format : Bytes) (place stop : Nat) : Prop where
  /-- It ends at the place or behind it. -/
  behind : place ≤ stop
  /-- There is a zero byte or nothing. -/
  finish : format[stop]? = some 0 ∨ stop = format.length
  /-- It does not end before. -/
  reached : ∀ i, place ≤ i → i < stop → format[i]? ≠ some 0

theorem Closes.unique {format : Bytes} {place close other : Nat} (h : Closes format place close)
    (hother : Closes format place other) : close = other := by
  rcases Nat.lt_trichotomy close other with hlt | heq | hgt
  · exact absurd h.bracket (hother.first close h.behind hlt)
  · exact heq
  · exact absurd hother.bracket (h.first other hother.behind hgt)

/-- A format that ends ahead of every bracket leaves the set open. -/
theorem Ends.not_closes {format : Bytes} {place stop close : Nat} (h : Ends format place stop)
    (hopen : ∀ i, place < i → i < stop → format[i]? ≠ some 0x5D) : ¬ Closes format place close := by
  intro hclose
  have hbracket := hclose.bracket
  by_cases hlt : close < stop
  · exact hopen close hclose.behind hlt hbracket
  · have hle : stop ≤ close := Nat.le_of_not_lt hlt
    rcases h.finish with hzero | hlength
    · rcases Nat.eq_or_lt_of_le hle with heq | hgt
      · rw [heq, hbracket] at hzero
        cases hzero
      · exact hclose.reached stop h.behind hgt hzero
    · rw [List.getElem?_eq_none (hlength ▸ hle)] at hbracket
      cases hbracket

section Splitting

variable {format front : Bytes} {place i : Nat} {first : UInt8}

/-- Behind a place a format reads as the text from that place on. -/
theorem getElem?_of_drop (h : format.drop place = text) (hle : place ≤ i) :
    format[i]? = text[i - place]? := by
  rw [← h, List.getElem?_drop, Nat.add_sub_cancel' hle]

/-- What stands in front of the rest of a format is no byte that is not there. -/
theorem ne_of_not_mem (h : format.drop place = front ++ tail) (hmem : c ∉ front) (hle : place ≤ i)
    (hlt : i < place + front.length) : format[i]? ≠ some c := by
  rw [getElem?_of_drop h hle, List.getElem?_append_left (by omega)]
  exact fun heq => hmem (List.mem_of_getElem? heq)

theorem drop_succ_of_drop (h : format.drop place = first :: text) :
    format.drop (place + 1) = text := by
  rw [← List.drop_drop, h, List.drop_one, List.tail_cons]

/-- An expression with a bracket behind it closes there. -/
theorem closes_of_drop (h : format.drop place = first :: (body ++ 0x5D :: rest))
    (hfirst : first ≠ 0) (hzero : 0 ∉ body) (hbracket : 0x5D ∉ body) :
    Closes format place (place + 1 + body.length) := by
  have hbody := drop_succ_of_drop h
  refine ⟨by omega, ?_, fun i hgt hlt => ne_of_not_mem hbody hbracket hgt hlt, ?_⟩
  · rw [getElem?_of_drop hbody (by omega), List.getElem?_append_right (by omega)]
    simp
  · intro i hge hlt
    have hfront : 0 ∉ first :: body := by
      rw [List.mem_cons, not_or]
      exact ⟨Ne.symm hfirst, hzero⟩
    have hwhole : format.drop place = (first :: body) ++ 0x5D :: rest := h
    exact ne_of_not_mem hwhole hfront hge (by rw [List.length_cons]; omega)

/-- A text without a zero byte ends where a zero byte or nothing is behind it. -/
theorem ends_of_drop (h : format.drop place = front ++ tail) (hplace : place ≤ format.length)
    (hstops : Stops tail (.unterminated rest)) (hzero : 0 ∉ front) :
    Ends format place (place + front.length) := by
  refine ⟨by omega, ?_, fun i hge hlt => ne_of_not_mem h hzero hge hlt⟩
  cases hstops with
  | zero rest =>
    left
    rw [getElem?_of_drop h (by omega), List.getElem?_append_right (by omega)]
    simp
  | finish =>
    right
    have hlength := congrArg List.length h
    rw [List.append_nil, List.length_drop] at hlength
    omega

end Splitting

/-! ## Reading a set -/

variable {negated : Bool} {first : UInt8} {format : Bytes} {start : Nat}

/-- A set without a first member is still open. -/
theorem readBody_of_stops (h : Stops text (.unterminated rest)) :
    readBody negated text = ⟨⟨negated, []⟩, .unterminated rest⟩ := by
  cases h <;> rfl

theorem contains_eq_not_iff {members : List ByteRange} :
    (ScanSet.mk negated members).contains x = !negated ↔
      members.any (·.contains x) = true := by
  rw [contains]
  dsimp only
  cases negated <;> cases members.any (·.contains x) <;> decide

/-- The body of a set ends where the reading stops. Its set accepts the members, or is
negated and rejects them. -/
theorem readBody_append_stops (negated : Bool) (hstops : Stops tail ending) (hfirst : first ≠ 0)
    (hzero : 0 ∉ body) (hbracket : 0x5D ∉ body) :
    (readBody negated (first :: (body ++ tail))).ending = ending ∧
      ∀ x, (readBody negated (first :: (body ++ tail))).set.contains x = !negated ↔
        x = first ∨ IsMember x first body := by
  obtain ⟨hend, hmember⟩ := readMembers_append_stops hstops hfirst hzero hbracket
  rw [readBody, if_neg (by simpa using hfirst)]
  refine ⟨hend, fun x => ?_⟩
  rw [contains_eq_not_iff, List.any_cons, Bool.or_eq_true, contains_single, hmember]

/-- Whether the set at an offset is negated. -/
def isNegated (format : Bytes) (start : Nat) : Bool := format[start]? == some 0x5E

/-- Where the first member of the set at an offset stands. -/
def firstPlace (format : Bytes) (start : Nat) : Nat :=
  if isNegated format start then start + 1 else start

theorem firstPlace_le (h : start ≤ format.length) : firstPlace format start ≤ format.length := by
  unfold firstPlace
  split
  case isTrue hneg =>
    obtain ⟨hlt, -⟩ := List.getElem?_eq_some_iff.mp (eq_of_beq hneg)
    exact hlt
  case isFalse => exact h

/-- A set is read from its first member on. -/
theorem read_drop (format : Bytes) (start : Nat) :
    read (format.drop start) =
      readBody (isNegated format start) (format.drop (firstPlace format start)) := by
  have hhead : format[start]? = (format.drop start).head? := by
    rw [List.head?_drop]
  cases htext : format.drop start with
  | nil =>
    have hplain : isNegated format start = false := by rw [isNegated, hhead, htext]; rfl
    rw [firstPlace, hplain, if_neg Bool.false_ne_true, htext]
    rfl
  | cons c rest =>
    by_cases hc : c = 0x5E
    · have hneg : isNegated format start = true := by rw [isNegated, hhead, htext, hc]; rfl
      rw [firstPlace, hneg, if_pos rfl, drop_succ_of_drop htext, hc]
      rfl
    · have hplain : isNegated format start = false := by
        rw [isNegated, hhead, htext]
        simpa using hc
      rw [firstPlace, hplain, if_neg Bool.false_ne_true, htext]
      unfold read
      split
      case h_1 heq => exact absurd (List.cons.inj heq).1 hc
      case h_2 => rfl

/-- What the compilation of a set reports, by the part of the format that is left. -/
theorem compile_eq (h : start ≤ format.length) :
    compile format start = ((read (format.drop start)).set,
      match (read (format.drop start)).ending with
      | .closed rest => .ok (format.length - rest.length)
      | .unterminated rest => .error (.unterminatedScanSet (format.length - rest.length))) := by
  have hle := length_read_le (format.drop start)
  rw [List.length_drop] at hle
  unfold compile
  dsimp only
  rw [List.length_drop]
  have hplace : start + (format.length - start - (read (format.drop start)).ending.rest.length) =
      format.length - (read (format.drop start)).ending.rest.length := by omega
  rw [hplace]
  cases (read (format.drop start)).ending <;> rfl

/-! ## Tables that are filled in place -/

/-- Whether each byte is accepted. -/
abbrev Table := UInt8 → Bool

/-- The bytes of a range, in their order. -/
def bytesWithin (range : ByteRange) : Bytes :=
  (List.range' range.first.toNat (range.last.toNat + 1 - range.first.toNat)).map UInt8.ofNat

/-- Store an entry for every byte of a range, one after another. -/
def Table.store (value : Bool) (table : Table) (range : ByteRange) : Table :=
  (bytesWithin range).foldl (fun table c => Function.update table c value) table

/-- Read the members behind the first one into a table. -/
def Table.readMembers (member : Bool) (last : UInt8) (table : Table) : Bytes → Table × Ending
  | [] => (table, .unterminated [])
  | c :: rest =>
    if c == 0 then (table, .unterminated (c :: rest))
    else if c == 0x5D then (table, .closed rest)
    else if c == 0x2D then
      match rest with
      | [] => (table.store member (.single c), .unterminated [])
      | bound :: after =>
        if bound == 0x5D || bound < last then
          readMembers member c (table.store member (.single c)) (bound :: after)
        else readMembers member bound (table.store member ⟨last, bound⟩) after
    else readMembers member c (table.store member (.single c)) rest

/-- Read the members of a set into a table, every entry of which is stored anew. -/
def Table.readBody (negated : Bool) (previous : Table) (text : Bytes) : Table × Ending :=
  let table := previous.store negated ⟨0x00, 0xFF⟩
  match text with
  | [] => (table, .unterminated [])
  | c :: rest =>
    if c == 0 then (table, .unterminated (c :: rest))
    else readMembers (!negated) c (table.store (!negated) (.single c)) rest

/-- Read a set into a table, from the byte behind its opening bracket. -/
def Table.read (previous : Table) : Bytes → Table × Ending
  | 0x5E :: rest => readBody true previous rest
  | text => readBody false previous text

/-- Compile the set that starts at an offset of a format into a table that is in use. -/
def Table.compile (previous : Table) (format : Bytes) (start : Nat) :
    Table × Except FormatError Nat :=
  let text := format.drop start
  let read := previous.read text
  let finish := start + (text.length - read.2.rest.length)
  match read.2 with
  | .closed _ => (read.1, .ok finish)
  | .unterminated _ => (read.1, .error (.unterminatedScanSet finish))

variable {member value : Bool} {table previous : Table}

theorem foldl_update_apply (places : Bytes) :
    places.foldl (fun table c => Function.update table c value) table x =
      if x ∈ places then value else table x := by
  induction places generalizing table with
  | nil => rfl
  | cons c places ih =>
    rw [List.foldl_cons, ih, Function.update_apply]
    by_cases hlater : x ∈ places
    · rw [if_pos hlater, if_pos (List.mem_cons_of_mem c hlater)]
    · by_cases hx : x = c
      · rw [if_neg hlater, if_pos hx, if_pos (hx ▸ List.mem_cons_self)]
      · rw [if_neg hlater, if_neg hx, if_neg fun hmem => (List.mem_cons.mp hmem).elim hx hlater]

theorem mem_bytesWithin {range : ByteRange} : x ∈ bytesWithin range ↔ range.contains x = true := by
  rw [bytesWithin, List.mem_map, ByteRange.contains, Bool.and_eq_true, decide_eq_true_eq,
    decide_eq_true_eq, UInt8.le_iff_toNat_le, UInt8.le_iff_toNat_le]
  constructor
  · rintro ⟨n, hn, rfl⟩
    have hlast := range.last.toNat_lt
    rw [List.mem_range'_1] at hn
    rw [UInt8.toNat_ofNat_of_lt' (show n < 256 by omega)]
    omega
  · intro hle
    refine ⟨x.toNat, ?_, UInt8.ofNat_toNat⟩
    rw [List.mem_range'_1]
    omega

/-- Storing the entries of a range changes these and no others. -/
theorem Table.store_apply (range : ByteRange) :
    table.store value range x = if range.contains x then value else table x := by
  rw [store, foldl_update_apply]
  exact if_congr mem_bytesWithin rfl rfl

theorem Table.store_all : previous.store value ⟨0x00, 0xFF⟩ = fun _ => value := by
  funext x
  have hall : (ByteRange.mk 0x00 0xFF).contains x = true := by
    have hlt := x.toNat_lt
    rw [ByteRange.contains, Bool.and_eq_true, decide_eq_true_eq, decide_eq_true_eq]
    exact ⟨UInt8.zero_le, UInt8.le_iff_toNat_le.mpr (Nat.le_of_lt_succ hlt)⟩
  rw [store_apply, if_pos hall]

/-- The table in which the bytes of some ranges are marked. -/
def Table.markAll (member : Bool) (table : Table) (ranges : List ByteRange) : Table :=
  fun x => if ranges.any (·.contains x) then member else table x

theorem Table.markAll_store (range : ByteRange) (ranges : List ByteRange) :
    (table.store member range).markAll member ranges = table.markAll member (range :: ranges) := by
  funext x
  rw [markAll, markAll, List.any_cons, store_apply]
  cases range.contains x <;> cases ranges.any (·.contains x) <;> rfl

/-- Reading members into a table marks them, and ends where reading them ends. -/
theorem Table.readMembers_eq (last : UInt8) (table : Table) (text : Bytes) :
    table.readMembers member last text =
      (table.markAll member (ScanSet.readMembers last text).1,
        (ScanSet.readMembers last text).2) := by
  -- the two readings branch alike; the table holds what was marked on the way
  induction last, text using ScanSet.readMembers.induct generalizing table with
  | case1 last => rfl
  | case2 last c rest hz =>
    rw [readMembers.eq_def, ScanSet.readMembers.eq_def]
    dsimp only
    rw [if_pos hz, if_pos hz]
    rfl
  | case3 last c rest hz hb =>
    rw [readMembers.eq_def, ScanSet.readMembers.eq_def]
    dsimp only
    rw [if_neg hz, if_pos hb, if_neg hz, if_pos hb]
    rfl
  | case4 last c hz hb hd =>
    rw [readMembers.eq_def, ScanSet.readMembers.eq_def]
    dsimp only
    rw [if_neg hz, if_neg hb, if_pos hd, if_neg hz, if_neg hb, if_pos hd, ← markAll_store]
    rfl
  | case5 last c hz hb hd bound after hplain ih =>
    rw [readMembers.eq_def, ScanSet.readMembers.eq_def]
    dsimp only
    rw [if_neg hz, if_neg hb, if_pos hd, if_neg hz, if_neg hb, if_pos hd, if_pos hplain,
      if_pos hplain, ih, ← markAll_store]
  | case6 last c hz hb hd bound after hrange ih =>
    rw [readMembers.eq_def, ScanSet.readMembers.eq_def]
    dsimp only
    rw [if_neg hz, if_neg hb, if_pos hd, if_neg hz, if_neg hb, if_pos hd, if_neg hrange,
      if_neg hrange, ih, ← markAll_store]
  | case7 last c rest hz hb hd ih =>
    rw [readMembers.eq_def, ScanSet.readMembers.eq_def]
    dsimp only
    rw [if_neg hz, if_neg hb, if_neg hd, if_neg hz, if_neg hb, if_neg hd, ih, ← markAll_store]

/-- Reading a body stores every entry of a table as the set says. -/
theorem Table.readBody_eq (previous : Table) (text : Bytes) :
    previous.readBody negated text =
      ((ScanSet.readBody negated text).set.contains, (ScanSet.readBody negated text).ending) := by
  have hmark (members : List ByteRange) :
      Table.markAll (!negated) (fun _ => negated) members =
        (ScanSet.mk negated members).contains := by
    funext x
    rw [markAll, contains]
    dsimp only
    cases negated <;> cases members.any (·.contains x) <;> rfl
  have hempty : (fun _ => negated) = (ScanSet.mk negated []).contains := (hmark []).symm ▸ rfl
  unfold readBody
  dsimp only
  rw [store_all]
  cases text with
  | nil => rw [hempty]; rfl
  | cons c rest =>
    dsimp only
    rw [ScanSet.readBody]
    by_cases hz : (c == 0) = true
    · rw [if_pos hz, if_pos hz, hempty]
    · rw [if_neg hz, if_neg hz, readMembers_eq, markAll_store, hmark]

theorem Table.read_eq (previous : Table) (text : Bytes) :
    previous.read text = ((ScanSet.read text).set.contains, (ScanSet.read text).ending) := by
  unfold read
  split
  case h_1 => exact readBody_eq previous _
  case h_2 other hplain =>
    rw [ScanSet.read]
    · exact readBody_eq previous text
    · exact hplain

/-- A table that is in use is compiled into the table of the set, whatever it held. -/
theorem Table.compile_eq (previous : Table) (format : Bytes) (start : Nat) :
    previous.compile format start =
      ((ScanSet.compile format start).1.contains, (ScanSet.compile format start).2) := by
  unfold compile ScanSet.compile
  dsimp only
  rw [read_eq]
  dsimp only
  cases (ScanSet.read (format.drop start)).ending <;> rfl

/-! ## Sets in a format -/

/-- The expression of a set that closes at an offset, from its first member to the bracket. -/
def expression (format : Bytes) (place close : Nat) : Bytes :=
  (format.drop place).take (close - place)

/-- A set in a format closes at the first bracket behind its first member. Its offset and its
members are those of its expression. -/
theorem compile_of_closed (h : start ≤ format.length)
    (hdrop : format.drop (firstPlace format start) = first :: (body ++ 0x5D :: rest))
    (hfirst : first ≠ 0) (hzero : 0 ∉ body) (hbracket : 0x5D ∉ body) :
    ∃ close, Closes format (firstPlace format start) close ∧
      (compile format start).2 = .ok (close + 1) ∧
      expression format (firstPlace format start) close = first :: body ∧
      ∀ x, (compile format start).1.contains x = !isNegated format start ↔
        x = first ∨ IsMember x first body := by
  obtain ⟨hend, hmembers⟩ :=
    readBody_append_stops (isNegated format start) (.bracket rest) hfirst hzero hbracket
  rw [← hdrop, ← read_drop] at hend hmembers
  have hlength := congrArg List.length hdrop
  rw [List.length_drop, List.length_cons, List.length_append, List.length_cons] at hlength
  refine ⟨_, closes_of_drop hdrop hfirst hzero hbracket, ?_, ?_, fun x => ?_⟩
  · rw [compile_eq h, hend]
    refine congrArg Except.ok ?_
    omega
  · rw [expression, hdrop, ← List.cons_append]
    refine List.take_left' ?_
    rw [List.length_cons]
    omega
  · rw [compile_eq h]
    exact hmembers x

/-- A set in a format that ends first is still open, and the offset is that of the end. -/
theorem compile_of_open {front : Bytes} (h : start ≤ format.length)
    (hdrop : format.drop (firstPlace format start) = front ++ tail)
    (hstops : Stops tail (.unterminated tail)) (hzero : 0 ∉ front) (hbracket : 0x5D ∉ front.tail) :
    (¬ ∃ close, Closes format (firstPlace format start) close) ∧
      ∃ stop, Ends format (firstPlace format start) stop ∧
        (compile format start).2 = .error (.unterminatedScanSet stop) := by
  have hends := ends_of_drop hdrop (firstPlace_le h) hstops hzero
  have hlength := congrArg List.length hdrop
  rw [List.length_drop, List.length_append] at hlength
  have hend : (read (format.drop start)).ending = .unterminated tail := by
    rw [read_drop, hdrop]
    cases front with
    | nil => exact congrArg Compiled.ending (readBody_of_stops hstops)
    | cons first body =>
      rw [List.mem_cons, not_or] at hzero
      exact (readBody_append_stops _ hstops (Ne.symm hzero.1) hzero.2 hbracket).1
  have hopen : ∀ i, firstPlace format start < i →
      i < firstPlace format start + front.length → format[i]? ≠ some 0x5D := by
    intro i hgt hlt
    cases front with
    | nil => simp only [List.length_nil] at hlt; omega
    | cons first body =>
      rw [List.length_cons] at hlt
      exact ne_of_not_mem (drop_succ_of_drop hdrop) hbracket hgt (by omega)
  refine ⟨fun hclose => hclose.elim fun close => hends.not_closes hopen, _, hends, ?_⟩
  rw [compile_eq h, hend]
  refine congrArg (fun stop => Except.error (FormatError.unterminatedScanSet stop)) ?_
  have hle := firstPlace_le h
  omega

/-- The set at an offset of a format is closed by the first bracket behind its first member,
if no zero byte and not the end of the format comes first, and the offset behind that bracket
is reported; otherwise the failure tells where the format ends. A set that is closed accepts
the first member and the members of the expression behind it, or rejects just these if it is
negated. A table that is in use ends up the same, whatever it held, and with the same report,
also where the set is not closed. -/
theorem compile_exact (h : start ≤ format.length) :
    let place := firstPlace format start
    let compiled := compile format start
    (∀ finish, compiled.2 = .ok finish ↔ ∃ close, Closes format place close ∧ finish = close + 1) ∧
      ((¬ ∃ close, Closes format place close) →
        ∃ stop, Ends format place stop ∧ compiled.2 = .error (.unterminatedScanSet stop)) ∧
      (∀ close, Closes format place close →
        ∃ first body, expression format place close = first :: body ∧
          ∀ x, compiled.1.contains x = !isNegated format start ↔
            x = first ∨ IsMember x first body) ∧
      ∀ previous : Table, previous.compile format start = (compiled.1.contains, compiled.2) := by
  intro place compiled
  have hcases : (∃ first body rest, format.drop place = first :: (body ++ 0x5D :: rest) ∧
      first ≠ 0 ∧ 0 ∉ body ∧ 0x5D ∉ body) ∨
      ∃ front tail, format.drop place = front ++ tail ∧ Stops tail (.unterminated tail) ∧
        0 ∉ front ∧ 0x5D ∉ front.tail := by
    cases format.drop place with
    | nil => exact .inr ⟨[], [], rfl, .finish, List.not_mem_nil, List.not_mem_nil⟩
    | cons first text =>
      by_cases hfirst : first = 0
      · subst hfirst
        exact .inr ⟨[], _, rfl, .zero text, List.not_mem_nil, List.not_mem_nil⟩
      · obtain ⟨body, tail, ending, rfl, hzero, hbracket, hstops⟩ := exists_stops text
        have hfront : 0 ∉ first :: body := by
          rw [List.mem_cons, not_or]
          exact ⟨Ne.symm hfirst, hzero⟩
        cases hstops with
        | bracket rest => exact .inl ⟨first, body, rest, rfl, hfirst, hzero, hbracket⟩
        | zero rest => exact .inr ⟨first :: body, _, rfl, .zero rest, hfront, hbracket⟩
        | finish => exact .inr ⟨first :: body, _, rfl, .finish, hfront, hbracket⟩
  rcases hcases with ⟨first, body, rest, hdrop, hfirst, hzero, hbracket⟩ |
      ⟨front, tail, hdrop, hstops, hzero, hbracket⟩
  · obtain ⟨close, hclose, hresult, hexpression, hmembers⟩ :=
      compile_of_closed h hdrop hfirst hzero hbracket
    refine ⟨fun finish => ?_, fun hopen => absurd ⟨close, hclose⟩ hopen, fun other hother => ?_,
      fun previous => previous.compile_eq format start⟩
    · have hfinish : compiled.2 = .ok finish ↔ close + 1 = finish := by
        rw [show compiled.2 = .ok (close + 1) from hresult, Except.ok.injEq]
      rw [hfinish]
      constructor
      · rintro rfl
        exact ⟨close, hclose, rfl⟩
      · rintro ⟨other, hother, rfl⟩
        rw [hclose.unique hother]
    · rw [hother.unique hclose]
      exact ⟨first, body, hexpression, hmembers⟩
  · obtain ⟨hopen, stop, hends, hresult⟩ := compile_of_open h hdrop hstops hzero hbracket
    refine ⟨fun finish => ?_, fun _ => ⟨stop, hends, hresult⟩,
      fun close hclose => absurd ⟨close, hclose⟩ hopen,
      fun previous => previous.compile_eq format start⟩
    rw [show compiled.2 = .error (.unterminatedScanSet stop) from hresult]
    constructor
    · intro hok
      cases hok
    · rintro ⟨close, hclose, -⟩
      exact absurd ⟨close, hclose⟩ hopen

/-- The set `[^]-a-c-ez-x-]` is negated and begins with a bracket. Its ranges chain up to
`e`; the range from `z` to `x` would descend, and the last `-` has no bound. -/
theorem compile_exact_chained :
    let format : Bytes := [0x5B, 0x5E, 0x5D, 0x2D, 0x61, 0x2D, 0x63, 0x2D, 0x65, 0x7A, 0x2D, 0x78,
      0x2D, 0x5D, 0x71]
    Closes format 2 13 ∧ (∀ previous : Table, (previous.compile format 1).2 = .ok 14) ∧
      ∀ x, (compile format 1).1.contains x = false ↔
        x = 0x5D ∨ IsMember x 0x5D [0x2D, 0x61, 0x2D, 0x63, 0x2D, 0x65, 0x7A, 0x2D, 0x78,
          0x2D] := by
  intro format
  have hstart : 1 ≤ format.length := by decide
  obtain ⟨hresult, -, hmembers, htables⟩ := compile_exact hstart
  have hfinish : (compile format 1).2 = .ok 14 := rfl
  obtain ⟨close, hclose, heq⟩ := (hresult 14).mp hfinish
  obtain rfl : close = 13 := by omega
  obtain ⟨first, body, hexpression, hiff⟩ := hmembers 13 hclose
  have hbytes : expression format 2 13 = [0x5D, 0x2D, 0x61, 0x2D, 0x63, 0x2D, 0x65, 0x7A, 0x2D,
      0x78, 0x2D] := rfl
  obtain ⟨rfl, rfl⟩ := List.cons.inj (hexpression.symm.trans hbytes)
  exact ⟨hclose, fun previous => (congrArg Prod.snd (htables previous)).trans hfinish, hiff⟩

end FormatScan.ScanSet
