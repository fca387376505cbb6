import FormatScan.Proofs.Format.Taking
import FormatScan.Proofs.Format.Truncation

/-!
# Formatting one format behind another

A format may be cut between two directives. Formatting the second part behind the
first, with the operands that the first one left, does what formatting the whole
does. From one directive to the next nothing is carried but the number of bytes
produced and the place in the list of operands, so only two things show the cut: the
numbers that count directives store, and the places that errors name.

The directives that a call carries out are listed with the number of bytes produced
in front of each. The list tells which operands hold counts, of how many bytes and
how wide, and thus what all operands hold afterwards.
-/

namespace FormatScan.Format

/-- A format that ends between two named directives. -/
inductive Whole : Bytes → Prop where
  /-- Nothing is left. -/
  | nil : Whole []
  /-- A byte stands in front that starts no directive. -/
  | byte {c : UInt8} {rest : Bytes} (hp : c ≠ 0x25) (h : Whole rest) : Whole (c :: rest)
  /-- A directive stands in front that names its conversion. -/
  | directive {rest after : Bytes} {directive : Directive}
      (hr : Directive.read false rest = (directive, after))
      (hn : directive.conversion ≠ .invalid) (h : Whole after) : Whole (0x25 :: rest)

/-- The directives that a call carries out along a format, each with the number of
bytes produced in front of it. -/
def performed (format : Bytes) (progress : Progress) : List (Directive × Nat) :=
  match format with
  | [] => []
  | c :: rest =>
    if c == 0 then []
    else if c != 0x25 then performed rest (progress.add [Piece.text [c]])
    else
      let read := Directive.read false rest
      match read.1.perform progress with
      | .error _ => []
      | .ok (pieces, operands) =>
        if read.1.conversion == .invalid then [(read.1, progress.produced)]
        else
          (read.1, progress.produced) ::
            performed read.2 { progress.add pieces with operands := operands }
termination_by format.length
decreasing_by
  · simp
  · exact Nat.lt_succ_of_le (Directive.length_read_le false rest)

section Performed

variable {rest : Bytes} {progress : Progress}

/-- Nothing is carried out where the format ends. -/
theorem performed_nil : performed [] progress = [] := by
  rw [performed]

/-- A zero byte ends the format. -/
theorem performed_zero : performed (0 :: rest) progress = [] := by
  rw [performed, if_pos (by decide)]

/-- A byte that stands for itself carries nothing out. -/
theorem performed_literal {c : UInt8} (hz : c ≠ 0) (hp : c ≠ 0x25) :
    performed (c :: rest) progress = performed rest (progress.add [Piece.text [c]]) := by
  rw [performed, if_neg (by simpa using hz), if_pos (by simpa using hp)]

/-- Nothing is carried out from a directive on that fails. -/
theorem performed_failed {error : FormatError}
    (h : (Directive.read false rest).1.perform progress = .error error) :
    performed (0x25 :: rest) progress = [] := by
  rw [performed, if_neg (by decide), if_neg (by decide)]
  dsimp only
  rw [h]

variable {pieces : List Piece} {operands : Operands}

/-- An invalid directive is the last one that is carried out. -/
theorem performed_invalid (hi : (Directive.read false rest).1.conversion = .invalid)
    (h : (Directive.read false rest).1.perform progress = .ok (pieces, operands)) :
    performed (0x25 :: rest) progress = [((Directive.read false rest).1, progress.produced)] := by
  rw [performed, if_neg (by decide), if_neg (by decide)]
  dsimp only
  rw [h]
  exact if_pos (by rw [hi]; rfl)

/-- A named directive is carried out ahead of those behind it. -/
theorem performed_directive {directive : Directive} {after : Bytes}
    (hr : Directive.read false rest = (directive, after)) (hn : directive.conversion ≠ .invalid)
    (h : directive.perform progress = .ok (pieces, operands)) :
    performed (0x25 :: rest) progress =
      (directive, progress.produced) ::
        performed after { progress.add pieces with operands := operands } := by
  rw [performed, if_neg (by decide), if_neg (by decide)]
  dsimp only
  rw [hr]
  dsimp only
  rw [h]
  exact if_neg (by simpa using hn)

end Performed

/-- The marks that the directives of a call leave, in the order of its operands. -/
def marksOf (trace : List (Directive × Nat)) : List Mark :=
  trace.flatMap fun step => step.1.marks step.2

/-- A directive leaves its marks ahead of those behind it. -/
theorem marksOf_cons (directive : Directive) (produced : Nat) (trace : List (Directive × Nat)) :
    marksOf ((directive, produced) :: trace) = directive.marks produced ++ marksOf trace :=
  List.flatMap_cons

/-- Counting goes on behind earlier output as it goes on by itself. -/
theorem countFrom_satAdd (ahead produced : Nat) (pieces : List Piece) :
    Piece.countFrom (Word.satAdd ahead produced) pieces =
      Word.satAdd ahead (Piece.countFrom produced pieces) := by
  induction pieces generalizing produced with
  | nil => rfl
  | cons piece pieces ih =>
    have hstep : Word.satAdd (Word.satAdd ahead produced) piece.length =
        Word.satAdd ahead (Word.satAdd produced piece.length) := by
      unfold Word.satAdd
      omega
    have hrest := ih (Word.satAdd produced piece.length)
    rw [← hstep] at hrest
    exact hrest

/-- A place of a call behind another one: the same operands are pending, some more
were taken, and some more bytes were produced. -/
structure Progress.Behind (index ahead : Nat) (alone behind : Progress) : Prop where
  /-- The pending operands are the same. -/
  pending_eq : behind.operands.pending = alone.operands.pending
  /-- More operands were taken. -/
  length_eq : behind.operands.used.length = index + alone.operands.used.length
  /-- More bytes were produced. -/
  produced_eq : behind.produced = Word.satAdd ahead alone.produced

section Behind

variable {index ahead : Nat} {alone behind : Progress}

/-- Output is produced behind earlier output as it is by itself. -/
theorem Progress.Behind.add (h : alone.Behind index ahead behind) (pieces : List Piece) :
    (alone.add pieces).Behind index ahead (behind.add pieces) := by
  refine ⟨h.pending_eq, h.length_eq, ?_⟩
  have hcount := countFrom_satAdd ahead alone.produced pieces
  rw [← h.produced_eq] at hcount
  exact hcount

/-- A directive behind another call does what it does by itself. -/
theorem Directive.perform_behind (directive : Directive) (h : alone.Behind index ahead behind) :
    (∃ pieces operands operands', directive.perform alone = .ok (pieces, operands) ∧
        directive.perform behind = .ok (pieces, operands') ∧
        Progress.Behind index ahead { alone.add pieces with operands := operands }
          { behind.add pieces with operands := operands' }) ∨
      ∃ error, directive.perform alone = .error error ∧
        directive.perform behind = .error (shiftArgument index error) := by
  obtain ⟨⟨used, pending⟩, produced⟩ := alone
  obtain ⟨⟨used', pending'⟩, produced'⟩ := behind
  have hpending : pending' = pending := h.pending_eq
  have hlength : used'.length = index + used.length := h.length_eq
  subst hpending
  cases directive.acts pending' with
  | takes taken rest pieces hmarks hstep =>
    refine Or.inl ⟨pieces, _, _, hstep used rest produced, hstep used' rest produced', rfl, ?_, ?_⟩
    · dsimp only
      rw [List.length_append, List.length_append, length_leave, length_leave, hlength]
      omega
    · exact (h.add pieces).produced_eq
  | fails _ error hstep =>
    refine Or.inr ⟨_, hstep used produced, ?_⟩
    rw [hstep used' produced', hlength, shiftArgument_add]

/-- What a call reports behind another one that produced some bytes and took some
operands. -/
def resultBehind (index ahead : Nat) : Except FormatError Nat → Except FormatError Nat
  | .ok produced => .ok (Word.satAdd ahead produced)
  | .error error => .error (shiftArgument index error)

/-- A call behind another one does what it does by itself. Its output is the same, it
carries out the same directives, and only its counts and its places are shifted. -/
theorem run_behind (format : Bytes) (h : alone.Behind index ahead behind) :
    (run format behind).pieces = (run format alone).pieces ∧
      (run format behind).result = resultBehind index ahead (run format alone).result ∧
      performed format behind =
        (performed format alone).map (Prod.map id (Word.satAdd ahead)) := by
  -- A directive takes more than one byte, so the induction is on the length.
  induction hn : format.length using Nat.strongRecOn generalizing format alone behind with
  | ind n ih =>
    have hended : Except.ok behind.produced = resultBehind index ahead (.ok alone.produced) := by
      rw [h.produced_eq]
      rfl
    cases format with
    | nil =>
      rw [run_nil, run_nil, performed_nil, performed_nil]
      exact ⟨rfl, hended, rfl⟩
    | cons c rest =>
      rw [List.length_cons] at hn
      by_cases hz : c = 0
      · subst hz
        rw [run_zero, run_zero, performed_zero, performed_zero]
        exact ⟨rfl, hended, rfl⟩
      by_cases hp : c = 0x25
      · subst hp
        have hshort := Directive.length_read_le false rest
        rcases (Directive.read false rest).1.perform_behind h with
          ⟨pieces, operands, operands', halone, hbehind, hnext⟩ | ⟨error, halone, hbehind⟩
        · by_cases hi : (Directive.read false rest).1.conversion = .invalid
          · rw [run_invalid hi halone, run_invalid hi hbehind, performed_invalid hi halone,
              performed_invalid hi hbehind, h.produced_eq]
            refine ⟨rfl, ?_, rfl⟩
            rw [(h.add _).produced_eq]
            rfl
          · obtain ⟨hpieces, hresult, htrace⟩ :=
              ih _ (by omega) (Directive.read false rest).2 hnext rfl
            rw [run_directive rfl hi halone, run_directive rfl hi hbehind,
              performed_directive rfl hi halone, performed_directive rfl hi hbehind, htrace,
              h.produced_eq]
            exact ⟨congrArg (pieces ++ ·) hpieces, hresult, rfl⟩
        · rw [run_failed halone, run_failed hbehind, performed_failed halone,
            performed_failed hbehind]
          exact ⟨rfl, rfl, rfl⟩
      · obtain ⟨hpieces, hresult, htrace⟩ := ih rest.length (by omega) rest (h.add _) rfl
        rw [run_literal hz hp, run_literal hz hp, performed_literal hz hp,
          performed_literal hz hp]
        exact ⟨congrArg ([Piece.text [c]] ++ ·) hpieces, hresult, htrace⟩

end Behind

/-- The marks of a directive behind some more output. -/
theorem Directive.marks_behind (directive : Directive) (ahead produced : Nat) :
    directive.marks (Word.satAdd ahead produced) =
      (directive.marks produced).map (Mark.behind ahead) := by
  have hvalues : (List.replicate (directive.modifiers.count .star) Mark.value).map
      (Mark.behind ahead) = List.replicate (directive.modifiers.count .star) .value :=
    List.map_replicate
  unfold Directive.marks
  rw [List.map_append, hvalues]
  cases directive.conversion <;> rfl

/-- The marks of a call behind some more output. -/
theorem marksOf_behind (ahead : Nat) (trace : List (Directive × Nat)) :
    marksOf (trace.map (Prod.map id (Word.satAdd ahead))) =
      (marksOf trace).map (Mark.behind ahead) := by
  induction trace with
  | nil => rfl
  | cons step trace ih =>
    have hcons : (step :: trace).map (Prod.map id (Word.satAdd ahead)) =
        (step.1, Word.satAdd ahead step.2) :: trace.map (Prod.map id (Word.satAdd ahead)) := rfl
    rw [hcons, marksOf_cons, ih, Directive.marks_behind, ← List.map_append, ← marksOf_cons]

/-- A call leaves the operands that were taken before as they are, and those that
were pending as its marks say. -/
theorem run_leaves (format : Bytes) (progress : Progress) :
    (run format progress).operands.all =
      progress.operands.used ++
        leave (marksOf (performed format progress)) progress.operands.pending := by
  have hnone : ∀ pending, leave (marksOf []) pending = pending := leave_nil
  induction hn : format.length using Nat.strongRecOn generalizing format progress with
  | ind n ih =>
    cases format with
    | nil =>
      rw [run_nil, performed_nil, hnone]
      rfl
    | cons c rest =>
      rw [List.length_cons] at hn
      by_cases hz : c = 0
      · subst hz
        rw [run_zero, performed_zero, hnone]
        rfl
      by_cases hp : c = 0x25
      · subst hp
        have hshort := Directive.length_read_le false rest
        obtain ⟨⟨used, pending⟩, produced⟩ := progress
        cases (Directive.read false rest).1.acts pending with
        | takes taken behind pieces hmarks hstep =>
          have halone := hstep used behind produced
          by_cases hi : (Directive.read false rest).1.conversion = .invalid
          · have hsingle : marksOf [((Directive.read false rest).1, produced)] =
                (Directive.read false rest).1.marks produced := List.append_nil _
            have hleave := leave_append (hmarks produced) [] behind
            rw [List.append_nil, leave_nil] at hleave
            rw [run_invalid hi halone, performed_invalid hi halone, hsingle, hleave,
              ← List.append_assoc]
            rfl
          · have hrest := ih _ (by omega) (Directive.read false rest).2
              (Progress.mk
                ⟨used ++ leave ((Directive.read false rest).1.marks produced) taken, behind⟩
                (Piece.countFrom produced pieces)) rfl
            rw [run_directive rfl hi halone, performed_directive rfl hi halone, marksOf_cons,
              leave_append (hmarks produced), ← List.append_assoc]
            exact hrest
        | fails _ error hstep =>
          have halone := hstep used produced
          rw [run_failed halone, performed_failed halone, hnone]
          rfl
      · have hrest := ih rest.length (by omega) rest (progress.add [Piece.text [c]]) rfl
        rw [run_literal hz hp, performed_literal hz hp]
        exact hrest

/-- A place with some more operands behind those that are pending. -/
def Progress.extend (progress : Progress) (others : List FormatArg) : Progress :=
  ⟨⟨progress.operands.used, progress.operands.pending ++ others⟩, progress.produced⟩

/-- A directive that succeeds does not look at further operands behind. -/
theorem Directive.perform_extend {directive : Directive} {progress : Progress}
    {pieces : List Piece} {operands : Operands}
    (h : directive.perform progress = .ok (pieces, operands)) (others : List FormatArg) :
    directive.perform (progress.extend others) =
      .ok (pieces, ⟨operands.used, operands.pending ++ others⟩) := by
  obtain ⟨⟨used, pending⟩, produced⟩ := progress
  cases directive.acts pending with
  | takes taken rest pieces' hmarks hstep =>
    have halone := hstep used rest produced
    rw [halone] at h
    cases h
    have hextended := hstep used (rest ++ others) produced
    rw [← List.append_assoc] at hextended
    exact hextended
  | fails _ error hstep =>
    rw [hstep used produced] at h
    cases h

/-- A call that succeeds along a whole format goes on behind it, whatever format and
operands follow. -/
theorem run_append {first : Bytes} (hw : Whole first) (hz : 0 ∉ first) {progress : Progress}
    {length : Nat} (hok : (run first progress).result = .ok length) (second : Bytes)
    (others : List FormatArg) :
    run (first ++ second) (progress.extend others) =
      (run second (Progress.extend ⟨(run first progress).operands, length⟩ others)).after
        (run first progress).pieces := by
  induction hw generalizing progress with
  | nil =>
    rw [run_nil] at hok ⊢
    cases hok
    rfl
  | @byte c rest hp hw ih =>
    have hc : c ≠ 0 := by
      rintro rfl
      exact hz List.mem_cons_self
    have hz' : 0 ∉ rest := fun h => hz (List.mem_cons_of_mem c h)
    rw [run_literal hc hp] at hok ⊢
    have hrest := ih hz' hok
    have hplace : (progress.extend others).add [Piece.text [c]] =
        (progress.add [Piece.text [c]]).extend others := rfl
    rw [List.cons_append, run_literal hc hp, hplace, hrest]
    rfl
  | @directive rest after directive hr hn hw ih =>
    have hnamed : (Directive.read false rest).1.conversion ≠ .invalid := by rwa [hr]
    obtain ⟨consumed, hrest, hmore⟩ := Directive.exists_consumed hnamed
    rw [hr] at hrest hmore
    have hz' : 0 ∉ after := by
      rw [hrest] at hz
      exact fun h => hz (List.mem_cons_of_mem _ (List.mem_append_right _ h))
    have hread : Directive.read false (rest ++ second) = (directive, after ++ second) := by
      rw [hrest, List.append_assoc]
      exact hmore (after ++ second)
    cases hperform : directive.perform progress with
    | error error =>
      rw [run_failed (by rwa [hr])] at hok
      cases hok
    | ok done =>
      obtain ⟨pieces, operands⟩ := done
      rw [run_directive hr hn hperform] at hok ⊢
      have hgoes := ih hz' hok
      rw [List.cons_append, run_directive hread hn (Directive.perform_extend hperform others)]
      have hplace : { (progress.extend others).add pieces with
          operands := ⟨operands.used, operands.pending ++ others⟩ } =
            Progress.extend { progress.add pieces with operands := operands } others := rfl
      rw [hplace, hgoes]
      simp only [Formatted.after, List.append_assoc]

/-- A call keeps the number of its operands. -/
theorem length_all (text : Bytes) (args : List FormatArg) :
    (format text args).operands.all.length = args.length := by
  have hleaves := run_leaves text ⟨.start args, 0⟩
  have hlength := congrArg List.length hleaves
  rw [List.length_append, length_leave] at hlength
  exact hlength.trans (Nat.zero_add _)

/-- A format behind a whole one that succeeds formats what the first one has left, and
nothing but its counts and its places shows that it is the second. The first must name
all of its directives, hold no zero byte and take exactly its own operands. Then the
output is that of the first format and that of the second, into whatever sink. The
lengths add up, held at the largest word, and an error of the second names its place
behind the operands of the first. The operands of the first are left as it leaves
them. Those of the second are left as it leaves them by itself, but for its counts:
these were of the bytes produced in front of them there, and are now of that many
bytes behind those of the first, narrowed to the same widths. -/
theorem printAll_append {first : Bytes} {args : List FormatArg} {length : Nat}
    (hw : Whole first) (hz : 0 ∉ first) (hok : (printAll first args).result = .ok length)
    (hall : (format first args).operands.pending = []) (second : Bytes) (others : List FormatArg) :
    let front := printAll first args
    let rest := printAll second others
    let joined := printAll (first ++ second) (args ++ others)
    let marks := marksOf (performed second ⟨.start others, 0⟩)
    joined.sink.bytes = front.sink.bytes ++ rest.sink.bytes ∧
      (∀ sink : Sink, (printTo sink (first ++ second) (args ++ others)).sink =
        ((sink.writeAll (format first args).pieces).writeAll
          (format second others).pieces).finish) ∧
      joined.result = resultBehind args.length length rest.result ∧
      (front.args.length = args.length ∧ rest.args = leave marks others) ∧
      joined.args = front.args ++ leave (marks.map (Mark.behind length)) others := by
  intro front rest joined marks
  have hcount : length = Piece.countFrom 0 (format first args).pieces := produced_of_run_ok hok
  rw [Piece.countFrom_eq (Nat.zero_le _)] at hcount
  have hlargest : length = Word.satAdd length 0 := by
    unfold Word.satAdd
    omega
  have hfront : (format first args).operands.all = (format first args).operands.used := by
    rw [Cursor.all, hall, List.append_nil]
  have hused : (format first args).operands.used.length = args.length := by
    rw [← hfront, length_all]
  have hbehind : Progress.Behind args.length length ⟨.start others, 0⟩
      ⟨⟨(format first args).operands.used, others⟩, length⟩ := ⟨rfl, hused, hlargest⟩
  have hjoined : format (first ++ second) (args ++ others) =
      (run second ⟨⟨(format first args).operands.used, others⟩, length⟩).after
        (format first args).pieces := by
    have hrun := run_append hw hz hok second others
    have hextend : Progress.extend ⟨(format first args).operands, length⟩ others =
        ⟨⟨(format first args).operands.used, others⟩, length⟩ := by
      rw [Progress.extend, hall, List.nil_append]
    rw [← hextend]
    exact hrun
  obtain ⟨hpieces, hresult, htrace⟩ := run_behind second hbehind
  have hwritten : (format (first ++ second) (args ++ others)).pieces =
      (format first args).pieces ++ (format second others).pieces := by
    rw [hjoined]
    exact congrArg ((format first args).pieces ++ ·) hpieces
  refine ⟨?_, ?_, ?_, ⟨length_all first args, ?_⟩, ?_⟩
  · dsimp only [joined, front, rest]
    rw [printAll_bytes, printAll_bytes, printAll_bytes, hwritten, Piece.stream_append]
  · intro sink
    dsimp only [printTo]
    rw [hwritten, Sink.writeAll, List.foldl_append]
    rfl
  · have hreported : joined.result = (format (first ++ second) (args ++ others)).result := rfl
    rw [hreported, hjoined]
    exact hresult
  · exact run_leaves second ⟨.start others, 0⟩
  · have hkept : joined.args = (format (first ++ second) (args ++ others)).operands.all := rfl
    have hleaves := run_leaves second ⟨⟨(format first args).operands.used, others⟩, length⟩
    have hfrontArgs : front.args = (format first args).operands.used := hfront
    rw [htrace, marksOf_behind] at hleaves
    rw [hkept, hjoined, hfrontArgs]
    exact hleaves

/-- The directive `%*s` with the width 3 takes three bytes. Behind it the first
operand of `x%hhn%s` counts four, and the second is the fourth of the whole call. -/
theorem printAll_append_count :
    Whole [0x25, 0x2A, 0x73] ∧
      (printAll [0x25, 0x2A, 0x73] [.int 3, .text (some [0x61])]).result = .ok 3 ∧
      (printAll ([0x25, 0x2A, 0x73] ++ [0x78, 0x25, 0x68, 0x68, 0x6E, 0x25, 0x73])
        ([.int 3, .text (some [0x61])] ++ [.count 0, .int 5])).result =
          .error (.argumentMismatch 3 .text .integer) ∧
      (printAll ([0x25, 0x2A, 0x73] ++ [0x78, 0x25, 0x68, 0x68, 0x6E, 0x25, 0x73])
        ([.int 3, .text (some [0x61])] ++ [.count 0, .int 5])).args =
          [.int 3, .text (some [0x61]), .count 4, .int 5] := by
  have hread : Directive.read false [0x2A, 0x73] = (⟨[.star], .text⟩, []) := by with_unfolding_all rfl
  have hnamed : (Conversion.text) ≠ .invalid := by decide
  have hw : Whole [0x25, 0x2A, 0x73] := .directive hread hnamed .nil
  have hperform : Directive.perform ⟨[.star], .text⟩ ⟨.start [.int 3, .text (some [0x61])], 0⟩ =
      .ok ([.fill 0x20 2, .text [0x61], .fill 0x20 0],
        ⟨[.int 3, .text (some [0x61])], []⟩) := rfl
  have hformat : format [0x25, 0x2A, 0x73] [.int 3, .text (some [0x61])] =
      ⟨[.fill 0x20 2, .text [0x61], .fill 0x20 0] ++ [],
        ⟨[.int 3, .text (some [0x61])], []⟩, .ok 3⟩ := by
    rw [format, run_directive hread hnamed hperform, run_nil]
    rfl
  have hok : (printAll [0x25, 0x2A, 0x73] [.int 3, .text (some [0x61])]).result = .ok 3 :=
    congrArg Formatted.result hformat
  have hargs : (printAll [0x25, 0x2A, 0x73] [.int 3, .text (some [0x61])]).args =
      [.int 3, .text (some [0x61])] := congrArg (fun formatted => formatted.operands.all) hformat
  have hall := congrArg (fun formatted => formatted.operands.pending) hformat
  obtain ⟨_, _, hresult, _, hleft⟩ := printAll_append hw (by decide) hok hall
    [0x78, 0x25, 0x68, 0x68, 0x6E, 0x25, 0x73] [.count 0, .int 5]
  have hrest : (printAll [0x78, 0x25, 0x68, 0x68, 0x6E, 0x25, 0x73] [.count 0, .int 5]).result =
      .error (.argumentMismatch 1 .text .integer) := by with_unfolding_all rfl
  have hmarks : marksOf (performed [0x78, 0x25, 0x68, 0x68, 0x6E, 0x25, 0x73]
      ⟨.start [.count 0, .int 5], 0⟩) = [.count .char 1] := by with_unfolding_all rfl
  refine ⟨hw, hok, ?_, ?_⟩
  · rw [hresult, hrest]
    rfl
  · rw [hleft, hargs, hmarks]
    decide +kernel

end FormatScan.Format
