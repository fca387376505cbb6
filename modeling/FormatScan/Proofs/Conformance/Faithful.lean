import FormatScan.Conformance.Rendering
import FormatScan.Proofs.Scan.Kinds
import FormatScan.Proofs.Scan.Outcome
import FormatScan.Proofs.Text.Delimited
import Mathlib.Algebra.Ring.Nat

/-!
# Lines tell outcomes apart

Cases pass when two lines are the same, so a line has to tell the outcome of its call. A
number ends in front of the first character that is no digit, and quoted bytes end at the
first quote that is not escaped, whatever the bytes are. An item of a list is either such
bytes or free of commas and brackets, and so a list of items is told by its text. What the
items of a scan are is settled by the kinds of its targets, which a scan keeps.
-/

namespace FormatScan

/-! ## Failures -/

theorem OperandKind.name_inj {first second : OperandKind} (h : first.name = second.name) :
    first = second := by
  cases first <;> cases second <;> first | rfl | exact absurd h (by decide)

/-- The name of a kind ends in front of a comma. -/
theorem OperandKind.comma_notMem_name (kind : OperandKind) :
    ∀ c ∈ kind.name.toList, (c != ',') = true := by
  refine List.all_eq_true.mp ?_
  cases kind <;> (simp only [name, String.reduceToList]; rfl)

/-- The characters of a message. -/
def FormatError.letters : FormatError → List Char
  | missingArgument index =>
    "directive needs argument #".toList ++ ((toString index).toList ++ (", only ".toList ++
      ((toString index).toList ++ " supplied".toList)))
  | argumentMismatch index expected found =>
    "argument #".toList ++ ((toString index).toList ++ (" is ".toList ++ (found.name.toList ++
      (", directive expects ".toList ++ expected.name.toList))))
  | unterminatedScanSet offset =>
    "scan-set is not terminated (format ends at offset ".toList ++
      ((toString offset).toList ++ ")".toList)

theorem FormatError.toList_message (error : FormatError) :
    error.message.toList = error.letters := by
  unfold message letters
  cases error
  all_goals simp only [Text.toString_text, String.toList_append, List.append_assoc]

/-- Different failures have different messages. -/
theorem FormatError.message_inj {first second : FormatError}
    (h : first.message = second.message) : first = second := by
  have hletters : first.letters = second.letters := by
    rw [← toList_message, ← toList_message, h]
  cases first with
  | missingArgument index =>
    cases second with
    | missingArgument other =>
      obtain ⟨rfl, -⟩ := Text.number_append_inj (Text.endsRun_cons rfl _) (Text.endsRun_cons rfl _)
        (List.append_cancel_left hletters)
      rfl
    | argumentMismatch | unterminatedScanSet =>
      exact absurd (List.cons.inj hletters).1 (by decide)
  | argumentMismatch index expected found =>
    cases second with
    | argumentMismatch other expected' found' =>
      have hblank : ∀ rest, Text.EndsRun Char.isDigit (" is ".toList ++ rest) := fun _ =>
        Text.endsRun_cons rfl _
      have hcomma : ∀ rest, Text.EndsRun (· != ',') (", directive expects ".toList ++ rest) :=
        fun _ => Text.endsRun_cons rfl _
      obtain ⟨rfl, hnames⟩ := Text.number_append_inj (hblank _) (hblank _)
        (List.append_cancel_left hletters)
      obtain ⟨hfound, hexpected⟩ := Text.run_append_inj found.comma_notMem_name
        found'.comma_notMem_name (hcomma _) (hcomma _) (List.append_cancel_left hnames)
      rw [OperandKind.name_inj (String.toList_inj.mp hfound),
        OperandKind.name_inj (String.toList_inj.mp (List.append_cancel_left hexpected))]
    | missingArgument | unterminatedScanSet =>
      exact absurd (List.cons.inj hletters).1 (by decide)
  | unterminatedScanSet offset =>
    cases second with
    | unterminatedScanSet other =>
      obtain ⟨rfl, -⟩ := Text.number_append_inj (Text.endsRun_cons rfl _) (Text.endsRun_cons rfl _)
        (List.append_cancel_left hletters)
      rfl
    | missingArgument | argumentMismatch =>
      exact absurd (List.cons.inj hletters).1 (by decide)

namespace Rendering

theorem errorLine_inj {first second : FormatError} (h : errorLine first = errorLine second) :
    first = second := by
  have hlists := congrArg String.toList h
  rw [errorLine, errorLine, String.toList_append, String.toList_append] at hlists
  exact FormatError.message_inj (String.toList_inj.mp (List.append_cancel_left hlists))

/-- The line for a failure is that of its message, and no other result has it. -/
structure ShowsFailures {α : Type} (line : Except FormatError α → String) : Prop where
  /-- A failure has the line of its message. -/
  error : ∀ failure, line (.error failure) = errorLine failure
  /-- What is no failure has another line. -/
  ok_ne : ∀ value failure, line (.ok value) ≠ errorLine failure

/-- Lines tell what they show of any results when they do so of those that are no failures. -/
theorem ShowsFailures.eq_iff {α β : Type} {line line' : Except FormatError α → String}
    {shown shown' : α → β} {first second : Except FormatError α} (hline : ShowsFailures line)
    (hline' : ShowsFailures line')
    (hok : ∀ value value', first = .ok value → second = .ok value' →
      (line (.ok value) = line' (.ok value') ↔ shown value = shown' value')) :
    line first = line' second ↔ first.map shown = second.map shown' := by
  cases first with
  | error failure =>
    cases second with
    | error failure' =>
      rw [hline.error, hline'.error]
      refine ⟨fun h => congrArg _ (errorLine_inj h), fun h => ?_⟩
      cases h
      rfl
    | ok value' =>
      rw [hline.error]
      exact ⟨fun h => absurd h.symm (hline'.ok_ne value' failure), fun h => nomatch h⟩
  | ok value =>
    cases second with
    | error failure' =>
      rw [hline'.error]
      exact ⟨fun h => absurd h (hline.ok_ne value failure'), fun h => nomatch h⟩
    | ok value' =>
      rw [hok value value' rfl rfl]
      exact ⟨fun h => congrArg _ h, fun h => Except.ok.inj h⟩

/-! ## Lists -/

/-- The text of an item: bytes between quotes, or characters that neither separate items nor
end a list. -/
inductive IsItem : List Char → Prop where
  | plain {c : Char} {text : List Char}
      (h : ∀ d ∈ c :: text, d ≠ ',' ∧ d ≠ ']' ∧ d ≠ '"') : IsItem (c :: text)
  | quoted (bytes : Bytes) : IsItem ('"' :: (Text.escapeBytes bytes ++ ['"']))

/-- What stands behind an item goes on with a separator or ends the list. -/
def EndsItem (rest : List Char) : Prop := Text.EndsRun (fun c => c != ',' && c != ']') rest

theorem IsItem.append_inj {first second rest other : List Char} (hfirst : IsItem first)
    (hsecond : IsItem second) (hrest : EndsItem rest) (hother : EndsItem other)
    (h : first ++ rest = second ++ other) : first = second ∧ rest = other := by
  cases hfirst with
  | plain hplain =>
    cases hsecond with
    | plain hplain' =>
      have hrun : ∀ {text : List Char}, (∀ d ∈ text, d ≠ ',' ∧ d ≠ ']' ∧ d ≠ '"') →
          ∀ d ∈ text, (d != ',' && d != ']') = true := by
        intro text htext d hd
        simp [(htext d hd).1, (htext d hd).2.1]
      exact Text.run_append_inj (hrun hplain) (hrun hplain') hrest hother h
    | quoted bytes' =>
      exact absurd (List.cons.inj h).1 (hplain _ List.mem_cons_self).2.2
  | quoted bytes =>
    cases hsecond with
    | plain hplain' =>
      exact absurd (List.cons.inj h).1.symm (hplain' _ List.mem_cons_self).2.2
    | quoted bytes' =>
      rw [List.cons_append, List.cons_append, List.append_assoc, List.append_assoc] at h
      obtain ⟨rfl, hrests⟩ := Text.escapeBytes_append_inj (List.cons.inj h).2
      exact ⟨rfl, hrests⟩

/-- An item behind the first one. -/
def laterItem (item : String) : List Char := ", ".toList ++ item.toList

/-- Later items are told from what follows them. -/
theorem delimited_laterItem :
    Text.Delimited laterItem (fun item => IsItem item.toList) EndsItem where
  follows_part _ _ _ := Text.endsRun_cons rfl _
  append_inj hfirst hsecond hrest hother h := by
    unfold laterItem at h
    rw [List.append_assoc, List.append_assoc] at h
    obtain ⟨hitems, hrests⟩ :=
      hfirst.append_inj hsecond hrest hother (List.append_cancel_left h)
    exact ⟨String.toList_inj.mp hitems, hrests⟩

/-- The bracket that closes a list ends them. -/
theorem endsRow_bracket :
    Text.EndsRow laterItem (fun item => IsItem item.toList) EndsItem [']'] where
  follows := Text.endsRun_cons rfl _
  append_ne _ _ _ h := absurd (List.cons.inj h).1 (by decide)

theorem toList_bracketed (item : String) (others : List String) :
    (bracketed (item :: others)).toList =
      '[' :: (item.toList ++ (others.flatMap laterItem ++ [']'])) := by
  have hjoined : ∀ (item : String) (others : List String),
      (", ".intercalate (item :: others)).toList = item.toList ++ others.flatMap laterItem := by
    intro item others
    rw [String.toList_intercalate]
    induction others generalizing item with
    | nil => simp
    | cons next others ih =>
      rw [List.map_cons, List.map_cons, List.intercalate_cons_cons, ← List.map_cons, ih,
        List.flatMap_cons, laterItem, List.append_assoc, List.append_assoc]
  rw [bracketed, String.toList_append, String.toList_append, hjoined, List.append_assoc,
    List.append_assoc]
  rfl

/-- No item starts as a list ends. -/
theorem IsItem.append_ne {text : List Char} (h : IsItem text) (rest other : List Char) :
    text ++ rest ≠ ']' :: other := by
  intro heq
  cases h with
  | plain hplain => exact (hplain _ List.mem_cons_self).2.1 (List.cons.inj heq).1
  | quoted bytes => exact absurd (List.cons.inj heq).1 (by decide)

/-- A list of items is told by its text. -/
theorem bracketed_inj {first second : List String} (hfirst : ∀ item ∈ first, IsItem item.toList)
    (hsecond : ∀ item ∈ second, IsItem item.toList)
    (h : bracketed first = bracketed second) : first = second := by
  have hempty : (bracketed []).toList = ['[', ']'] := rfl
  have hlists := congrArg String.toList h
  cases first with
  | nil =>
    cases second with
    | nil => rfl
    | cons item second =>
      rw [hempty, toList_bracketed] at hlists
      exact absurd (List.cons.inj hlists).2.symm ((hsecond _ List.mem_cons_self).append_ne _ _)
  | cons item first =>
    cases second with
    | nil =>
      rw [hempty, toList_bracketed] at hlists
      exact absurd (List.cons.inj hlists).2 ((hfirst _ List.mem_cons_self).append_ne _ _)
    | cons item' second =>
      obtain ⟨hitem, htail⟩ := List.forall_mem_cons.mp hfirst
      obtain ⟨hitem', htail'⟩ := List.forall_mem_cons.mp hsecond
      rw [toList_bracketed, toList_bracketed] at hlists
      obtain ⟨hhead, hrests⟩ := hitem.append_inj hitem'
        (delimited_laterItem.follows_row endsRow_bracket htail)
        (delimited_laterItem.follows_row endsRow_bracket htail') (List.cons.inj hlists).2
      obtain ⟨hothers, -⟩ := delimited_laterItem.row_append_inj endsRow_bracket endsRow_bracket
        htail htail' hrests
      rw [String.toList_inj.mp hhead, hothers]

/-- A signed number is an item. -/
theorem isItem_integer (i : Int) : IsItem (toString i).toList := by
  have hdigit : ∀ {n : Nat}, ∀ c ∈ Nat.toDigits 10 n, c ≠ ',' ∧ c ≠ ']' ∧ c ≠ '"' := by
    intro n c hc
    have hc := Json.isDigit_toDigits n c hc
    refine ⟨?_, ?_, ?_⟩ <;> rintro rfl <;> exact absurd hc (by decide)
  rw [Text.toList_integer]
  split
  · obtain ⟨c, digits, hdigits⟩ := List.exists_cons_of_ne_nil
      (Nat.toDigits_ne_nil (n := i.toNat) (b := 10))
    rw [hdigits]
    exact .plain (hdigits ▸ hdigit)
  · exact .plain (List.forall_mem_cons.mpr ⟨by decide, hdigit⟩)

/-! ## Formatting -/

/-- What follows the bytes of an output: the counts, if there are any. -/
def countsPart (counts : List Int64) : List Char :=
  if counts.isEmpty then []
  else " counts=".toList ++ (bracketed (counts.map fun n => toString n.toInt)).toList

theorem countsPart_inj {first second : List Int64} (h : countsPart first = countsPart second) :
    first = second := by
  have hitems : ∀ counts : List Int64, ∀ item ∈ counts.map (fun n => toString n.toInt),
      IsItem item.toList := by
    intro counts item hitem
    obtain ⟨n, _, rfl⟩ := List.mem_map.mp hitem
    exact isItem_integer n.toInt
  cases first with
  | nil =>
    cases second with
    | nil => rfl
    | cons n second => cases h
  | cons n first =>
    cases second with
    | nil => cases h
    | cons m second =>
      have htexts := bracketed_inj (hitems _) (hitems _)
        (String.toList_inj.mp (List.append_cancel_left h))
      refine (List.map_inj_right fun n m htext => ?_).mp htexts
      exact Int64.toInt_inj.mp (Text.integer_inj htext)

theorem toList_outputLine (length : Nat) (kept : Bytes) (counts : List Int64) :
    (outputLine (.ok length) kept counts).toList =
      "ret=".toList ++ ((toString length).toList ++ (" out=".toList ++
        '"' :: (Text.escapeBytes kept ++ '"' :: countsPart counts))) := by
  have hquote : "\"".toList = ['"'] := rfl
  unfold outputLine countsPart quotedBytes
  dsimp only
  split
  all_goals
    simp only [String.toList_append, String.toList_ofList, hquote, List.append_assoc,
      List.cons_append, List.nil_append]

/-- What the line for an output shows: the length, the bytes that were kept and the counts,
or the failure. -/
def shownOutput (result : Except FormatError Nat) (kept : Bytes) (counts : List Int64) :
    Except FormatError (Nat × Bytes × List Int64) :=
  result.map fun length => (length, kept, counts)

/-- The line for an output is never one for a failure. -/
theorem outputLine_ne_errorLine (length : Nat) (kept : Bytes) (counts : List Int64)
    (error : FormatError) : outputLine (.ok length) kept counts ≠ errorLine error := by
  intro h
  have hlists := congrArg String.toList h
  rw [toList_outputLine, errorLine, String.toList_append] at hlists
  exact absurd (List.cons.inj hlists).1 (by decide)

theorem showsFailures_outputLine (kept : Bytes) (counts : List Int64) :
    ShowsFailures (outputLine · kept counts) :=
  ⟨fun _ => rfl, fun length error => outputLine_ne_errorLine length kept counts error⟩

/-- The line for an output tells what it shows. -/
theorem outputLine_eq_iff {first second : Except FormatError Nat} {kept kept' : Bytes}
    {counts counts' : List Int64} :
    outputLine first kept counts = outputLine second kept' counts' ↔
      shownOutput first kept counts = shownOutput second kept' counts' := by
  refine (showsFailures_outputLine kept counts).eq_iff (showsFailures_outputLine kept' counts')
    fun length length' _ _ => ⟨fun h => ?_, fun h => ?_⟩
  · have hlists := congrArg String.toList h
    rw [toList_outputLine, toList_outputLine] at hlists
    have hout : ∀ rest, Text.EndsRun Char.isDigit (" out=".toList ++ rest) := fun _ =>
      Text.endsRun_cons rfl _
    obtain ⟨rfl, hbytes⟩ := Text.number_append_inj (hout _) (hout _)
      (List.append_cancel_left hlists)
    obtain ⟨rfl, hcounts⟩ := Text.escapeBytes_append_inj
      (List.cons.inj (List.append_cancel_left hbytes)).2
    rw [countsPart_inj hcounts]
  · cases h
    rfl

end Rendering

/-! ## Scanning -/

/-- What the line for a scan shows of a target: a buffer up to its first zero byte, and
anything else whole. -/
def ScanTarget.visible : ScanTarget → ScanTarget
  | buffer bytes => buffer (untilZero bytes)
  | target => target

namespace Rendering

theorem toList_quotedBytes (bytes : Bytes) :
    (quotedBytes bytes).toList = '"' :: (Text.escapeBytes bytes ++ ['"']) := by
  simp only [quotedBytes, String.toList_append, String.toList_ofList, String.reduceToList,
    List.cons_append, List.nil_append]

theorem toList_pointer (value : UInt64) :
    (targetText (.pointer value)).toList = '0' :: 'x' :: Text.hexText value.toNat := by
  simp only [targetText, String.toList_append, String.toList_ofList, String.reduceToList,
    List.cons_append, List.nil_append]

theorem isItem_targetText (target : ScanTarget) : IsItem (targetText target).toList := by
  cases target with
  | int value | count value => exact isItem_integer value.toInt
  | uint value => exact isItem_integer value.toNat
  | pointer value =>
    have hdigits : ∀ c ∈ Text.hexText value.toNat, c ≠ ',' ∧ c ≠ ']' ∧ c ≠ '"' := by
      intro c hc
      have hc := (Text.hexText_spells value.toNat).1 c hc
      refine ⟨?_, ?_, ?_⟩ <;> rintro rfl <;> exact absurd hc (by decide)
    rw [toList_pointer]
    exact .plain (List.forall_mem_cons.mpr ⟨by decide,
      List.forall_mem_cons.mpr ⟨by decide, hdigits⟩⟩)
  | buffer bytes =>
    rw [targetText, toList_quotedBytes]
    exact .quoted _

/-- Targets of one kind that have the same text show the same. -/
theorem visible_eq_of_targetText {first second : ScanTarget} (hkind : first.kind = second.kind)
    (h : targetText first = targetText second) : first.visible = second.visible := by
  have hlists := congrArg String.toList h
  -- without the kinds the number 7 could be that of any of three targets
  cases first with
  | int value =>
    cases second <;> cases hkind
    rw [Int64.toInt_inj.mp (Text.integer_inj h)]
  | count value =>
    cases second <;> cases hkind
    rw [Int64.toInt_inj.mp (Text.integer_inj h)]
  | uint value =>
    cases second <;> cases hkind
    rw [UInt64.toNat_inj.mp (Text.number_inj h)]
  | pointer value =>
    cases second <;> cases hkind
    rw [toList_pointer, toList_pointer] at hlists
    have hdigits := (List.cons.inj (List.cons.inj hlists).2).2
    rw [UInt64.toNat_inj.mp (Text.hexText_inj hdigits)]
  | buffer bytes =>
    cases second <;> cases hkind
    rw [targetText, targetText, toList_quotedBytes, toList_quotedBytes] at hlists
    rw [ScanTarget.visible, ScanTarget.visible,
      (Text.escapeBytes_append_inj (List.cons.inj hlists).2).1]

/-- The text of a target is that of what it shows. -/
theorem targetText_visible (target : ScanTarget) :
    targetText target.visible = targetText target := by
  cases target with
  | int | uint | pointer | count => rfl
  | buffer bytes =>
    have hkept : untilZero (untilZero bytes) = untilZero bytes :=
      List.takeWhile_eq_self_iff.mpr fun c hc => List.mem_takeWhile_imp (p := (· != 0)) hc
    rw [ScanTarget.visible, targetText, targetText, hkept]

theorem map_visible_of_texts {first second : List ScanTarget}
    (hkinds : first.map ScanTarget.kind = second.map ScanTarget.kind)
    (htexts : first.map targetText = second.map targetText) :
    first.map ScanTarget.visible = second.map ScanTarget.visible := by
  induction first generalizing second with
  | nil =>
    cases second with
    | nil => rfl
    | cons other second => cases hkinds
  | cons target first ih =>
    cases second with
    | nil => cases hkinds
    | cons other second =>
      obtain ⟨hkind, hkinds⟩ := List.cons.inj hkinds
      obtain ⟨htext, htexts⟩ := List.cons.inj htexts
      rw [List.map_cons, List.map_cons, visible_eq_of_targetText hkind htext, ih hkinds htexts]

theorem toList_targetsLine (outcome : Scan.Outcome) (targets : List ScanTarget) :
    (targetsLine (.ok outcome) targets).toList =
      "ret=".toList ++ ((toString outcome.toInt).toList ++ (" values=".toList ++
        (bracketed (targets.map targetText)).toList)) := by
  unfold targetsLine
  dsimp only
  simp only [String.toList_append, List.append_assoc]

/-- What the line for a scan shows: the report and what the targets hold, or the failure. -/
def shownTargets (result : Except FormatError Scan.Outcome) (targets : List ScanTarget) :
    Except FormatError (Scan.Outcome × List ScanTarget) :=
  result.map fun outcome => (outcome, targets.map ScanTarget.visible)

/-- The line for targets is never one for a failure. -/
theorem targetsLine_ne_errorLine (outcome : Scan.Outcome) (targets : List ScanTarget)
    (error : FormatError) : targetsLine (.ok outcome) targets ≠ errorLine error := by
  intro h
  have hlists := congrArg String.toList h
  rw [toList_targetsLine, errorLine, String.toList_append] at hlists
  exact absurd (List.cons.inj hlists).1 (by decide)

theorem showsFailures_targetsLine (targets : List ScanTarget) :
    ShowsFailures (targetsLine · targets) :=
  ⟨fun _ => rfl, fun outcome error => targetsLine_ne_errorLine outcome targets error⟩

end Rendering

namespace Scan

/-- Reports of few assigned values are told by their numbers. -/
theorem Outcome.toInt_inj {first second : Outcome} (hfirst : first.count < 2 ^ 31)
    (hsecond : second.count < 2 ^ 31) (h : first.toInt = second.toInt) : first = second := by
  cases first with
  | endOfInput =>
    cases second with
    | endOfInput => rfl
    | assigned n =>
      unfold toInt at h
      dsimp only at h
      omega
  | assigned m =>
    cases second with
    | endOfInput =>
      unfold toInt at h
      dsimp only at h
      omega
    | assigned n =>
      unfold count at hfirst hsecond
      unfold toInt at h
      dsimp only at h hfirst hsecond
      obtain rfl : m = n := by omega
      rfl

/-- A scan assigns no more values than there are targets. -/
theorem count_le_length {input format : Bytes} {targets : List ScanTarget} {outcome : Outcome}
    (h : (scan input format targets).result = .ok outcome) : outcome.count ≤ targets.length := by
  cases outcome with
  | endOfInput => exact Nat.zero_le _
  | assigned count =>
    let steps := performed format (.start input targets)
    let stopped := run format.length format (.start input targets)
    have hcourse : Course format.length format (.start input targets) steps stopped :=
      course_run format.length format (.start input targets)
    have hcount : count = stopped.progress.assigned := Stopped.result_eq_assigned h
    have hassigned : stopped.progress.assigned = 0 + steps.countP (·.1.assigns) :=
      hcourse.assigned_eq
    have hused : stopped.progress.targets.used.length =
        steps.countP (·.1.assigns) + steps.countP (·.1.storesCount) :=
      (noted_run input format targets).length_eq.symm.trans (length_marksOf steps)
    have hall : stopped.progress.targets.used.length + stopped.progress.targets.pending.length =
        targets.length := by
      rw [← List.length_append]
      exact hcourse.length_targets
    change count ≤ targets.length
    omega

end Scan

namespace Rendering

/-- The line for a scan tells what it shows, for targets of the same kinds. -/
theorem targetsLine_eq_iff {first second : Except FormatError Scan.Outcome}
    {targets others : List ScanTarget}
    (hkinds : targets.map ScanTarget.kind = others.map ScanTarget.kind)
    (hfirst : ∀ outcome, first = .ok outcome → outcome.count < 2 ^ 31)
    (hsecond : ∀ outcome, second = .ok outcome → outcome.count < 2 ^ 31) :
    targetsLine first targets = targetsLine second others ↔
      shownTargets first targets = shownTargets second others := by
  refine (showsFailures_targetsLine targets).eq_iff (showsFailures_targetsLine others)
    fun outcome outcome' hreported hreported' => ⟨fun h => ?_, fun h => ?_⟩
  · have hlists := congrArg String.toList h
    rw [toList_targetsLine, toList_targetsLine] at hlists
    have hvalues : ∀ rest, Text.EndsRun Char.isDigit (" values=".toList ++ rest) := fun _ =>
      Text.endsRun_cons rfl _
    obtain ⟨hreport, hitems⟩ := Text.integer_append_inj (hvalues _) (hvalues _)
      (List.append_cancel_left hlists)
    have hitem : ∀ targets : List ScanTarget, ∀ item ∈ targets.map targetText,
        IsItem item.toList := fun targets =>
      List.forall_mem_map.mpr fun target _ => isItem_targetText target
    have htexts := bracketed_inj (hitem _) (hitem _)
      (String.toList_inj.mp (List.append_cancel_left hitems))
    rw [map_visible_of_texts hkinds htexts,
      Scan.Outcome.toInt_inj (hfirst _ hreported) (hsecond _ hreported') hreport]
  · obtain ⟨hreport, hshown⟩ := Prod.mk.inj h
    have htexts : ∀ targets : List ScanTarget, targets.map targetText =
        (targets.map ScanTarget.visible).map targetText := by
      intro targets
      rw [List.map_map]
      exact List.map_congr_left fun target _ => (targetText_visible target).symm
    unfold targetsLine
    dsimp only
    rw [hreport, htexts targets, hshown, ← htexts others]

/-- A line tells the outcome of its call, whatever the bytes are. For operands that are
formatted without a bound this is the length, the output and the counts, and for those that
are formatted into a buffer the length, the buffer up to its first zero byte and the counts.
For fewer targets than a signed word of 32 bits can count it is the report of the scan and
what the targets hold. Otherwise it is the failure, whose line no other outcome has. -/
theorem lines_tell_outcomes (specs : List ArgSpec) (targets : List TargetSpec)
    (hfew : targets.length < 2 ^ 31) :
    (∀ format other,
      let printed := Format.printAll format (specs.map ArgSpec.arg)
      let printed' := Format.printAll other (specs.map ArgSpec.arg)
      formatLine format specs none = formatLine other specs none ↔
        shownOutput printed.result printed.sink.bytes (Operands.counts printed.args) =
          shownOutput printed'.result printed'.sink.bytes (Operands.counts printed'.args)) ∧
      (∀ format other size size',
        let printed :=
          Format.printBounded (List.replicate size 0) format (specs.map ArgSpec.arg)
        let printed' :=
          Format.printBounded (List.replicate size' 0) other (specs.map ArgSpec.arg)
        formatLine format specs (some size) = formatLine other specs (some size') ↔
          shownOutput printed.result (untilZero printed.sink.bytes)
              (Operands.counts printed.args) =
            shownOutput printed'.result (untilZero printed'.sink.bytes)
              (Operands.counts printed'.args)) ∧
      (∀ input format input' other,
        let scanned := Scan.scan input format (targets.map TargetSpec.target)
        let scanned' := Scan.scan input' other (targets.map TargetSpec.target)
        scanLine input format targets = scanLine input' other targets ↔
          shownTargets scanned.result scanned.targets =
            shownTargets scanned'.result scanned'.targets) ∧
      (∀ length kept counts error, outputLine (.ok length) kept counts ≠ errorLine error) ∧
      ∀ outcome held error, targetsLine (.ok outcome) held ≠ errorLine error := by
  refine ⟨fun _ _ => outputLine_eq_iff, fun _ _ _ _ => outputLine_eq_iff, ?_,
    outputLine_ne_errorLine, targetsLine_ne_errorLine⟩
  intro input format input' other
  have hcount : ∀ {input format : Bytes} {outcome : Scan.Outcome},
      (Scan.scan input format (targets.map TargetSpec.target)).result = .ok outcome →
        outcome.count < 2 ^ 31 := by
    intro input format outcome h
    have hle := Scan.count_le_length h
    rw [List.length_map] at hle
    exact Nat.lt_of_le_of_lt hle hfew
  refine targetsLine_eq_iff ?_ (fun _ => hcount) (fun _ => hcount)
  rw [Scan.kinds_scan, Scan.kinds_scan]

/-- The words `a",` and `"b` are not taken for the words `a` and `,""b`, although both lines
put quotes and a comma between the same letters. -/
theorem lines_tell_outcomes_quotes :
    let targets : List TargetSpec := [.buffer 8, .buffer 8]
    let format : Bytes := [0x25, 0x73, 0x25, 0x73]
    targets.length < 2 ^ 31 ∧
      scanLine [0x61, 0x22, 0x2C, 0x20, 0x22, 0x62] format targets ≠
        scanLine [0x61, 0x20, 0x2C, 0x22, 0x22, 0x62] format targets := by
  intro targets format
  have hfew : targets.length < 2 ^ 31 := by decide
  refine ⟨hfew, fun h => ?_⟩
  have hshown := ((lines_tell_outcomes [] targets hfew).2.2.1 _ _ _ _).mp h
  exact absurd hshown (by decide +kernel)

end Rendering

end FormatScan
