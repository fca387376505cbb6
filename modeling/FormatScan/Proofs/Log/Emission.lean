import FormatScan.Log.Emitter
import FormatScan.Proofs.Json.Visible
import FormatScan.Text.Lines

/-!
# What an emitter writes

Everything that reaches an emitter is an entry. It is dropped when its level is too
low; otherwise it is written, with what it lacks filled in, as one line. So the lines
of the log are the entries that are not dropped, in their order. Numbers are given to
those of them only that come without a trace identifier, and the emitter counts these
and not its lines.
-/

namespace FormatScan

namespace Text

/-- A line without control characters is the first line of a text that goes on behind
its end. -/
theorem lines_append {line : List Char} (h : ∀ c ∈ line, Json.Visible c) (rest : List Char) :
    lines (line ++ '\n' :: rest) = line :: lines rest := by
  induction line with
  | nil => rfl
  | cons c line ih =>
    obtain ⟨hc, hline⟩ := List.forall_mem_cons.mp h
    have hn : c ≠ '\n' := fun heq => absurd hc (heq ▸ by decide)
    have hr : c ≠ '\r' := fun heq => absurd hc (heq ▸ by decide)
    rw [List.cons_append, lines.eq_4 _ _ hn fun _ heq => absurd heq hr, ih hline]

/-- Lines without control characters, each with its end, are the lines of their text. -/
theorem linesOf_join {written : List String}
    (h : ∀ line ∈ written, ∀ c ∈ line.toList, Json.Visible c) :
    linesOf (String.join (written.map fun line => line ++ "\n")) = written := by
  have hlines : lines (String.join (written.map fun line => line ++ "\n")).toList =
      written.map String.toList := by
    rw [String.toList_join, List.flatMap_map]
    induction written with
    | nil => rfl
    | cons line written ih =>
      obtain ⟨hline, hwritten⟩ := List.forall_mem_cons.mp h
      rw [List.flatMap_cons, String.toList_append, List.append_assoc]
      change lines (line.toList ++ '\n' :: written.flatMap fun line => (line ++ "\n").toList) = _
      rw [lines_append hline, ih hwritten, List.map_cons]
  rw [linesOf, hlines, List.map_map]
  refine (List.map_congr_left fun line _ => ?_).trans (List.map_id written)
  exact String.ofList_toList

end Text

/-- Whether the level of an entry is no lower than another. -/
def LogEntry.reaches (entry : LogEntry) (least : LogLevel) : Bool :=
  decide (least.rank ≤ entry.level.rank)

namespace LogEmitter

/-- An entry as it is written: with the next number when it has no trace identifier, and
with the run of the emitter when it has none. -/
def complete (emitter : LogEmitter) (entry : LogEntry) : LogEntry :=
  { entry with
    traceId := if entry.traceId.isEmpty then emitter.traceId (emitter.sequence + 1)
      else entry.traceId
    runId := some (entry.runId.getD emitter.runId) }

/-- An entry that is too low is dropped and leaves nothing behind. -/
theorem emit_of_not_reaches {emitter : LogEmitter} {entry : LogEntry}
    (h : entry.reaches emitter.least = false) : emitter.emit entry = emitter := by
  rw [emit, if_pos (Nat.not_le.mp (of_decide_eq_false h))]

/-- Any other entry becomes the last line, and takes a number if it has none. -/
theorem emit_of_reaches {emitter : LogEmitter} {entry : LogEntry}
    (h : entry.reaches emitter.least = true) :
    emitter.emit entry =
      { emitter with
        sequence := emitter.sequence + entry.traceId.isEmpty.toNat
        lines := emitter.lines.push (emitter.complete entry).line } := by
  rw [emit, if_neg (Nat.not_lt.mpr (of_decide_eq_true h))]
  unfold complete
  cases entry.traceId.isEmpty <;> rfl

/-- An emitter keeps its run, its campaign and its least level. -/
theorem emit_settings (emitter : LogEmitter) (entry : LogEntry) :
    (emitter.emit entry).runId = emitter.runId ∧ (emitter.emit entry).campaign = emitter.campaign ∧
      (emitter.emit entry).least = emitter.least := by
  cases h : entry.reaches emitter.least with
  | false => rw [emit_of_not_reaches h]; exact ⟨rfl, rfl, rfl⟩
  | true => rw [emit_of_reaches h]; exact ⟨rfl, rfl, rfl⟩

/-- The emitter behind some entries. -/
def emitAll (emitter : LogEmitter) (entries : List LogEntry) : LogEmitter :=
  entries.foldl emit emitter

theorem emitAll_cons (emitter : LogEmitter) (entry : LogEntry) (entries : List LogEntry) :
    emitter.emitAll (entry :: entries) = (emitter.emit entry).emitAll entries := rfl

theorem emitAll_append (emitter : LogEmitter) (first second : List LogEntry) :
    emitter.emitAll (first ++ second) = (emitter.emitAll first).emitAll second :=
  List.foldl_append

/-- They keep its run, its campaign and its least level as well. -/
theorem emitAll_settings (emitter : LogEmitter) (entries : List LogEntry) :
    (emitter.emitAll entries).runId = emitter.runId ∧
      (emitter.emitAll entries).campaign = emitter.campaign ∧
      (emitter.emitAll entries).least = emitter.least := by
  induction entries generalizing emitter with
  | nil => exact ⟨rfl, rfl, rfl⟩
  | cons entry entries ih =>
    obtain ⟨hrun, hcampaign, hleast⟩ := emitter.emit_settings entry
    rw [emitAll_cons, ← hrun, ← hcampaign, ← hleast]
    exact ih (emitter.emit entry)

/-- The entries that an emitter writes, as it writes them. -/
def written (emitter : LogEmitter) : List LogEntry → List LogEntry
  | [] => []
  | entry :: rest =>
    if entry.reaches emitter.least then
      emitter.complete entry :: (emitter.emit entry).written rest
    else emitter.written rest

/-- The lines of the log are those of the entries that are written, in their order. -/
theorem lines_emitAll (emitter : LogEmitter) (entries : List LogEntry) :
    (emitter.emitAll entries).lines.toList =
      emitter.lines.toList ++ (emitter.written entries).map LogEntry.line := by
  induction entries generalizing emitter with
  | nil => exact (List.append_nil _).symm
  | cons entry entries ih =>
    rw [emitAll_cons, ih, written]
    cases h : entry.reaches emitter.least with
    | false => rw [emit_of_not_reaches h, if_neg Bool.false_ne_true]
    | true =>
      have hlines : (emitter.emit entry).lines.toList =
          emitter.lines.toList ++ [(emitter.complete entry).line] := by
        rw [emit_of_reaches h, Array.toList_push]
      rw [hlines, if_pos rfl, List.map_cons, List.append_assoc, List.singleton_append]

/-- The text of a log that started empty falls into these lines. -/
theorem linesOf_text {emitter : LogEmitter} (h : emitter.lines = #[]) (entries : List LogEntry) :
    Text.linesOf (emitter.emitAll entries).text = (emitter.written entries).map LogEntry.line := by
  have hlines := emitter.lines_emitAll entries
  rw [h, List.nil_append] at hlines
  rw [text, hlines]
  refine Text.linesOf_join fun line hline => ?_
  obtain ⟨entry, -, rfl⟩ := List.mem_map.mp hline
  exact Json.visible_compact entry.toJson

/-- As many entries are written as are not too low. -/
theorem length_written (emitter : LogEmitter) (entries : List LogEntry) :
    (emitter.written entries).length = entries.countP (·.reaches emitter.least) := by
  induction entries generalizing emitter with
  | nil => rfl
  | cons entry entries ih =>
    rw [written]
    cases h : entry.reaches emitter.least with
    | false => rw [if_neg Bool.false_ne_true, ih, List.countP_cons, h]; rfl
    | true =>
      rw [if_pos rfl, List.length_cons, ih, (emitter.emit_settings entry).2.2, List.countP_cons, h]
      rfl

/-- The numbers that were given are as many as the entries without a trace identifier
among these. -/
theorem emitted_emitAll (emitter : LogEmitter) (entries : List LogEntry) :
    (emitter.emitAll entries).emitted =
      emitter.emitted +
        entries.countP fun entry => entry.reaches emitter.least && entry.traceId.isEmpty := by
  induction entries generalizing emitter with
  | nil => rfl
  | cons entry entries ih =>
    rw [emitAll_cons, ih, (emitter.emit_settings entry).2.2, List.countP_cons]
    cases h : entry.reaches emitter.least with
    | false => rw [emit_of_not_reaches h]; rfl
    | true =>
      have hcount : (emitter.emit entry).emitted =
          emitter.emitted + entry.traceId.isEmpty.toNat := by rw [emit_of_reaches h]; rfl
      rw [hcount, Bool.true_and, Nat.add_assoc, Nat.add_comm (Bool.toNat _)]
      cases entry.traceId.isEmpty <;> rfl

end LogEmitter

/-- A call on an emitter. -/
inductive LogCall where
  /-- Write an entry that has nothing but its event. -/
  | bare (timestamp : String) (level : LogLevel) (event : String)
  /-- Write an entry, whatever it is. -/
  | full (entry : LogEntry)

namespace LogEmitter

/-- An emitter after a call. -/
def call (emitter : LogEmitter) : LogCall → LogEmitter
  | .bare timestamp level event => emitter.emitEvent timestamp level event
  | .full entry => emitter.emit entry

/-- An emitter after a history of calls. -/
def after (emitter : LogEmitter) (calls : List LogCall) : LogEmitter := calls.foldl call emitter

end LogEmitter

/-- The entry that a call has an emitter of some run write. -/
def LogCall.entryOf (runId : String) : LogCall → LogEntry
  | .bare timestamp level event =>
    { timestamp := timestamp, traceId := "", level := level, event := event, runId := some runId }
  | .full entry => entry

namespace LogEmitter

/-- A history of calls is one of entries. -/
theorem after_eq (emitter : LogEmitter) (calls : List LogCall) :
    emitter.after calls = emitter.emitAll (calls.map (LogCall.entryOf emitter.runId)) := by
  induction calls generalizing emitter with
  | nil => rfl
  | cons call calls ih =>
    have hcall : emitter.call call = emitter.emit (call.entryOf emitter.runId) := by
      cases call <;> rfl
    change (emitter.call call).after calls = _
    rw [ih, hcall, (emitter.emit_settings _).1, List.map_cons, emitAll_cons]

/-- After any history of calls, the log has as many lines as entries that are not too
low, but only those of them without a trace identifier of their own are counted. So the
count is that of the lines exactly as long as no entry with an identifier of its own was
written. -/
theorem emitted_after (runId campaign : String) (least : LogLevel) (calls : List LogCall) :
    let log := ({ runId := runId, campaign := campaign, least := least } : LogEmitter).after calls
    let entries := (calls.map (LogCall.entryOf runId)).filter (·.reaches least)
    (Text.linesOf log.text).length = entries.length ∧
      log.emitted = entries.countP (·.traceId.isEmpty) ∧
      (log.emitted = (Text.linesOf log.text).length ↔
        ∀ entry ∈ entries, entry.traceId.isEmpty = true) := by
  intro log entries
  have hlog : log = _ := after_eq _ calls
  have hlines : (Text.linesOf log.text).length = entries.length := by
    rw [hlog, linesOf_text rfl, List.length_map, length_written, List.countP_eq_length_filter]
  have hemitted : log.emitted = entries.countP (·.traceId.isEmpty) := by
    rw [hlog, emitted_emitAll, List.countP_filter]
    simp only [emitted, Nat.zero_add, Bool.and_comm]
  refine ⟨hlines, hemitted, ?_⟩
  rw [hemitted, hlines, List.countP_eq_length]

/-- An entry with a trace identifier of its own is written and not counted. -/
theorem emitted_after_numbered_entry :
    let log := ({ runId := "r", campaign := "c" } : LogEmitter).after
      [.full { timestamp := "T", traceId := "a::b::1", level := .info, event := "e" }]
    log.emitted = 0 ∧ (Text.linesOf log.text).length = 1 := by
  refine ⟨rfl, ?_⟩
  rw [after_eq, linesOf_text rfl, List.length_map]
  rfl

end LogEmitter

end FormatScan
