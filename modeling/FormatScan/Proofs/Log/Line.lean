import FormatScan.Proofs.Json.Records
import FormatScan.Proofs.Log.Parts

/-!
# Entries that are written and checked

The line of an entry is read back as an object that has the same value under every
name, so the check of the line and the reading of the entry come to what the entry
itself says: its trace identifier has three parts or not, its outcome has a case or
not, and nothing else can be wrong. An entry that was accepted has neither fault, and
is read again from its own line as it is.
-/

namespace FormatScan

open Json

namespace LogEntry

/-- The members of the JSON form, in the order in which they are written. -/
def members (entry : LogEntry) : List (String × Json) :=
  [("timestamp", .string entry.timestamp), ("trace_id", .string entry.traceId),
      ("level", .string entry.level.name), ("event", .string entry.event)] ++
    optional "run_id" entry.runId .string ++ optional "family" entry.family .string ++
    optional "symbol" entry.symbol .string ++ optional "case" entry.caseName .string ++
    optional "outcome" entry.outcome (fun outcome => .string outcome.name) ++
    optional "latency_ns" entry.latency .ofWord ++
    optional "artifact_refs" entry.artifacts .ofStrings ++
    optional "details" entry.details id

theorem toJson_eq (entry : LogEntry) : entry.toJson = .object entry.members := rfl

/-- A field has its value when it is set. -/
theorem lookup_optional {α : Type} (key name : String) (value : Option α) (write : α → Json) :
    lookup key (optional name value write) = if name == key then value.map write else none := by
  cases value with
  | none => simp [optional, lookup]
  | some x =>
    rw [optional, lookup_cons]
    rfl

/-- The values of the fields, in the order of their names. -/
def values (entry : LogEntry) : List (Option Json) :=
  [some (.string entry.timestamp), some (.string entry.traceId), some (.string entry.level.name),
    some (.string entry.event), entry.runId.map .string, entry.family.map .string,
    entry.symbol.map .string, entry.caseName.map .string,
    entry.outcome.map fun outcome => .string outcome.name, entry.latency.map .ofWord,
    entry.artifacts.map .ofStrings, entry.details]

/-- Every field is found under its name. -/
theorem lookup_members (entry : LogEntry) :
    fieldNames.map (fun name => lookup name entry.members) = entry.values := by
  simp [fieldNames, values, members, lookup_append, lookup_optional, lookup_cons]

/-- A field is written under its own name only. -/
theorem optional_names {α : Type} (name : String) (value : Option α) (write : α → Json) :
    ((optional name value write).map (·.1)).Sublist [name] := by
  cases value with
  | none => exact List.nil_sublist _
  | some x => exact List.Sublist.refl _

/-- No name is written twice. -/
theorem members_distinct (entry : LogEntry) :
    entry.members.Pairwise fun first second => first.1 ≠ second.1 := by
  have hnames : (entry.members.map (·.1)).Sublist fieldNames := by
    simp only [members, List.map_append]
    exact (((((((List.Sublist.refl ["timestamp", "trace_id", "level", "event"]).append
      (optional_names "run_id" _ _)).append (optional_names "family" _ _)).append
      (optional_names "symbol" _ _)).append (optional_names "case" _ _)).append
      (optional_names "outcome" _ _)).append (optional_names "latency_ns" _ _)).append
      (optional_names "artifact_refs" _ _) |>.append (optional_names "details" _ _)
  have hdistinct : fieldNames.Pairwise (· ≠ ·) := by decide
  exact List.pairwise_map.mp (hdistinct.sublist hnames)

/-- An entry whose details have no doubles and are nested no deeper than a hundred
containers. -/
def Plain (entry : LogEntry) : Prop :=
  ∀ details ∈ entry.details, details.Exact ∧ details.depth ≤ 100

/-- An entry whose details have their keys in order. -/
def Ordered (entry : LogEntry) : Prop := ∀ details ∈ entry.details, details.Ordered

end LogEntry

/-- A value that a member of a document can hold and that is read back as it is. -/
def Json.Faithful (value : Json) : Prop :=
  value.Exact ∧ value.Ordered ∧ value.depth < Source.nestingLimit

theorem Json.faithful_scalar {value : Json} (hr : value.isReal = false)
    (hc : value.isContainer = false) : value.Faithful := by
  refine ⟨.scalar hr hc, ordered_scalar hc, ?_⟩
  cases value with
  | array items => cases hc
  | object members => cases hc
  | _ => exact Nat.zero_lt_succ _

theorem Json.faithful_string (text : String) : (Json.string text).Faithful :=
  faithful_scalar rfl rfl

theorem Json.faithful_integer (n : JsonInteger) : (Json.integer n).Faithful :=
  faithful_scalar rfl rfl

theorem Json.faithful_ofStrings (items : List String) : (ofStrings items).Faithful := by
  have hitem : ∀ item ∈ items.map Json.string, ∃ text, item = .string text := fun item hm => by
    obtain ⟨text, -, rfl⟩ := List.mem_map.mp hm
    exact ⟨text, rfl⟩
  have hdepth : itemsDepth (items.map Json.string) = 0 := by
    induction items with
    | nil => rfl
    | cons text items ih =>
      rw [List.map_cons, itemsDepth, ih fun item hm => hitem item (List.mem_cons_of_mem _ hm)]
      rfl
  refine ⟨.array rfl fun item hm => ?_, .array trivial fun item hm => ?_, ?_⟩
  · obtain ⟨text, rfl⟩ := hitem item hm
    exact (faithful_string text).1
  · obtain ⟨text, rfl⟩ := hitem item hm
    exact (faithful_string text).2.1
  · rw [ofStrings, depth, hdepth]
    decide

namespace LogEntry

/-- What is written for a field can be read back. -/
theorem faithful_optional {α : Type} {value : Option α} {write : α → Json}
    (h : ∀ x ∈ value, (write x).Faithful) (name : String) :
    ∀ member ∈ optional name value write, member.2.Faithful := by
  intro member hm
  cases value with
  | none => cases hm
  | some x =>
    rw [List.mem_singleton.mp hm]
    exact h x rfl

/-- What is written for an entry can be read back. -/
theorem members_faithful {entry : LogEntry} (hp : entry.Plain) (ho : entry.Ordered) :
    ∀ member ∈ entry.members, member.2.Faithful := by
  have hrequired : ∀ member ∈ [("timestamp", Json.string entry.timestamp),
      ("trace_id", .string entry.traceId), ("level", .string entry.level.name),
      ("event", .string entry.event)], member.2.Faithful := by
    simp only [List.forall_mem_cons, faithful_string]
    exact ⟨trivial, trivial, trivial, trivial, List.forall_mem_nil _⟩
  have htext : ∀ value : Option String, ∀ x ∈ value, (Json.string x).Faithful :=
    fun _ x _ => faithful_string x
  have hdetails : ∀ details ∈ entry.details, details.Faithful := fun details hd =>
    ⟨(hp details hd).1, ho details hd, Nat.lt_of_le_of_lt (hp details hd).2 (by decide)⟩
  simp only [members, List.forall_mem_append]
  exact ⟨⟨⟨⟨⟨⟨⟨⟨hrequired, faithful_optional (htext _) _⟩, faithful_optional (htext _) _⟩,
    faithful_optional (htext _) _⟩, faithful_optional (htext _) _⟩,
    faithful_optional (fun outcome _ => faithful_string outcome.name) _⟩,
    faithful_optional (fun n _ => faithful_integer (.ofWord n)) _⟩,
    faithful_optional (fun items _ => faithful_ofStrings items) _⟩,
    faithful_optional hdetails _⟩

/-- The text of an entry, in whatever layout, is read as an object that has the same value
under every name. -/
theorem exists_parse?_print {entry : LogEntry} (hp : entry.Plain) (ho : entry.Ordered)
    {layout : Layout} (hl : layout.Spaced) :
    ∃ members, parse? (String.ofList (printAt layout 0 entry.toJson)) = some (.object members) ∧
      ∀ name, lookup name members = lookup name entry.members := by
  refine ⟨setMembers [] entry.members, parse?_print_object (members_faithful hp ho) hl,
    fun name => ?_⟩
  rw [lookup_setMembers entry.members_distinct]
  exact Option.or_none

end LogEntry

namespace Json

/-- A value other than `null`. -/
def nonNull : Json → Option Json
  | .null => none
  | value => some value

/-- Anything may stand for a value that may be absent. -/
theorem asOption_ok (value : Json) : asOption .ok value = .ok value.nonNull := by
  cases value <;> rfl

/-- A field that has a value is read from it. -/
theorem present_some {α : Type} {fields : List (Option Json)} {index : Nat} {value : Json}
    (h : fields[index]? = some (some value)) (decode : Json → Decoded α) :
    present fields index decode = (decode value).map some := by
  unfold present
  rw [h]

/-- What is written for a field that may be absent is read from its place. -/
theorem present_map {α β : Type} {fields : List (Option Json)} {index : Nat} {value : Option α}
    (write : α → Json) (h : fields[index]? = some (value.map write)) {decode : Json → Decoded β}
    {read : α → β} (hd : ∀ x, decode (write x) = .ok (read x)) :
    present fields index decode = .ok (value.map read) := by
  cases value with
  | none =>
    unfold present
    rw [h]
    rfl
  | some x =>
    rw [present_some h, hd]
    rfl

/-- An integer in a range is read. -/
theorem asInteger_integer {least greatest : Int} {n : JsonInteger} (hleast : least ≤ n.value)
    (hle : n.value ≤ greatest) : asInteger least greatest (.integer n) = .ok n.value := by
  rw [asInteger, decide_eq_true hleast, decide_eq_true hle]
  rfl

theorem asNat_ofWord (n : UInt64) : asNat 64 (ofWord n) = .ok n.toNat := by
  have hle : (n.toNat : Int) ≤ Word.count 64 - 1 := by
    have hlt := n.toNat_lt
    have hcount : Word.count 64 = 2 ^ 64 := rfl
    omega
  rw [asNat, ofWord, asInteger_integer (Int.natCast_nonneg n.toNat) hle]
  rfl

theorem asList_ofStrings (items : List String) :
    asList asString (ofStrings items) = .ok items := by
  change (items.map Json.string).mapM asString = .ok items
  induction items with
  | nil => rfl
  | cons text items ih =>
    rw [List.map_cons, List.mapM_cons, ih]
    rfl

end Json

namespace LogEntry

/-- The entry that is read from the line of an entry: `null` for the details is the
same as none. -/
def settled (entry : LogEntry) : LogEntry :=
  { entry with details := entry.details.bind nonNull }

/-- An object that has the values of an entry under their names is that entry. -/
theorem ofJson_members {entry : LogEntry} {members : List (String × Json)}
    (h : ∀ name, lookup name members = lookup name entry.members) :
    ofJson (.object members) = .ok entry.settled := by
  have hfields : (Json.object members).asRecord fieldNames 12 = .ok entry.values := by
    rw [← lookup_members, asRecord]
    simp only [h]
  have hrequired (index : Nat) {value : String}
      (hv : entry.values[index]? = some (some (.string value))) :
      present entry.values index asString = .ok (some value) :=
    present_some hv asString
  have htext (index : Nat) {value : Option String}
      (hv : entry.values[index]? = some (value.map .string)) :
      present entry.values index (asOption asString) = .ok (value.map some) :=
    present_map _ hv fun _ => rfl
  have hlevel : present entry.values 2 LogLevel.ofJson = .ok (some entry.level) := by
    unfold present values
    cases entry.level <;> rfl
  have houtcome : present entry.values 8 (asOption CaseOutcome.ofJson) =
      .ok (entry.outcome.map some) :=
    present_map _ rfl fun outcome => by cases outcome <;> rfl
  have hlatency : present entry.values 9 (asOption (asNat 64)) =
      .ok (entry.latency.map fun n => some n.toNat) :=
    present_map .ofWord rfl fun n => congrArg (Except.map some) (asNat_ofWord n)
  have hartifacts : present entry.values 10 (asOption (asList asString)) =
      .ok (entry.artifacts.map some) :=
    present_map .ofStrings rfl fun items => congrArg (Except.map some) (asList_ofStrings items)
  have hdetails : present entry.values 11 (asOption .ok) = .ok (entry.details.map nonNull) :=
    present_map id (by rw [Option.map_id]; rfl) asOption_ok
  have hsame {α : Type} (value : Option α) : (value.map some).join = value := by
    cases value <;> rfl
  have hword : (entry.latency.map fun n => some n.toNat).join.map UInt64.ofNat = entry.latency := by
    cases entry.latency with
    | none => rfl
    | some n => exact congrArg some n.ofNat_toNat
  have hnull : (entry.details.map nonNull).join = entry.details.bind nonNull := by
    cases entry.details <;> rfl
  unfold ofJson
  simp only [hfields, hartifacts, htext 7 rfl, hdetails, hrequired 3 rfl, htext 5 rfl, hlatency,
    hlevel, houtcome, htext 4 rfl, htext 6 rfl, hrequired 0 rfl, hrequired 1 rfl, bind, Except.bind,
    required, hsame, hword, hnull]
  rfl

/-- What can be wrong with the line of an entry. -/
def faults (entry : LogEntry) : List LogFault :=
  (if entry.outcome.isSome && entry.caseName.isNone then [LogFault.outcomeWithoutCase] else []) ++
  if LogValidation.partCount entry.traceId.toList == 3 then []
  else [LogFault.unusualTraceId entry.traceId]

/-- An object that has the values of an entry under their names has its faults. -/
theorem faults_members {entry : LogEntry} {members : List (String × Json)}
    (h : ∀ name, lookup name members = lookup name entry.members) :
    LogValidation.faults members = entry.faults := by
  have hvalues := entry.lookup_members
  simp only [fieldNames, values, List.map_cons, List.map_nil, List.cons.injEq, ← h] at hvalues
  obtain ⟨htime, htrace, hlevel, hevent, -, -, -, hcase, houtcome, -⟩ := hvalues
  have hrequired {name text : String} (hfound : lookup name members = some (.string text)) :
      LogValidation.requiredFaults members name = [] := by
    rw [LogValidation.requiredFaults, hfound]
  have hlevels : LogValidation.levelFaults members = [] := by
    rw [LogValidation.levelFaults, LogValidation.text?, hlevel]
    cases entry.level <;> rfl
  have houtcomes : LogValidation.outcomeFaults members =
      if entry.outcome.isSome && entry.caseName.isNone then [LogFault.outcomeWithoutCase]
      else [] := by
    rw [LogValidation.outcomeFaults, LogValidation.text?, LogValidation.text?, hcase, houtcome]
    cases entry.caseName <;> rcases entry.outcome with _ | outcome
    all_goals try rfl
    all_goals cases outcome <;> rfl
  have htraces : LogValidation.traceFaults members =
      if LogValidation.partCount entry.traceId.toList == 3 then []
      else [LogFault.unusualTraceId entry.traceId] := by
    rw [LogValidation.traceFaults, LogValidation.text?, htrace]
    rfl
  rw [LogValidation.faults, hlevels, houtcomes, htraces]
  simp only [List.flatMap_cons, List.flatMap_nil, hrequired htime, hrequired htrace,
    hrequired hlevel, hrequired hevent, List.nil_append]
  rfl

/-- An entry whose trace identifier falls into three parts and whose outcome has a
case. -/
def WellFormed (entry : LogEntry) : Prop :=
  (∃ run campaign number, LogValidation.Parts entry.traceId.toList [run, campaign, number]) ∧
    (entry.outcome.isSome → entry.caseName.isSome)

/-- Such an entry, and no other, is without fault. -/
theorem faults_eq_nil_iff {entry : LogEntry} : entry.faults = [] ↔ entry.WellFormed := by
  rw [faults, List.append_eq_nil_iff, WellFormed, ← LogValidation.partCount_eq_three_iff, and_comm]
  refine and_congr ?_ ?_
  · by_cases h : LogValidation.partCount entry.traceId.toList = 3 <;> simp [h]
  · cases entry.outcome <;> cases entry.caseName <;> simp

end LogEntry

namespace LogValidation

/-- The text of an entry has the faults of the entry, and without any it is read as
that entry. -/
theorem checkLine_print {entry : LogEntry} (hp : entry.Plain) (ho : entry.Ordered)
    {layout : Layout} (hl : layout.Spaced) :
    checkLine (String.ofList (printAt layout 0 entry.toJson)) =
      if entry.faults.isEmpty then .ok entry.settled else .error entry.faults := by
  obtain ⟨members, hparse, hlookup⟩ := LogEntry.exists_parse?_print hp ho hl
  unfold checkLine
  rw [hparse]
  dsimp only [members?]
  rw [LogEntry.faults_members hlookup]
  cases hfaults : entry.faults with
  | nil =>
    dsimp only
    rw [LogEntry.ofJson_members hlookup]
    rfl
  | cons fault faults => rfl

/-- So has the line of the entry. -/
theorem checkLine_line {entry : LogEntry} (hp : entry.Plain) (ho : entry.Ordered) :
    checkLine entry.line =
      if entry.faults.isEmpty then .ok entry.settled else .error entry.faults :=
  checkLine_print hp ho Layout.spaced_compact

/-- Without a fault, a trace identifier has three parts. -/
theorem partCount_of_traceFaults {members : List (String × Json)} {traceId : String}
    (h : traceFaults members = []) (hl : lookup "trace_id" members = some (.string traceId)) :
    partCount traceId.toList = 3 := by
  rw [traceFaults, text?, hl] at h
  change (if partCount traceId.toList == 3 then [] else [_]) = _ at h
  simpa using h

/-- Without a fault, an outcome has a case. -/
theorem exists_case_of_outcomeFaults {members : List (String × Json)} {outcome : Json}
    (h : outcomeFaults members = []) (hl : lookup "outcome" members = some outcome) :
    ∃ caseName, lookup "case" members = some (.string caseName) := by
  have hrule := (List.append_eq_nil_iff.mp h).2
  rw [hl] at hrule
  cases hcase : text? members "case" with
  | none =>
    rw [hcase] at hrule
    cases hrule
  | some caseName =>
    obtain ⟨value, hvalue, hstring⟩ := Option.bind_eq_some_iff.mp hcase
    cases value <;> cases hstring
    exact ⟨caseName, hvalue⟩

/-- What an accepted line holds. -/
theorem exists_parse?_of_checkLine {line : String} {entry : LogEntry}
    (h : checkLine line = .ok entry) :
    ∃ members, parse? line = some (.object members) ∧ faults members = [] ∧
      LogEntry.ofJson (.object members) = .ok entry := by
  unfold checkLine at h
  split at h
  · cases h
  rename_i value hparse
  split at h
  · cases h
  rename_i members hmembers
  split at h
  · rename_i hfaults
    split at h
    · rename_i hread
      cases h
      cases value <;> cases hmembers
      exact ⟨members, hparse, hfaults, hread⟩
    · cases h
  · cases h

end LogValidation

namespace LogEntry

/-- The fields that the faults and the details of an entry come from. -/
theorem exists_fields_of_ofJson {members : List (String × Json)} {entry : LogEntry}
    (h : ofJson (.object members) = .ok entry) :
    ∃ caseName details outcome,
      let fields := fieldNames.map fun name => lookup name members
      present fields 7 (asOption asString) = .ok caseName ∧
        present fields 11 (asOption .ok) = .ok details ∧
        present fields 8 (asOption CaseOutcome.ofJson) = .ok outcome ∧
        present fields 1 asString = .ok (some entry.traceId) ∧
        entry.caseName = caseName.join ∧ entry.details = details.join ∧
        entry.outcome = outcome.join := by
  obtain ⟨fields, hfields, h⟩ := exists_of_bind h
  cases hfields
  obtain ⟨artifacts, -, h⟩ := exists_of_bind h
  obtain ⟨caseName, hcase, h⟩ := exists_of_bind h
  obtain ⟨details, hdetails, h⟩ := exists_of_bind h
  obtain ⟨event, -, h⟩ := exists_of_bind h
  obtain ⟨family, -, h⟩ := exists_of_bind h
  obtain ⟨latency, -, h⟩ := exists_of_bind h
  obtain ⟨level, -, h⟩ := exists_of_bind h
  obtain ⟨outcome, houtcome, h⟩ := exists_of_bind h
  obtain ⟨runId, -, h⟩ := exists_of_bind h
  obtain ⟨symbol, -, h⟩ := exists_of_bind h
  obtain ⟨timestamp, -, h⟩ := exists_of_bind h
  obtain ⟨traceId, htrace, h⟩ := exists_of_bind h
  obtain ⟨_, -, h⟩ := exists_of_bind h
  obtain ⟨found, hfound, h⟩ := exists_of_bind h
  obtain ⟨_, -, h⟩ := exists_of_bind h
  obtain ⟨_, -, h⟩ := exists_of_bind h
  cases h
  cases traceId with
  | none => cases hfound
  | some text =>
    cases hfound
    exact ⟨caseName, details, outcome, hcase, hdetails, houtcome, htrace, rfl, rfl, rfl⟩

/-- The details of an entry that was read are what is found under their name, and are
not `null`. -/
theorem lookup_details {members : List (String × Json)} {entry : LogEntry}
    (h : ofJson (.object members) = .ok entry) :
    ∀ found ∈ entry.details,
      lookup "details" members = some found ∧ found.nonNull = some found := by
  obtain ⟨-, details, -, -, hdetails, -, -, -, heq, -⟩ := exists_fields_of_ofJson h
  intro found hfound
  rw [heq] at hfound
  rw [Option.join_eq_some_iff.mp hfound] at hdetails
  obtain ⟨value, hvalue, hread⟩ := exists_of_present hdetails
  rw [asOption_ok] at hread
  cases value <;> cases hread
  all_goals exact ⟨Option.some.inj hvalue, rfl⟩

/-- An entry that was read from an object without fault has none. -/
theorem wellFormed_of_ofJson {members : List (String × Json)} {entry : LogEntry}
    (hf : LogValidation.faults members = []) (h : ofJson (.object members) = .ok entry) :
    entry.WellFormed := by
  obtain ⟨caseName, -, outcome, hcase, -, houtcome, htrace, hcaseName, -, houtcomes⟩ :=
    exists_fields_of_ofJson h
  obtain ⟨hothers, htraceFaults⟩ := List.append_eq_nil_iff.mp hf
  obtain ⟨-, houtcomeFaults⟩ := List.append_eq_nil_iff.mp hothers
  constructor
  · obtain ⟨value, hvalue, hread⟩ := exists_of_present htrace
    cases value <;> cases hread
    exact LogValidation.partCount_eq_three_iff.mp
      (LogValidation.partCount_of_traceFaults htraceFaults (Option.some.inj hvalue))
  · intro hsome
    rw [houtcomes] at hsome
    obtain ⟨found, hfound⟩ := Option.isSome_iff_exists.mp hsome
    rw [Option.join_eq_some_iff.mp hfound] at houtcome
    obtain ⟨value, hvalue, -⟩ := exists_of_present houtcome
    obtain ⟨name, hname⟩ :=
      LogValidation.exists_case_of_outcomeFaults houtcomeFaults (Option.some.inj hvalue)
    have hnamed : (fieldNames.map fun name => lookup name members)[7]? =
        some (some (.string name)) := congrArg some hname
    rw [present_some hnamed] at hcase
    cases hcase
    rw [hcaseName]
    rfl

/-- The details of an entry that was read from a text have their keys in order. -/
theorem ordered_of_ofJson {text : String} {members : List (String × Json)} {entry : LogEntry}
    (hp : parse? text = some (.object members)) (h : ofJson (.object members) = .ok entry) :
    entry.Ordered := by
  intro found hfound
  obtain ⟨member, hm, rfl⟩ := exists_mem_of_lookup (lookup_details h found hfound).1
  exact (ordered_of_parse? hp).member hm

/-- An entry that was read has no `null` for its details. -/
theorem settled_of_ofJson {members : List (String × Json)} {entry : LogEntry}
    (h : ofJson (.object members) = .ok entry) : entry.settled = entry := by
  have hdetails : entry.details.bind nonNull = entry.details := by
    cases hd : entry.details with
    | none => rfl
    | some found => exact (lookup_details h found hd).2
  rw [settled, hdetails]

end LogEntry

namespace LogValidation

/-- Check a line with a number and read its entry. -/
def checkNumbered (number : Nat) (line : String) : Except (List LogProblem) LogEntry :=
  (checkLine line).mapError fun found => found.map fun fault => ⟨number, fault⟩

theorem checkNumbered_eq_ok_iff {number : Nat} {line : String} {entry : LogEntry} :
    checkNumbered number line = .ok entry ↔ checkLine line = .ok entry := by
  unfold checkNumbered
  cases checkLine line with
  | error found => exact ⟨fun h => (by cases h), fun h => (by cases h)⟩
  | ok read => exact ⟨fun h => congrArg _ (Except.ok.inj h), fun h => congrArg _ (Except.ok.inj h)⟩

/-- A written entry is accepted exactly when its trace identifier has three parts and
its outcome has a case, and then it comes back, without details that are `null`. An
entry that was accepted comes back from its own line as it is, however the accepted
line was written: its details were read, so they have their keys in order. -/
theorem checkNumbered_round_trip :
    (∀ (entry : LogEntry) (number : Nat), entry.Plain → entry.Ordered → ∀ read,
      checkNumbered number entry.line = .ok read ↔ entry.WellFormed ∧ read = entry.settled) ∧
    ∀ (line : String) (entry : LogEntry) (number again : Nat),
      checkNumbered number line = .ok entry → entry.Plain →
        checkNumbered again entry.line = .ok entry := by
  constructor
  · intro entry number hp ho read
    rw [checkNumbered_eq_ok_iff, checkLine_line hp ho, ← LogEntry.faults_eq_nil_iff]
    cases hfaults : entry.faults with
    | nil =>
      exact ⟨fun h => ⟨rfl, (Except.ok.inj h).symm⟩, fun h => congrArg Except.ok h.2.symm⟩
    | cons fault faults => exact ⟨fun h => absurd h (by simp), fun h => absurd h.1 (by simp)⟩
  · intro line entry number again h hp
    obtain ⟨members, hparse, hfaults, hread⟩ :=
      exists_parse?_of_checkLine (checkNumbered_eq_ok_iff.mp h)
    have hwell := LogEntry.wellFormed_of_ofJson hfaults hread
    rw [checkNumbered_eq_ok_iff,
      checkLine_line hp (LogEntry.ordered_of_ofJson hparse hread),
      LogEntry.faults_eq_nil_iff.mpr hwell, LogEntry.settled_of_ofJson hread]
    rfl

/-- An entry with an outcome and details comes back from its line, and so it does when it
is laid out over several lines. -/
theorem checkNumbered_round_trip_outcome :
    let entry : LogEntry :=
      { timestamp := "t", traceId := "r::c::001", level := .warn, event := "case_result",
        caseName := some "x", outcome := some .fail, details := some (.object [("note", .null)]) }
    checkNumbered 3 entry.line = .ok entry ∧ checkNumbered 7 entry.toJson.indented = .ok entry ∧
      checkNumbered 8 entry.line = .ok entry := by
  intro entry
  have hnote : ∀ member ∈ [("note", Json.null)], member.2.Faithful :=
    List.forall_mem_cons.mpr ⟨faithful_scalar rfl rfl, List.forall_mem_nil _⟩
  have hplain : entry.Plain := by
    intro details hd
    cases hd
    exact ⟨.object rfl fun member hm => (hnote member hm).1, by decide⟩
  have hordered : entry.Ordered := by
    intro details hd
    cases hd
    exact .object (List.pairwise_singleton _ _) fun member hm => (hnote member hm).2.1
  have hwell : entry.WellFormed := ⟨partCount_eq_three_iff.mp (by decide), fun _ => rfl⟩
  have hindented : checkNumbered 7 entry.toJson.indented = .ok entry := by
    rw [checkNumbered_eq_ok_iff, indented, checkLine_print hplain hordered Layout.spaced_indented,
      LogEntry.faults_eq_nil_iff.mpr hwell]
    rfl
  exact ⟨(checkNumbered_round_trip.1 entry 3 hplain hordered entry).mpr ⟨hwell, rfl⟩, hindented,
    checkNumbered_round_trip.2 _ entry 7 8 hindented hplain⟩

end LogValidation

end FormatScan
