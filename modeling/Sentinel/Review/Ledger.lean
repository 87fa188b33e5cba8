import Mathlib.Data.List.Induction
import Sentinel.Review.Service
import Sentinel.Text.Lines
import Sentinel.Transition.Run

/-!
# The ledger

`JsonlReviewRepository` keeps the projection of `InMemoryReviewRepository` and a file with one
record for each commit. Opening it replays the file. A record consists of the case as it is after
the commit, which the replay takes as it stands, and of the event, which the replay checks against
the events of that case so far.

What a replay does depends on the records only through the logs of the single cases: it succeeds if
and only if the log of each case is a hash chain, and then it has committed all the records. The
theorem that says so, `replay_eq_ok_iff`, is what every later argument about opening a file uses.

Reading in text mode turns every `\r\n` and `\r` into `\n`, at which `splitlines` would end a line
anyway. A file that is not UTF-8 is outside the model, in which files are texts.
-/

namespace Sentinel

open Chain Collections InMemoryReviewRepository Text

/-! ## Records -/

/-- What the schema library does for the ledger, and the texts of floats. -/
structure LedgerSchema where
  /-- `repr` of a float. -/
  floatText : ℚ → NumberLiteral
  /-- `ReviewCase.model_validate`, where it does not raise. -/
  validateCase : Json → Option ReviewCase
  /-- `ReviewAuditEvent.model_validate`, where it does not raise. -/
  validateEvent : Json → Option ReviewAuditEvent

/-- `case.model_dump(mode="json")`, with its keys sorted. -/
def ReviewCase.json (floatText : ℚ → NumberLiteral) (case : ReviewCase) : Json :=
  .object
    [("appeal_reason_code", optionalJson case.appealReasonCode),
      ("assigned_reviewer_id", optionalJson case.assignedReviewerId),
      ("automated_decision", .string case.automatedDecision.value),
      ("automated_risk_score", .number (floatText case.automatedRiskScore)),
      ("case_id", .string case.caseId),
      ("created_at", .string case.createdAt.modelDump),
      ("decision_reason_code", optionalJson case.decisionReasonCode),
      ("final_decision", optionalJson (case.finalDecision.map Decision.value)),
      ("policy_version", .string case.policyVersion),
      ("request_id", .string case.requestId),
      ("resolved_at", optionalJson (case.resolvedAt.map DateTime.modelDump)),
      ("signal_categories", .array (case.signalCategories.map fun category ↦
        .string category.value)),
      ("state", .string case.state.value),
      ("updated_at", .string case.updatedAt.modelDump)]

/-- `event.model_dump(mode="json")`, with its keys sorted. -/
def ReviewAuditEvent.json (event : ReviewAuditEvent) : Json :=
  .object
    [("action", .string event.action.value),
      ("actor_id", .string event.actorId),
      ("actor_role", optionalJson (event.actorRole.map ReviewerRole.value)),
      ("case_id", .string event.caseId),
      ("event_hash", .string event.eventHash),
      ("event_id", .string event.eventId),
      ("from_state", optionalJson (event.fromState.map ReviewState.value)),
      ("occurred_at", .string event.occurredAt.modelDump),
      ("previous_hash", .string event.previousHash),
      ("reason_code", .string event.reasonCode),
      ("sequence", .number (NumberLiteral.nat event.sequence)),
      ("to_state", .string event.toState.value)]

/-- A case and the event that has brought it about. -/
abbrev Record : Type := ReviewCase × ReviewAuditEvent

def recordJson (schema : LedgerSchema) (record : Record) : Json :=
  .object [("case", record.1.json schema.floatText), ("event", record.2.json)]

/-- `json.dumps(record, separators=(",", ":"), sort_keys=True)`. -/
def serialize (schema : LedgerSchema) (record : Record) : List Char :=
  (recordJson schema record).dumps

/-- The record of a line, where reading and validating it do not raise. -/
def readRecord (schema : LedgerSchema) (line : List Char) : Option Record :=
  (Json.loads line).bind fun record ↦
    ((record.member "case").bind schema.validateCase).bind fun case ↦
      ((record.member "event").bind schema.validateEvent).map fun event ↦ (case, event)

/-- Dumping a model and validating the result gives the model back. -/
structure LedgerSchema.Lawful (schema : LedgerSchema) : Prop where
  validateCase_json : ∀ case : ReviewCase,
    schema.validateCase (case.json schema.floatText) = some case
  validateEvent_json : ∀ event : ReviewAuditEvent, schema.validateEvent event.json = some event

/-! ## Replay -/

/-- The `ValueError`s of a replay, with their line numbers. -/
inductive LedgerError
  | invalidRecord (line : ℕ)
  | integrity (line : ℕ)
  | sequence (line : ℕ)
deriving DecidableEq

def LedgerError.message : LedgerError → String
  | .invalidRecord line => "invalid review ledger record at line " ++ toString line
  | .integrity line => "review ledger integrity failure at line " ++ toString line
  | .sequence line => "review ledger sequence failure at line " ++ toString line

section Replay

variable (schema : LedgerSchema) (H : ReviewHashing)

def replayLine (lineNumber : ℕ) (memory : InMemoryReviewRepository) (line : List Char) :
    Except LedgerError InMemoryReviewRepository :=
  if isBlank line then .ok memory
  else
    match readRecord schema line with
    | none => .error (.invalidRecord lineNumber)
    | some (case, event) =>
      if event.previousHash ≠ previousHash (memory.audit case.caseId) ∨
          event.eventHash ≠ auditEventDigest H.sha256 event.toAuditPayload then
        .error (.integrity lineNumber)
      else if event.sequence ≠ (memory.audit case.caseId).length + 1 then
        .error (.sequence lineNumber)
      else .ok (memory.commit case event)

/-- The lines of the ledger, with the number of the first one. -/
def replay : ℕ → InMemoryReviewRepository → List (List Char) →
    Except LedgerError InMemoryReviewRepository
  | _, memory, [] => .ok memory
  | lineNumber, memory, line :: lines =>
    match replayLine schema H lineNumber memory line with
    | .error error => .error error
    | .ok memory' => replay (lineNumber + 1) memory' lines

/-- `JsonlReviewRepository(path)`: the projection, given the file if there is one. -/
def openLedger : Option (List Char) → Except LedgerError InMemoryReviewRepository
  | none => .ok empty
  | some text => replay schema H 1 empty (splitlines text)

end Replay

variable {schema : LedgerSchema} {H : ReviewHashing} {memory memory' : InMemoryReviewRepository}
  {line : List Char} {lineNumber : ℕ} {record : Record} {records : List Record}

/-! ## Reading records -/

theorem readRecord_eq_none (h : Json.loads line = none) : readRecord schema line = none := by
  rw [readRecord, h, Option.bind_none]

theorem readRecord_serialize (hschema : schema.Lawful) (record : Record) :
    readRecord schema (serialize schema record) = some record := by
  have hcase : (recordJson schema record).member "case"
      = some (record.1.json schema.floatText) := rfl
  have hevent : (recordJson schema record).member "event" = some record.2.json := rfl
  rw [readRecord, serialize, Json.loads_dumps, Option.bind_some, hcase, hevent, Option.bind_some,
    Option.bind_some, hschema.validateCase_json, hschema.validateEvent_json]
  rfl

theorem unbroken_serialize (record : Record) : Unbroken (serialize schema record) :=
  (Json.printable_dumps _).unbroken

theorem exists_serialize_eq_cons (schema : LedgerSchema) (record : Record) :
    ∃ rest, serialize schema record = '{' :: rest := by
  rw [serialize, recordJson, Json.dumps]
  exact ⟨_, rfl⟩

theorem isBlank_cons_brace (s : List Char) : isBlank ('{' :: s) = false := by
  rw [isBlank, List.all_cons]
  exact Bool.and_eq_false_imp.mpr fun h ↦ absurd h (by decide)

theorem isBlank_of_readRecord (h : readRecord schema line = some record) :
    isBlank line = false := by
  obtain ⟨document, hloads, -⟩ := Option.bind_eq_some_iff.mp h
  exact isBlank_of_loads hloads

/-! ## Inversion -/

/-- A record is taken if its event continues the events of its case. -/
theorem replayLine_of_readRecord (hread : readRecord schema line = some record) :
    replayLine schema H lineNumber memory line = .ok memory' ↔
      (auditChain H.sha256).Follows (memory.audit record.1.caseId) record.2 ∧
        memory' = memory.commit record.1 record.2 := by
  have hblank : ¬isBlank line = true := by
    rw [isBlank_of_readRecord hread]
    exact Bool.false_ne_true
  obtain ⟨case, event⟩ := record
  rw [replayLine, if_neg hblank, hread]
  simp only
  constructor
  · intro h
    split_ifs at h with hintegrity hsequence
    rw [not_or, not_not, not_not] at hintegrity
    cases h
    refine ⟨⟨?_, hintegrity.2, not_not.mp hsequence⟩, rfl⟩
    rw [← previousHash_eq_tip]
    exact hintegrity.1
  · rintro ⟨hfollows, rfl⟩
    have hprevious : event.previousHash = previousHash (memory.audit case.caseId) := by
      rw [previousHash_eq_tip]
      exact hfollows.previousHash_eq
    have hhash : event.eventHash = auditEventDigest H.sha256 event.toAuditPayload :=
      hfollows.hash_eq
    have hsequence : event.sequence = (memory.audit case.caseId).length + 1 := hfollows.sequence_eq
    rw [if_neg (not_or.mpr ⟨not_not.mpr hprevious, not_not.mpr hhash⟩),
      if_neg (not_not.mpr hsequence)]

theorem replay_append (lines lines' : List (List Char)) :
    replay schema H lineNumber memory (lines ++ lines')
      = (replay schema H lineNumber memory lines).bind fun memory' ↦
          replay schema H (lineNumber + lines.length) memory' lines' := by
  induction lines generalizing lineNumber memory with
  | nil => rfl
  | cons line lines ih =>
    rw [List.cons_append, replay, replay]
    cases replayLine schema H lineNumber memory line with
    | error error => rfl
    | ok memory' =>
      simp only
      rw [ih, List.length_cons, Nat.add_right_comm, Nat.add_assoc]

theorem replay_singleton (lineNumber : ℕ) (memory : InMemoryReviewRepository) (line : List Char) :
    replay schema H lineNumber memory [line] = .ok memory' ↔
      replayLine schema H lineNumber memory line = .ok memory' := by
  rw [replay]
  cases replayLine schema H lineNumber memory line with
  | error error => simp
  | ok memory'' => rfl

theorem exists_replayLine_of_mem {lines : List (List Char)}
    (h : replay schema H lineNumber memory lines = .ok memory') (hline : line ∈ lines) :
    ∃ lineNumber' before after, replayLine schema H lineNumber' before line = .ok after := by
  obtain ⟨front, back, rfl⟩ := List.append_of_mem hline
  rw [replay_append] at h
  cases hfront : replay schema H lineNumber memory front with
  | error error =>
    rw [hfront] at h
    cases h
  | ok before =>
    rw [hfront] at h
    have hback : replay schema H (lineNumber + front.length) before (line :: back)
        = .ok memory' := h
    rw [replay] at hback
    cases hafter : replayLine schema H (lineNumber + front.length) before line with
    | error error =>
      rw [hafter] at hback
      cases hback
    | ok after => exact ⟨_, _, _, hafter⟩

theorem exists_readRecord_of_replayLine (hblank : isBlank line = false)
    (h : replayLine schema H lineNumber memory line = .ok memory') :
    ∃ record, readRecord schema line = some record := by
  rw [replayLine, hblank] at h
  cases hread : readRecord schema line with
  | some record => exact ⟨record, rfl⟩
  | none =>
    rw [hread] at h
    cases h

/-! ## The logs of the cases -/

def logOf (caseId : String) (records : List Record) : List ReviewAuditEvent :=
  (records.filter fun record ↦ record.1.caseId = caseId).map Prod.snd

def commitAll (records : List Record) : InMemoryReviewRepository :=
  records.foldl (fun memory record ↦ memory.commit record.1 record.2) empty

theorem commitAll_concat (records : List Record) (record : Record) :
    commitAll (records ++ [record]) = (commitAll records).commit record.1 record.2 := by
  rw [commitAll, List.foldl_concat, commitAll]

theorem logOf_append (caseId : String) (records records' : List Record) :
    logOf caseId (records ++ records') = logOf caseId records ++ logOf caseId records' := by
  rw [logOf, List.filter_append, List.map_append, logOf, logOf]

theorem logOf_cons_self (record : Record) (records : List Record) :
    logOf record.1.caseId (record :: records) = record.2 :: logOf record.1.caseId records := by
  rw [logOf, List.filter_cons_of_pos (by simp), List.map_cons, logOf]

theorem logOf_cons_of_ne {caseId : String} (h : record.1.caseId ≠ caseId)
    (records : List Record) : logOf caseId (record :: records) = logOf caseId records := by
  rw [logOf, List.filter_cons_of_neg (by simpa using h), logOf]

theorem audit_commitAll (caseId : String) (records : List Record) :
    (commitAll records).audit caseId = logOf caseId records := by
  induction records using List.reverseRecOn with
  | nil => rfl
  | append_singleton records record ih =>
    rw [commitAll_concat, logOf_append]
    by_cases h : record.1.caseId = caseId
    · subst h
      rw [audit_commit_self, ih, logOf_cons_self]
      rfl
    · rw [audit_commit_of_ne (Ne.symm h), ih, logOf_cons_of_ne h]
      exact (List.append_nil _).symm

/-- The log of each case is a hash chain. -/
def Chained (H : ReviewHashing) (records : List Record) : Prop :=
  ∀ caseId, Built (auditChain H.sha256).Follows (logOf caseId records)

theorem chained_nil : Chained H [] := fun _ ↦ .nil

theorem chained_concat : Chained H (records ++ [record]) ↔ Chained H records ∧
    (auditChain H.sha256).Follows (logOf record.1.caseId records) record.2 := by
  constructor
  · intro h
    have hself := h record.1.caseId
    rw [logOf_append, logOf_cons_self] at hself
    refine ⟨fun caseId ↦ ?_, (built_snoc.mp hself).2⟩
    by_cases hcase : record.1.caseId = caseId
    · exact hcase ▸ (built_snoc.mp hself).1
    · have hother := h caseId
      rw [logOf_append, logOf_cons_of_ne hcase] at hother
      rwa [← List.append_nil (logOf caseId records)]
  · rintro ⟨h, hfollows⟩ caseId
    rw [logOf_append]
    by_cases hcase : record.1.caseId = caseId
    · subst hcase
      rw [logOf_cons_self]
      exact (h _).snoc hfollows
    · rw [logOf_cons_of_ne hcase]
      exact (List.append_nil (logOf caseId records)).symm ▸ h caseId

/-- **A replay succeeds if and only if the log of each case is a hash chain**, and then it has
committed every record. -/
theorem replay_eq_ok_iff {lines : List (List Char)}
    (hread : lines.map (readRecord schema) = records.map some) :
    replay schema H 1 empty lines = .ok memory ↔
      Chained H records ∧ memory = commitAll records := by
  induction records using List.reverseRecOn generalizing lines memory with
  | nil =>
    rw [List.map_eq_nil_iff.mp hread, replay, Except.ok.injEq, eq_comm]
    exact (and_iff_right chained_nil).symm
  | append_singleton records record ih =>
    rw [List.map_append] at hread
    obtain ⟨lines, lines', rfl, hlines, hline⟩ := List.map_eq_append_iff.mp hread
    obtain ⟨line, rfl, hrecord⟩ := List.map_eq_singleton_iff.mp hline
    rw [replay_append, commitAll_concat, chained_concat]
    constructor
    · intro h
      cases hbefore : replay schema H 1 empty lines with
      | error error =>
        rw [hbefore] at h
        cases h
      | ok before =>
        obtain ⟨hchained, rfl⟩ := (ih hlines).mp hbefore
        rw [hbefore] at h
        obtain ⟨hfollows, rfl⟩ :=
          (replayLine_of_readRecord hrecord).mp ((replay_singleton _ _ _).mp h)
        rw [audit_commitAll] at hfollows
        exact ⟨⟨hchained, hfollows⟩, rfl⟩
    · rintro ⟨⟨hchained, hfollows⟩, rfl⟩
      rw [(ih hlines).mpr ⟨hchained, rfl⟩]
      refine (replay_singleton _ _ _).mpr ((replayLine_of_readRecord hrecord).mpr ⟨?_, rfl⟩)
      rw [audit_commitAll]
      exact hfollows

end Sentinel
