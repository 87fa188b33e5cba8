import Mathlib.Data.Rat.Encodable
import Mathlib.Logic.Function.Basic
import Sentinel.Review.Ledger

/-!
# The service over the ledger

A session is the ledger file together with the repository that a process has in memory, and what
the callers have got so far. A commit appends a line to the file and then changes the memory; an
append that raises leaves the memory alone, whatever has reached the file by then. A restart opens
the file and takes the memory from it, if that succeeds.

As long as no failing append leaves anything behind, the file is made of whole records, and both the
memory and the answers are those of a service that has no file at all.
-/

namespace Sentinel

open Chain InMemoryReviewRepository Text

/-- How the append of a line ends. -/
inductive Append
  | done
  /-- Opening the file raises. -/
  | refused
  /-- Writing raises when so many characters of the line, its line break included, have reached the
  file. -/
  | torn (reached : ℕ)
deriving DecidableEq

def Append.write (append : Append) (file : Option (List Char)) (line : List Char) :
    Option (List Char) :=
  match append with
  | .done => some (file.getD [] ++ (line ++ ['\n']))
  | .refused => file
  | .torn reached => some (file.getD [] ++ (line ++ ['\n']).take reached)

/-- Whether a failing append has left nothing of its line. -/
def Append.harmless : Append → Bool
  | .done | .refused => true
  | .torn reached => reached = 0

/-- The exceptions that reach the caller. -/
inductive ServiceError
  | review (error : ReviewError)
  | osError
deriving DecidableEq

/-- A call over the ledger: the memory afterwards, and what the caller gets. -/
def ReviewCall.performLogged (H : ReviewHashing) (memory : InMemoryReviewRepository)
    (call : ReviewCall) (append : Append) :
    InMemoryReviewRepository × Except ServiceError (Option ReviewCase) :=
  match call.plan H memory with
  | .error error => (memory, .error (.review error))
  | .ok (.result case) => (memory, .ok case)
  | .ok (.commit case event) =>
    if append = .done then (memory.commit case event, .ok (some case))
    else (memory, .error .osError)

/-- A `ReviewService` over a `JsonlReviewRepository`. -/
structure Session where
  /-- The ledger, if the file exists. -/
  file : Option (List Char)
  memory : InMemoryReviewRepository
  /-- What the callers have got, in the order of their calls. -/
  answers : List (Except ServiceError (Option ReviewCase))

/-- What happens to a session. -/
inductive Operation
  | call (call : ReviewCall) (append : Append)
  /-- A new `JsonlReviewRepository` is opened on the file. -/
  | restart
deriving DecidableEq

namespace Session

/-- A session on a file that does not exist yet. -/
def init : Session := ⟨none, empty, []⟩

variable (schema : LedgerSchema) (H : ReviewHashing)

/-- A call, with `JsonlReviewRepository.commit`. -/
def perform (session : Session) (call : ReviewCall) (append : Append) : Session :=
  match call.plan H session.memory with
  | .error error => { session with answers := session.answers ++ [.error (.review error)] }
  | .ok (.result case) => { session with answers := session.answers ++ [.ok case] }
  | .ok (.commit case event) =>
    let file := append.write session.file (serialize schema (case, event))
    if append = .done then
      ⟨file, session.memory.commit case event, session.answers ++ [.ok (some case)]⟩
    else ⟨file, session.memory, session.answers ++ [.error .osError]⟩

/-- An operation. A restart is possible if the replay succeeds. -/
def step (session : Session) : Operation → Option Session
  | .call call append => some (session.perform schema H call append)
  | .restart =>
    match openLedger schema H session.file with
    | .error _ => none
    | .ok memory => some { session with memory }

/-- The file is made of whole records, and the memory is what they amount to. -/
structure Written (session : Session) (records : List Record) : Prop where
  file_eq : session.file.getD [] = unlines (records.map (serialize schema))
  memory_eq : session.memory = commitAll records
  chained : Chained H records
  caseId_eq : ∀ record ∈ records, record.2.caseId = record.1.caseId

end Session

variable {schema : LedgerSchema} {H : ReviewHashing} {session : Session} {records : List Record}
  {call : ReviewCall} {case : ReviewCase} {event : ReviewAuditEvent} {append : Append}

/-- What a caller gets and the memory after a call, without the file. -/
theorem Session.perform_eq (schema : LedgerSchema) (session : Session) (call : ReviewCall)
    (append : Append) :
    (session.perform schema H call append).memory
        = (call.performLogged H session.memory append).1 ∧
      (session.perform schema H call append).answers
        = session.answers ++ [(call.performLogged H session.memory append).2] := by
  rw [perform, ReviewCall.performLogged]
  cases call.plan H session.memory with
  | error error => exact ⟨rfl, rfl⟩
  | ok plan =>
    cases plan with
    | result found => exact ⟨rfl, rfl⟩
    | commit case event =>
      dsimp only
      split_ifs <;> exact ⟨rfl, rfl⟩

/-! ## Opening a file of whole records -/

theorem map_readRecord_serialize (hschema : schema.Lawful) (records : List Record) :
    (records.map (serialize schema)).map (readRecord schema) = records.map some := by
  rw [List.map_map]
  exact List.map_congr_left fun record _ ↦ readRecord_serialize hschema record

theorem splitlines_records (schema : LedgerSchema) (records : List Record) (rest : List Char) :
    splitlines (unlines (records.map (serialize schema)) ++ rest)
      = records.map (serialize schema) ++ splitlines rest := by
  refine splitlines_unlines (fun line hline ↦ ?_) rest
  obtain ⟨record, -, rfl⟩ := List.mem_map.mp hline
  exact unbroken_serialize record

theorem splitlines_ledger (schema : LedgerSchema) (records : List Record) :
    splitlines (unlines (records.map (serialize schema))) = records.map (serialize schema) := by
  have hsplit := splitlines_records schema records []
  rwa [List.append_nil, splitlines, List.append_nil] at hsplit

theorem openLedger_records (hschema : schema.Lawful) (hchained : Chained H records)
    (rest : List Char) :
    openLedger schema H (some (unlines (records.map (serialize schema)) ++ rest))
      = replay schema H (1 + records.length) (commitAll records) (splitlines rest) := by
  rw [openLedger, splitlines_records, replay_append,
    (replay_eq_ok_iff (map_readRecord_serialize hschema records)).mpr ⟨hchained, rfl⟩,
    List.length_map]
  rfl

theorem openLedger_of_chained (hschema : schema.Lawful) (hchained : Chained H records) :
    openLedger schema H (some (unlines (records.map (serialize schema))))
      = .ok (commitAll records) := by
  have hopen := openLedger_records hschema hchained []
  rw [List.append_nil] at hopen
  rw [hopen]
  rfl

theorem Session.Written.file_eq_some (h : session.Written schema H records)
    (hne : records ≠ []) : session.file = some (unlines (records.map (serialize schema))) := by
  have hfile_eq := h.file_eq
  cases hfile : session.file with
  | none =>
    obtain ⟨record, rest, rfl⟩ := List.exists_cons_of_ne_nil hne
    obtain ⟨text, htext⟩ := exists_serialize_eq_cons schema record
    rw [hfile, Option.getD_none, List.map_cons, unlines, List.flatMap_cons, htext] at hfile_eq
    cases hfile_eq
  | some text =>
    rw [hfile, Option.getD_some] at hfile_eq
    rw [hfile_eq]

theorem Session.Written.openLedger_eq (hschema : schema.Lawful)
    (h : session.Written schema H records) :
    openLedger schema H session.file = .ok session.memory := by
  have hopen := openLedger_of_chained hschema h.chained
  rw [h.memory_eq]
  cases hfile : session.file with
  | none =>
    have hfile_eq := h.file_eq
    rw [hfile, Option.getD_none] at hfile_eq
    rw [← hfile_eq] at hopen
    have hempty : openLedger schema H none = openLedger schema H (some []) := rfl
    rw [hempty, hopen]
  | some text =>
    have hfile_eq := h.file_eq
    rw [hfile, Option.getD_some] at hfile_eq
    rw [hfile_eq, hopen]

/-! ## Commits -/

theorem follows_of_plan {memory : InMemoryReviewRepository}
    (h : call.plan H memory = .ok (.commit case event)) :
    (auditChain H.sha256).Follows (memory.audit case.caseId) event ∧
      event.caseId = case.caseId := by
  cases ReviewCall.commits_of_plan h <;> exact ⟨auditEvent_follows _ _ _ _ _ _ _ _ _, rfl⟩

theorem Session.written_init : init.Written schema H [] where
  file_eq := rfl
  memory_eq := rfl
  chained := chained_nil
  caseId_eq := fun _ h ↦ by cases h

theorem Session.Written.commit (h : session.Written schema H records)
    (hplan : call.plan H session.memory = .ok (.commit case event)) :
    (session.perform schema H call .done).Written schema H (records ++ [(case, event)]) := by
  obtain ⟨hfollows, hcaseId⟩ := follows_of_plan hplan
  rw [h.memory_eq, audit_commitAll] at hfollows
  rw [perform, hplan]
  refine ⟨?_, ?_, chained_concat.mpr ⟨h.chained, hfollows⟩, ?_⟩
  · rw [List.map_append, unlines_append, ← h.file_eq]
    exact congrArg _ (unlines_singleton _).symm
  · rw [commitAll_concat, ← h.memory_eq]
    rfl
  · intro record hrecord
    rcases List.mem_append.mp hrecord with hrecord | hrecord
    · exact h.caseId_eq record hrecord
    · rw [List.mem_singleton.mp hrecord]
      exact hcaseId

/-- **A call keeps the records whole** unless its append fails and leaves something. -/
theorem Session.Written.perform (h : session.Written schema H records) (call : ReviewCall)
    (append : Append) (hharmless : ∀ {case event},
      call.plan H session.memory = .ok (.commit case event) → append.harmless = true) :
    ∃ records', (session.perform schema H call append).Written schema H records' := by
  cases hplan : call.plan H session.memory with
  | error error =>
    rw [Session.perform, hplan]
    exact ⟨records, h.file_eq, h.memory_eq, h.chained, h.caseId_eq⟩
  | ok plan =>
    cases plan with
    | result case =>
      rw [Session.perform, hplan]
      exact ⟨records, h.file_eq, h.memory_eq, h.chained, h.caseId_eq⟩
    | commit case event =>
      have hharmless' := hharmless hplan
      cases append with
      | done => exact ⟨_, h.commit hplan⟩
      | refused =>
        rw [Session.perform, hplan]
        exact ⟨records, h.file_eq, h.memory_eq, h.chained, h.caseId_eq⟩
      | torn reached =>
        have hreached : reached = 0 := by simpa [Append.harmless] using hharmless'
        subst hreached
        rw [Session.perform, hplan]
        refine ⟨records, ?_, h.memory_eq, h.chained, h.caseId_eq⟩
        exact (List.append_nil _).trans h.file_eq

/-! ## A sample

A schema library that reads back every record it has written exists if the records are determined
by their documents. It is the inverse of the dump, and writes the score of the sample as Python
does. -/

theorem ReviewCase.json_injective {floatText : ℚ → NumberLiteral}
    (hfloat : Function.Injective floatText) : Function.Injective (ReviewCase.json floatText) := by
  intro x y h
  simp only [ReviewCase.json, Json.object.injEq, List.cons.injEq, Prod.mk.injEq, true_and, and_true,
    Json.string.injEq, Json.number.injEq, Json.array.injEq] at h
  obtain ⟨happeal, hassigned, hautomated, hscore, hcaseId, hcreated, hreason, hfinal, hpolicy,
    hrequest, hresolved, hcategories, hstate, hupdated⟩ := h
  have hcategory : Function.Injective fun category : SafetyCategory ↦ Json.string category.value :=
    fun _ _ hvalue ↦ SafetyCategory.value_injective (Json.string.inj hvalue)
  exact ReviewCase.ext hcaseId hrequest (Decision.value_injective hautomated) (hfloat hscore)
    (List.map_injective_iff.mpr hcategory hcategories) hpolicy (ReviewState.value_injective hstate)
    (optionalJson_injective hassigned)
    (Option.map_injective Decision.value_injective (optionalJson_injective hfinal))
    (optionalJson_injective hreason) (optionalJson_injective happeal)
    (DateTime.modelDump_injective hcreated) (DateTime.modelDump_injective hupdated)
    (Option.map_injective DateTime.modelDump_injective (optionalJson_injective hresolved))

theorem ReviewAuditEvent.json_injective : Function.Injective ReviewAuditEvent.json := by
  intro x y h
  simp only [ReviewAuditEvent.json, Json.object.injEq, List.cons.injEq, Prod.mk.injEq, true_and,
    and_true, Json.string.injEq, Json.number.injEq] at h
  obtain ⟨haction, hactor, hrole, hcase, hhash, hevent, hfrom, hoccurred, hprevious, hreason,
    hsequence, hto⟩ := h
  refine ReviewAuditEvent.ext_payload ?_ hhash
  exact AuditPayload.ext hevent hcase (NumberLiteral.nat_injective hsequence)
    (ReviewAction.value_injective haction) hactor
    (Option.map_injective ReviewerRole.value_injective (optionalJson_injective hrole))
    (Option.map_injective ReviewState.value_injective (optionalJson_injective hfrom))
    (ReviewState.value_injective hto) hreason (DateTime.modelDump_injective hoccurred) hprevious

namespace ReviewSample

/-- The texts of the scores: `0.5` for a half, and others for the others. -/
def floatText (score : ℚ) : NumberLiteral :=
  if score = response.riskScore then ⟨['0', '.', '5'], List.all_eq_true.mp rfl, rfl⟩
  else .nat (Encodable.encode score)

theorem floatText_injective : Function.Injective floatText := by
  have hpoint : ∀ n : ℕ,
      (⟨['0', '.', '5'], List.all_eq_true.mp rfl, rfl⟩ : NumberLiteral) ≠ .nat n := by
    intro n h
    have hmem : '.' ∈ (NumberLiteral.nat n).chars := h ▸ by decide
    have hdigit : ('.').isDigit = true :=
      Nat.isDigit_of_mem_toDigits (by decide) (by decide) hmem
    exact absurd hdigit (by decide)
  intro score score' h
  rw [floatText, floatText] at h
  split_ifs at h with hscore hscore' hscore'
  · exact hscore.trans hscore'.symm
  · exact absurd h (hpoint _)
  · exact absurd h.symm (hpoint _)
  · exact Encodable.encode_injective (NumberLiteral.nat_injective h)

noncomputable def ledgerSchema : LedgerSchema where
  floatText := floatText
  validateCase := Function.partialInv (ReviewCase.json floatText)
  validateEvent := Function.partialInv ReviewAuditEvent.json

theorem lawful : ledgerSchema.Lawful where
  validateCase_json := Function.partialInv_left (ReviewCase.json_injective floatText_injective)
  validateEvent_json := Function.partialInv_left ReviewAuditEvent.json_injective

def createdRecord : Record :=
  let case := createdCase hashing response response.evaluatedAt response.evaluatedAt
  (case, auditEvent hashing [] case .created "system" none none "automated_review_required"
    ⟨created.eventId, created.occurredAt⟩)

def claimedRecord : Record :=
  let case := claimedCase createdRecord.1 reviewer claimed.occurredAt
  (case, auditEvent hashing [createdRecord.2] case .claimed "reviewer-1" (some .reviewer)
    (some .pending) "reviewer_claimed" ⟨claimed.eventId, claimed.occurredAt⟩)

def decidedRecord : Record :=
  let case := resolvedCase claimedRecord.1 .block "confirmed_abuse" decided.occurredAt
  (case, auditEvent hashing [createdRecord.2, claimedRecord.2] case .decided "reviewer-1"
    (some .reviewer) (some .claimed) "confirmed_abuse" ⟨decided.eventId, decided.occurredAt⟩)

def operations : List Operation := calls.map fun call ↦ .call call .done

theorem written : ∃ session, Transition.run (Session.step ledgerSchema hashing) Session.init
    operations = some session ∧
      session.Written ledgerSchema hashing [createdRecord, claimedRecord, decidedRecord] := by
  refine ⟨_, rfl, ?_⟩
  have hcreated : (Session.init.perform ledgerSchema hashing calls[0] .done).Written ledgerSchema
      hashing [createdRecord] := Session.written_init.commit rfl
  have hclaimed := hcreated.commit
    (rfl : calls[1].plan hashing _ = .ok (.commit claimedRecord.1 claimedRecord.2))
  exact hclaimed.commit
    (rfl : calls[2].plan hashing _ = .ok (.commit decidedRecord.1 decidedRecord.2))

end ReviewSample

end Sentinel
