import Sentinel.Chain.HashChain
import Sentinel.Schemas.Moderation
import Sentinel.Text.JsonReader

/-!
# The review models

Cases, audit events, and the digest that ties an event to its predecessor. An event is split into
its payload and its hash, because both the service and the ledger build the payload as a dictionary
of its own and hash that; in the JSON of an event the two are one object.

The digest covers the canonical JSON of the payload: keys in alphabetical order, enumerations by
their values, the timestamp in Python's own format. It is a function of the payload, and the payload
can be read back from its JSON.
-/

namespace Sentinel

open Text

/-! ## Enumerations -/

/-- The value of a `Decision`. -/
def Decision.value : Decision → String
  | .allow => "allow"
  | .review => "review"
  | .block => "block"

/-- `ReviewState`. -/
inductive ReviewState
  | pending
  | claimed
  | resolved
  | appealed
deriving DecidableEq

/-- The value of a `ReviewState`. -/
def ReviewState.value : ReviewState → String
  | .pending => "pending"
  | .claimed => "claimed"
  | .resolved => "resolved"
  | .appealed => "appealed"

/-- `ReviewerRole`. -/
inductive ReviewerRole
  | reviewer
  | seniorReviewer
  | auditor
deriving DecidableEq

/-- The value of a `ReviewerRole`. -/
def ReviewerRole.value : ReviewerRole → String
  | .reviewer => "reviewer"
  | .seniorReviewer => "senior_reviewer"
  | .auditor => "auditor"

/-- `ReviewAction`. -/
inductive ReviewAction
  | created
  | claimed
  | decided
  | appealed
  | appealDecided
deriving DecidableEq

/-- The value of a `ReviewAction`. -/
def ReviewAction.value : ReviewAction → String
  | .created => "created"
  | .claimed => "claimed"
  | .decided => "decided"
  | .appealed => "appealed"
  | .appealDecided => "appeal_decided"

theorem Decision.value_injective : Function.Injective Decision.value := by
  intro x y h
  cases x <;> cases y <;> first | rfl | exact absurd h (by decide)

theorem SafetyCategory.value_injective : Function.Injective SafetyCategory.value := by
  intro x y h
  cases x <;> cases y <;> first | rfl | exact absurd h (by decide)

theorem ReviewState.value_injective : Function.Injective ReviewState.value := by
  intro x y h
  cases x <;> cases y <;> first | rfl | exact absurd h (by decide)

theorem ReviewerRole.value_injective : Function.Injective ReviewerRole.value := by
  intro x y h
  cases x <;> cases y <;> first | rfl | exact absurd h (by decide)

theorem ReviewAction.value_injective : Function.Injective ReviewAction.value := by
  intro x y h
  cases x <;> cases y <;> first | rfl | exact absurd h (by decide)

/-! ## Cases and events -/

/-- `ReviewPrincipal`. -/
structure ReviewPrincipal where
  reviewerId : String
  role : ReviewerRole
deriving DecidableEq

/-- `ReviewCase`, with its score bounds. -/
@[ext]
structure ReviewCase where
  caseId : String
  requestId : String
  automatedDecision : Decision
  automatedRiskScore : ℚ
  signalCategories : List SafetyCategory
  policyVersion : String
  state : ReviewState := .pending
  assignedReviewerId : Option String := none
  finalDecision : Option Decision := none
  decisionReasonCode : Option String := none
  appealReasonCode : Option String := none
  createdAt : DateTime
  updatedAt : DateTime
  resolvedAt : Option DateTime := none
  /-- `Field(ge=0.0, le=1.0)`. -/
  automatedRiskScore_mem : 0 ≤ automatedRiskScore ∧ automatedRiskScore ≤ 1

/-- The fields of an audit event that its hash covers. -/
@[ext]
structure AuditPayload where
  eventId : String
  caseId : String
  sequence : ℕ
  action : ReviewAction
  actorId : String
  actorRole : Option ReviewerRole
  fromState : Option ReviewState
  toState : ReviewState
  reasonCode : String
  occurredAt : DateTime
  previousHash : String
  /-- `Field(ge=1)`. -/
  sequence_pos : 1 ≤ sequence
deriving DecidableEq

/-- `ReviewAuditEvent`. -/
@[ext]
structure ReviewAuditEvent extends AuditPayload where
  eventHash : String
deriving DecidableEq

theorem ReviewAuditEvent.ext_payload {x y : ReviewAuditEvent}
    (hpayload : x.toAuditPayload = y.toAuditPayload) (hhash : x.eventHash = y.eventHash) :
    x = y := by
  cases x
  cases y
  cases hpayload
  cases hhash
  rfl

/-! ## Feedback -/

/-- `FeedbackRecord`. -/
structure FeedbackRecord where
  caseId : String
  requestId : String
  automatedDecision : Decision
  automatedRiskScore : ℚ
  signalCategories : List SafetyCategory
  policyVersion : String
  humanDecision : Decision
  decisionReasonCode : String
  resolvedAt : DateTime
  appealed : Bool
deriving DecidableEq

/-- `FeedbackExport`. -/
structure FeedbackExport where
  schemaVersion : String := "sentinel-review-feedback-v1"
  generatedAt : DateTime
  records : List FeedbackRecord
deriving DecidableEq

/-! ## The digest -/

def optionalJson : Option String → Json
  | none => .constant .null
  | some value => .string value

theorem optionalJson_injective : Function.Injective optionalJson := by
  rintro (_ | x) (_ | y) h
  · rfl
  · cases h
  · cases h
  · exact congrArg some (Json.string.inj h)

/-- The payload dictionary, with its keys sorted. -/
def AuditPayload.json (payload : AuditPayload) : Json :=
  .object
    [("action", .string payload.action.value),
      ("actor_id", .string payload.actorId),
      ("actor_role", optionalJson (payload.actorRole.map ReviewerRole.value)),
      ("case_id", .string payload.caseId),
      ("event_id", .string payload.eventId),
      ("from_state", optionalJson (payload.fromState.map ReviewState.value)),
      ("occurred_at", .string payload.occurredAt.isoformat),
      ("previous_hash", .string payload.previousHash),
      ("reason_code", .string payload.reasonCode),
      ("sequence", .number (NumberLiteral.nat payload.sequence)),
      ("to_state", .string payload.toState.value)]

/-- `audit_event_digest`, given `hashlib.sha256(text.encode("utf-8")).hexdigest()`. -/
def auditEventDigest (sha256 : String → String) (payload : AuditPayload) : String :=
  sha256 (String.ofList payload.json.dumps)

theorem AuditPayload.json_injective : Function.Injective AuditPayload.json := by
  intro x y h
  simp only [AuditPayload.json, Json.object.injEq, List.cons.injEq, Prod.mk.injEq, true_and,
    and_true, Json.string.injEq, Json.number.injEq] at h
  obtain ⟨haction, hactor, hrole, hcase, hevent, hfrom, hoccurred, hprevious, hreason, hsequence,
    hto⟩ := h
  exact AuditPayload.ext hevent hcase (NumberLiteral.nat_injective hsequence)
    (ReviewAction.value_injective haction) hactor
    (Option.map_injective ReviewerRole.value_injective (optionalJson_injective hrole))
    (Option.map_injective ReviewState.value_injective (optionalJson_injective hfrom))
    (ReviewState.value_injective hto) hreason (DateTime.isoformat_injective hoccurred) hprevious

/-- Without collisions of the hash there are none of the digest. -/
theorem auditEventDigest_injective {sha256 : String → String} (h : Function.Injective sha256) :
    Function.Injective (auditEventDigest sha256) := fun _ _ heq ↦
  AuditPayload.json_injective (Json.dumps_injective (String.ofList_injective (h heq)))

/-- `"0" * 64`. -/
def genesisHash : String := String.ofList (List.replicate 64 '0')

/-- The chain of the audit events of a case. -/
def auditChain (sha256 : String → String) : Chain.HashChain ReviewAuditEvent String where
  sequence event := event.sequence
  previousHash event := event.previousHash
  hash event := event.eventHash
  digest event := auditEventDigest sha256 event.toAuditPayload
  genesis := genesisHash

end Sentinel
