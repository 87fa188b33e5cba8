import Mathlib.Data.Rat.Defs
import Sentinel.Schemas.DateTime

/-!
# The moderation schemas

The records that the API, the workers and the review service exchange. They follow the source's
models field by field; scores are exact rationals in place of floats. A `model_copy` does not
validate, so a job record is a plain record here too: what its fields have to do with each other is
an invariant of the system that writes it, not of the type.
-/

namespace Sentinel

/-- `Decision`. -/
inductive Decision
  | allow
  | review
  | block
deriving DecidableEq

/-- `SafetyCategory`. -/
inductive SafetyCategory
  | harassment
  | identityAttack
  | threat
  | toxicity
  | coordinatedAbuse
  | sexualContent
  | graphicViolence
  | crossModalDisagreement
deriving DecidableEq

/-- The value of a `SafetyCategory`. -/
def SafetyCategory.value : SafetyCategory → String
  | .harassment => "harassment"
  | .identityAttack => "identity_attack"
  | .threat => "threat"
  | .toxicity => "toxicity"
  | .coordinatedAbuse => "coordinated_abuse"
  | .sexualContent => "sexual_content"
  | .graphicViolence => "graphic_violence"
  | .crossModalDisagreement => "cross_modal_disagreement"

/-- `ModerationRequest`. -/
structure ModerationRequest where
  text : String
  requestId : Option String
deriving DecidableEq

/-- `ModerationSignal`, with its score bounds. -/
structure ModerationSignal where
  source : String
  category : SafetyCategory
  score : ℚ
  reasonCode : String
  /-- `Field(ge=0.0, le=1.0)`. -/
  score_mem : 0 ≤ score ∧ score ≤ 1
deriving DecidableEq

/-- `ModerationResponse`, with its score bounds. -/
structure ModerationResponse where
  requestId : String
  decision : Decision
  riskScore : ℚ
  signals : List ModerationSignal
  policyVersion : String
  evaluatedAt : DateTime
  /-- `Field(ge=0.0, le=1.0)`. -/
  riskScore_mem : 0 ≤ riskScore ∧ riskScore ≤ 1
deriving DecidableEq

/-! ## Jobs -/

/-- `JobState`. -/
inductive JobState
  | accepted
  | processing
  | succeeded
  | failed
deriving DecidableEq

/-- `ModerationJob`. -/
structure ModerationJob where
  jobId : String
  requestId : String
  state : JobState
  attempt : ℕ := 0
  result : Option ModerationResponse := none
  errorCode : Option String := none
  createdAt : DateTime
  updatedAt : DateTime
deriving DecidableEq

/-- `StoredModerationJob`. -/
structure StoredModerationJob where
  job : ModerationJob
  requestFingerprint : String
deriving DecidableEq

/-- `ModerationJobEvent`. -/
structure ModerationJobEvent where
  jobId : String
  request : ModerationRequest
  attempt : ℕ := 0
deriving DecidableEq

end Sentinel
