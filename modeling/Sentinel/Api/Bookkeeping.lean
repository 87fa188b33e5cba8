import Sentinel.Api.Moderation
import Sentinel.Review.OneCase
import Sentinel.ThreatIntelligence.Campaign

/-!
# What a request adds to the books

The end of a moderation endpoint counts its response and queues it, if it needs review and the
ledger can be appended to. The review endpoints move cases on, and leave the index of the requests
and the counter of the decisions alone.
-/

namespace Sentinel

open Collections InMemoryReviewRepository Transition

/-! ## Policy versions -/

theorem MultimodalModerationEngine.policyVersion_of_respond {requestId : String} {riskScore : ℚ}
    {signals : List ModerationSignal} {modalities : List String} {decoded : ValidatedImage}
    {now : DateTime} {response : MultimodalModerationResponse}
    (h : respond requestId riskScore signals modalities decoded now = .ok response) :
    response.policyVersion = "2026-08-27-multimodal-v1" := by
  rw [respond] at h
  split at h
  · cases h
  · split_ifs at h
    rw [← Except.ok.inj h]

theorem MultimodalModerationEngine.policyVersion_eq {V : Type*}
    {engine : MultimodalModerationEngine V} {u : Unicode}
    {b64decode : String → Option (List UInt8)} {store store' : ThreatVectorStore V}
    {request : MultimodalModerationRequest} {generated : FusionGenerated}
    {response : MultimodalModerationResponse}
    (h : engine.moderate u b64decode store request generated = (.ok response, store')) :
    response.policyVersion = "2026-08-27-multimodal-v1" := by
  rw [moderate] at h
  dsimp only at h
  split at h
  · cases (Prod.mk.inj h).1
  split at h
  · cases (Prod.mk.inj h).1
  split at h
  · cases (Prod.mk.inj h).1
  split at h
  · cases (Prod.mk.inj h).1
  split at h
  · cases (Prod.mk.inj h).1
  split at h
  · cases (Prod.mk.inj h).1
  · rename_i hrespond
    obtain rfl := Except.ok.inj (Prod.mk.inj h).1
    exact policyVersion_of_respond hrespond

/-! ## The index of the requests -/

section Index

variable {H : ReviewHashing} {repository : InMemoryReviewRepository} {call : ReviewCall}
  {case : ReviewCase} {event : ReviewAuditEvent} {requestId : String}

def Queued (repository : InMemoryReviewRepository) (requestId : String) : Prop :=
  ∃ caseId, repository.requestIndex.get requestId = some caseId

theorem Consistent.queued_iff (h : Consistent H repository) :
    Queued repository requestId ↔
      ∃ case, repository.get case.caseId = some case ∧ case.requestId = requestId := by
  constructor
  · rintro ⟨caseId, hindex⟩
    obtain ⟨case, hget, hrequest⟩ := h.index_sound hindex
    exact ⟨case, (h.kept hget).caseId_eq.symm ▸ hget, hrequest⟩
  · rintro ⟨case, hget, rfl⟩
    exact ⟨case.caseId, (h.kept hget).indexed⟩

end Index

/-! ## The counter of the decisions -/

namespace ReviewComponents

variable {components : ReviewComponents} {api : ReviewApi}

end ReviewComponents
end Sentinel
