import Mathlib.Tactic.Linarith
import Mathlib.Tactic.NormNum
import Mathlib.Tactic.Positivity
import Sentinel.ThreatIntelligence.Adapters

/-!
# Threat intelligence

`ThreatIntelligenceService.assess_and_index`. The store is passed along: the search sees it as it
was before the call, and the point of the call is written afterwards, whatever was found.
-/

namespace Sentinel

/-- `ThreatAssessment`. -/
structure ThreatAssessment where
  matchCount : ℕ
  maximumSimilarity : ℚ
  riskScore : ℚ
deriving DecidableEq

/-- `coordinated`. -/
def ThreatAssessment.coordinated (assessment : ThreatAssessment) : Bool :=
  2 ≤ assessment.matchCount

/-- `TextEncoder`. -/
structure TextEncoder (V : Type*) where
  version : String
  encode : String → V

/-- `ThreatIntelligenceService`, with the two functions from elsewhere that it calls. -/
structure ThreatIntelligenceService (V : Type*) where
  encoder : TextEncoder V
  similarityThreshold : ℚ := 9 / 10
  searchLimit : ℕ := 20
  /-- `_cosine` of the store. -/
  similarity : V → V → ℚ
  /-- `str(uuid5(NAMESPACE_URL, name))`. -/
  uuid5 : String → String

/-- The risk scale of `assess_and_index`. -/
def campaignRisk (matchCount : ℕ) : ℚ :=
  if 5 ≤ matchCount then 9 / 10
  else if 2 ≤ matchCount then min (21 / 25) (11 / 20 + 1 / 20 * matchCount)
  else 0

namespace ThreatIntelligenceService

variable {V : Type*} (service : ThreatIntelligenceService V)

/-- `source`. -/
def source : String := "vector:" ++ service.encoder.version

def pointId (requestId : String) : String := service.uuid5 ("sentinel:threat:" ++ requestId)

/-- `assess_and_index`. -/
def assessAndIndex (store : ThreatVectorStore V) (requestId text : String) :
    ThreatAssessment × ThreatVectorStore V :=
  let vector := service.encoder.encode text
  let found := store.search service.similarity vector service.searchLimit
    service.similarityThreshold
  let distinctMatches := found.filter fun found ↦ found.requestId ≠ requestId
  let store := store.upsert (service.pointId requestId) vector requestId
  (⟨distinctMatches.length, (distinctMatches.map (·.score)).max?.getD 0,
    campaignRisk distinctMatches.length⟩, store)

end ThreatIntelligenceService

theorem campaignRisk_mem (matchCount : ℕ) :
    0 ≤ campaignRisk matchCount ∧ campaignRisk matchCount ≤ 1 := by
  rw [campaignRisk]
  split_ifs
  · norm_num
  · refine ⟨le_min (by norm_num) (by positivity), (min_le_left _ _).trans (by norm_num)⟩
  · norm_num

theorem campaignRisk_mono {m n : ℕ} (h : m ≤ n) : campaignRisk m ≤ campaignRisk n := by
  rw [campaignRisk, campaignRisk]
  split_ifs with hm hn hn' hm' hn hn'
  · exact le_refl _
  · omega
  · omega
  · exact (min_le_left _ _).trans (by norm_num)
  · have hcast : (m : ℚ) ≤ n := by exact_mod_cast h
    exact min_le_min le_rfl (by linarith)
  · omega
  · norm_num
  · exact le_min (by norm_num) (by positivity)
  · exact le_refl _

end Sentinel
