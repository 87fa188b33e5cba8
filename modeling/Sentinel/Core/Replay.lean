import Sentinel.Core.Policy
import Sentinel.ThreatIntelligence.Campaign

/-!
# Replaying a request

A client may send a request again under the id that it was answered with. The service leaves the
caller's own point out of the count, so the second answer should be the first one. It is, where the
request came with an id. Where it came without, the engine generates two: the text is indexed under
the first and the answer carries the second, and the replay finds the text of its own first run
among the others.

The count of the replay is therefore the count of the first run, or one more if the text is similar
to itself; and whether that shows is a question about two neighbouring values of the risk scale.
-/

namespace Sentinel

open Collections

/-- What is relied upon of two `uuid4`: they are no ids of earlier calls, and differ. -/
structure Generated.Fresh (generated : Generated) (history : List (String × String)) : Prop where
  indexId_notMem : generated.indexId ∉ history.map Prod.fst
  responseId_notMem : generated.responseId ∉ history.map Prod.fst
  ne : generated.indexId ≠ generated.responseId
  responseId_ne : generated.responseId ≠ ""

/-- The request has an id that counts as one. -/
def ModerationRequest.HasId (request : ModerationRequest) : Prop :=
  ∃ requestId, request.requestId = some requestId ∧ requestId ≠ ""

theorem ModerationRequest.HasId.idOr_eq {request : ModerationRequest} (h : request.HasId)
    (generated generated' : String) :
    idOr request.requestId generated = idOr request.requestId generated' := by
  obtain ⟨requestId, hid, hne⟩ := h
  rw [hid, idOr, idOr, if_neg hne, if_neg hne]

theorem ModerationRequest.HasId.idOr_ne {request : ModerationRequest} (h : request.HasId)
    (generated : String) : idOr request.requestId generated ≠ "" := by
  obtain ⟨requestId, hid, hne⟩ := h
  rw [hid, idOr, if_neg hne]
  exact hne

theorem ModerationRequest.idOr_eq_of_not {request : ModerationRequest} (h : ¬request.HasId)
    (generated : String) : idOr request.requestId generated = generated := by
  cases hid : request.requestId with
  | none => rfl
  | some requestId =>
    by_cases hempty : requestId = ""
    · exact if_pos hempty
    · exact absurd ⟨requestId, hid, hempty⟩ h

/-! ## Neighbours on the risk scale -/

theorem campaignRisk_eq_zero {n : ℕ} : campaignRisk n = 0 ↔ n < 2 := by
  rw [ThreatIntelligenceService.campaignRisk_eq]
  split_ifs with hlow hmid
  · exact ⟨fun _ ↦ hlow, fun _ ↦ rfl⟩
  · refine ⟨fun h ↦ ?_, fun h ↦ absurd h hlow⟩
    have hpos : (0 : ℚ) < 11 / 20 + 1 / 20 * n := by positivity
    exact absurd h hpos.ne'
  · exact ⟨fun h ↦ absurd h (by norm_num), fun h ↦ absurd h hlow⟩

theorem campaignRisk_succ {n : ℕ} : campaignRisk (n + 1) = campaignRisk n ↔ n = 0 ∨ 5 ≤ n := by
  rcases Nat.lt_or_ge n 5 with hlow | hhigh
  · interval_cases n <;> norm_num [ThreatIntelligenceService.campaignRisk_eq]
  · rw [campaignRisk, if_pos (Nat.le_succ_of_le hhigh), campaignRisk, if_pos hhigh]
    exact ⟨fun _ ↦ .inr hhigh, fun _ ↦ rfl⟩

/-! ## The campaign of a replay -/

section Campaign

variable {V : Type*} {service : ThreatIntelligenceService V} {history : List (String × String)}

/-- The text is similar to itself; a zero vector need not be. -/
def ThreatIntelligenceService.SelfSimilar (service : ThreatIntelligenceService V)
    (text : String) : Prop :=
  service.similarityThreshold
    ≤ service.similarity (service.encoder.encode text) (service.encoder.encode text)

theorem similar_append {text other : String} (requestId : String) :
    service.Similar (history ++ [(requestId, text)]) text other
      ↔ if requestId = other then service.SelfSimilar text
        else service.Similar history text other := by
  rw [ThreatIntelligenceService.Similar, latestText_append]
  split_ifs
  · constructor
    · rintro ⟨otherText, hlatest, hle⟩
      obtain rfl := Option.some_inj.mp hlatest
      exact hle
    · exact fun hle ↦ ⟨text, rfl, hle⟩
  · exact Iff.rfl

/-- A call is no part of its own campaign. -/
theorem campaign_append_self (requestId text : String) :
    service.campaign (history ++ [(requestId, text)]) requestId text
      = service.campaign history requestId text := by
  ext other
  rw [ThreatIntelligenceService.mem_campaign, ThreatIntelligenceService.mem_campaign,
    similar_append]
  refine and_congr_right fun hne ↦ ?_
  rw [if_neg hne.symm]

/-- Under another new id it is, if its text is similar to itself. -/
theorem campaign_append_fresh {indexId responseId : String}
    (hindex : indexId ∉ history.map Prod.fst) (hresponse : responseId ∉ history.map Prod.fst)
    (hne : indexId ≠ responseId) (text : String) [Decidable (service.SelfSimilar text)] :
    (service.campaign (history ++ [(indexId, text)]) responseId text).card
      = (service.campaign history indexId text).card
        + if service.SelfSimilar text then 1 else 0 := by
  -- Neither id has been seen, so neither is a member of an earlier campaign.
  have hother : ∀ other, service.Similar history text other →
      other ≠ indexId ∧ other ≠ responseId := by
    rintro other ⟨otherText, hlatest, -⟩
    have hmem := mem_of_latestText hlatest
    exact ⟨fun heq ↦ hindex (heq ▸ hmem), fun heq ↦ hresponse (heq ▸ hmem)⟩
  split_ifs with hself
  · have hnew : indexId ∉ service.campaign history indexId text := fun hmem ↦
      (ThreatIntelligenceService.mem_campaign.mp hmem).1 rfl
    rw [← Finset.card_insert_of_notMem hnew]
    congr 1
    ext other
    rw [Finset.mem_insert, ThreatIntelligenceService.mem_campaign,
      ThreatIntelligenceService.mem_campaign, similar_append]
    by_cases heq : indexId = other
    · subst heq
      simp [hself, hne]
    · rw [if_neg heq]
      constructor
      · rintro ⟨-, hsimilar⟩
        exact .inr ⟨(hother other hsimilar).1, hsimilar⟩
      · rintro (heq' | ⟨-, hsimilar⟩)
        · exact absurd heq'.symm heq
        · exact ⟨(hother other hsimilar).2, hsimilar⟩
  · rw [Nat.add_zero]
    congr 1
    ext other
    rw [ThreatIntelligenceService.mem_campaign, ThreatIntelligenceService.mem_campaign,
      similar_append]
    by_cases heq : indexId = other
    · subst heq
      simp [hself]
    · rw [if_neg heq]
      exact ⟨fun h ↦ ⟨(hother other h.2).1, h.2⟩, fun h ↦ ⟨(hother other h.2).2, h.2⟩⟩

end Campaign

/-! ## The two answers -/

namespace ModerationEngine

variable {V : Type*} {engine : ModerationEngine V} {u : Unicode}
  {service : ThreatIntelligenceService V} {history : List (String × String)}
  {store store' : ThreatVectorStore V} {request : ModerationRequest}
  {generated generated' : Generated} {response : ModerationResponse}

/-- The text under the id that it was answered with gets the same risk, the same decision and the
same campaign signal, or none. -/
def ReplayAgrees (engine : ModerationEngine V) (u : Unicode) (text : String)
    (response : ModerationResponse) (store' : ThreatVectorStore V) (generated' : Generated) :
    Prop :=
  ∃ again store'',
    engine.moderate u store' ⟨text, some response.requestId⟩ generated' = (.ok again, store'') ∧
      again.riskScore = response.riskScore ∧ again.decision = response.decision ∧
      (again.signals.filter fun signal ↦ signal.category = .coordinatedAbuse)
        = response.signals.filter fun signal ↦ signal.category = .coordinatedAbuse

theorem Moderated.filter_eq (h : engine.Moderated u store request generated response store') :
    (response.signals.filter fun signal ↦ signal.category = .coordinatedAbuse).map
        ModerationSignal.fields
      = ((ruleFields (engine.ruleEngine.evaluate (normalizeText u request.text))
          ++ engine.modelFields (normalizeText u request.text)).filter
            fun fields ↦ fields.category = .coordinatedAbuse)
        ++ engine.threatFields (engine.assess store request generated).1 := by
  have hthreat : ∀ fields ∈ engine.threatFields (engine.assess store request generated).1,
      decide (fields.category = .coordinatedAbuse) = true := by
    intro fields hfields
    obtain ⟨service, found, -, -, -, rfl⟩ := mem_threatFields.mp hfields
    rfl
  have hmap : (response.signals.filter fun signal ↦ signal.category = .coordinatedAbuse).map
      ModerationSignal.fields = (response.signals.map ModerationSignal.fields).filter
        fun fields ↦ fields.category = .coordinatedAbuse := by
    rw [List.filter_map]
    rfl
  rw [hmap, h.signals_eq, List.filter_append, List.filter_eq_self.mpr hthreat]

/-- What the engine makes of a campaign of `n` other requests. -/
def campaignFields (service : ThreatIntelligenceService V) (n : ℕ) : List SignalFields :=
  if 2 ≤ n then
    [⟨service.source, .coordinatedAbuse, campaignRisk n, "similar_content_campaign"⟩]
  else []

theorem campaignFields_eq_iff {m n : ℕ} :
    campaignRisk m = campaignRisk n ↔ campaignFields service m = campaignFields service n := by
  have hzero : ∀ k, ¬2 ≤ k ↔ campaignRisk k = 0 := fun k ↦
    Nat.not_le.trans campaignRisk_eq_zero.symm
  rw [campaignFields, campaignFields]
  split_ifs with hm hn hn
  · simp
  · rw [(hzero n).mp hn]
    simpa using fun h ↦ (hzero m).mpr h hm
  · rw [(hzero m).mp hm]
    simpa using fun h ↦ (hzero n).mpr h.symm hn
  · rw [(hzero m).mp hm, (hzero n).mp hn]
    simp

theorem threatFields_eq (hservice : engine.threatIntelligence = some service)
    (store : ThreatVectorStore V) (request : ModerationRequest) (generated : Generated) :
    engine.threatFields (engine.assess store request generated).1
      = campaignFields service (engine.matchCount store request generated) := by
  simp only [threatFields, matchCount, assess, hservice, campaignFields, Option.map_some,
    Option.getD_some, ThreatAssessment.coordinated, decide_eq_true_eq]
  rfl

theorem threatScore_eq_iff (engine : ModerationEngine V) (store store' : ThreatVectorStore V)
    (request request' : ModerationRequest) (generated generated' : Generated) :
    threatScore (engine.assess store' request' generated').1
        = threatScore (engine.assess store request generated).1 ↔
      engine.threatFields (engine.assess store' request' generated').1
        = engine.threatFields (engine.assess store request generated).1 := by
  cases hservice : engine.threatIntelligence with
  | none =>
    simp only [assess, threatFields, hservice]
  | some service =>
    rw [threatScore_eq, threatScore_eq, threatFields_eq hservice, threatFields_eq hservice]
    exact campaignFields_eq_iff

theorem replayAgrees_iff (h : engine.Moderated u store request generated response store') :
    engine.ReplayAgrees u request.text response store' generated' ↔
      threatScore (engine.assess store' ⟨request.text, some response.requestId⟩ generated').1
        = threatScore (engine.assess store request generated).1 := by
  rw [threatScore_eq_iff]
  constructor
  · rintro ⟨again, store'', hagain, -, -, hfilter⟩
    have hfields := congrArg (List.map ModerationSignal.fields) hfilter
    rw [(moderated hagain).filter_eq, h.filter_eq] at hfields
    exact List.append_cancel_left hfields
  · intro hsame
    obtain ⟨again, hagain⟩ := exists_moderate engine u store'
      ⟨request.text, some response.requestId⟩ generated' (fun rule hrule ↦ h.severity_mem hrule)
      h.modelScore_le
    have hmoderated := moderated hagain
    have hrisk : again.riskScore = response.riskScore := by
      rw [hmoderated.riskScore_eq, h.riskScore_eq, (threatScore_eq_iff _ _ _ _ _ _ _).mpr hsame]
    refine ⟨again, _, hagain, hrisk, ?_, ?_⟩
    · rw [hmoderated.decision_eq, h.decision_eq, hrisk]
    · apply List.map_injective_iff.mpr ModerationSignal.fields_injective
      rw [hmoderated.filter_eq, h.filter_eq, hsame]

/-- The service reports the campaign of the id that it was called with. -/
theorem threatScore_run (hservice : engine.threatIntelligence = some service)
    (huuid5 : Function.Injective service.uuid5) (hlimit : 6 ≤ service.searchLimit)
    (history : List (String × String)) (request : ModerationRequest) (generated : Generated) :
    threatScore (engine.assess (service.run history) request generated).1
      = campaignRisk (service.campaign history (idOr request.requestId generated.indexId)
        request.text).card := by
  simp only [assess, hservice]
  exact ThreatIntelligenceService.campaignRisk_eq_of
    ((ThreatIntelligenceService.indexed_run huuid5 history).matchCount hlimit _ request.text)

/-- Without threat intelligence the text is all that counts. -/
theorem replayAgrees_of_none (hservice : engine.threatIntelligence = none)
    (h : engine.Moderated u store request generated response store') :
    engine.ReplayAgrees u request.text response store' generated' := by
  rw [replayAgrees_iff h]
  simp only [assess, hservice]

/-- With it, the replay counts over a history that is longer by the first run. -/
theorem replayAgrees_iff_risk (hservice : engine.threatIntelligence = some service)
    (huuid5 : Function.Injective service.uuid5) (hlimit : 6 ≤ service.searchLimit)
    (h : engine.Moderated u (service.run history) request generated response store') :
    engine.ReplayAgrees u request.text response store' generated' ↔
      campaignRisk (service.campaign
          (history ++ [(idOr request.requestId generated.indexId, request.text)])
          (idOr (some response.requestId) generated'.indexId) request.text).card
        = campaignRisk (service.campaign history (idOr request.requestId generated.indexId)
          request.text).card := by
  have hstore : store' = service.run
      (history ++ [(idOr request.requestId generated.indexId, request.text)]) := by
    rw [h.store_eq, ThreatIntelligenceService.run_append]
    simp only [assess, hservice]
  subst hstore
  rw [replayAgrees_iff h, threatScore_run hservice huuid5 hlimit,
    threatScore_run hservice huuid5 hlimit]

/-- **When a replay agrees.** Over every history, a request that returned agrees with its replay
exactly if it had an id of its own, or there is no threat intelligence, or the text is not similar
to itself, or its campaign was at one of the two ends of the scale: no other request, or five. -/
theorem replay_agrees_iff (engine : ModerationEngine V) (u : Unicode)
    (history : List (String × String)) (store store' : ThreatVectorStore V)
    (request : ModerationRequest) (generated generated' : Generated)
    (response : ModerationResponse)
    (hservice : ∀ service, engine.threatIntelligence = some service →
      Function.Injective service.uuid5 ∧ 6 ≤ service.searchLimit ∧ store = service.run history)
    (hfresh : generated.Fresh history)
    (h : engine.moderate u store request generated = (.ok response, store')) :
    engine.ReplayAgrees u request.text response store' generated' ↔
      request.HasId ∨ ∀ service, engine.threatIntelligence = some service →
        ¬service.SelfSimilar request.text ∨
        (service.campaign history generated.indexId request.text).card = 0 ∨
        5 ≤ (service.campaign history generated.indexId request.text).card := by
  have hmoderated := moderated h
  cases hengine : engine.threatIntelligence with
  | none =>
    refine iff_of_true (replayAgrees_of_none hengine hmoderated) (.inr fun service hsome ↦ ?_)
    cases hsome
  | some service =>
    obtain ⟨huuid5, hlimit, rfl⟩ := hservice service hengine
    rw [replayAgrees_iff_risk hengine huuid5 hlimit hmoderated, hmoderated.requestId_eq]
    by_cases hid : request.HasId
    · refine iff_of_true ?_ (.inl hid)
      have hagain : idOr (some (idOr request.requestId generated.responseId)) generated'.indexId
          = idOr request.requestId generated.indexId := by
        rw [idOr, if_neg (hid.idOr_ne _), hid.idOr_eq]
      rw [hagain, campaign_append_self]
    · have hagain : idOr (some generated.responseId) generated'.indexId = generated.responseId :=
        if_neg hfresh.responseId_ne
      rw [request.idOr_eq_of_not hid, request.idOr_eq_of_not hid, hagain]
      classical
      rw [campaign_append_fresh hfresh.indexId_notMem hfresh.responseId_notMem hfresh.ne,
        or_iff_right hid]
      simp only [Option.some_inj, forall_eq']
      by_cases hself : service.SelfSimilar request.text
      · rw [if_pos hself, campaignRisk_succ]
        simp only [hself, not_true, false_or]
      · rw [if_neg hself, Nat.add_zero]
        simp only [hself, not_false_iff, true_or]

/-! ## A text that was sent once before -/

/-- Names of points, derived as they really are. -/
def derivedNames : List (String × String) :=
  [("sentinel:threat:campaign-1", "9e47c6ce-7b09-5bbd-93ef-6d13da01de1b"),
    ("sentinel:threat:campaign-2", "d0e04ad7-7945-5714-83fd-e4e8536ad0bf"),
    ("sentinel:threat:0f8fad5b-d9cb-469f-a165-70867728950e",
      "3f82ef4b-bfee-5286-ba14-41fbec3acf16"),
    ("sentinel:threat:7c9e6679-7425-40de-944b-e07fc1f90ae7",
      "ab41c00f-2389-5fdc-a149-6e68bfe91b5c")]

def sampleEngine : ModerationEngine String :=
  ModerationEngine.default none (some (.sample derivedNames))

def sampleGenerated : Generated where
  indexId := "0f8fad5b-d9cb-469f-a165-70867728950e"
  responseId := "7c9e6679-7425-40de-944b-e07fc1f90ae7"
  now := DateTime.utc 2026 8 27 9 30 0 0

theorem sampleGenerated_fresh : sampleGenerated.Fresh [("campaign-1", "Limited offer")] where
  indexId_notMem := by decide
  responseId_notMem := by decide
  ne := by decide
  responseId_ne := by decide

theorem exists_moderate_sample (store : ThreatVectorStore String) (request : ModerationRequest)
    (generated : Generated) : ∃ response store',
      sampleEngine.moderate Unicode.sample store request generated = (.ok response, store') := by
  obtain ⟨response, h⟩ := exists_moderate sampleEngine Unicode.sample store request generated
    (fun rule hrule ↦ severity_mem_of_defaultRules (RuleEngine.mem_of_evaluate hrule))
    zero_le_one
  exact ⟨response, _, h⟩

theorem replay_agrees_iff_sample : ∃ response store',
    sampleEngine.moderate Unicode.sample
      ((ThreatIntelligenceService.sample derivedNames).run [("campaign-1", "Limited offer")])
      ⟨"Limited offer", some "campaign-2"⟩ sampleGenerated = (.ok response, store') ∧
    sampleEngine.ReplayAgrees Unicode.sample "Limited offer" response store' sampleGenerated := by
  obtain ⟨response, store', h⟩ := exists_moderate_sample
    ((ThreatIntelligenceService.sample derivedNames).run [("campaign-1", "Limited offer")])
    ⟨"Limited offer", some "campaign-2"⟩ sampleGenerated
  refine ⟨response, store', h, ?_⟩
  refine (replay_agrees_iff sampleEngine Unicode.sample [("campaign-1", "Limited offer")] _ store'
    ⟨"Limited offer", some "campaign-2"⟩ sampleGenerated sampleGenerated response ?_
    sampleGenerated_fresh h).mpr (.inl ⟨"campaign-2", rfl, by decide⟩)
  rintro service ⟨⟩
  exact ⟨ThreatIntelligenceService.sample_injective _, by decide, rfl⟩

/-- **A replay that does not agree.** One other request has sent the text. Sent again without an id
it is allowed; sent once more under the id of that answer, it meets itself as a second one. -/
theorem replay_disagrees : ∃ response store',
    sampleEngine.moderate Unicode.sample
      ((ThreatIntelligenceService.sample derivedNames).run [("campaign-1", "Limited offer")])
      ⟨"Limited offer", none⟩ sampleGenerated = (.ok response, store') ∧
    response.requestId = "7c9e6679-7425-40de-944b-e07fc1f90ae7" ∧
    ¬sampleEngine.ReplayAgrees Unicode.sample "Limited offer" response store' sampleGenerated := by
  obtain ⟨response, store', h⟩ := exists_moderate_sample
    ((ThreatIntelligenceService.sample derivedNames).run [("campaign-1", "Limited offer")])
    ⟨"Limited offer", none⟩ sampleGenerated
  have hmoderated := moderated h
  refine ⟨response, store', h, hmoderated.requestId_eq, ?_⟩
  have hservice : sampleEngine.threatIntelligence
      = some (ThreatIntelligenceService.sample derivedNames) := rfl
  rw [replayAgrees_iff_risk hservice (ThreatIntelligenceService.sample_injective _) (by decide)
    hmoderated, hmoderated.requestId_eq]
  have hfirst : ((ThreatIntelligenceService.sample derivedNames).campaign
      [("campaign-1", "Limited offer")] "0f8fad5b-d9cb-469f-a165-70867728950e"
      "Limited offer").card = 1 := by
    decide +kernel
  have hagain : ((ThreatIntelligenceService.sample derivedNames).campaign
      [("campaign-1", "Limited offer"),
        ("0f8fad5b-d9cb-469f-a165-70867728950e", "Limited offer")]
      "7c9e6679-7425-40de-944b-e07fc1f90ae7" "Limited offer").card = 2 := by
    decide +kernel
  intro hrisk
  have hrisk' : campaignRisk 2 = campaignRisk 1 := by
    rw [← hfirst, ← hagain]
    exact hrisk
  exact absurd (campaignRisk_succ.mp hrisk') (by decide)

end ModerationEngine

end Sentinel
