import Sentinel.Api.Moderation
import Sentinel.Core.Replay
import Sentinel.Evaluation.Attacks

/-!
# Campaigns in disguise

Somebody sends one text under many ids, through both endpoints, each time disguised by some of the
evasions that the canonical text undoes. The encoder works on the canonical text, so all of these
texts have one vector, and the search counts them. Requests may overlap: what counts for a request
is what the others had written when it searched, and an id counts with its latest text.

The invariant is that the store holds the latest vector of each id of the history, and that every
answer was computed over such a store.
-/

namespace Sentinel

open Collections Transition

/-- The text is what some sequence of the evasions that are undone makes of the other one. -/
def Disguises (u : Unicode) (text disguised : String) : Prop :=
  ∃ sequence : List (String → String), (∀ attack ∈ sequence, attack ∈ undoneAttacks u) ∧
    disguised = sequence.foldl (fun text attack ↦ attack text) text

/-- The evidence of a campaign, as it stands in a response. -/
def ReportsCampaign {V : Type*} (service : ThreatIntelligenceService V)
    (response : ModerationResponse) : Prop :=
  ∃ signal ∈ response.signals, signal.source = service.source ∧
    signal.category = .coordinatedAbuse ∧ signal.reasonCode = "similar_content_campaign"

/-! ## The text engine over a history -/

namespace ModerationEngine

variable {V : Type*} {engine : ModerationEngine V} {u : Unicode}
  {service : ThreatIntelligenceService V} {history : List (String × String)}
  {store store' : ThreatVectorStore V} {request : ModerationRequest} {generated : Generated}
  {response : ModerationResponse}

/-- The campaign that the engine is asked about. -/
def campaignSize (service : ThreatIntelligenceService V) (history : List (String × String))
    (request : ModerationRequest) (generated : Generated) : ℕ :=
  (service.campaign history (idOr request.requestId generated.indexId) request.text).card

theorem threatScore_of_indexed (hservice : engine.threatIntelligence = some service)
    (hindexed : service.Indexed history store) (hlimit : 6 ≤ service.searchLimit)
    (request : ModerationRequest) (generated : Generated) :
    threatScore (engine.assess store request generated).1
      = campaignRisk (campaignSize service history request generated) := by
  simp only [assess, hservice]
  exact ThreatIntelligenceService.campaignRisk_eq_of (hindexed.matchCount hlimit _ _)

theorem threatFields_of_indexed (hservice : engine.threatIntelligence = some service)
    (hindexed : service.Indexed history store) (hlimit : 6 ≤ service.searchLimit)
    (request : ModerationRequest) (generated : Generated) :
    engine.threatFields (engine.assess store request generated).1
      = campaignFields service (campaignSize service history request generated) := by
  rw [threatFields_eq hservice, ← campaignFields_eq_iff]
  refine ThreatIntelligenceService.campaignRisk_eq_of ?_
  simp only [matchCount, assess, hservice, Option.map_some, Option.getD_some]
  exact hindexed.matchCount hlimit _ _

theorem Moderated.campaignRisk_le
    (h : engine.Moderated u store request generated response store')
    (hservice : engine.threatIntelligence = some service)
    (hindexed : service.Indexed history store) (hlimit : 6 ≤ service.searchLimit) :
    campaignRisk (campaignSize service history request generated) ≤ response.riskScore := by
  rw [h.riskScore_eq, threatScore_of_indexed hservice hindexed hlimit]
  exact le_max_right _ _

theorem Moderated.reportsCampaign (h : engine.Moderated u store request generated response store')
    (hservice : engine.threatIntelligence = some service)
    (hindexed : service.Indexed history store) (hlimit : 6 ≤ service.searchLimit)
    (htwo : 2 ≤ campaignSize service history request generated) :
    ReportsCampaign service response := by
  have hmem : (⟨service.source, .coordinatedAbuse,
      campaignRisk (campaignSize service history request generated),
      "similar_content_campaign"⟩ : SignalFields)
        ∈ response.signals.map ModerationSignal.fields := by
    rw [h.signals_eq, threatFields_of_indexed hservice hindexed hlimit, campaignFields,
      if_pos htwo]
    exact List.mem_append_right _ (List.mem_singleton.mpr rfl)
  obtain ⟨signal, hsignal, hfields⟩ := List.mem_map.mp hmem
  exact ⟨signal, hsignal, congrArg SignalFields.source hfields,
    congrArg SignalFields.category hfields, congrArg SignalFields.reasonCode hfields⟩

end ModerationEngine

theorem decisionFor_of_campaignRisk {n : ℕ} {riskScore : ℚ} (h : campaignRisk n ≤ riskScore) :
    (2 ≤ n → decisionFor riskScore ≠ .allow) ∧ (5 ≤ n → decisionFor riskScore = .block) := by
  constructor
  · intro htwo
    have hmono := campaignRisk_mono htwo
    rw [Ne, decisionFor_eq_allow, not_lt]
    refine le_trans ?_ (hmono.trans h)
    norm_num [modelReviewThreshold, campaignRisk]
  · intro hfive
    have hmono := campaignRisk_mono hfive
    rw [decisionFor, if_pos]
    refine le_trans ?_ (hmono.trans h)
    norm_num [blockThreshold, campaignRisk]

/-! ## Requests to the endpoints -/

def Submission.asked : Submission → Option String
  | .text request _ => some request.text
  | .multimodal request .. => request.text

/-- The id under which the text is assessed. -/
def Submission.assessedId : Submission → String
  | .text request generated => idOr request.requestId generated.indexId
  | .multimodal request generated _ => idOr request.requestId generated.requestId

namespace ModerationComponents

variable {V : Type*} {components : ModerationComponents V} {state state' : State V}
  {service : ThreatIntelligenceService V} {store : ThreatVectorStore V}

/-- The store is that of the history, and each answer was computed over the store of its own. -/
structure Searched (components : ModerationComponents V) (service : ThreatIntelligenceService V)
    (state : State V) : Prop where
  indexed : service.Indexed state.history state.store
  answer_eq : ∀ entry ∈ state.entries, ∃ store, service.Indexed entry.seen store ∧
    entry.answer = (components.moderate store entry.submission).1

theorem indexed_write (hservice : components.moderationEngine.threatIntelligence = some service)
    (huuid5 : Function.Injective service.uuid5) {history : List (String × String)}
    (h : service.Indexed history store) (point : Option (String × String)) :
    service.Indexed (history ++ components.points point) (components.write store point) := by
  rw [points, hservice, if_pos Option.isSome_some]
  cases point with
  | none =>
    rw [Option.toList_none, List.append_nil]
    exact h
  | some point =>
    rw [write, hservice]
    exact h.upsert huuid5 point.1 point.2

theorem Stepped.searched (hservice : components.moderationEngine.threatIntelligence = some service)
    (huuid5 : Function.Injective service.uuid5) (h : components.Searched service state)
    (hstep : components.Stepped state state') : components.Searched service state' := by
  have hset : ∀ {i entry} (progress : Progress), state.entries[i]? = some entry →
      ∀ other ∈ state.entries.set i { entry with progress := progress },
        ∃ store, service.Indexed other.seen store ∧
          other.answer = (components.moderate store other.submission).1 := by
    intro i entry progress hentry other hother
    rcases List.mem_or_eq_of_mem_set hother with hold | rfl
    · exact h.answer_eq other hold
    · exact h.answer_eq entry (List.mem_of_getElem? hentry)
  cases hstep with
  | search submission =>
    refine ⟨h.indexed, fun entry hentry ↦ ?_⟩
    rcases List.mem_append.mp hentry with hold | hnew
    · exact h.answer_eq entry hold
    · rw [List.mem_singleton.mp hnew]
      exact ⟨state.store, h.indexed, rfl⟩
  | write i entry hentry =>
    exact ⟨indexed_write hservice huuid5 h.indexed entry.point, hset .written hentry⟩
  | close i entry hentry => exact ⟨h.indexed, hset _ hentry⟩
  | review => exact ⟨h.indexed, h.answer_eq⟩

theorem searched_of_run (hservice : components.moderationEngine.threatIntelligence = some service)
    (huuid5 : Function.Injective service.uuid5) {actions : List Action}
    (hrun : run components.step (.initial V) actions = some state) :
    components.Searched service state :=
  run_invariant (fun h hstep ↦ (stepped hstep).searched hservice huuid5 h)
    ⟨ThreatIntelligenceService.Indexed.empty, fun _ hentry ↦ absurd hentry List.not_mem_nil⟩ hrun

/-! ## The answers -/

/-- A response to a request with a text has the answer of the text engine in it, which was asked
under the id of the request. -/
theorem exists_engineAnswer {submission : Submission} {counted : String × ModerationResponse}
    {text : String} (hasked : submission.asked = some text)
    (hresponse : (components.moderate store submission).1.response = some counted) :
    ∃ request generated answered store', request.text = text ∧
      idOr request.requestId generated.indexId = submission.assessedId ∧
      components.moderationEngine.Moderated components.unicode store request generated answered
        store' ∧
      answered.riskScore ≤ counted.2.riskScore ∧
      counted.2.decision = decisionFor counted.2.riskScore ∧
      answered.signals ⊆ counted.2.signals := by
  have hhandled := handled components store submission
  generalize components.moderate store submission = result at hhandled hresponse
  cases hhandled with
  | rejected _ answer hnone =>
    rw [hnone] at hresponse
    cases hresponse
  | text request generated response store' hmoderate =>
    cases hresponse
    have hmoderated := ModerationEngine.moderated hmoderate
    exact ⟨request, generated, response, store', Option.some_inj.mp hasked, rfl, hmoderated,
      le_refl _, hmoderated.decision_eq, List.Subset.refl _⟩
  | multimodal request generated validId adapter imageScores response store' hmoderate =>
    cases hresponse
    obtain ⟨decoded, textResult, hmoderated⟩ := MultimodalModerationEngine.moderated hmoderate
    obtain ⟨answered, rfl, hanswered, hid⟩ := exists_textAnswer validId hmoderated hasked
    refine ⟨_, _, answered, store', rfl, hid, ModerationEngine.moderated hanswered, ?_,
      hmoderated.decision_eq, fun signal hsignal ↦ ?_⟩
    · show _ ≤ response.riskScore
      rw [hmoderated.riskScore_eq]
      exact le_max_left _ _
    · have hfields : signal.fields ∈ response.signals.map ModerationSignal.fields := by
        rw [hmoderated.signals_eq]
        exact List.mem_append_left _ (List.mem_append_left _ (List.mem_map_of_mem hsignal))
      obtain ⟨same, hsame, heq⟩ := List.mem_map.mp hfields
      exact ModerationSignal.fields_injective heq ▸ hsame

/-- What a campaign of this size does to a response. -/
structure MeetsCampaign (service : ThreatIntelligenceService V) (size : ℕ)
    (response : ModerationResponse) : Prop where
  reported : 2 ≤ size → ReportsCampaign service response
  not_allowed : 2 ≤ size → response.decision ≠ .allow
  blocked : 5 ≤ size → response.decision = .block

theorem meetsCampaign {submission : Submission} {counted : String × ModerationResponse}
    {history : List (String × String)} {text : String}
    (hservice : components.moderationEngine.threatIntelligence = some service)
    (hlimit : 6 ≤ service.searchLimit) (hindexed : service.Indexed history store)
    (hasked : submission.asked = some text)
    (hresponse : (components.moderate store submission).1.response = some counted) :
    MeetsCampaign service (service.campaign history submission.assessedId text).card
      counted.2 := by
  obtain ⟨request, generated, answered, store', rfl, hid, hmoderated, hrisk, hdecision, hsignals⟩ :=
    exists_engineAnswer hasked hresponse
  have hscale := decisionFor_of_campaignRisk
    ((hmoderated.campaignRisk_le hservice hindexed hlimit).trans hrisk)
  rw [ModerationEngine.campaignSize, hid] at hscale
  refine ⟨fun htwo ↦ ?_, fun htwo ↦ hdecision ▸ hscale.1 htwo,
    fun hfive ↦ hdecision ▸ hscale.2 hfive⟩
  rw [← hid] at htwo
  obtain ⟨signal, hmem, hreports⟩ := hmoderated.reportsCampaign hservice hindexed hlimit htwo
  exact ⟨signal, hsignals hmem, hreports⟩

/-! ## Disguised texts -/

section Disguised

variable {service : ThreatIntelligenceService (List ℚ)} {u : Unicode}
  {encoder : HashedNgramEncoder} {blake2b : ByteArray → Vector UInt8 8}
  {sqrt : ℚ → ℚ} {text : String}

theorem encode_disguised (hencoder : service.encoder = encoder.textEncoder u blake2b sqrt)
    (hu : u.Plain isPlain) (hupper : ∀ c, isPlain c → u.upper c = [c.toUpper])
    (htext : ∀ c ∈ text.toList, isAscii c = true) {disguised : String}
    (h : Disguises u text disguised) :
    service.encoder.encode disguised = service.encoder.encode text := by
  obtain ⟨sequence, hsequence, rfl⟩ := h
  rw [hencoder]
  exact encoder.encode_congr u blake2b sqrt
    (normalizeText_attacks hu hupper hsequence fun c hc ↦ .inl (htext c hc))

/-- The other ids whose latest text is a disguise are in the campaign of each disguise. -/
theorem card_le_campaign (hencoder : service.encoder = encoder.textEncoder u blake2b sqrt)
    (hu : u.Plain isPlain) (hupper : ∀ c, isPlain c → u.upper c = [c.toUpper])
    (htext : ∀ c ∈ text.toList, isAscii c = true) (hself : service.SelfSimilar text)
    {history : List (String × String)} {requestId disguised : String}
    (hdisguised : Disguises u text disguised) {members : Finset String}
    (hmembers : ∀ other ∈ members, other ≠ requestId ∧
      ∃ otherText, latestText history other = some otherText ∧ Disguises u text otherText) :
    members.card ≤ (service.campaign history requestId disguised).card := by
  refine Finset.card_le_card fun other hother ↦ ?_
  obtain ⟨hne, otherText, hlatest, hsame⟩ := hmembers other hother
  refine ThreatIntelligenceService.mem_campaign.mpr ⟨hne, otherText, hlatest, ?_⟩
  rw [encode_disguised hencoder hu hupper htext hdisguised,
    encode_disguised hencoder hu hupper htext hsame]
  exact hself

end Disguised

theorem MeetsCampaign.mono {size size' : ℕ} {response : ModerationResponse}
    (h : MeetsCampaign service size' response) (hle : size ≤ size') :
    MeetsCampaign service size response where
  reported htwo := h.reported (htwo.trans hle)
  not_allowed htwo := h.not_allowed (htwo.trans hle)
  blocked hfive := h.blocked (hfive.trans hle)

/-- **A campaign is seen through its disguises.** However requests to the two endpoints overlap: if
the text of a request is a disguise of some text, and so are the latest texts that `members` other
ids had in the store when it searched, then its response reports the campaign and is no `ALLOW` from
two members on, and it is a `BLOCK` from five on. -/
theorem disguised_campaign_blocked (components : ModerationComponents (List ℚ))
    (service : ThreatIntelligenceService (List ℚ))
    (hservice : components.moderationEngine.threatIntelligence = some service)
    (huuid5 : Function.Injective service.uuid5) (hlimit : 6 ≤ service.searchLimit)
    (encoder : HashedNgramEncoder) (blake2b : ByteArray → Vector UInt8 8) (sqrt : ℚ → ℚ)
    (hencoder : service.encoder = encoder.textEncoder components.unicode blake2b sqrt)
    (hu : components.unicode.Plain isPlain)
    (hupper : ∀ c, isPlain c → components.unicode.upper c = [c.toUpper]) (actions : List Action)
    (state : State (List ℚ)) (hrun : run components.step (.initial (List ℚ)) actions = some state)
    (text : String) (htext : ∀ c ∈ text.toList, isAscii c = true)
    (hself : service.SelfSimilar text) (entry : Entry) (hentry : entry ∈ state.entries)
    (disguised : String) (hasked : entry.submission.asked = some disguised)
    (hdisguised : Disguises components.unicode text disguised)
    (counted : String × ModerationResponse) (hresponse : entry.answer.response = some counted)
    (members : Finset String)
    (hmembers : ∀ other ∈ members, other ≠ entry.submission.assessedId ∧
      ∃ otherText, latestText entry.seen other = some otherText ∧
        Disguises components.unicode text otherText) :
    MeetsCampaign service members.card counted.2 := by
  obtain ⟨store, hindexed, hanswer⟩ :=
    (searched_of_run hservice huuid5 hrun).answer_eq entry hentry
  rw [hanswer] at hresponse
  exact (meetsCampaign hservice hlimit hindexed hasked hresponse).mono
    (card_le_campaign hencoder hu hupper htext hself hdisguised hmembers)

/-! ## One text, three ids -/

/-- The digests of the three tokens of ` hi `. -/
def sampleBlake2b (token : ByteArray) : Vector UInt8 8 :=
  if token.data = " hi".toUTF8.data then #v[116, 0, 23, 93, 197, 188, 176, 107]
  else if token.data = "hi ".toUTF8.data then #v[191, 180, 129, 217, 96, 38, 22, 33]
  else #v[131, 103, 193, 107, 30, 214, 209, 74]

/-- Names of points, derived as they really are. -/
def sampleNames : List (String × String) :=
  [("sentinel:threat:campaign-1", "9e47c6ce-7b09-5bbd-93ef-6d13da01de1b"),
    ("sentinel:threat:campaign-2", "d0e04ad7-7945-5714-83fd-e4e8536ad0bf"),
    ("sentinel:threat:campaign-3", "f606e07f-cf03-5edd-b688-92ce83f01672")]

/-- A service with vectors of one entry. The vector of the text has length one before it is scaled,
so neither the norm nor the cosine takes a root. -/
def sampleService : ThreatIntelligenceService (List ℚ) where
  encoder := HashedNgramEncoder.textEncoder { dimension := 1 } Unicode.sample sampleBlake2b id
  similarity left right := (List.zipWith (· * ·) left right).sum
  uuid5 := (ThreatIntelligenceService.sample sampleNames).uuid5

def sample : ModerationComponents (List ℚ) where
  moderationEngine := .default none (some sampleService)
  imageSafetyModel := none
  unicode := Unicode.sample
  b64decode _ := none
  review := ReviewComponents.sample

def sampleSubmission (text requestId : String) : Submission :=
  .text ⟨text, some requestId⟩ ModerationEngine.sampleGenerated

def sampleActions : List Action :=
  [.search (sampleSubmission "h.i" "campaign-1"), .search (sampleSubmission "HI" "campaign-2"),
    .write 1, .write 0]

theorem sample_inRange : sample.InRange where
  severity_mem _ _ hrule := severity_mem_of_defaultRules (RuleEngine.mem_of_evaluate hrule)
  modelScore_le _ := zero_le_one
  scores_mem := by
    rintro adapter ⟨⟩
  isValidation := by
    rintro adapter ⟨⟩

theorem disguises_of_attack {u : Unicode} {attack : String → String}
    (hattack : attack ∈ undoneAttacks u) {text disguised : String} (h : attack text = disguised) :
    Disguises u text disguised :=
  ⟨[attack], fun _ hother ↦ List.mem_singleton.mp hother ▸ hattack, h.symm⟩

theorem sample_disguises : Disguises Unicode.sample "hi" "h.i" ∧
    Disguises Unicode.sample "hi" "HI" ∧ Disguises Unicode.sample "hi" "h1" :=
  ⟨disguises_of_attack (by simp [undoneAttacks] : Attack.punctuationInjection ∈ _)
      (by decide +kernel),
    disguises_of_attack (by simp [undoneAttacks] : Attack.uppercase Unicode.sample ∈ _)
      (by decide +kernel),
    disguises_of_attack (by simp [undoneAttacks] : Attack.leetspeak ∈ _) (by decide +kernel)⟩

theorem sample_selfSimilar : sampleService.SelfSimilar "hi" := by
  rw [ThreatIntelligenceService.SelfSimilar]
  decide +kernel

/-- A third disguise, once the two have been written. -/
theorem disguised_campaign_blocked_sample : ∃ state,
    run sample.step (.initial (List ℚ))
      (sampleActions ++ [.search (sampleSubmission "h1" "campaign-3")]) = some state ∧
    ∃ entry ∈ state.entries, entry.submission = sampleSubmission "h1" "campaign-3" ∧
      ∃ counted, entry.answer.response = some counted ∧ counted.2.decision ≠ .allow := by
  obtain ⟨before, hbefore⟩ :
      ∃ before, run sample.step (.initial (List ℚ)) sampleActions = some before := ⟨_, rfl⟩
  have hhistory : before.history = [("campaign-2", "HI"), ("campaign-1", "h.i")] := by
    have hmap : (run sample.step (.initial (List ℚ)) sampleActions).map State.history
        = some [("campaign-2", "HI"), ("campaign-1", "h.i")] := by
      decide +kernel
    rw [hbefore] at hmap
    exact Option.some_inj.mp hmap
  obtain ⟨response, hresponse⟩ := sample_inRange.exists_moderateText before.store
    ⟨"h1", some "campaign-3"⟩ ModerationEngine.sampleGenerated
  obtain ⟨entry, hsubmission, hseen, hanswer, hstep⟩ : ∃ entry : Entry,
      entry.submission = sampleSubmission "h1" "campaign-3" ∧ entry.seen = before.history ∧
      entry.answer = .text response ∧
      sample.step before (.search (sampleSubmission "h1" "campaign-3"))
        = some { before with entries := before.entries ++ [entry] } :=
    ⟨⟨_, _, _, .searched⟩, rfl, rfl, hresponse, rfl⟩
  have hrun := run_concat_eq_some.mpr ⟨before, hbefore, hstep⟩
  have hmem : entry ∈ before.entries ++ [entry] := List.mem_append_right _ List.mem_cons_self
  have hanswered : entry.answer.response = some ("synchronous", response) := by
    rw [hanswer]
    rfl
  have hasked : entry.submission.asked = some "h1" := by
    rw [hsubmission]
    rfl
  suffices hallowed : response.decision ≠ .allow from
    ⟨{ before with entries := before.entries ++ [entry] }, hrun, entry, hmem, hsubmission,
      ("synchronous", response), hanswered, hallowed⟩
  have huuid5 : Function.Injective sampleService.uuid5 :=
    ThreatIntelligenceService.sample_injective sampleNames
  have htext : ∀ c ∈ "hi".toList, isAscii c = true := List.all_eq_true.mp (by decide)
  refine (disguised_campaign_blocked sample sampleService rfl huuid5 (by decide)
    { dimension := 1 } sampleBlake2b id rfl (Unicode.sample_plain isPlain) (fun _ _ ↦ rfl) _ _ hrun
    "hi" htext sample_selfSimilar entry hmem "h1" hasked sample_disguises.2.2 _ hanswered
    {"campaign-1", "campaign-2"} ?_).not_allowed (by decide)
  intro other hother
  rw [hseen, hhistory, hsubmission]
  rcases Finset.mem_insert.mp hother with rfl | hother
  · exact ⟨by decide, "h.i", rfl, sample_disguises.1⟩
  · rw [Finset.mem_singleton.mp hother]
    exact ⟨by decide, "HI", rfl, sample_disguises.2.1⟩

end ModerationComponents

end Sentinel
