import Mathlib.Algebra.BigOperators.Group.List.Basic
import Mathlib.Algebra.Group.End
import Mathlib.Data.Finset.Card
import Mathlib.Logic.Equiv.Basic
import Sentinel.Collections.Counting
import Sentinel.ThreatIntelligence.Service

/-!
# The campaign verdict

The service sees at most `searchLimit` matches, and one of them may be the point of an earlier call
with the same id. What it is meant to report is a count over its history: the other requests whose
latest text is similar. The two need not be equal, but the risk scale is flat from five matches on,
and a search that is cut off still shows five others.

`Indexed` says what the store holds after a history, and is kept by every call; the search is then
counted over the ids of the history instead of the points of the store.
-/

namespace Sentinel

open Collections

/-- The text of the last call with the id. -/
def latestText (history : List (String × String)) (requestId : String) : Option String :=
  (history.reverse.find? fun call ↦ call.1 = requestId).map Prod.snd

theorem latestText_append (history : List (String × String)) (call : String × String)
    (requestId : String) : latestText (history ++ [call]) requestId
      = if call.1 = requestId then some call.2 else latestText history requestId := by
  rw [latestText, latestText, List.reverse_append, List.reverse_singleton, List.singleton_append,
    List.find?_cons]
  by_cases h : call.1 = requestId
  · simp [h]
  · simp [h]

theorem latestText_filter (history : List (String × String)) {requestId other : String}
    (h : other ≠ requestId) :
    latestText (history.filter fun call ↦ call.1 ≠ requestId) other = latestText history other := by
  induction history using List.reverseRecOn with
  | nil => rfl
  | append_singleton history call ih =>
    rw [List.filter_append, latestText_append]
    by_cases hcall : call.1 = requestId
    · have hne : ¬call.1 = other := fun heq ↦ h (heq ▸ hcall)
      rw [List.filter_cons_of_neg (by simpa using hcall), List.filter_nil, List.append_nil, ih,
        if_neg hne]
    · rw [List.filter_cons_of_pos (by simpa using hcall), List.filter_nil, latestText_append, ih]

theorem mem_of_latestText {history : List (String × String)} {requestId text : String}
    (h : latestText history requestId = some text) : requestId ∈ history.map Prod.fst := by
  obtain ⟨call, hfind, rfl⟩ := Option.map_eq_some_iff.mp h
  have hid : call.1 = requestId := by simpa using List.find?_some hfind
  exact List.mem_map.mpr ⟨call, List.mem_reverse.mp (List.mem_of_find?_eq_some hfind), hid⟩

namespace ThreatIntelligenceService

variable {V : Type*} (service : ThreatIntelligenceService V)

/-- The store after a sequence of calls, from an empty one on. -/
def run (history : List (String × String)) : ThreatVectorStore V :=
  history.foldl (fun store call ↦ (service.assessAndIndex store call.1 call.2).2)
    ThreatVectorStore.empty

theorem run_append (history : List (String × String)) (requestId text : String) :
    service.run (history ++ [(requestId, text)])
      = (service.assessAndIndex (service.run history) requestId text).2 := by
  rw [run, List.foldl_append, List.foldl_cons, List.foldl_nil, ← run]

/-- The latest text of the request is similar to `text`. -/
def Similar (history : List (String × String)) (text other : String) : Prop :=
  ∃ otherText, latestText history other = some otherText ∧
    service.similarityThreshold
      ≤ service.similarity (service.encoder.encode text) (service.encoder.encode otherText)

instance (history : List (String × String)) (text other : String) :
    Decidable (service.Similar history text other) :=
  match h : latestText history other with
  | none => isFalse (by rintro ⟨otherText, hlatest, -⟩; rw [h] at hlatest; cases hlatest)
  | some otherText => decidable_of_iff
      (service.similarityThreshold
        ≤ service.similarity (service.encoder.encode text) (service.encoder.encode otherText))
      ⟨fun hle ↦ ⟨otherText, h, hle⟩, fun ⟨_, hlatest, hle⟩ ↦ by
        rw [h] at hlatest
        obtain rfl := Option.some_inj.mp hlatest
        exact hle⟩

/-- The other requests of the history that are similar. -/
def campaign (history : List (String × String)) (requestId text : String) : Finset String :=
  ((history.map Prod.fst).toFinset.erase requestId).filter (service.Similar history text)

variable {service}

theorem mem_campaign {history : List (String × String)} {requestId text other : String} :
    other ∈ service.campaign history requestId text
      ↔ other ≠ requestId ∧ service.Similar history text other := by
  rw [campaign, Finset.mem_filter, Finset.mem_erase, List.mem_toFinset]
  constructor
  · rintro ⟨⟨hne, -⟩, hsimilar⟩
    exact ⟨hne, hsimilar⟩
  · rintro ⟨hne, hsimilar⟩
    obtain ⟨otherText, hlatest, -⟩ := id hsimilar
    exact ⟨⟨hne, mem_of_latestText hlatest⟩, hsimilar⟩

variable (service)

/-! ## What the store holds -/

/-- The store holds the latest vector of each request, under the name derived from its id. -/
def Indexed (history : List (String × String)) (store : ThreatVectorStore V) : Prop :=
  ∀ pointId vector requestId, store.points.get pointId = some (vector, requestId) ↔
    pointId = service.pointId requestId ∧
      ∃ text, latestText history requestId = some text ∧ vector = service.encoder.encode text

variable {service}

theorem pointId_injective (huuid5 : Function.Injective service.uuid5) :
    Function.Injective service.pointId := by
  intro requestId requestId' h
  have happend := congrArg String.toList (huuid5 h)
  rw [String.toList_append, String.toList_append] at happend
  exact String.toList_inj.mp (List.append_cancel_left happend)

theorem Indexed.empty : service.Indexed [] ThreatVectorStore.empty := by
  intro pointId vector requestId
  constructor
  · intro h
    cases h
  · rintro ⟨-, text, h, -⟩
    cases h

theorem Indexed.upsert (huuid5 : Function.Injective service.uuid5)
    {history : List (String × String)} {store : ThreatVectorStore V}
    (h : service.Indexed history store) (requestId text : String) :
    service.Indexed (history ++ [(requestId, text)])
      (store.upsert (service.pointId requestId) (service.encoder.encode text) requestId) := by
  intro pointId vector other
  rw [ThreatVectorStore.upsert, Dict.get_set, latestText_append]
  by_cases hid : requestId = other
  · subst hid
    simp only [if_true, Option.some_inj, exists_eq_left']
    by_cases hpoint : pointId = service.pointId requestId
    · simp only [hpoint, if_true, Option.some_inj, Prod.mk.injEq, and_true, true_and, eq_comm]
    · rw [if_neg hpoint, h]
      simp only [hpoint, false_and]
  · rw [if_neg hid]
    by_cases hpoint : pointId = service.pointId requestId
    · -- The point that is replaced is no other request's.
      subst hpoint
      have hne : service.pointId requestId ≠ service.pointId other := fun heq ↦
        hid (pointId_injective huuid5 heq)
      simp [hid, hne]
    · rw [if_neg hpoint, h]

theorem indexed_run (huuid5 : Function.Injective service.uuid5)
    (history : List (String × String)) : service.Indexed history (service.run history) := by
  induction history using List.reverseRecOn with
  | nil => exact Indexed.empty
  | append_singleton history call ih =>
    rw [run_append]
    exact ih.upsert huuid5 call.1 call.2

/-! ## The matches, counted over the history -/

theorem map_similar (similarity : V → V → ℚ) (store : ThreatVectorStore V) (vector : V)
    (scoreThreshold : ℚ) :
    (store.similar similarity vector scoreThreshold).map (·.requestId)
      = (store.points.values.filter fun point ↦ scoreThreshold ≤ similarity vector point.1).map
        Prod.snd := by
  rw [ThreatVectorStore.similar]
  induction store.points.values with
  | nil => rfl
  | cons point points ih =>
    by_cases h : scoreThreshold ≤ similarity vector point.1
    · rw [List.filterMap_cons, List.filter_cons_of_pos (by simpa using h), List.map_cons, ← ih]
      simp only [if_pos h, List.map_cons]
    · rw [List.filterMap_cons, List.filter_cons_of_neg (by simpa using h), ← ih]
      simp only [if_neg h]

namespace Indexed

variable {history : List (String × String)} {store : ThreatVectorStore V}

theorem nodup (h : service.Indexed history store) :
    (store.points.values.map Prod.snd).Nodup := by
  -- The keys are derived from the ids, and no key occurs twice.
  have hkeys : store.points.items.map Prod.fst
      = (store.points.values.map Prod.snd).map service.pointId := by
    rw [Dict.values, List.map_map, List.map_map]
    apply List.map_congr_left
    rintro ⟨pointId, vector, requestId⟩ hitem
    exact ((h pointId vector requestId).mp (Dict.get_eq_some.mpr hitem)).1
  exact List.Nodup.of_map service.pointId (hkeys ▸ store.points.nodup)

theorem nodup_similar (h : service.Indexed history store) (vector : V) :
    ((store.similar service.similarity vector service.similarityThreshold).map
      (·.requestId)).Nodup := by
  rw [map_similar]
  exact h.nodup.sublist (List.filter_sublist.map Prod.snd)

theorem mem_similar (h : service.Indexed history store) {text other : String} :
    other ∈ (store.similar service.similarity (service.encoder.encode text)
        service.similarityThreshold).map (·.requestId)
      ↔ service.Similar history text other := by
  rw [map_similar, List.mem_map]
  constructor
  · rintro ⟨⟨vector, requestId⟩, hmem, rfl⟩
    obtain ⟨hvalue, hle⟩ := List.mem_filter.mp hmem
    obtain ⟨pointId, hget⟩ := Dict.mem_values.mp hvalue
    obtain ⟨-, otherText, hlatest, rfl⟩ := (h pointId vector requestId).mp hget
    exact ⟨otherText, hlatest, of_decide_eq_true hle⟩
  · rintro ⟨otherText, hlatest, hle⟩
    refine ⟨(service.encoder.encode otherText, other), List.mem_filter.mpr ⟨?_, ?_⟩, rfl⟩
    · exact Dict.mem_values.mpr
        ⟨service.pointId other, (h _ _ _).mpr ⟨rfl, otherText, hlatest, rfl⟩⟩
    · exact decide_eq_true hle

/-- Without a cut the matches of the others are counted exactly. -/
theorem countP_similar (h : service.Indexed history store) (requestId text : String) :
    (store.similar service.similarity (service.encoder.encode text)
        service.similarityThreshold).countP (fun found ↦ found.requestId ≠ requestId)
      = (service.campaign history requestId text).card := by
  set found := store.similar service.similarity (service.encoder.encode text)
    service.similarityThreshold with hfound
  have hcount : found.countP (fun found ↦ found.requestId ≠ requestId)
      = ((found.map (·.requestId)).filter fun other ↦ other ≠ requestId).length := by
    rw [← List.countP_eq_length_filter, List.countP_map]
    rfl
  have hfinset : ((found.map (·.requestId)).filter fun other ↦ other ≠ requestId).toFinset
      = service.campaign history requestId text := by
    ext other
    rw [List.mem_toFinset, List.mem_filter, hfound, h.mem_similar, mem_campaign, and_comm,
      decide_eq_true_eq]
  rw [hcount, ← hfinset, List.toFinset_card_of_nodup ((h.nodup_similar _).filter _)]

/-- With the cut they are counted exactly, or there are at least five on either side of it. -/
theorem matchCount (h : service.Indexed history store) (hlimit : 6 ≤ service.searchLimit)
    (requestId text : String) :
    (service.assessAndIndex store requestId text).1.matchCount
        = (service.campaign history requestId text).card ∨
      5 ≤ (service.assessAndIndex store requestId text).1.matchCount ∧
        5 ≤ (service.campaign history requestId text).card := by
  set found := store.similar service.similarity (service.encoder.encode text)
    service.similarityThreshold with hfound
  set sorted := found.mergeSort fun first second ↦ second.score ≤ first.score with hsorted
  have hperm : sorted.Perm found := List.mergeSort_perm _ _
  have hcount : (service.assessAndIndex store requestId text).1.matchCount
      = (sorted.take service.searchLimit).countP fun found ↦ found.requestId ≠ requestId := by
    rw [List.countP_eq_length_filter]
    rfl
  have hcampaign : sorted.countP (fun found ↦ found.requestId ≠ requestId)
      = (service.campaign history requestId text).card := by
    rw [hperm.countP_eq, hfound, h.countP_similar]
  have hown : sorted.countP (fun found ↦ !decide (found.requestId ≠ requestId)) ≤ 1 := by
    rw [hperm.countP_eq]
    have hle := List.nodup_iff_count_le_one.mp (h.nodup_similar (service.encoder.encode text))
      requestId
    rw [List.count, List.countP_map] at hle
    refine le_trans (le_of_eq (List.countP_congr fun found _ ↦ ?_)) hle
    simp
  -- At most one of the matches is the call's own, so a full page shows at least five others.
  rcases countP_take _ hown service.searchLimit with hall | ⟨hmany, hle⟩
  · exact .inl (by rw [hcount, hall, hcampaign])
  · rw [hcampaign] at hle
    rw [hcount]
    omega

end Indexed

theorem campaignRisk_eq_of {m n : ℕ} (h : m = n ∨ 5 ≤ m ∧ 5 ≤ n) :
    campaignRisk m = campaignRisk n := by
  rcases h with rfl | ⟨hm, hn⟩
  · rfl
  · rw [campaignRisk, if_pos hm, campaignRisk, if_pos hn]

theorem campaignRisk_eq (n : ℕ) : campaignRisk n
    = if n < 2 then 0 else if n ≤ 4 then 11 / 20 + 1 / 20 * (n : ℚ) else 9 / 10 := by
  rw [campaignRisk]
  rcases Nat.lt_or_ge n 2 with hlow | hlow
  · rw [if_neg (by omega), if_neg (by omega), if_pos hlow]
  · rw [if_neg (Nat.not_lt_of_le hlow), if_pos hlow]
    rcases Nat.lt_or_ge n 5 with hhigh | hhigh
    · have hcast : (n : ℚ) ≤ 4 := by exact_mod_cast Nat.le_of_lt_succ hhigh
      rw [if_neg (Nat.not_le_of_lt hhigh), if_pos (Nat.le_of_lt_succ hhigh)]
      exact min_eq_right (by linarith)
    · rw [if_pos hhigh, if_neg (by omega)]

/-- The own calls of a request are no part of its campaign. -/
theorem campaign_filter (service : ThreatIntelligenceService V)
    (history : List (String × String)) (requestId text : String) :
    service.campaign (history.filter fun call ↦ call.1 ≠ requestId) requestId text
      = service.campaign history requestId text := by
  ext other
  rw [mem_campaign, mem_campaign]
  refine and_congr_right fun hne ↦ ?_
  rw [Similar, Similar, latestText_filter history hne]

/-- **The cut search gives the exact verdict** on every call of every sequence of calls: that of the
other requests whose latest text is similar. -/
theorem campaign_verdict (service : ThreatIntelligenceService V)
    (huuid5 : Function.Injective service.uuid5) (hlimit : 6 ≤ service.searchLimit)
    (history : List (String × String)) (requestId text : String) :
    let assessment := (service.assessAndIndex (service.run history) requestId text).1
    let count := (service.campaign history requestId text).card
    assessment.coordinated = decide (2 ≤ count) ∧
      assessment.riskScore
        = (if count < 2 then 0 else if count ≤ 4 then 11 / 20 + 1 / 20 * (count : ℚ) else 9 / 10) ∧
      service.campaign (history.filter fun call ↦ call.1 ≠ requestId) requestId text
        = service.campaign history requestId text := by
  intro assessment count
  have hcount : assessment.matchCount = count ∨ 5 ≤ assessment.matchCount ∧ 5 ≤ count :=
    (indexed_run huuid5 history).matchCount hlimit requestId text
  refine ⟨?_, ?_, campaign_filter service history requestId text⟩
  · rw [ThreatAssessment.coordinated, decide_eq_decide]
    omega
  · rw [← campaignRisk_eq, ← campaignRisk_eq_of hcount]
    rfl

/-- A service that takes a text for its own vector. The listed names are derived as they are here,
all others in the simplest way that has no collision. -/
def sample (derived : List (String × String)) : ThreatIntelligenceService String where
  encoder := ⟨"hashed-char-ngram-v1", id⟩
  similarity left right := if left = right then 1 else 0
  uuid5 := ((derived.map fun (name, id) ↦ Equiv.swap name id).prod : Equiv.Perm String)

theorem sample_injective (derived : List (String × String)) :
    Function.Injective (sample derived).uuid5 := Equiv.injective _

/-- The third request with one text is reported, and a replay does not change that. -/
theorem campaign_verdict_sample :
    let service := sample
      [("sentinel:threat:campaign-1", "9e47c6ce-7b09-5bbd-93ef-6d13da01de1b"),
        ("sentinel:threat:campaign-2", "d0e04ad7-7945-5714-83fd-e4e8536ad0bf"),
        ("sentinel:threat:campaign-3", "f606e07f-cf03-5edd-b688-92ce83f01672")]
    let history := [("campaign-1", "Limited offer"), ("campaign-2", "Limited offer"),
      ("campaign-3", "Limited offer")]
    let assessment :=
      (service.assessAndIndex (service.run history) "campaign-3" "Limited offer").1
    assessment.coordinated = true ∧ assessment.riskScore = 13 / 20 := by
  intro service history assessment
  have hcount : (service.campaign history "campaign-3" "Limited offer").card = 2 := by
    decide +kernel
  have hverdict := campaign_verdict service (sample_injective _) (by decide) history "campaign-3"
    "Limited offer"
  simp only [hcount] at hverdict
  exact ⟨hverdict.1, hverdict.2.1.trans (by norm_num)⟩

end ThreatIntelligenceService

end Sentinel
