import Sentinel.Api.Authenticity
import Sentinel.Multimodal.Boundary
import Sentinel.Multimodal.NoTrace

/-!
# The moderation endpoints

`moderate_text` and `moderate_multimodal`, from the request to the review queue. Both engines go to
one threat store, and an image is moderated in a thread of its own. So other requests may take their
turn between the parts of a request: the search in the threat store, which decides about the answer;
the write of the point; and the end of the handler, where the answer is counted and goes to the
review queue. Each part is an action of a transition system, in which the review endpoints take part
as well.

`history` lists the points that have been written to the threat store, and `seen` those that had
been written when a request searched. That the store is made of them is an invariant of its own. An
engine without threat intelligence writes none.

The last part may raise, where the ledger of the reviews cannot be appended to. The response has
been counted by then, and its point has been written.
-/

namespace Sentinel

open Collections Transition

/-! ## The errors of the image boundary -/

/-- The exception is an `ImageValidationError`. -/
def ImageError.isValidation : ImageError → Bool
  | .invalidImage _ | .unsupportedImage _ | .imageTooLarge _ => true
  | .indexError | .structError => false

/-- An `ImageSafetyModel` whose `predict_scores` may raise, as those of the adapters do. -/
structure ImageSafetyAdapter where
  version : String
  predictScores : ValidatedImage → Except ImageError (Dict SafetyCategory ℚ)

/-- What the handlers find in `app.state` and in the libraries. -/
structure ModerationComponents (V : Type*) where
  moderationEngine : ModerationEngine V
  imageSafetyModel : Option ImageSafetyAdapter
  unicode : Unicode
  b64decode : String → Option (List UInt8)
  review : ReviewComponents

/-- A request to one of the two endpoints, with what the engine will take from its surroundings. A
`uuid4` is an id. -/
inductive Submission
  | text (request : ModerationRequest) (generated : Generated)
  | multimodal (request : MultimodalModerationRequest) (generated : FusionGenerated)
      (validId : ValidId generated.requestId)

/-- How a request ends. -/
inductive SubmissionAnswer
  | text (response : ModerationResponse)
  | multimodal (response : MultimodalModerationResponse)
  /-- `HTTPException`. -/
  | httpError (statusCode : ℕ) (detail : String)
  /-- Another exception. -/
  | raised (error : MultimodalError)
deriving DecidableEq

/-- What `moderate_multimodal` makes of an exception of the engine. -/
def SubmissionAnswer.ofError : MultimodalError → SubmissionAnswer
  | .image (.imageTooLarge message) => .httpError 413 message
  | .image (.unsupportedImage message) => .httpError 415 message
  | .image (.invalidImage message) => .httpError 422 message
  | error => .raised error

/-- The path that a response is counted under, and the response. -/
def SubmissionAnswer.response : SubmissionAnswer → Option (String × ModerationResponse)
  | .text response => some ("synchronous", response)
  | .multimodal response => some ("multimodal", response.toModerationResponse)
  | _ => none

/-- The id and the text of the point that an answered request writes, if it has a text. -/
def Submission.point : Submission → SubmissionAnswer → Option (String × String)
  | .text request generated, .text _ =>
    some (idOr request.requestId generated.indexId, request.text)
  | .multimodal request .., .multimodal response =>
    request.text.map fun text ↦ (response.requestId, text)
  | _, _ => none

namespace ModerationComponents

variable {V : Type*} (components : ModerationComponents V)

/-- `moderate_text`, up to the response. -/
def moderateText (store : ThreatVectorStore V) (request : ModerationRequest)
    (generated : Generated) : SubmissionAnswer × ThreatVectorStore V :=
  match components.moderationEngine.moderate components.unicode store request generated with
  | (.error error, store) => (.raised (.validation error), store)
  | (.ok response, store) => (.text response, store)

/-- The engine that `moderate_multimodal` builds, for an image with these scores. -/
def fusionEngine (adapter : ImageSafetyAdapter) (imageScores : Dict SafetyCategory ℚ) :
    MultimodalModerationEngine V :=
  ⟨components.moderationEngine, ⟨adapter.version, fun _ ↦ imageScores⟩⟩

/-- `moderate_multimodal`, up to the response. The adapter is asked after the image is decoded. -/
def moderateMultimodal (store : ThreatVectorStore V) (request : MultimodalModerationRequest)
    (generated : FusionGenerated) : SubmissionAnswer × ThreatVectorStore V :=
  match components.imageSafetyModel with
  | none => (.httpError 503 "image moderation is not enabled", store)
  | some adapter =>
    match decodeImage components.b64decode request.imageBase64 request.mediaType with
    | .error error => (.ofError (.image error), store)
    | .ok decoded =>
      match adapter.predictScores decoded with
      | .error error => (.ofError (.image error), store)
      | .ok imageScores =>
        match (components.fusionEngine adapter imageScores).moderate components.unicode
          components.b64decode store request generated with
        | (.error error, store) => (.ofError error, store)
        | (.ok response, store) => (.multimodal response, store)

def moderate (store : ThreatVectorStore V) : Submission → SubmissionAnswer × ThreatVectorStore V
  | .text request generated => components.moderateText store request generated
  | .multimodal request generated _ => components.moderateMultimodal store request generated

/-- The write in `assess_and_index`, if there is threat intelligence and a point to write. -/
def write (store : ThreatVectorStore V) : Option (String × String) → ThreatVectorStore V
  | none => store
  | some (requestId, text) =>
    match components.moderationEngine.threatIntelligence with
    | none => store
    | some service =>
      store.upsert (service.pointId requestId) (service.encoder.encode text) requestId

/-- The points that are written, one or none. -/
def points (point : Option (String × String)) : List (String × String) :=
  if components.moderationEngine.threatIntelligence.isSome then point.toList else []

/-- The store after the writes of these points, one after the other. -/
def storeOf (history : List (String × String)) : ThreatVectorStore V :=
  history.foldl (fun store point ↦ components.write store (some point)) ThreatVectorStore.empty

/-! ## The transition system -/

inductive Progress
  | searched
  | written
  /-- The handler is done. It has raised the error, if there is one. -/
  | closed (append : Append) (error : Option ServiceError)
deriving DecidableEq

def Progress.isClosed : Progress → Bool
  | .searched | .written => false
  | .closed .. => true

/-- A request on its way. The answer is settled by what the search has found. -/
structure Entry where
  submission : Submission
  seen : List (String × String)
  answer : SubmissionAnswer
  progress : Progress

def Entry.point (entry : Entry) : Option (String × String) := entry.submission.point entry.answer

/-- What the handlers change. -/
structure State (V : Type*) where
  store : ThreatVectorStore V
  api : ReviewApi
  entries : List Entry
  history : List (String × String)

/-- The service as it starts, over the repository that it has replayed from its ledger. -/
def State.starting (V : Type*) (repository : InMemoryReviewRepository) : State V :=
  ⟨ThreatVectorStore.empty, .starting repository, [], []⟩

/-- The service as it starts without a ledger. -/
def State.initial (V : Type*) : State V := .starting V InMemoryReviewRepository.empty

/-- A part of a request, or a request to the review endpoints. -/
inductive Action
  /-- A new request, up to its search. -/
  | search (submission : Submission)
  /-- The write of the request. -/
  | write (i : ℕ)
  /-- The rest of the handler. -/
  | close (i : ℕ) (createdAt updatedAt : DateTime) (stamp : Stamp) (append : Append)
  | review (request : ReviewRequest)

def isReview : ReviewRequest → Bool
  | .moderated .. => false
  | _ => true

/-- The end of a handler: a response is counted and goes to the review queue, which may raise. -/
def finish (api : ReviewApi) (answer : SubmissionAnswer) (createdAt updatedAt : DateTime)
    (stamp : Stamp) (append : Append) : ReviewApi × Option ServiceError :=
  match answer.response with
  | none => (api, none)
  | some (path, response) =>
    match components.review.handle api
        (.moderated path response createdAt updatedAt stamp append) with
    | (api, .raised error) => (api, some error)
    | (api, _) => (api, none)

def step (state : State V) : Action → Option (State V)
  | .search submission =>
    some { state with
      entries := state.entries ++
        [⟨submission, state.history, (components.moderate state.store submission).1, .searched⟩] }
  | .write i =>
    match state.entries[i]? with
    | none => none
    | some entry =>
      if entry.progress = .searched then
        some { state with
          store := components.write state.store entry.point
          entries := state.entries.set i { entry with progress := .written }
          history := state.history ++ components.points entry.point }
      else none
  | .close i createdAt updatedAt stamp append =>
    match state.entries[i]? with
    | none => none
    | some entry =>
      if entry.progress = .written then
        let finished := components.finish state.api entry.answer createdAt updatedAt stamp append
        some { state with
          api := finished.1
          entries := state.entries.set i { entry with progress := .closed append finished.2 } }
      else none
  | .review request =>
    if isReview request then
      some { state with api := (components.review.handle state.api request).1 }
    else none

/-! ## What a step does -/

variable {components} {state state' : State V} {store : ThreatVectorStore V}
  {submission : Submission} {answer : SubmissionAnswer} {adapter : ImageSafetyAdapter}

inductive Stepped (components : ModerationComponents V) (state : State V) : State V → Prop
  | search (submission : Submission) :
      Stepped components state { state with
        entries := state.entries ++ [⟨submission, state.history,
          (components.moderate state.store submission).1, .searched⟩] }
  | write (i : ℕ) (entry : Entry) (hentry : state.entries[i]? = some entry)
      (hsearched : entry.progress = .searched) :
      Stepped components state { state with
        store := components.write state.store entry.point
        entries := state.entries.set i { entry with progress := .written }
        history := state.history ++ components.points entry.point }
  | close (i : ℕ) (entry : Entry) (hentry : state.entries[i]? = some entry)
      (hwritten : entry.progress = .written) (createdAt updatedAt : DateTime) (stamp : Stamp)
      (append : Append) (api : ReviewApi) (error : Option ServiceError)
      (hfinish : components.finish state.api entry.answer createdAt updatedAt stamp append
        = (api, error)) :
      Stepped components state { state with
        api := api
        entries := state.entries.set i { entry with progress := .closed append error } }
  | review (request : ReviewRequest) (hreview : isReview request = true) :
      Stepped components state { state with
        api := (components.review.handle state.api request).1 }

theorem stepped {action : Action} (h : components.step state action = some state') :
    components.Stepped state state' := by
  cases action with
  | search submission =>
    cases h
    exact .search submission
  | write i =>
    rw [step] at h
    cases hentry : state.entries[i]? with
    | none =>
      rw [hentry] at h
      cases h
    | some entry =>
      simp only [hentry] at h
      split_ifs at h with hsearched
      cases h
      exact .write i entry hentry hsearched
  | close i createdAt updatedAt stamp append =>
    rw [step] at h
    cases hentry : state.entries[i]? with
    | none =>
      rw [hentry] at h
      cases h
    | some entry =>
      simp only [hentry] at h
      split_ifs at h with hwritten
      cases h
      exact .close i entry hentry hwritten createdAt updatedAt stamp append _ _ rfl
  | review request =>
    rw [step] at h
    split_ifs at h with hreview
    cases h
    exact .review request hreview

/-! ## What a handler does -/

/-- What a handler answers and leaves in the store, by the engine that it went to. -/
inductive Handled (components : ModerationComponents V) (store : ThreatVectorStore V) :
    Submission → SubmissionAnswer × ThreatVectorStore V → Prop
  /-- There is no response, and nothing is written. -/
  | rejected (submission : Submission) (answer : SubmissionAnswer)
      (hnone : answer.response = none) : Handled components store submission (answer, store)
  /-- The text engine answers. -/
  | text (request : ModerationRequest) (generated : Generated) (response : ModerationResponse)
      (store' : ThreatVectorStore V)
      (hmoderate : components.moderationEngine.moderate components.unicode store request generated
        = (.ok response, store')) :
      Handled components store (.text request generated) (.text response, store')
  /-- The fusion answers, over scores of the adapter. -/
  | multimodal (request : MultimodalModerationRequest) (generated : FusionGenerated)
      (validId : ValidId generated.requestId) (adapter : ImageSafetyAdapter)
      (imageScores : Dict SafetyCategory ℚ) (response : MultimodalModerationResponse)
      (store' : ThreatVectorStore V)
      (hmoderate : (components.fusionEngine adapter imageScores).moderate components.unicode
        components.b64decode store request generated = (.ok response, store')) :
      Handled components store (.multimodal request generated validId)
        (.multimodal response, store')

@[simp] theorem response_ofError (error : MultimodalError) :
    (SubmissionAnswer.ofError error).response = none := by
  rcases error with (_ | _ | _ | _ | _) | _ | _ | _ <;> rfl

theorem handled_multimodal (store : ThreatVectorStore V) (request : MultimodalModerationRequest)
    (generated : FusionGenerated) (validId : ValidId generated.requestId) :
    Handled components store (.multimodal request generated validId)
      (components.moderateMultimodal store request generated) := by
  rw [moderateMultimodal]
  cases components.imageSafetyModel with
  | none => exact .rejected _ _ rfl
  | some adapter =>
    cases decodeImage components.b64decode request.imageBase64 request.mediaType with
    | error error => exact .rejected _ _ (response_ofError _)
    | ok decoded =>
      cases hscores : adapter.predictScores decoded with
      | error error =>
        simp only [hscores]
        exact .rejected _ _ (response_ofError _)
      | ok imageScores =>
        rcases hmoderate : (components.fusionEngine adapter imageScores).moderate
          components.unicode components.b64decode store request generated with ⟨answered, store'⟩
        simp only [hscores, hmoderate]
        cases answered with
        | error error =>
          obtain rfl := MultimodalModerationEngine.store_eq_of_error hmoderate
          exact .rejected _ _ (response_ofError _)
        | ok response => exact .multimodal _ _ _ adapter imageScores response store' hmoderate

theorem handled (components : ModerationComponents V) (store : ThreatVectorStore V)
    (submission : Submission) :
    Handled components store submission (components.moderate store submission) := by
  cases submission with
  | multimodal request generated validId =>
    rw [moderate]
    exact handled_multimodal store request generated validId
  | text request generated =>
    rw [moderate, moderateText]
    rcases hmoderate : components.moderationEngine.moderate components.unicode store request
      generated with ⟨answered, store'⟩
    cases answered with
    | error error =>
      obtain rfl := ModerationEngine.store_eq_of_error hmoderate
      exact .rejected _ _ rfl
    | ok response => exact .text request generated response store' hmoderate

/-! ## What a handler writes -/

theorem exists_textAnswer {request : MultimodalModerationRequest} {generated : FusionGenerated}
    {imageScores : Dict SafetyCategory ℚ} {decoded : ValidatedImage}
    {textResult : Option ModerationResponse} {response : MultimodalModerationResponse}
    {store' : ThreatVectorStore V} (validId : ValidId generated.requestId)
    (h : (components.fusionEngine adapter imageScores).Moderated components.unicode
      components.b64decode store request generated decoded textResult response store')
    {text : String} (hgiven : request.text = some text) :
    ∃ answered, textResult = some answered ∧
      components.moderationEngine.moderate components.unicode store
        ⟨text, some (idOr request.requestId generated.requestId)⟩ generated.text
          = (.ok answered, store') ∧
      idOr (some (idOr request.requestId generated.requestId)) generated.text.indexId
        = idOr request.requestId generated.requestId := by
  have hvalid := request.validId_idOr validId
  have htext := h.text_eq
  rw [hgiven, MultimodalModerationEngine.moderateText_some (request.text_valid text hgiven) hvalid]
    at htext
  obtain ⟨answered, hresult, hanswered⟩ := htext
  refine ⟨answered, hresult, hanswered, if_neg fun hempty ↦ ?_⟩
  have hlength := hvalid.length_mem.1
  rw [hempty] at hlength
  exact absurd hlength (by decide)

/-- The statuses of the errors that the handlers raise. -/
def rejectionStatuses : List ℕ := [413, 415, 422, 503]

/-- What the handlers rely on: severities and scores in the unit interval, and adapters that score
the two categories of an image or raise one of the errors of the boundary. -/
structure InRange (components : ModerationComponents V) : Prop where
  severity_mem : ∀ text, ∀ rule ∈ components.moderationEngine.ruleEngine.evaluate text,
    0 ≤ rule.severity ∧ rule.severity ≤ 1
  modelScore_le : ∀ text, components.moderationEngine.modelScore text ≤ 1
  scores_mem : ∀ adapter, components.imageSafetyModel = some adapter →
    ∀ image imageScores, adapter.predictScores image = .ok imageScores →
      ∀ item ∈ imageScores.items, item.1 ∈ imageCategories ∧ 0 ≤ item.2 ∧ item.2 ≤ 1
  isValidation : ∀ adapter, components.imageSafetyModel = some adapter →
    ∀ image error, adapter.predictScores image = .error error → error.isValidation = true

def Answered (answer : SubmissionAnswer) : Prop :=
  (∃ counted, answer.response = some counted) ∨
    ∃ statusCode ∈ rejectionStatuses, ∃ detail, answer = .httpError statusCode detail

theorem InRange.exists_moderateText (h : components.InRange) (store : ThreatVectorStore V)
    (request : ModerationRequest) (generated : Generated) :
    ∃ response, (components.moderateText store request generated).1 = .text response := by
  obtain ⟨response, hmoderate⟩ := ModerationEngine.exists_moderate components.moderationEngine
    components.unicode store request generated (h.severity_mem _) (h.modelScore_le _)
  rw [moderateText, hmoderate]
  exact ⟨response, rfl⟩

end ModerationComponents

end Sentinel
