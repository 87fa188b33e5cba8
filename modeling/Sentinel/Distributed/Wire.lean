import Sentinel.Distributed.Service
import Sentinel.Multimodal.Schemas

/-!
# Events as bytes

A job event crosses the broker as the UTF-8 encoding of a JSON text, and the worker validates what
it receives against the schema. Reading and writing JSON is pydantic's part and stays a parameter
with its laws; the checks of the schema are the platform's and are written out.

A checked text is trimmed and within its bounds already, so the second check changes nothing. This
is what makes the round trip exact: an event whose request has been checked is received as it was
sent.
-/

namespace Sentinel

open Text

/-! ## The schema -/

@[simp] theorem trim_trim (text : String) : trim (trim text) = trim text := by
  rw [trim, trim, String.toList_ofList, dropWhile_rdropWhile, List.rdropWhile_idempotent]
  intro c hc
  have hnot := List.head?_dropWhile_not
    (fun c ↦ isSpace c && !(0x1c ≤ c.toNat && c.toNat ≤ 0x1f)) text.toList
  rw [hc] at hnot
  exact hnot

theorem ValidText.length_pos {text : String} (h : ValidText text) : 1 ≤ text.length := by
  have hblank := h.isBlank_eq
  by_contra hlt
  have hnil : text.toList = [] := by
    rw [← List.length_eq_zero_iff, String.length_toList]
    omega
  rw [hnil] at hblank
  cases hblank

/-- `text: str = Field(min_length=1, max_length=5_000)`, with `reject_blank_text`. -/
def readText : Json → Option String
  | .string given =>
    let text := trim given
    if 1 ≤ text.length ∧ text.length ≤ 5000 ∧ isBlank text.toList = false then some text else none
  | _ => none

/-- `request_id: str | None = Field(default=None, min_length=1, max_length=128)`. -/
def readRequestId : Option Json → Option (Option String)
  | none | some (.constant .null) => some none
  | some (.string given) =>
    let requestId := trim given
    if 1 ≤ requestId.length ∧ requestId.length ≤ 128 then some (some requestId) else none
  | _ => none

namespace ModerationRequest

/-- The validation of a `ModerationRequest`, which forbids further members. -/
def validate : Json → Option ModerationRequest
  | .object members =>
    if members.all fun member ↦ member.1 == "text" || member.1 == "request_id" then
      (((Json.object members).member "text").bind readText).bind fun text ↦
        (readRequestId ((Json.object members).member "request_id")).map fun requestId ↦
          ⟨text, requestId⟩
    else none
  | _ => none

/-- What the schema has checked of a request. -/
structure Valid (request : ModerationRequest) : Prop where
  text : ValidText request.text
  requestId : ∀ requestId ∈ request.requestId, ValidId requestId

end ModerationRequest

theorem readText_eq_some {document : Json} {text : String} (h : readText document = some text) :
    ValidText text := by
  cases document with
  | string given =>
    rw [readText] at h
    split_ifs at h with hchecks
    obtain rfl := Option.some_inj.mp h
    exact ⟨trim_trim given, hchecks.2.1, hchecks.2.2⟩
  | constant | number | array | object => cases h

theorem readText_of_valid {text : String} (h : ValidText text) :
    readText (.string text) = some text := by
  rw [readText]
  simp only [h.trim_eq]
  exact if_pos ⟨h.length_pos, h.length_le, h.isBlank_eq⟩

theorem readRequestId_eq_some {document : Option Json} {requestId : Option String}
    (h : readRequestId document = some requestId) : ∀ given ∈ requestId, ValidId given := by
  rw [readRequestId.eq_def] at h
  split at h
  · obtain rfl := Option.some_inj.mp h
    simp
  · obtain rfl := Option.some_inj.mp h
    simp
  · rename_i given
    simp only at h
    split_ifs at h with hlength
    obtain rfl := Option.some_inj.mp h
    rintro _ ⟨⟩
    exact ⟨trim_trim given, hlength⟩
  · cases h

namespace ModerationRequest

/-- **What passes the validation is valid.** -/
theorem valid_of_validate {document : Json} {request : ModerationRequest}
    (h : validate document = some request) : request.Valid := by
  cases document with
  | object members =>
    rw [validate] at h
    split_ifs at h
    obtain ⟨text, htext, hrequest⟩ := Option.bind_eq_some_iff.mp h
    obtain ⟨given, hgiven, htext⟩ := Option.bind_eq_some_iff.mp htext
    obtain ⟨requestId, hid, rfl⟩ := Option.map_eq_some_iff.mp hrequest
    exact ⟨readText_eq_some htext, readRequestId_eq_some hid⟩
  | constant | number | string | array => cases h

/-- **A valid request passes its validation as it is.** -/
theorem validate_json {request : ModerationRequest} (h : request.Valid) :
    validate request.json = some request := by
  obtain ⟨text, requestId⟩ := request
  have htext : readText (.string text) = some text := readText_of_valid h.text
  cases requestId with
  | none =>
    simp [validate, json, Json.member, List.lookup_cons, htext, readRequestId]
  | some requestId =>
    have hid : ValidId requestId := h.requestId requestId rfl
    simp [validate, json, Json.member, List.lookup_cons, htext, readRequestId,
      hid.trim_eq, hid.length_mem]

end ModerationRequest

/-! ## Job events -/

namespace ModerationJobEvent

def json (event : ModerationJobEvent) : Json :=
  .object [("job_id", .string event.jobId), ("request", event.request.json),
    ("attempt", .number (.nat event.attempt))]

/-- `job_id: str`. -/
def readJobId : Json → Option String
  | .string jobId => some jobId
  | _ => none

/-- `attempt: int = Field(default=0, ge=0)`, with pydantic's reading of integers. -/
def readAttempt (readInt : Json → Option ℤ) : Option Json → Option ℕ
  | none => some 0
  | some given => (readInt given).bind fun attempt ↦ if 0 ≤ attempt then attempt.toNat else none

/-- The validation of a `ModerationJobEvent`, which ignores further members. -/
def validate (readInt : Json → Option ℤ) (document : Json) : Option ModerationJobEvent :=
  ((document.member "job_id").bind readJobId).bind fun jobId ↦
    ((document.member "request").bind ModerationRequest.validate).bind fun request ↦
      (readAttempt readInt (document.member "attempt")).map fun attempt ↦
        { jobId := jobId, request := request, attempt := attempt }

theorem valid_of_validate {readInt : Json → Option ℤ} {document : Json}
    {event : ModerationJobEvent} (h : validate readInt document = some event) :
    event.request.Valid := by
  obtain ⟨jobId, hjobId, h⟩ := Option.bind_eq_some_iff.mp h
  obtain ⟨request, hrequest, h⟩ := Option.bind_eq_some_iff.mp h
  obtain ⟨attempt, hattempt, rfl⟩ := Option.map_eq_some_iff.mp h
  obtain ⟨given, hgiven, hrequest⟩ := Option.bind_eq_some_iff.mp hrequest
  exact ModerationRequest.valid_of_validate hrequest

theorem validate_json {readInt : Json → Option ℤ} {event : ModerationJobEvent}
    (hreadInt : readInt (.number (.nat event.attempt)) = some (event.attempt : ℤ))
    (h : event.request.Valid) : validate readInt event.json = some event := by
  have hrequest := ModerationRequest.validate_json h
  simp [validate, json, Json.member, List.lookup_cons, readJobId, readAttempt,
    hrequest, hreadInt]

end ModerationJobEvent

/-! ## The wire format -/

/-- What the platform leaves to others when it turns payloads into bytes and bytes into events. -/
structure WireFormat (β : Type) where
  /-- `text.encode("utf-8")`. -/
  encode : List Char → β
  /-- `event.model_dump_json()`. -/
  eventJson : ModerationJobEvent → List Char
  /-- `result.model_dump_json()`. -/
  responseJson : ModerationResponse → List Char
  /-- The document that `model_validate_json` reads from a payload, if it is the text of one. -/
  parse : β → Option Json
  /-- What `model_validate_json` takes for an integer. -/
  readInt : Json → Option ℤ
  /-- A written event is the text of its document. -/
  parse_eventJson : ∀ event, parse (encode (eventJson event)) = some event.json
  readInt_nat : ∀ n : ℕ, readInt (.number (.nat n)) = some (n : ℤ)

/-- The payload that `_publish_dlq` writes. -/
def DeadLetter.json (letter : DeadLetter) : Json :=
  .object [("job_id", .string letter.jobId),
    ("request_id", match letter.requestId with
      | some requestId => .string requestId
      | none => .constant .null),
    ("attempt", .number (.nat letter.attempt)), ("error_code", .string letter.errorCode)]

namespace WireFormat

variable {β : Type} (format : WireFormat β)

def bytes : Payload → β
  | .event event => format.encode (format.eventJson event)
  | .result response => format.encode (format.responseJson response)
  | .deadLetter letter => format.encode letter.json.dumps

/-- `ModerationJobEvent.model_validate_json(value)`; without an event it raises. -/
def readEvent (value : β) : Option ModerationJobEvent :=
  (format.parse value).bind (ModerationJobEvent.validate format.readInt)

/-- **The round trip of an event.** -/
theorem readEvent_bytes {event : ModerationJobEvent} (h : event.request.Valid) :
    format.readEvent (format.bytes (.event event)) = some event := by
  rw [readEvent, bytes, format.parse_eventJson, Option.bind_some]
  exact ModerationJobEvent.validate_json (format.readInt_nat event.attempt) h

end WireFormat

/-! ## A format

Python's writer and reader stand in for pydantic's. On ASCII texts they write and read the same. -/

/-- Integers as they are written without a sign, a fraction or an exponent. -/
def readPlainInt : Json → Option ℤ
  | .number literal =>
    if literal.chars.all Char.isDigit then
      some (Nat.ofDigitChars 10 literal.chars 0 : ℕ)
    else none
  | _ => none

/-- A format whose bytes are the characters of the text. A response is written as one without
signals. -/
def WireFormat.sample : WireFormat (List Char) where
  encode := id
  eventJson event := event.json.dumps
  responseJson response :=
    (Json.object [("request_id", .string response.requestId), ("decision", .string "allow"),
      ("risk_score", .number ⟨['0', '.', '0'], List.all_eq_true.mp rfl, rfl⟩),
      ("signals", .array []),
      ("policy_version", .string response.policyVersion),
      ("evaluated_at", .string response.evaluatedAt.modelDump)]).dumps
  parse := Json.loads
  readInt := readPlainInt
  parse_eventJson event := Json.loads_dumps event.json
  readInt_nat n := by
    have hdigits : (Nat.toDigits 10 n).all Char.isDigit = true := List.all_eq_true.mpr fun c hc ↦
      Nat.isDigit_of_mem_toDigits (by decide) (by decide) hc
    rw [readPlainInt, NumberLiteral.nat]
    simp only [hdigits, if_true, Nat.ofDigitChars_ten_toDigits]

end Sentinel
