import Mathlib.Data.List.Infix
import Sentinel.Collections.Traversal
import Sentinel.Security.Admission
import Sentinel.Security.Responses

/-!
# Settings from the environment

`SecuritySettings.from_env` and what it promises for production. Every variable is read before
anything is checked, and the checks are those of `validate`; a service that starts has passed them.
So the promise is one about the service: in every run of a service with these settings the responses
of the middleware ask for HTTPS and no client is admitted beyond its budget, the documentation has
no address, and the review queue has not been opened with the credentials of the examples.

The last one connects two readings of one variable. `validate` strips it and knows four words for
true; `build_review_system` does not strip it and knows three. What the latter takes for true the
former does too, because stripping and lowering commute.
-/

namespace Sentinel

open Collections Http Text Transition

/-! ## Reading variables -/

/-- What Python does for the reading of the environment. -/
structure EnvironReader where
  /-- `str.lower`. -/
  lower : List Char → List Char
  /-- Blanks have no case. -/
  strip_lower : ∀ text, strip (lower text) = lower (strip text)
  /-- Small letters stay as they are. -/
  lower_of_small : ∀ text, (∀ c ∈ text, 'a' ≤ c ∧ c ≤ 'z') → lower text = text
  /-- The decimal digits beyond ASCII, for `int`. -/
  decimal : Char → Option ℕ

/-- `os.getenv`. -/
abbrev Environ := String → Option String

/-- `TRUE_VALUES`. -/
def trueValues : List String := ["1", "true", "yes", "on"]

/-- `FALSE_VALUES`. -/
def falseValues : List String := ["0", "false", "no", "off"]

/-- `_boolean`, or the text of the `ValueError`. -/
def readBoolean (reader : EnvironReader) (environ : Environ) (name : String) (default : Bool) :
    Except String Bool :=
  match environ name with
  | none => .ok default
  | some raw =>
    let normalized := String.ofList (reader.lower (strip raw.toList))
    if normalized ∈ trueValues then .ok true
    else if normalized ∈ falseValues then .ok false
    else .error (name ++ " must be a boolean value")

/-- `_positive_integer`, or the text of the `ValueError`. -/
def readPositiveInteger (reader : EnvironReader) (environ : Environ) (name : String)
    (default : {n : ℕ // 0 < n}) : Except String {n : ℕ // 0 < n} :=
  match environ name with
  | none => .ok default
  | some raw =>
    match readInt reader.decimal raw.toList with
    | none => .error (name ++ " must be an integer")
    | some value =>
      if h : 0 < value then .ok ⟨value.toNat, Int.lt_toNat.mpr h⟩
      else .error (name ++ " must be greater than zero")

/-- `Path(path).name`. -/
def pathName (path : String) : List Char :=
  ((path.toList.splitOn '/').filter fun part ↦ part ≠ [] ∧ part ≠ ['.']).getLast?.getD []

/-- `SENTINEL_REVIEW_AUTH_PATH`. -/
def reviewAuthPath (environ : Environ) : String :=
  (environ "SENTINEL_REVIEW_AUTH_PATH").getD "config/reviewer-auth.json"

/-! ## The settings -/

namespace ServiceSettings

/-- The conditions of `validate` on a service in production. -/
def validateProduction (settings : ServiceSettings) (reader : EnvironReader) (environ : Environ) :
    Except String Unit :=
  if settings.docsEnabled then .error "API documentation must be disabled in production"
  else if settings.hstsEnabled = false then .error "HSTS must be enabled in production"
  else if settings.rateLimitEnabled = false then
    .error "rate limiting must be enabled in production"
  else do
    let reviewEnabled ← readBoolean reader environ "SENTINEL_REVIEW_ENABLED" false
    if reviewEnabled = true ∧ ".example.".toList <:+: pathName (reviewAuthPath environ) then
      .error "development reviewer credentials cannot be used in production"
    else .ok ()

/-- `validate`. -/
def validate (settings : ServiceSettings) (reader : EnvironReader) (environ : Environ) :
    Except String Unit :=
  if settings.environment ∉ ["development", "test", "production"] then
    .error "SENTINEL_ENVIRONMENT must be development, test, or production"
  else if settings.environment ≠ "production" then .ok ()
  else settings.validateProduction reader environ

/-- `from_env`. -/
def fromEnv (reader : EnvironReader) (environ : Environ) : Except String ServiceSettings := do
  let environment := (environ "SENTINEL_ENVIRONMENT").getD "development"
  let docsEnabled ← readBoolean reader environ "SENTINEL_DOCS_ENABLED" true
  let hstsEnabled ← readBoolean reader environ "SENTINEL_HSTS_ENABLED" false
  let maxRequestBytes ← readPositiveInteger reader environ "SENTINEL_MAX_REQUEST_BYTES"
    ⟨8 * 1024 * 1024, by decide⟩
  let rateLimitEnabled ← readBoolean reader environ "SENTINEL_RATE_LIMIT_ENABLED" false
  let rateLimitRequests ← readPositiveInteger reader environ "SENTINEL_RATE_LIMIT_REQUESTS"
    ⟨120, by decide⟩
  let rateLimitWindowSeconds ← readPositiveInteger reader environ
    "SENTINEL_RATE_LIMIT_WINDOW_SECONDS" ⟨60, by decide⟩
  let rateLimitMaxClients ← readPositiveInteger reader environ "SENTINEL_RATE_LIMIT_MAX_CLIENTS"
    ⟨10000, by decide⟩
  let settings : ServiceSettings :=
    { environment := String.ofList (reader.lower (strip environment.toList))
      docsEnabled := docsEnabled
      hstsEnabled := hstsEnabled
      maxRequestBytes := maxRequestBytes
      rateLimitEnabled := rateLimitEnabled
      rateLimitRequests := rateLimitRequests
      rateLimitWindowSeconds := rateLimitWindowSeconds
      rateLimitMaxClients := rateLimitMaxClients
      requests_pos := rateLimitRequests.property
      window_pos := rateLimitWindowSeconds.property
      maxClients_pos := rateLimitMaxClients.property
      maxRequestBytes_pos := maxRequestBytes.property }
  settings.validate reader environ
  return settings

def docsUrls (settings : ServiceSettings) : List String :=
  if settings.docsEnabled then docsPaths else []

end ServiceSettings

/-- The files that `build_review_system` opens. -/
structure ReviewPaths where
  ledgerPath : String
  authPath : String
deriving DecidableEq

/-- `build_review_system`, up to the files, if review is enabled. -/
def reviewPaths (reader : EnvironReader) (environ : Environ) : Option ReviewPaths :=
  let enabled := (environ "SENTINEL_REVIEW_ENABLED").getD "false"
  if String.ofList (reader.lower enabled.toList) ∈ ["1", "true", "yes"] then
    some
      { ledgerPath := (environ "SENTINEL_REVIEW_LEDGER_PATH").getD
          "artifacts/review/review-ledger.jsonl"
        authPath := reviewAuthPath environ }
  else none

/-! ## What has been read -/

variable {reader : EnvironReader} {environ : Environ} {settings : ServiceSettings}

theorem lower_strip_of_lower {raw word : String} (hword : strip word.toList = word.toList)
    (h : String.ofList (reader.lower raw.toList) = word) :
    String.ofList (reader.lower (strip raw.toList)) = word := by
  have hlower : reader.lower raw.toList = word.toList := by
    rw [← h, String.toList_ofList]
  rw [← reader.strip_lower, hlower, hword, String.ofList_toList]

/-- **What the start of the service takes for true the check takes for true.** -/
theorem readBoolean_of_reviewPaths {paths : ReviewPaths}
    (h : reviewPaths reader environ = some paths) :
    readBoolean reader environ "SENTINEL_REVIEW_ENABLED" false = .ok true := by
  rw [reviewPaths] at h
  split_ifs at h with henabled
  rw [readBoolean]
  cases hraw : environ "SENTINEL_REVIEW_ENABLED" with
  | none =>
    have hfalse : reader.lower "false".toList = "false".toList :=
      reader.lower_of_small _ (by simp)
    rw [hraw, Option.getD_none, hfalse] at henabled
    exact absurd henabled (by decide)
  | some raw =>
    rw [hraw, Option.getD_some] at henabled
    have hword : String.ofList (reader.lower (strip raw.toList)) ∈ trueValues := by
      simp only [List.mem_cons, List.not_mem_nil, or_false] at henabled
      rcases henabled with hword | hword | hword
      all_goals
        rw [lower_strip_of_lower (by decide) hword]
        decide
    exact if_pos hword

/-- What a service in production has been checked for. -/
structure ServiceSettings.Hardened (settings : ServiceSettings) (reader : EnvironReader)
    (environ : Environ) : Prop where
  docsUrls_eq : settings.docsUrls = []
  hstsEnabled : settings.hstsEnabled = true
  rateLimitEnabled : settings.rateLimitEnabled = true
  authPath : ∀ paths, reviewPaths reader environ = some paths →
    ¬".example.".toList <:+: pathName paths.authPath

theorem ServiceSettings.hardened_of_validateProduction
    (h : settings.validateProduction reader environ = .ok ()) :
    settings.Hardened reader environ := by
  rw [validateProduction] at h
  split_ifs at h with hdocs hhsts hlimit
  refine ⟨if_neg hdocs, by simpa using hhsts, by simpa using hlimit, fun paths hpaths hexample ↦ ?_⟩
  have hauth : paths.authPath = reviewAuthPath environ := by
    rw [reviewPaths] at hpaths
    split_ifs at hpaths
    rw [← Option.some_inj.mp hpaths]
  obtain ⟨reviewEnabled, hread, hcheck⟩ := bind_eq_ok.mp h
  obtain rfl := Except.ok.inj ((readBoolean_of_reviewPaths hpaths).symm.trans hread)
  rw [if_pos ⟨rfl, hauth ▸ hexample⟩] at hcheck
  cases hcheck

theorem ServiceSettings.hardened_of_validate (hproduction : settings.environment = "production")
    (h : settings.validate reader environ = .ok ()) : settings.Hardened reader environ := by
  rw [validate, if_neg (by rw [hproduction]; decide), if_neg (not_not.mpr hproduction)] at h
  exact hardened_of_validateProduction h

theorem ServiceSettings.hardened_of_fromEnv (h : fromEnv reader environ = .ok settings)
    (hproduction : settings.environment = "production") : settings.Hardened reader environ := by
  simp only [fromEnv, bind_eq_ok] at h
  obtain ⟨docsEnabled, -, hstsEnabled, -, maxRequestBytes, -, rateLimitEnabled, -,
    rateLimitRequests, -, rateLimitWindowSeconds, -, rateLimitMaxClients, -, ⟨⟩, hvalidate, hpure⟩
    := h
  obtain rfl := Except.ok.inj hpure
  exact hardened_of_validate hproduction hvalidate

/-! ## A service in production -/

namespace Service

variable {H β : Type*} {service : Service H β}

/-- **A service that has started in production is hardened**, whatever the environment says: its
documentation has no address, its review queue does not open example credentials, and in every run,
in whatever order requests take their turns, every response that the middleware returns asks for
HTTPS and no client is admitted beyond its budget. -/
theorem production_hardened (reader : EnvironReader) (environ : Environ)
    (hsettings : ServiceSettings.fromEnv reader environ = .ok service.settings)
    (hproduction : service.settings.environment = "production")
    {actions : List (ServiceAction H β)} {state : ServiceState H β}
    (hrun : run service.step (.initial H β) actions = some state) :
    service.settings.docsUrls = [] ∧
      (∀ paths, reviewPaths reader environ = some paths →
        ¬".example.".toList <:+: pathName paths.authPath) ∧
      (∀ flight ∈ state.flights, ∀ wasCalled response,
        flight.phase = .closed wasCalled (some response) →
          service.framework.get response.headers "Strict-Transport-Security"
            = some "max-age=31536000; includeSubDomains") ∧
      ∀ (client : String) (s d : ℚ), 0 ≤ d →
        (grantedCount client s (s + d) state : ℚ)
          ≤ 2 * service.settings.rateLimitRequests
            + d * service.settings.rateLimitRequests / service.settings.rateLimitWindowSeconds := by
  have hhardened := ServiceSettings.hardened_of_fromEnv hsettings hproduction
  refine ⟨hhardened.docsUrls_eq, hhardened.authPath,
    fun flight hflight wasCalled response hphase ↦ ?_,
    fun client s d hd ↦ granted_le_budget hrun hhardened.rateLimitEnabled client s hd⟩
  obtain ⟨-, hpromised⟩ := promised_of_run hrun flight hflight
  rw [hphase] at hpromised
  refine hpromised.1.fields _ _ ?_
  rw [ServiceSettings.securityHeaders, if_pos hhardened.hstsEnabled]
  exact List.mem_append_left _ (List.mem_append_right _ (List.mem_singleton_self _))

/-- Python on words that are small already. -/
def smallReader : EnvironReader where
  lower := id
  strip_lower _ := rfl
  lower_of_small _ _ := rfl
  decimal _ := none

/-- An environment of a service in production. -/
def productionEnviron : Environ := fun name ↦
  [("SENTINEL_ENVIRONMENT", " production"), ("SENTINEL_DOCS_ENABLED", "off"),
    ("SENTINEL_HSTS_ENABLED", "yes"), ("SENTINEL_RATE_LIMIT_ENABLED", "true"),
    ("SENTINEL_RATE_LIMIT_REQUESTS", "1"), ("SENTINEL_RATE_LIMIT_WINDOW_SECONDS", "1"),
    ("SENTINEL_RATE_LIMIT_MAX_CLIENTS", "2"), ("SENTINEL_MAX_REQUEST_BYTES", " 4 "),
    ("SENTINEL_REVIEW_ENABLED", "true")].lookup name

/-- The service in this environment. -/
def productionSample : Service (List (String × String)) String :=
  { sample with
    settings :=
      { sample.settings with
        environment := "production"
        docsEnabled := false
        hstsEnabled := true } }

theorem fromEnv_productionEnviron :
    ServiceSettings.fromEnv smallReader productionEnviron = .ok productionSample.settings := by
  have hdocs : readBoolean smallReader productionEnviron "SENTINEL_DOCS_ENABLED" true
      = .ok false := by decide
  have hhsts : readBoolean smallReader productionEnviron "SENTINEL_HSTS_ENABLED" false
      = .ok true := by decide
  have hbytes : readPositiveInteger smallReader productionEnviron "SENTINEL_MAX_REQUEST_BYTES"
      ⟨8 * 1024 * 1024, by decide⟩ = .ok ⟨4, by decide⟩ := by decide
  have hlimit : readBoolean smallReader productionEnviron "SENTINEL_RATE_LIMIT_ENABLED" false
      = .ok true := by decide
  have hrequests : readPositiveInteger smallReader productionEnviron
      "SENTINEL_RATE_LIMIT_REQUESTS" ⟨120, by decide⟩ = .ok ⟨1, by decide⟩ := by decide
  have hwindow : readPositiveInteger smallReader productionEnviron
      "SENTINEL_RATE_LIMIT_WINDOW_SECONDS" ⟨60, by decide⟩ = .ok ⟨1, by decide⟩ := by decide
  have hclients : readPositiveInteger smallReader productionEnviron
      "SENTINEL_RATE_LIMIT_MAX_CLIENTS" ⟨10000, by decide⟩ = .ok ⟨2, by decide⟩ := by decide
  have hvalidate : productionSample.settings.validate smallReader productionEnviron = .ok () := by
    decide +kernel
  simp only [ServiceSettings.fromEnv, bind_eq_ok]
  exact ⟨false, hdocs, true, hhsts, ⟨4, by decide⟩, hbytes, true, hlimit, ⟨1, by decide⟩, hrequests,
    ⟨1, by decide⟩, hwindow, ⟨2, by decide⟩, hclients, (), hvalidate, rfl⟩

theorem productionSample_possible :
    (run productionSample.step (.initial _ _) sampleActions).isSome = true := by decide +kernel

theorem production_hardened_sample : ∃ state,
    run productionSample.step (.initial _ _) sampleActions = some state ∧
    ∀ flight ∈ state.flights, ∀ wasCalled response,
      flight.phase = .closed wasCalled (some response) →
        productionSample.framework.get response.headers "Strict-Transport-Security"
          = some "max-age=31536000; includeSubDomains" := by
  obtain ⟨state, h⟩ := Option.isSome_iff_exists.mp productionSample_possible
  exact ⟨state, h, (production_hardened smallReader productionEnviron fromEnv_productionEnviron
    rfl h).2.2.1⟩

end Service

end Sentinel
