import AiHiring.Jd.Pipeline
import AiHiring.Pii.Covered

namespace AiHiring

open Library Regex
open Pii (CharTable asciiTable literalI oneI)

inductive LLMErrorReason where
  | invalidKey
  | noAccess
  | modelNotFound
  | rateLimited
  | dailyLimit
  | creditsExhausted
  | quotaExhausted
  | unavailable
  | badOutput
  | refused
  | badRequest
  | unknown
  deriving DecidableEq, Repr

def LLMErrorReason.permanent : List LLMErrorReason :=
  [.invalidKey, .noAccess, .modelNotFound, .dailyLimit, .creditsExhausted, .quotaExhausted,
    .badOutput, .refused, .badRequest]

namespace LLMProvider

def invalidKeyMarkers : List String :=
  ["API_KEY_INVALID", "API key not valid", "invalid x-api-key", "invalid_api_key",
    "Incorrect API key", "Invalid API Key", "authentication_error", "API key expired"]

def modelNotFoundMarkers : List String :=
  ["model_not_found", "is not found for API version", "does not exist", "not_found_error",
    "is not supported for generateContent", "decommissioned"]

def creditsMarkers : List String :=
  ["insufficient_quota", "billing_hard_limit", "credit balance", "insufficient credits",
    "payment required"]

def quotaMarkers : List String :=
  ["RESOURCE_EXHAUSTED", "exceeded your current quota", "quota exceeded"]

-- A pattern with one group: what stands before it, in it and after it.
structure GroupPattern where
  before : Regex
  group : Regex
  after : Regex

namespace GroupPattern

variable (p : GroupPattern)

def matchAt (here : Place) : Option (List Char) :=
  ((ends p.before here).flatMap fun first =>
    ((ends p.group first).filter fun last => !(ends p.after last).isEmpty).map fun last =>
      first.after.take (last.index - first.index)).head?

-- `pattern.search(message).group(1)`
def searchFrom (before : List Char) : List Char → Option (List Char)
  | [] => p.matchAt ⟨before, []⟩
  | c :: after => (p.matchAt ⟨before, c :: after⟩).orElse fun _ => searchFrom (c :: before) after

end GroupPattern

structure LLMError where
  isPermanent : Bool
  statusCode : Option ℤ
  message : List Char
  reason : LLMErrorReason
  retryAfterSeconds : Option (List Char)
  quotaLimit : Option (List Char)

-- `other` is also what else the SDK of Gemini raises.
inductive Raised where
  | llm (error : LLMError)
  | genaiServer
  | genaiClient (code : Option ℤ) (message : List Char)
  | connection
  | awsClient (errorCode : String)
  | invalidValue
  | other

variable (T : CharTable) (status : Option ℤ) (message : List Char)

def spaces (least : ℕ) : Regex := many (char isSpace) least none

def retryAfterPatterns : List GroupPattern :=
  let seconds := plus (char fun c => T.isDecimal c || c = '.')
  [⟨seqs [literalI "retry in", spaces 1], seconds, seqs [spaces 0, oneI 's']⟩,
    ⟨seqs [literalI "try again in", spaces 1], seconds, seqs [spaces 0, oneI 's']⟩,
    ⟨seqs [literalI "retrydelay", plus (char fun c => !T.isWord c)], seconds, oneI 's'⟩]

def quotaLimitPattern : GroupPattern :=
  ⟨seqs [boundary T.isWord, literalI "limit:", spaces 0], plus (char T.isDecimal), empty⟩

def containsAny (markers : List String) : Bool :=
  markers.any fun marker => T.lower marker.toList <:+: T.lower message

def containsId (ids : List String) : Bool := ids.any fun id => id.toList <:+: message

-- The numeral that `float` reads; the first pattern that matches decides.
def retryAfterSeconds : Option (List Char) := do
  let hint ← (retryAfterPatterns T).findSome? fun p => p.searchFrom [] message
  let numeral := hint.rdropWhile (· = '.')
  if numeral ≠ [] ∧ numeral.count '.' ≤ 1 then some numeral else none

def quotaDigits : Option (List Char) := (quotaLimitPattern T).searchFrom [] message

-- The longest numeral that `int` reads.
def maxStrDigits : ℕ := 4300

def quotaLimit : Except String (Option (List Char)) :=
  match quotaDigits T message with
  | some digits =>
    if digits.length ≤ maxStrDigits then .ok (some digits)
    else .error "Exceeds the limit (4300 digits) for integer string conversion"
  | none => .ok none

def namesDay : Bool :=
  containsId message ["PerDay", "(RPD)"] || containsAny T message ["per day"]

def namesMinute : Bool :=
  containsId message ["PerMinute", "(RPM)", "(TPM)"] ||
    containsAny T message ["per minute", "per min"]

def quotaReason : Option LLMErrorReason :=
  if namesDay T message then some .dailyLimit
  else if namesMinute T message || (retryAfterSeconds T message).isSome then some .rateLimited
  else if containsAny T message creditsMarkers then some .creditsExhausted
  else if containsAny T message quotaMarkers then some .quotaExhausted
  else none

def reasonFor : LLMErrorReason :=
  if containsAny T message invalidKeyMarkers ∨ status = some 401 then .invalidKey
  else
    match (quotaReason T message).filter fun _ => status.all (· < 500) with
    | some quota => quota
    | none =>
      if containsAny T message modelNotFoundMarkers ∨ status = some 404 then .modelNotFound
      else if status = some 403 then .noAccess
      else if status = some 429 then .rateLimited
      else if status.all (500 ≤ ·) then .unavailable
      else if status.any (400 ≤ ·) then .badRequest
      else .unknown

-- `LLMError.__init__`
def newError (isPermanent : Bool) (reason : Option LLMErrorReason) : Except String LLMError := do
  let limit ← quotaLimit T message
  return {
    isPermanent
    statusCode := status
    message
    reason := reason.getD (reasonFor T status message)
    retryAfterSeconds := retryAfterSeconds T message
    quotaLimit := limit }

def statusError : Except String LLMError :=
  let reason := reasonFor T status message
  newError T status message (reason ∈ LLMErrorReason.permanent) (some reason)

def classify : Raised → FailureClassification
  | .llm error => if error.isPermanent then .permanent else .transient
  | .genaiServer => .transient
  | .genaiClient code message =>
    if code = some 429 ∧ ¬containsAny T message
        ["RESOURCE_EXHAUSTED", "exceeded your current quota", "billing"] then .transient
    else .permanent
  | .connection => .transient
  | .awsClient errorCode =>
    if errorCode ∈ ["Throttling", "ThrottlingException", "ServiceUnavailable", "RequestTimeout"]
    then .transient
    else .permanent
  | .invalidValue => .permanent
  | .other => .unknown

-- The error that a reply is turned into is retried when the failure can clear.
structure RetriedRightly (error : LLMError) : Prop where
  attached : error.isPermanent = true ↔ error.reason ∈ LLMErrorReason.permanent
  classified : classify T (.llm error) = if error.isPermanent then .permanent else .transient
  outage : ∀ s ∈ status, 500 ≤ s → classify T (.llm error) = .transient
  daily : ∀ s ∈ status, 400 ≤ s → s < 500 → namesDay T message →
    classify T (.llm error) = .permanent
  brief : ∀ s ∈ status, 400 ≤ s → s < 500 → s ≠ 401 →
    namesMinute T message ∨ (retryAfterSeconds T message).isSome → ¬namesDay T message →
    ¬containsAny T message invalidKeyMarkers → classify T (.llm error) = .transient
  unauthorised : status = some 401 → classify T (.llm error) = .permanent

def Settled : Prop :=
  ∃ error, statusError T status message = .ok error ∧ RetriedRightly T status message error

-- `int` can read the limit that the message names.
def Readable : Prop := ∀ digits ∈ quotaDigits T message, digits.length ≤ maxStrDigits

variable {T status message} {error : LLMError}

theorem statusError_ok :
    (∃ error, statusError T status message = .ok error) ↔ Readable T message := by
  unfold statusError newError quotaLimit Readable
  cases quotaDigits T message with
  | none => simp [bind, Except.bind, pure, Except.pure]
  | some digits =>
    by_cases hshort : digits.length ≤ maxStrDigits <;>
      simp [hshort, bind, Except.bind, pure, Except.pure]

theorem statusError_spec (h : statusError T status message = .ok error) :
    error.reason = reasonFor T status message ∧
      error.isPermanent = decide (reasonFor T status message ∈ LLMErrorReason.permanent) := by
  unfold statusError newError at h
  cases hlimit : quotaLimit T message with
  | error e => simp [hlimit, bind, Except.bind] at h
  | ok limit =>
    rw [hlimit] at h
    cases h
    exact ⟨rfl, rfl⟩

theorem classify_permanent (h : statusError T status message = .ok error) :
    classify T (.llm error) = .permanent ↔
      reasonFor T status message ∈ LLMErrorReason.permanent := by
  rw [classify, (statusError_spec h).2]
  split_ifs with hp <;> simpa using hp

theorem classify_transient (h : statusError T status message = .ok error) :
    classify T (.llm error) = .transient ↔
      reasonFor T status message ∉ LLMErrorReason.permanent := by
  rw [← classify_permanent h, classify]
  split_ifs <;> simp

theorem reasonFor_outage {s : ℤ} (hs : 500 ≤ s) :
    reasonFor T (some s) message ∉ LLMErrorReason.permanent ↔
      ¬containsAny T message invalidKeyMarkers ∧ ¬containsAny T message modelNotFoundMarkers := by
  have hquota : (quotaReason T message).filter (fun _ => decide (s < 500)) = none := by
    cases quotaReason T message <;> simp [hs]
  have hother (code : ℤ) (hcode : code < 500) : ¬s = code := by omega
  simp only [reasonFor, Option.all_some, hquota, Option.some.injEq, hother 401 (by decide),
    hother 403 (by decide), hother 404 (by decide), hother 429 (by decide), or_false, if_false, hs,
    decide_true, if_true]
  split_ifs with hkey hmodel
  · simp [hkey, LLMErrorReason.permanent]
  · simp [hmodel, LLMErrorReason.permanent]
  · simp [hkey, hmodel, LLMErrorReason.permanent]

theorem reasonFor_daily {s : ℤ} (hs : s < 500) (hday : namesDay T message) :
    reasonFor T (some s) message ∈ LLMErrorReason.permanent := by
  simp only [reasonFor, quotaReason, hday, if_true, Option.filter_some, Option.all_some, hs,
    decide_true]
  split_ifs <;> decide

theorem reasonFor_brief {s : ℤ} (hs : s < 500) (hunauthorised : s ≠ 401)
    (hbrief : namesMinute T message ∨ (retryAfterSeconds T message).isSome)
    (hday : ¬namesDay T message) (hkey : ¬containsAny T message invalidKeyMarkers) :
    reasonFor T (some s) message = .rateLimited := by
  have hquota : quotaReason T message = some .rateLimited := by
    rw [quotaReason, if_neg hday, if_pos (by simpa using hbrief)]
  have hvalid : ¬(containsAny T message invalidKeyMarkers ∨ some s = some 401) := by
    simp [hkey, hunauthorised]
  rw [reasonFor, if_neg hvalid, hquota]
  simp only [Option.all_some, hs, decide_true, Option.filter_some, if_true]

theorem settled_iff : Settled T status message ↔
    (∀ s ∈ status, 500 ≤ s → ¬containsAny T message invalidKeyMarkers ∧
      ¬containsAny T message modelNotFoundMarkers) ∧ Readable T message := by
  constructor
  · rintro ⟨error, herror, hright⟩
    refine ⟨?_, statusError_ok.mp ⟨error, herror⟩⟩
    rintro s rfl hs
    exact (reasonFor_outage hs).mp ((classify_transient herror).mp (hright.outage s rfl hs))
  · rintro ⟨houtage, hreadable⟩
    obtain ⟨error, herror⟩ := statusError_ok.mpr hreadable
    obtain ⟨hreason, hpermanent⟩ := statusError_spec herror
    refine ⟨error, herror, ?_, rfl, ?_, ?_, ?_, ?_⟩
    · rw [hreason, hpermanent, decide_eq_true_iff]
    · rintro s rfl hs
      exact (classify_transient herror).mpr ((reasonFor_outage hs).mpr (houtage s rfl hs))
    · rintro s rfl - hs hday
      exact (classify_permanent herror).mpr (reasonFor_daily hs hday)
    · rintro s rfl - hs hunauthorised hbrief hday hkey
      rw [classify_transient herror, reasonFor_brief hs hunauthorised hbrief hday hkey]
      decide
    · rintro rfl
      rw [classify_permanent herror, reasonFor, if_pos (.inr rfl)]
      decide

-- A gateway that is down says so in the words of a model that is missing.
theorem outage_given_up : ¬∀ status message, Settled asciiTable status message := by
  intro h
  obtain ⟨error, herror, hright⟩ := h (some 503) "upstream does not exist".toList
  have hkept := (reasonFor_outage (by decide)).mp
    ((classify_transient herror).mp (hright.outage 503 rfl (by decide)))
  exact hkept.2 (by decide +kernel)

end LLMProvider

end AiHiring
