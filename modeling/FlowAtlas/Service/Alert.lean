import FlowAtlas.Fields.Record
import FlowAtlas.Service.Failure

namespace FlowAtlas

open Fields

inductive AlertKind where
  | insufficientCredit
  | quotaExceeded
  | rateLimit
  | authentication
  | generic
  deriving DecidableEq, Repr

namespace AlertKind

def label : AlertKind → String
  | insufficientCredit => "insufficient-credit"
  | quotaExceeded => "quota-exceeded"
  | rateLimit => "rate-limit"
  | authentication => "authentication"
  | generic => "generic"

def title : AlertKind → String
  | insufficientCredit => "Insufficient API credits"
  | quotaExceeded => "Usage quota exceeded"
  | rateLimit => "Rate limit exceeded"
  | authentication => "Authentication failed"
  | generic => "Diagram generation failed"

def advice : AlertKind → String
  | insufficientCredit =>
    "The service account does not have enough credit. Add credits or configure another key; " ++
      "the locally generated diagram is shown instead."
  | quotaExceeded =>
    "The usage quota for this period is exhausted. The locally generated diagram is shown until it resets."
  | rateLimit =>
    "The service rate limit was hit. This is temporary; the locally generated diagram is shown for now."
  | authentication =>
    "The API key is missing, invalid or expired. Reconfigure the key; " ++
      "the locally generated diagram is shown instead."
  | generic =>
    "The generative service could not produce a diagram. The locally generated diagram is shown instead."

def ofFailure (failure : Failure) : AlertKind :=
  if failure.hasStatus 402 ||
      failure.speaksOf ["credit balance", "insufficient credit", "insufficient balance", "billing"] then
    insufficientCredit
  else if failure.speaksOf ["quota", "usage limit"] then quotaExceeded
  else if failure.hasStatus 429 || failure.speaksOf ["rate limit", "rate_limit", "too many requests"] then
    rateLimit
  else if failure.hasStatus 401 || failure.hasStatus 403 ||
      failure.speaksOf ["authentication", "unauthorized", "invalid x-api-key", "api key", "permission"] then
    authentication
  else generic

end AlertKind

structure Alert where
  kind : AlertKind
  detail : String
  status : Option Int
  deriving DecidableEq, Repr

namespace Alert

/-- The alert of a failure, if its status is absent or reads as an integer. -/
def ofFailure (failure : Failure) : Checked Alert :=
  Alert.mk (AlertKind.ofFailure failure) failure.text <$>
    (readOptional readInteger failure.status).under (.field "status_code")

def toJson (alert : Alert) : Json :=
  .object [("kind", .text alert.kind.label), ("title", .text alert.kind.title),
    ("message", .text alert.kind.advice), ("detail", .text alert.detail),
    ("status_code", .ofOption .int alert.status)]

end Alert

end FlowAtlas
